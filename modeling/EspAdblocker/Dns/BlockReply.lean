import EspAdblocker.Dns.Grammar
import EspAdblocker.Dns.Steps

/-!
# The reply to a blocked query

Both replies of `try_block` are written over the query in place. Byte by byte
they are the query's header with its flags and counts replaced, the question
untouched, and for a zero address an answer behind it
(`dnsWireMakeErrorResponse_cons`, `dnsWireMakeZeroAnswer_cons`), so parsing the
reply gives the question of the query again.
-/

namespace EspAdblocker.Dns

open EspAdblocker.Lib EspAdblocker.Storage

/-! ## The header's flags -/

/-- `QR`. -/
def qrFlag (msg : List Byte) : Bool := (msg.getD 2 0#8).getLsbD 7

/-- `OPCODE`, in place. -/
def opcode (msg : List Byte) : Byte := msg.getD 2 0#8 &&& 0x78#8

/-- `AA`. -/
def aaFlag (msg : List Byte) : Bool := (msg.getD 2 0#8).getLsbD 2

/-- `TC`. -/
def tcFlag (msg : List Byte) : Bool := (msg.getD 2 0#8).getLsbD 1

/-- `RD`. -/
def rdFlag (msg : List Byte) : Bool := (msg.getD 2 0#8).getLsbD 0

/-- `RA`. -/
def raFlag (msg : List Byte) : Bool := (msg.getD 3 0#8).getLsbD 7

/-- `RCODE`. -/
def rcode (msg : List Byte) : Byte := msg.getD 3 0#8 &&& 0x0F#8

theorem responseFlags_bits (b : Byte) :
    (responseFlags b).getLsbD 7 = true ∧ (responseFlags b).getLsbD 2 = false ∧ (responseFlags b).getLsbD 1 = false ∧
      (responseFlags b).getLsbD 0 = b.getLsbD 0 := by
  simp [responseFlags]

/-- The bits of `OPCODE` are none of those that are set or cleared. -/
theorem responseFlags_opcode (b : Byte) : responseFlags b &&& 0x78#8 = b &&& 0x78#8 := by
  rw [responseFlags, BitVec.and_assoc, show ~~~0x06#8 &&& 0x78#8 = 0x78#8 from rfl, BitVec.and_or_distrib_right,
    show 0x80#8 &&& 0x78#8 = 0#8 from rfl, BitVec.or_zero]

/-! ## The messages byte by byte -/

/-- A message with a header is twelve bytes and a body. -/
theorem exists_header {msg : List Byte} (header : dnsWireHeaderLen ≤ msg.length) :
    ∃ b0 b1 b2 b3 b4 b5 b6 b7 b8 b9 b10 b11 body,
      msg = b0 :: b1 :: b2 :: b3 :: b4 :: b5 :: b6 :: b7 :: b8 :: b9 :: b10 :: b11 :: body := by
  unfold dnsWireHeaderLen at header
  obtain ⟨b0, s0, rfl, h0⟩ := exists_cons header
  obtain ⟨b1, s1, rfl, h1⟩ := exists_cons h0
  obtain ⟨b2, s2, rfl, h2⟩ := exists_cons h1
  obtain ⟨b3, s3, rfl, h3⟩ := exists_cons h2
  obtain ⟨b4, s4, rfl, h4⟩ := exists_cons h3
  obtain ⟨b5, s5, rfl, h5⟩ := exists_cons h4
  obtain ⟨b6, s6, rfl, h6⟩ := exists_cons h5
  obtain ⟨b7, s7, rfl, h7⟩ := exists_cons h6
  obtain ⟨b8, s8, rfl, h8⟩ := exists_cons h7
  obtain ⟨b9, s9, rfl, h9⟩ := exists_cons h8
  obtain ⟨b10, s10, rfl, h10⟩ := exists_cons h9
  obtain ⟨b11, body, rfl, -⟩ := exists_cons h10
  exact ⟨b0, b1, b2, b3, b4, b5, b6, b7, b8, b9, b10, b11, body, rfl⟩

section Messages

variable {b0 b1 b2 b3 b4 b5 b6 b7 b8 b9 b10 b11 : Byte} {body : List Byte}

/-- An error response, byte by byte. -/
theorem dnsWireMakeErrorResponse_cons {len : Nat} (header : dnsWireHeaderLen ≤ len) (rcode : Byte) :
    dnsWireMakeErrorResponse (b0 :: b1 :: b2 :: b3 :: body) len rcode =
      b0 :: b1 :: responseFlags b2 :: (0x80#8 ||| (rcode &&& 0x0F#8)) :: body := by
  rw [dnsWireMakeErrorResponse, if_neg (Nat.not_lt_of_le header)]
  rfl

end Messages

/-- `rdlength` of an answer. -/
def rdLength (qtype : BitVec 16) : Nat := if qtype = dnsTypeA then 4 else 16

theorem length_zeroAnswer (qtype : BitVec 16) (rdlength : Nat) : (zeroAnswer qtype rdlength).length = 12 + rdlength := by
  simp only [zeroAnswer, List.length_append, List.length_cons, List.length_nil, List.length_replicate]

/-- Bytes written behind what stays. -/
theorem writeAt_append (front rest bytes : List Byte) :
    writeAt (front ++ rest) front.length bytes = front ++ (bytes ++ rest.drop bytes.length) := by
  rw [writeAt, List.take_left, ← List.drop_drop, List.drop_left, List.append_assoc]

section Messages

variable {b0 b1 b2 b3 b4 b5 b6 b7 b8 b9 b10 b11 : Byte} {question rest : List Byte}

/-- A zero-address answer, byte by byte: its length and the buffer. -/
theorem dnsWireMakeZeroAnswer_cons {cap : Nat} {qtype : BitVec 16} (answered : qtype = dnsTypeA ∨ qtype = dnsTypeAaaa)
    (room : 12 + question.length + (12 + rdLength qtype) ≤ cap) :
    dnsWireMakeZeroAnswer
        (b0 :: b1 :: b2 :: b3 :: b4 :: b5 :: b6 :: b7 :: b8 :: b9 :: b10 :: b11 :: (question ++ rest))
        (12 + question.length) cap qtype = (12 + question.length + (12 + rdLength qtype),
      b0 :: b1 :: responseFlags b2 :: 0x80#8 :: b4 :: b5 :: 0x00#8 :: 0x01#8 :: 0x00#8 :: 0x00#8 :: 0x00#8 :: 0x00#8 ::
        (question ++ zeroAnswer qtype (rdLength qtype) ++ rest.drop (zeroAnswer qtype (rdLength qtype)).length)) := by
  have total : 2 + 2 + 2 + 4 + 2 + rdLength qtype = 12 + rdLength qtype := rfl
  have appended := writeAt_append (b0 :: b1 :: b2 :: b3 :: b4 :: b5 :: b6 :: b7 :: b8 :: b9 :: b10 :: b11 :: question) rest
    (zeroAnswer qtype (rdLength qtype))
  have length : (b0 :: b1 :: b2 :: b3 :: b4 :: b5 :: b6 :: b7 :: b8 :: b9 :: b10 :: b11 :: question).length =
      12 + question.length := by
    simp only [List.length_cons]
    omega
  rw [length] at appended
  rw [rdLength] at room total appended ⊢
  simp only [List.cons_append] at appended
  simp only [dnsWireMakeZeroAnswer, if_pos answered, total, if_neg (Nat.not_lt_of_le room), appended, List.append_assoc]
  rfl

/-- A question that is not for an address is not answered. -/
theorem dnsWireMakeZeroAnswer_other {buf : List Byte} {questionEnd cap : Nat} {qtype : BitVec 16}
    (other : ¬ (qtype = dnsTypeA ∨ qtype = dnsTypeAaaa)) :
    dnsWireMakeZeroAnswer buf questionEnd cap qtype = (0, buf) := by
  rw [dnsWireMakeZeroAnswer, if_neg other]

end Messages

/-! ## The questions of the replies -/

section Questions

variable {b0 b1 b2 b3 b4 b5 b6 b7 b8 b9 b10 b11 : Byte} {body : List Byte} {labels : List Label} {qtype qclass : BitVec 16}
  {rest : List Byte}

/-- The bytes of a question behind the header. -/
def questionBytes (labels : List Label) (qtype qclass : BitVec 16) : List Byte :=
  wireName labels ++ [highByte qtype, lowByte qtype, highByte qclass, lowByte qclass]

theorem length_questionBytes (labels : List Label) (qtype qclass : BitVec 16) :
    (questionBytes labels qtype qclass).length = (wireName labels).length + 4 := by
  rw [questionBytes, List.length_append]
  rfl

/-- Only the count, the body and the length of the text matter to the question. -/
theorem asks_cons_iff :
    Asks (b0 :: b1 :: b2 :: b3 :: b4 :: b5 :: b6 :: b7 :: b8 :: b9 :: b10 :: b11 :: body) labels qtype qclass rest ↔
      word16 b4 b5 ≠ 0#16 ∧ body = questionBytes labels qtype qclass ++ rest ∧ textLength labels ≤ 254 := by
  have bytes : questionBytes labels qtype qclass ++ rest =
      wireName labels ++ highByte qtype :: lowByte qtype :: highByte qclass :: lowByte qclass :: rest := by
    rw [questionBytes, List.append_assoc]
    rfl
  rw [bytes]
  constructor
  · rintro ⟨-, counted, question, fits⟩
    exact ⟨counted, question, fits⟩
  · rintro ⟨counted, question, fits⟩
    refine ⟨?_, counted, question, fits⟩
    simp only [dnsWireHeaderLen, List.length_cons]
    omega

/-- A question ends before the bytes an answer needs. -/
theorem questionEnd_le (fits : textLength labels ≤ 254) : dnsWireHeaderLen + (wireName labels).length + 4 ≤ 272 := by
  rw [textLength] at fits
  rw [length_wireName, dnsWireHeaderLen]
  omega

end Questions

/-! ## The reply -/

/-- What a reply repeats of the query it answers, and what its header says. -/
structure Echoes (query reply : List Byte) (q : DnsWireQuestion) : Prop where
  parsed : dnsWireParseQuestion reply = .ok (some q)
  qr : qrFlag reply = true
  ra : raFlag reply = true
  aa : aaFlag reply = false
  tc : tcFlag reply = false
  opcode : opcode reply = Dns.opcode query
  rd : rdFlag reply = rdFlag query

/-- The NXDOMAIN reply to a query. -/
structure IsNxdomain (query reply : List Byte) : Prop where
  length : reply.length = query.length
  unchanged : ∀ i, i ≠ 2 → i ≠ 3 → reply[i]? = query[i]?
  rcode : rcode reply = dnsRcodeNxdomain

theorem recvBuf_eq {data : List Byte} (short : data.length ≤ dnsWireMaxMsgLen) (stale : Fin dnsWireMaxMsgLen → Byte) :
    recvBuf data stale = data ++ (List.ofFn stale).drop data.length := by
  rw [recvBuf, List.take_of_length_le short]

/-- The NXDOMAIN reply echoes the query. -/
theorem nxdomain_echoes {data : List Byte} {q : DnsWireQuestion} (accepted : dnsWireParseQuestion data = .ok (some q)) :
    Echoes data (dnsWireMakeErrorResponse data data.length dnsRcodeNxdomain) q ∧
      IsNxdomain data (dnsWireMakeErrorResponse data data.length dnsRcodeNxdomain) := by
  obtain ⟨labels, qtype, qclass, rest, asks, rfl⟩ := dnsWireParseQuestion_iff.mp accepted
  obtain ⟨b0, b1, b2, b3, b4, b5, b6, b7, b8, b9, b10, b11, body, rfl⟩ := exists_header asks.header
  obtain ⟨seven, two, one, zero⟩ := responseFlags_bits b2
  rw [dnsWireMakeErrorResponse_cons asks.header]
  constructor
  · exact
      { parsed := Asks.accepted (asks_cons_iff.mpr (asks_cons_iff.mp asks))
        qr := seven
        ra := show (0x80#8 ||| (dnsRcodeNxdomain &&& 0x0F#8)).getLsbD 7 = true by decide
        aa := two
        tc := one
        opcode := responseFlags_opcode b2
        rd := zero }
  · refine ⟨rfl, fun i second third => ?_, show (0x80#8 ||| (dnsRcodeNxdomain &&& 0x0F#8)) &&& 0x0F#8 = _ by decide⟩
    match i with
    | 0 | 1 => rfl
    | 2 => exact absurd rfl second
    | 3 => exact absurd rfl third
    | _ + 4 => rfl

/-- The zero-address reply to an accepted question, byte by byte. -/
theorem zeroAnswer_bytes {b0 b1 b2 b3 b4 b5 b6 b7 b8 b9 b10 b11 : Byte} {labels : List Label} {qtype qclass : BitVec 16}
    (rest : List Byte) (answered : qtype = dnsTypeA ∨ qtype = dnsTypeAaaa) (fits : textLength labels ≤ 254) :
    let zero := dnsWireMakeZeroAnswer (b0 :: b1 :: b2 :: b3 :: b4 :: b5 :: b6 :: b7 :: b8 :: b9 :: b10 :: b11 ::
      (questionBytes labels qtype qclass ++ rest)) (dnsWireHeaderLen + (wireName labels).length + 4) dnsWireMaxMsgLen qtype
    zero.1 = dnsWireHeaderLen + (wireName labels).length + 4 + (12 + rdLength qtype) ∧
      zero.2.take zero.1 =
        b0 :: b1 :: responseFlags b2 :: 0x80#8 :: b4 :: b5 :: 0x00#8 :: 0x01#8 :: 0x00#8 :: 0x00#8 :: 0x00#8 :: 0x00#8 ::
          (questionBytes labels qtype qclass ++ zeroAnswer qtype (rdLength qtype)) := by
  have short : rdLength qtype ≤ 16 := by
    rw [rdLength]
    split <;> decide
  have stop : dnsWireHeaderLen + (wireName labels).length + 4 = 12 + (questionBytes labels qtype qclass).length := by
    rw [length_questionBytes, dnsWireHeaderLen]
    omega
  have room : 12 + (questionBytes labels qtype qclass).length + (12 + rdLength qtype) ≤ dnsWireMaxMsgLen := by
    have bound := questionEnd_le fits
    rw [stop] at bound
    rw [dnsWireMaxMsgLen]
    omega
  have taken : 12 + (questionBytes labels qtype qclass).length + (12 + rdLength qtype) =
      (questionBytes labels qtype qclass ++ zeroAnswer qtype (rdLength qtype)).length + 12 := by
    rw [List.length_append, length_zeroAnswer]
    omega
  rw [stop, dnsWireMakeZeroAnswer_cons answered room]
  refine ⟨rfl, ?_⟩
  dsimp only
  rw [taken]
  simp only [List.take_succ_cons, List.take_left]

/-- The zero-address reply echoes the query. -/
theorem zeroAnswer_echoes {data : List Byte} (stale : List Byte) {q : DnsWireQuestion}
    (accepted : dnsWireParseQuestion data = .ok (some q)) (answered : q.qtype = dnsTypeA ∨ q.qtype = dnsTypeAaaa) :
    let zero := dnsWireMakeZeroAnswer (data ++ stale) q.questionEnd dnsWireMaxMsgLen q.qtype
    zero.1 = q.questionEnd + (12 + rdLength q.qtype) ∧ Echoes data (zero.2.take zero.1) q := by
  obtain ⟨labels, qtype, qclass, rest, asks, rfl⟩ := dnsWireParseQuestion_iff.mp accepted
  obtain ⟨b0, b1, b2, b3, b4, b5, b6, b7, b8, b9, b10, b11, body, rfl⟩ := exists_header asks.header
  obtain ⟨counted, rfl, fits⟩ := asks_cons_iff.mp asks
  obtain ⟨seven, two, one, zero⟩ := responseFlags_bits b2
  simp only [asked] at answered ⊢
  simp only [List.cons_append, List.append_assoc]
  obtain ⟨length, bytes⟩ := zeroAnswer_bytes _ answered fits
  refine ⟨length, ?_⟩
  rw [bytes]
  exact
    { parsed := Asks.accepted (asks_cons_iff.mpr ⟨counted, rfl, fits⟩)
      qr := seven
      ra := show (0x80#8).getLsbD 7 = true by decide
      aa := two
      tc := one
      opcode := responseFlags_opcode b2
      rd := zero }

/-- The sizes of the answers. -/
theorem rdLength_room {qtype : BitVec 16} (answered : qtype = dnsTypeA ∨ qtype = dnsTypeAaaa) :
    12 + rdLength qtype = if qtype = dnsTypeA then 16 else 28 := by
  rcases answered with rfl | rfl <;> decide

/-- The zero-address reply made in the receive buffer. -/
theorem zeroAnswer_recvBuf {data : List Byte} {stale : Fin dnsWireMaxMsgLen → Byte} {q : DnsWireQuestion}
    (short : data.length ≤ dnsWireMaxMsgLen) (accepted : dnsWireParseQuestion data = .ok (some q))
    (answered : q.qtype = dnsTypeA ∨ q.qtype = dnsTypeAaaa) (bound : q.questionEnd ≤ 272) :
    let zero := dnsWireMakeZeroAnswer (recvBuf data stale) q.questionEnd dnsWireMaxMsgLen q.qtype
    Echoes data (zero.2.take zero.1) q ∧ zero.1 ≠ 0 ∧
      zero.1 = q.questionEnd + (if q.qtype = dnsTypeA then 16 else 28) ∧ zero.1 ≤ dnsWireMaxMsgLen := by
  obtain ⟨length, echoes⟩ := zeroAnswer_echoes ((List.ofFn stale).drop data.length) accepted answered
  rw [← recvBuf_eq short stale, rdLength_room answered] at length
  rw [← recvBuf_eq short stale] at echoes
  refine ⟨echoes, ?_, length, ?_⟩
  · rw [length]
    split <;> omega
  · rw [length, dnsWireMaxMsgLen]
    split <;> omega

/-- **A blocked reply asks the question of the query again**, under either policy. -/
theorem blocked_reply_echoes {bs : Bsearch} {d : Device} {data reply : List Byte} {stale : Fin dnsWireMaxMsgLen → Byte}
    {q : DnsWireQuestion} (short : data.length ≤ dnsWireMaxMsgLen) (accepted : dnsWireParseQuestion data = .ok (some q))
    (blocked : tryBlock bs d (recvBuf data stale) data.length q = .ok (some reply)) :
    Echoes data reply q ∧
    (d.nvs.policy ≠ appConfigBlockZeroIp → IsNxdomain data reply) ∧
    (d.nvs.policy = appConfigBlockZeroIp →
      q.questionEnd ≤ 272 ∧
      let zero := dnsWireMakeZeroAnswer (recvBuf data stale) q.questionEnd dnsWireMaxMsgLen q.qtype
      (zero.1 = 0 ↔ q.qtype ≠ dnsTypeA ∧ q.qtype ≠ dnsTypeAaaa) ∧
      (zero.1 = 0 → zero.2 = recvBuf data stale ∧ IsNxdomain data reply) ∧
      (zero.1 ≠ 0 → reply = zero.2.take zero.1 ∧
        zero.1 = q.questionEnd + (if q.qtype = dnsTypeA then 16 else 28) ∧ zero.1 ≤ dnsWireMaxMsgLen)) := by
  have sent := tryBlock_some blocked
  have whole := recvBuf_eq short stale
  obtain ⟨nxEchoes, nx⟩ := nxdomain_echoes accepted
  have error : (dnsWireMakeErrorResponse (recvBuf data stale) data.length dnsRcodeNxdomain).take data.length =
      dnsWireMakeErrorResponse data data.length dnsRcodeNxdomain := by
    rw [take_dnsWireMakeErrorResponse, whole, List.take_left]
  rw [blockReply, error] at sent
  have bound : q.questionEnd ≤ 272 := by
    obtain ⟨labels, qtype, qclass, rest, asks, rfl⟩ := dnsWireParseQuestion_iff.mp accepted
    exact questionEnd_le asks.fits
  by_cases zeroIp : d.nvs.policy = appConfigBlockZeroIp
  · rw [if_pos zeroIp] at sent
    by_cases answered : q.qtype = dnsTypeA ∨ q.qtype = dnsTypeAaaa
    · obtain ⟨zeroEchoes, written, length, room⟩ := zeroAnswer_recvBuf short accepted answered bound
      generalize dnsWireMakeZeroAnswer (recvBuf data stale) q.questionEnd dnsWireMaxMsgLen q.qtype = zero at *
      obtain ⟨newLen, zero⟩ := zero
      dsimp only at written length room sent zeroEchoes ⊢
      rw [if_pos (Nat.pos_of_ne_zero written)] at sent
      subst sent
      refine ⟨zeroEchoes, fun other => absurd zeroIp other, fun _ => ⟨bound, ?_, ?_, ?_⟩⟩
      · exact iff_of_false written fun other => answered.elim other.1 other.2
      · exact fun unwritten => absurd unwritten written
      · exact fun _ => ⟨rfl, length, room⟩
    · rw [dnsWireMakeZeroAnswer_other answered] at sent ⊢
      subst sent
      refine ⟨nxEchoes, fun other => absurd zeroIp other, fun _ => ⟨bound, ?_, ?_, ?_⟩⟩
      · exact iff_of_true rfl (not_or.mp answered)
      · exact fun _ => ⟨rfl, nx⟩
      · exact fun written => absurd rfl written
  · rw [if_neg zeroIp] at sent
    subst sent
    exact ⟨nxEchoes, fun _ => nx, fun impossible => absurd impossible zeroIp⟩

/-- The zero address for `a.b`, on a device that blocks every name. -/
theorem address_query_echoed :
    dnsWireParseQuestion (addressQuery [1#8, 0x61#8, 1#8, 0x62#8, 0#8]) =
      .ok (some (addressQuestion [0x61#8, 0x2E#8, 0x62#8] 21)) ∧
    ∃ reply, reply.length = 37 ∧ Echoes (addressQuery [1#8, 0x61#8, 1#8, 0x62#8, 0#8]) reply
      (addressQuestion [0x61#8, 0x2E#8, 0x62#8] 21) := by
  have accepted : dnsWireParseQuestion (addressQuery [1#8, 0x61#8, 1#8, 0x62#8, 0#8]) =
      .ok (some (addressQuestion [0x61#8, 0x2E#8, 0x62#8] 21)) := by decide
  let nvs : Nvs := { blockPolicy := some appConfigBlockZeroIp }
  have decided : blocks .binary (noHashesDevice nvs) [0x61#8, 0x2E#8, 0x62#8] = .ok true := blocks_noHashesDevice _ rfl _
  have blocked : tryBlock .binary (noHashesDevice nvs) (recvBuf (addressQuery [1#8, 0x61#8, 1#8, 0x62#8, 0#8]) fun _ => 0#8)
      21 (addressQuestion [0x61#8, 0x2E#8, 0x62#8] 21) = .ok (some _) := tryBlock_of_blocks decided
  refine ⟨accepted, _, ?_, (blocked_reply_echoes (by decide) accepted blocked).1⟩
  decide +kernel

end EspAdblocker.Dns
