import EspAdblocker.Dns.BlockReply

/-!
# The zero-address reply as a DNS message

What a client makes of the reply of `dns_wire_make_zero_answer`: the message
grammar of DNS, which follows the four section counts of the message and its
compression pointers (`decodeMessage`). The reply keeps the query's QDCOUNT over
the one question it keeps, so it decodes to a question and its answer exactly
when QDCOUNT was one (`zeroAnswer_wellFormed_iff`).
-/

namespace EspAdblocker.Dns

open EspAdblocker.Lib

/-! ## The grammar of a message -/

/-- A question as it is sent. -/
structure Question where
  name : List (List Byte)
  qtype : BitVec 16
  qclass : BitVec 16
  deriving DecidableEq, Repr

/-- A resource record, its name resolved. -/
structure Record where
  name : List (List Byte)
  rtype : BitVec 16
  rclass : BitVec 16
  ttl : BitVec 32
  rdata : List Byte
  deriving DecidableEq, Repr

/-- The four sections of a message. -/
structure Message where
  questions : List Question
  answers : List Record
  authority : List Record
  additional : List Record
  deriving DecidableEq, Repr

/-- A name at a position, with the position behind it. A pointer leads to a name
in front of the one it ends, so following pointers comes to an end. -/
def decodeName (msg : List Byte) (start pos : Nat) : Option (List (List Byte) × Nat) :=
  if inside : pos < msg.length then
    if msg[pos] = 0#8 then some ([], pos + 1)
    else if msg[pos] &&& 0xC0#8 = 0#8 then
      if pos + 1 + msg[pos].toNat ≤ msg.length then
        (decodeName msg start (pos + 1 + msg[pos].toNat)).map fun (labels, next) =>
          ((msg.drop (pos + 1)).take msg[pos].toNat :: labels, next)
      else none
    else if msg[pos] &&& 0xC0#8 = 0xC0#8 then
      (byteAt msg (pos + 1)).toOption.bind fun low =>
        let target := (word16 (msg[pos] &&& 0x3F#8) low).toNat
        if target < start then (decodeName msg target target).map fun (labels, _) => (labels, pos + 2) else none
    else none
  else none
termination_by (start, msg.length - pos)

/-- A name of at most `limit` bytes when it is written out. -/
def decodeShortName (limit : Nat) (msg : List Byte) (pos : Nat) : Option (List (List Byte) × Nat) :=
  (decodeName msg pos pos).filter fun (labels, _) => (prefixed labels).length ≤ limit

/-- A question at a position. -/
def decodeQuestion (limit : Nat) (msg : List Byte) (pos : Nat) : Option (Question × Nat) := do
  let (name, pos) ← decodeShortName limit msg pos
  let qtype ← (wordAt msg pos).toOption
  let qclass ← (wordAt msg (pos + 2)).toOption
  return ({ name, qtype, qclass }, pos + 4)

/-- A record at a position. -/
def decodeRecord (limit : Nat) (msg : List Byte) (pos : Nat) : Option (Record × Nat) := do
  let (name, pos) ← decodeShortName limit msg pos
  let rtype ← (wordAt msg pos).toOption
  let rclass ← (wordAt msg (pos + 2)).toOption
  let ttlHigh ← (wordAt msg (pos + 4)).toOption
  let ttlLow ← (wordAt msg (pos + 6)).toOption
  let rdlength ← (wordAt msg (pos + 8)).toOption
  if pos + 10 + rdlength.toNat ≤ msg.length then
    return ({ name, rtype, rclass, ttl := ttlHigh ++ ttlLow, rdata := (msg.drop (pos + 10)).take rdlength.toNat },
      pos + 10 + rdlength.toNat)
  else none

/-- A section: as many items as its count says, one behind the other. -/
def decodeSection {α : Type} (item : Nat → Option (α × Nat)) : Nat → Nat → Option (List α × Nat)
  | 0, pos => some ([], pos)
  | count + 1, pos => do
    let (first, pos) ← item pos
    let (others, pos) ← decodeSection item count pos
    return (first :: others, pos)

/-- A message: the header's counts, the sections they announce, and nothing behind them. -/
def decodeMessage (limit : Nat) (msg : List Byte) : Option Message := do
  let qdcount ← (wordAt msg 4).toOption
  let ancount ← (wordAt msg 6).toOption
  let nscount ← (wordAt msg 8).toOption
  let arcount ← (wordAt msg 10).toOption
  let (questions, pos) ← decodeSection (decodeQuestion limit msg) qdcount.toNat dnsWireHeaderLen
  let (answers, pos) ← decodeSection (decodeRecord limit msg) ancount.toNat pos
  let (authority, pos) ← decodeSection (decodeRecord limit msg) nscount.toNat pos
  let (additional, pos) ← decodeSection (decodeRecord limit msg) arcount.toNat pos
  if pos = msg.length then return { questions, answers, authority, additional } else none

/-! ## Decoding what is there -/

theorem lt_length_of_drop {msg rest : List Byte} {pos : Nat} {b : Byte} (here : msg.drop pos = b :: rest) :
    pos < msg.length := by
  have size := congrArg List.length here
  rw [List.length_drop, List.length_cons] at size
  omega

theorem getElem_of_drop {msg rest : List Byte} {pos : Nat} {b : Byte} (here : msg.drop pos = b :: rest)
    (inside : pos < msg.length) : msg[pos] = b := by
  rw [List.drop_eq_getElem_cons inside] at here
  exact (List.cons.inj here).1

/-- A name that is written out. -/
theorem decodeName_wireName {msg rest : List Byte} {labels : List Label} {pos : Nat} (start : Nat)
    (here : msg.drop pos = wireName labels ++ rest) :
    decodeName msg start pos = some (labels.map Label.bytes, pos + (wireName labels).length) := by
  induction labels generalizing pos with
  | nil =>
    have inside := lt_length_of_drop here
    unfold decodeName
    rw [dif_pos inside, if_pos (getElem_of_drop here inside)]
    rfl
  | cons l labels ih =>
    rw [wireName_cons, List.append_assoc] at here
    have front : msg.drop pos = l.lengthByte :: (l.bytes ++ (wireName labels ++ rest)) := here
    have inside := lt_length_of_drop front
    have size := congrArg List.length here
    rw [List.length_drop, List.length_append, Label.length_wire] at size
    have position : pos + 1 + l.bytes.length = pos + l.wire.length := by
      rw [Label.length_wire]
      omega
    have whole : pos + l.wire.length ≤ msg.length := by
      rw [Label.length_wire]
      omega
    unfold decodeName
    rw [dif_pos inside]
    simp only [getElem_of_drop front inside, if_neg l.lengthByte_ne_zero, l.lengthByte_and, if_true, Label.toNat_lengthByte,
      position, if_pos whole, ih (drop_behind here), Option.map_some, drop_next front, List.take_left, List.map_cons,
      wireName_cons, List.length_append, Nat.add_assoc]

/-- The pointer of an answer resolves to the question's name. -/
theorem decodeName_pointer {msg rest tail : List Byte} {labels : List Label} {start pos : Nat}
    (here : msg.drop pos = 0xC0#8 :: 0x0C#8 :: tail) (behind : dnsWireHeaderLen < start)
    (name : msg.drop dnsWireHeaderLen = wireName labels ++ rest) :
    decodeName msg start pos = some (labels.map Label.bytes, pos + 2) := by
  have inside := lt_length_of_drop here
  have target : (word16 (0xC0#8 &&& 0x3F#8) 0x0C#8).toNat = dnsWireHeaderLen := by decide
  unfold decodeName
  rw [dif_pos inside]
  simp only [getElem_of_drop here inside, byteAt_drop (drop_next here), Except.toOption, Option.bind_some, target,
    if_pos behind, decodeName_wireName _ name, Option.map_some]
  rfl

section Decoding

variable {limit pos : Nat} {msg rest : List Byte} {labels : List Label} {qtype qclass : BitVec 16}

theorem decodeShortName_eq {next : Nat} (named : decodeName msg pos pos = some (labels.map Label.bytes, next)) :
    decodeShortName limit msg pos =
      if (wireName labels).length ≤ limit then some (labels.map Label.bytes, next) else none := by
  rw [decodeShortName, named, Option.filter_some]
  simp only [prefixed_bytes, decide_eq_true_eq]

theorem decodeQuestion_eq (here : msg.drop pos = questionBytes labels qtype qclass ++ rest) :
    decodeQuestion limit msg pos =
      if (wireName labels).length ≤ limit then
        some ({ name := labels.map Label.bytes, qtype, qclass }, pos + (questionBytes labels qtype qclass).length)
      else none := by
  rw [questionBytes, List.append_assoc] at here
  have typed := drop_behind here
  have classed : msg.drop (pos + (wireName labels).length + 2) = highByte qclass :: lowByte qclass :: rest :=
    drop_behind (show _ = [highByte qtype, lowByte qtype] ++ highByte qclass :: lowByte qclass :: rest from typed)
  have first : msg.drop (pos + (wireName labels).length) =
    highByte qtype :: lowByte qtype :: highByte qclass :: lowByte qclass :: rest := typed
  rw [decodeQuestion, decodeShortName_eq (decodeName_wireName pos here), length_questionBytes,
    ← Nat.add_assoc]
  by_cases fits : (wireName labels).length ≤ limit
  · simp only [if_pos fits, Option.bind_eq_bind, Option.bind_some, wordAt_drop first, wordAt_drop classed,
      Except.toOption, word16_bytes]
    rfl
  · rw [if_neg fits, if_neg fits]
    rfl

theorem word16_rdLength (qtype : BitVec 16) :
    (word16 (BitVec.ofNat 8 (rdLength qtype / 256)) (BitVec.ofNat 8 (rdLength qtype))).toNat = rdLength qtype := by
  rw [rdLength]
  split <;> decide

theorem decodeRecord_zeroAnswer (here : msg.drop pos = zeroAnswer qtype (rdLength qtype))
    (name : msg.drop dnsWireHeaderLen = wireName labels ++ rest) (behind : dnsWireHeaderLen < pos)
    (fits : (wireName labels).length ≤ limit) :
    decodeRecord limit msg pos = some
      ({ name := labels.map Label.bytes, rtype := qtype, rclass := 1#16, ttl := 60#32,
         rdata := List.replicate (rdLength qtype) 0#8 }, msg.length) := by
  have size := congrArg List.length here
  rw [List.length_drop, length_zeroAnswer] at size
  rw [zeroAnswer, List.cons_append, List.cons_append] at here
  have typed := drop_next (drop_next here)
  have classed := drop_next (drop_next typed)
  have high := drop_next (drop_next classed)
  have low := drop_next (drop_next high)
  have sized := drop_next (drop_next low)
  have data := drop_next (drop_next sized)
  have whole : pos + 2 + 10 + rdLength qtype = msg.length := by omega
  rw [decodeRecord, decodeShortName_eq (decodeName_pointer here behind name), if_pos fits]
  simp only [Option.bind_eq_bind, Option.bind_some, wordAt_drop typed, wordAt_drop classed,
    wordAt_drop high, wordAt_drop low, wordAt_drop sized, Except.toOption, word16_bytes, word16_rdLength, whole, data,
    Nat.le_refl, if_true, List.append_eq, List.nil_append, List.take_replicate, Nat.min_self]
  rfl

end Decoding

theorem length_decodeSection {α : Type} {item : Nat → Option (α × Nat)} {count pos next : Nat} {items : List α}
    (decoded : decodeSection item count pos = some (items, next)) : items.length = count := by
  induction count generalizing pos items with
  | zero =>
    cases decoded
    rfl
  | succ count ih =>
    simp only [decodeSection, Option.bind_eq_bind, Option.bind_eq_some_iff, Prod.exists] at decoded
    obtain ⟨first, _, -, others, _, more, same⟩ := decoded
    cases same
    rw [List.length_cons, ih more]

/-! ## The reply -/

/-- The message a zero-address reply should be: the question, and one answer that names it. -/
def answerMessage (labels : List Label) (qtype qclass : BitVec 16) (ttl : BitVec 32) : Message where
  questions := [{ name := labels.map Label.bytes, qtype, qclass }]
  answers := [{ name := labels.map Label.bytes, rtype := qtype, rclass := 1#16, ttl
                rdata := List.replicate (rdLength qtype) 0#8 }]
  authority := []
  additional := []

/-- A message has as many questions as it counts. -/
theorem length_questions {limit : Nat} {msg : List Byte} {m : Message} {count : BitVec 16}
    (decoded : decodeMessage limit msg = some m) (counted : wordAt msg 4 = .ok count) :
    m.questions.length = count.toNat := by
  simp only [decodeMessage, counted, Except.toOption, Option.bind_eq_bind, Option.bind_some, Option.bind_eq_some_iff,
    Prod.exists] at decoded
  obtain ⟨_, -, _, -, _, -, questions, _, sections, answers, _, -, authority, _, -, additional, _, -, done⟩ := decoded
  split at done
  · cases done
    exact length_decodeSection sections
  · cases done

/-- What a reply with the count of its query decodes to. -/
theorem decodeMessage_reply {limit : Nat} {b0 b1 b2 b3 b4 b5 : Byte} {labels : List Label} {qtype qclass : BitVec 16}
    (counted : word16 b4 b5 = 1#16) :
    decodeMessage limit (b0 :: b1 :: b2 :: b3 :: b4 :: b5 :: 0x00#8 :: 0x01#8 :: 0x00#8 :: 0x00#8 :: 0x00#8 :: 0x00#8 ::
        (questionBytes labels qtype qclass ++ zeroAnswer qtype (rdLength qtype))) =
      if (wireName labels).length ≤ limit then some (answerMessage labels qtype qclass 60#32) else none := by
  generalize reply : b0 :: b1 :: b2 :: b3 :: b4 :: b5 :: 0x00#8 :: 0x01#8 :: 0x00#8 :: 0x00#8 :: 0x00#8 :: 0x00#8 ::
    (questionBytes labels qtype qclass ++ zeroAnswer qtype (rdLength qtype)) = msg
  have body : msg.drop dnsWireHeaderLen = questionBytes labels qtype qclass ++ zeroAnswer qtype (rdLength qtype) := by
    rw [← reply]
    rfl
  have qdcount : wordAt msg 4 = .ok 1#16 := by
    rw [← reply, ← counted]
    rfl
  have ancount : wordAt msg 6 = .ok 1#16 := by
    rw [← reply]
    rfl
  have nscount : wordAt msg 8 = .ok 0#16 := by
    rw [← reply]
    rfl
  have arcount : wordAt msg 10 = .ok 0#16 := by
    rw [← reply]
    rfl
  have one : (1#16).toNat = 1 := rfl
  have zero : (0#16).toNat = 0 := rfl
  simp only [decodeMessage, qdcount, ancount, nscount, arcount, Except.toOption, Option.bind_eq_bind, Option.bind_some, one,
    zero, decodeSection, decodeQuestion_eq body]
  by_cases fits : (wireName labels).length ≤ limit
  · have named : msg.drop dnsWireHeaderLen = wireName labels ++ ([highByte qtype, lowByte qtype, highByte qclass, lowByte qclass] ++
        zeroAnswer qtype (rdLength qtype)) := by
      rw [body, questionBytes, List.append_assoc]
    have behind : dnsWireHeaderLen < dnsWireHeaderLen + (questionBytes labels qtype qclass).length := by
      rw [length_questionBytes]
      omega
    simp only [if_pos fits, Option.bind_some, decodeRecord_zeroAnswer (drop_behind body) named behind fits, pure, if_true,
      answerMessage]
  · simp only [if_neg fits, Option.bind_none]

/-- **The zero-address reply is a well-formed message exactly for a QDCOUNT of one**, as far as
the question's own name is one a decoder takes. -/
theorem zeroAnswer_wellFormed_iff {limit : Nat} {data : List Byte} {stale : Fin dnsWireMaxMsgLen → Byte}
    {q : DnsWireQuestion} (short : data.length ≤ dnsWireMaxMsgLen) (accepted : dnsWireParseQuestion data = .ok (some q))
    (answered : q.qtype = dnsTypeA ∨ q.qtype = dnsTypeAaaa) :
    let zero := dnsWireMakeZeroAnswer (recvBuf data stale) q.questionEnd dnsWireMaxMsgLen q.qtype
    ∃ labels rest, Asks data labels q.qtype q.qclass rest ∧
      ((∃ ttl, decodeMessage limit (zero.2.take zero.1) = some (answerMessage labels q.qtype q.qclass ttl)) ↔
        qdCount data = 1#16 ∧ (wireName labels).length ≤ limit) := by
  obtain ⟨labels, qtype, qclass, rest, asks, rfl⟩ := dnsWireParseQuestion_iff.mp accepted
  obtain ⟨b0, b1, b2, b3, b4, b5, b6, b7, b8, b9, b10, b11, body, rfl⟩ := exists_header asks.header
  obtain ⟨counted, rfl, fits⟩ := asks_cons_iff.mp asks
  simp only [asked] at answered ⊢
  refine ⟨labels, rest, asks, ?_⟩
  simp only [recvBuf_eq short, List.cons_append, List.append_assoc, (zeroAnswer_bytes _ answered fits).2]
  have count : qdCount (b0 :: b1 :: b2 :: b3 :: b4 :: b5 :: b6 :: b7 :: b8 :: b9 :: b10 :: b11 ::
      (questionBytes labels qtype qclass ++ rest)) = word16 b4 b5 := rfl
  rw [count]
  constructor
  · rintro ⟨ttl, decoded⟩
    have one : word16 b4 b5 = 1#16 := by
      apply BitVec.eq_of_toNat_eq
      exact (length_questions decoded rfl).symm
    rw [decodeMessage_reply one] at decoded
    refine ⟨one, ?_⟩
    by_contra long
    rw [if_neg long] at decoded
    cases decoded
  · rintro ⟨one, fits⟩
    exact ⟨60#32, by rw [decodeMessage_reply one, if_pos fits]⟩

/-- The reply to an ordinary query is well formed. -/
theorem address_query_answered :
    let zero := dnsWireMakeZeroAnswer (recvBuf (addressQuery [1#8, 0x61#8, 1#8, 0x62#8, 0#8]) fun _ => 0#8) 21
      dnsWireMaxMsgLen dnsTypeA
    ∃ labels ttl, decodeMessage 255 (zero.2.take zero.1) = some (answerMessage labels dnsTypeA 1#16 ttl) := by
  have accepted : dnsWireParseQuestion (addressQuery [1#8, 0x61#8, 1#8, 0x62#8, 0#8]) =
      .ok (some (addressQuestion [0x61#8, 0x2E#8, 0x62#8] 21)) := by decide
  obtain ⟨labels, rest, asks, formed⟩ := zeroAnswer_wellFormed_iff (by decide) accepted (.inl rfl)
  have size : 9 = _ := congrArg List.length asks.question
  rw [List.length_append] at size
  obtain ⟨ttl, decoded⟩ := formed.mpr ⟨by decide, show (wireName labels).length ≤ 255 by omega⟩
  exact ⟨labels, ttl, decoded⟩

/-- A query that counts two questions and asks for both addresses of `a.b`. -/
def twoQuestions : List Byte :=
  [0#8, 7#8, 1#8, 0#8, 0#8, 2#8, 0#8, 0#8, 0#8, 0#8, 0#8, 0#8] ++ [1#8, 0x61#8, 1#8, 0x62#8, 0#8, 0#8, 1#8, 0#8, 1#8] ++
    [1#8, 0x61#8, 1#8, 0x62#8, 0#8, 0#8, 28#8, 0#8, 1#8]

/-- The reply to it drops the second question and still counts two. -/
theorem two_questions_miscounted : twoQuestions.length ≤ dnsWireMaxMsgLen ∧
    dnsWireParseQuestion twoQuestions = .ok (some (addressQuestion [0x61#8, 0x2E#8, 0x62#8] 21)) ∧
    let zero := dnsWireMakeZeroAnswer (recvBuf twoQuestions fun _ => 0#8) 21 dnsWireMaxMsgLen dnsTypeA
    ∀ limit labels ttl, decodeMessage limit (zero.2.take zero.1) ≠ some (answerMessage labels dnsTypeA 1#16 ttl) := by
  refine ⟨by decide, by decide, fun limit labels ttl decoded => ?_⟩
  have counted : wordAt ((dnsWireMakeZeroAnswer (recvBuf twoQuestions fun _ => 0#8) 21 dnsWireMaxMsgLen dnsTypeA).2.take
      (dnsWireMakeZeroAnswer (recvBuf twoQuestions fun _ => 0#8) 21 dnsWireMaxMsgLen dnsTypeA).1) 4 = .ok 2#16 := by
    decide +kernel
  have two : 1 = 2 := length_questions decoded counted
  omega

end EspAdblocker.Dns
