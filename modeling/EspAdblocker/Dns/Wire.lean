import EspAdblocker.Lib.Bytes

/-!
# `dns_wire.c`

The DNS message helpers. A message is the list of its bytes, so a read past its
length is a fault; the helpers that work in place take the whole receive buffer
with the length of the message in it.
-/

namespace EspAdblocker.Dns

open EspAdblocker.Lib

/-- `DNS_WIRE_HEADER_LEN`. -/
def dnsWireHeaderLen : Nat := 12

/-- `DNS_WIRE_MAX_NAME_LEN`. -/
def dnsWireMaxNameLen : Nat := 255

/-- `DNS_WIRE_MAX_MSG_LEN`. -/
def dnsWireMaxMsgLen : Nat := 512

/-- `DNS_RCODE_SERVFAIL`. -/
def dnsRcodeServfail : Byte := 2#8

/-- `DNS_RCODE_NXDOMAIN`. -/
def dnsRcodeNxdomain : Byte := 3#8

/-- `DNS_TYPE_A`. -/
def dnsTypeA : BitVec 16 := 1#16

/-- `DNS_TYPE_AAAA`. -/
def dnsTypeAaaa : BitVec 16 := 28#16

/-- `(uint16_t)((hi << 8) | lo)`. -/
def word16 (hi lo : Byte) : BitVec 16 := hi ++ lo

/-- `(uint8_t)(v >> 8)`. -/
def highByte (v : BitVec 16) : Byte := v.extractLsb' 8 8

/-- `(uint8_t)(v & 0xFF)`. -/
def lowByte (v : BitVec 16) : Byte := v.extractLsb' 0 8

theorem word16_bytes (v : BitVec 16) : word16 (highByte v) (lowByte v) = v := by
  rw [word16, highByte, lowByte, BitVec.extractLsb'_append_extractLsb'_eq_extractLsb' (by decide)]
  exact BitVec.extractLsb'_eq_self

/-! ## Transaction ids -/

/-- `dns_wire_get_txid`. -/
def dnsWireGetTxid (buf : List Byte) : BitVec 16 :=
  word16 (buf.getD 0 0#8) (buf.getD 1 0#8)

/-- `dns_wire_set_txid`. -/
def dnsWireSetTxid (buf : List Byte) (txid : BitVec 16) : List Byte :=
  (buf.set 0 (highByte txid)).set 1 (lowByte txid)

theorem dnsWireGetTxid_congr {buf buf' : List Byte} (same : buf'.take 2 = buf.take 2) :
    dnsWireGetTxid buf' = dnsWireGetTxid buf := by
  have byte (i : Nat) (small : i < 2) : buf'.getD i 0#8 = buf.getD i 0#8 := by
    have at_i := congrArg (·[i]?) same
    simpa [List.getElem?_take, small] using congrArg (·.getD 0#8) at_i
  rw [dnsWireGetTxid, dnsWireGetTxid, byte 0 (by decide), byte 1 (by decide)]

theorem dnsWireGetTxid_take (buf : List Byte) {n : Nat} (long : 2 ≤ n) :
    dnsWireGetTxid (buf.take n) = dnsWireGetTxid buf :=
  dnsWireGetTxid_congr (by rw [List.take_take, Nat.min_eq_left long])

@[simp] theorem length_dnsWireSetTxid (buf : List Byte) (txid : BitVec 16) :
    (dnsWireSetTxid buf txid).length = buf.length := by
  simp [dnsWireSetTxid]

theorem take_dnsWireSetTxid (buf : List Byte) (txid : BitVec 16) (n : Nat) :
    (dnsWireSetTxid buf txid).take n = dnsWireSetTxid (buf.take n) txid := by
  rw [dnsWireSetTxid, dnsWireSetTxid, List.take_set, List.take_set]

@[simp] theorem dnsWireSetTxid_set (buf : List Byte) (v w : BitVec 16) :
    dnsWireSetTxid (dnsWireSetTxid buf v) w = dnsWireSetTxid buf w := by
  match buf with
  | [] | [_] | _ :: _ :: _ => rfl

/-- Setting the id replaces the first two bytes. -/
theorem dnsWireSetTxid_eq {buf : List Byte} (long : 2 ≤ buf.length) (txid : BitVec 16) :
    dnsWireSetTxid buf txid = highByte txid :: lowByte txid :: buf.drop 2 := by
  match buf, long with
  | _ :: _ :: rest, _ => rfl

@[simp] theorem dnsWireGetTxid_cons (v : BitVec 16) (rest : List Byte) :
    dnsWireGetTxid (highByte v :: lowByte v :: rest) = v := word16_bytes v

/-- The id that was set is read back. -/
theorem dnsWireGetTxid_set {buf : List Byte} (long : 2 ≤ buf.length) (txid : BitVec 16) :
    dnsWireGetTxid (dnsWireSetTxid buf txid) = txid := by
  rw [dnsWireSetTxid_eq long, dnsWireGetTxid_cons]

@[simp] theorem highByte_word16 (hi lo : Byte) : highByte (word16 hi lo) = hi := by
  apply BitVec.eq_of_toNat_eq
  have small := lo.isLt
  simp only [highByte, word16, BitVec.extractLsb'_toNat, BitVec.toNat_append]
  rw [Nat.shiftRight_or_distrib, Nat.shiftLeft_shiftRight, Nat.shiftRight_eq_div_pow, Nat.div_eq_of_lt small, Nat.or_zero,
    Nat.mod_eq_of_lt hi.isLt]

@[simp] theorem lowByte_word16 (hi lo : Byte) : lowByte (word16 hi lo) = lo := by
  apply BitVec.eq_of_toNat_eq
  simp only [lowByte, word16, BitVec.extractLsb'_toNat, BitVec.toNat_append, Nat.shiftRight_zero]
  rw [Nat.or_mod_two_pow, Nat.shiftLeft_eq, Nat.mul_mod_left, Nat.zero_or, Nat.mod_eq_of_lt lo.isLt]

/-- Setting the id a message has changes nothing. -/
theorem dnsWireSetTxid_self {buf : List Byte} (long : 2 ≤ buf.length) :
    dnsWireSetTxid buf (dnsWireGetTxid buf) = buf := by
  match buf, long with
  | hi :: lo :: rest, _ =>
    have set_both : dnsWireSetTxid (hi :: lo :: rest) (word16 hi lo) =
        highByte (word16 hi lo) :: lowByte (word16 hi lo) :: rest := rfl
    rwa [highByte_word16, lowByte_word16] at set_both

/-! ## Questions -/

/-- `dns_wire_question_t`; `qname` are the bytes before the terminator. -/
structure DnsWireQuestion where
  txid : BitVec 16
  qtype : BitVec 16
  qclass : BitVec 16
  questionEnd : Nat
  qname : List Byte
  deriving DecidableEq, Repr

/-- `buf[i]`. -/
def byteAt (msg : List Byte) (i : Nat) : Except Fault Byte :=
  match msg[i]? with
  | some b => .ok b
  | none => .error .outOfBounds

/-- `(uint16_t)((buf[i] << 8) | buf[i + 1])`. -/
def wordAt (msg : List Byte) (i : Nat) : Except Fault (BitVec 16) := do
  let hi ← byteAt msg i
  let lo ← byteAt msg (i + 1)
  return word16 hi lo

/-- The case folding of the label loop. -/
def foldCase (c : Byte) : Byte :=
  if 0x41#8 ≤ c ∧ c ≤ 0x5A#8 then c - 0x41#8 + 0x61#8 else c

/-- `out->qname[name_len++] = c`, unless no room is left for it and a terminator. -/
def pushName (name : List Byte) (c : Byte) : Option (List Byte) :=
  if name.length + 1 ≥ dnsWireMaxNameLen then none else some (name ++ [c])

/-- One label behind the name so far, a dot between the two. -/
def appendLabel (name label : List Byte) : Option (List Byte) := do
  let name ← if name.length > 0 then pushName name 0x2E#8 else some name
  label.foldlM (fun name c => pushName name (foldCase c)) name

/-- The label loop: the name and the position behind it. Every turn but the last
passes at least one byte, so a fuel of the message's length is enough. -/
def parseName (msg : List Byte) : Nat → Nat → List Byte → Except Fault (Option (List Byte × Nat))
  | 0, _, _ => .ok none
  | fuel + 1, pos, name =>
    if pos ≥ msg.length then .ok none
    else do
      let labelLen ← byteAt msg pos
      if labelLen = 0#8 then return some (name, pos + 1)
      else if labelLen &&& 0xC0#8 ≠ 0#8 then return none
      else if pos + 1 + labelLen.toNat > msg.length then return none
      else
        match appendLabel name ((msg.drop (pos + 1)).take labelLen.toNat) with
        | none => return none
        | some name => parseName msg fuel (pos + 1 + labelLen.toNat) name

/-- `dns_wire_parse_question` on a message of `msg.length` bytes. -/
def dnsWireParseQuestion (msg : List Byte) : Except Fault (Option DnsWireQuestion) :=
  if msg.length < dnsWireHeaderLen then .ok none
  else do
    let qdcount ← wordAt msg 4
    if qdcount = 0#16 then return none
    else
      match ← parseName msg msg.length dnsWireHeaderLen [] with
      | none => return none
      | some (qname, pos) =>
        if pos + 4 > msg.length then return none
        else
          let qtype ← wordAt msg pos
          let qclass ← wordAt msg (pos + 2)
          return some { txid := dnsWireGetTxid msg, qtype, qclass, questionEnd := pos + 4, qname }

/-- The label loop moves on. -/
theorem parseName_pos {msg : List Byte} {fuel pos pos' : Nat} {name qname : List Byte}
    (parsed : parseName msg fuel pos name = .ok (some (qname, pos'))) : pos < pos' := by
  induction fuel generalizing pos name with
  | zero => cases parsed
  | succ fuel ih =>
    rw [parseName] at parsed
    split at parsed
    · cases parsed
    simp only [bind, Except.bind] at parsed
    split at parsed
    · cases parsed
    split at parsed
    · cases parsed
      exact Nat.lt_succ_self pos
    split at parsed
    · cases parsed
    split at parsed
    · cases parsed
    split at parsed
    · cases parsed
    · have := ih parsed
      omega

/-- An accepted question ends inside the message, behind the header, a root label and its type and class. -/
theorem questionEnd_bounds {msg : List Byte} {q : DnsWireQuestion} (accepted : dnsWireParseQuestion msg = .ok (some q)) :
    17 ≤ q.questionEnd ∧ q.questionEnd ≤ msg.length := by
  rw [dnsWireParseQuestion] at accepted
  split at accepted
  · cases accepted
  simp only [bind, Except.bind] at accepted
  split at accepted
  · cases accepted
  split at accepted
  · cases accepted
  split at accepted
  · cases accepted
  rename_i parsed
  split at accepted
  · cases accepted
  · rename_i qname pos
    have past := parseName_pos parsed
    split at accepted
    · cases accepted
    split at accepted
    · cases accepted
    split at accepted
    · cases accepted
    · cases accepted
      simp only [dnsWireHeaderLen] at past
      exact ⟨by simp only; omega, by simp only; omega⟩

theorem byteAt_total {msg : List Byte} {i : Nat} (inside : i < msg.length) : ∃ b, byteAt msg i = .ok b :=
  ⟨msg[i], by rw [byteAt, List.getElem?_eq_getElem inside]⟩

theorem wordAt_total {msg : List Byte} {i : Nat} (inside : i + 1 < msg.length) : ∃ w, wordAt msg i = .ok w := by
  obtain ⟨hi, first⟩ := byteAt_total (show i < msg.length by omega)
  obtain ⟨lo, second⟩ := byteAt_total inside
  exact ⟨word16 hi lo, by rw [wordAt, first, second]; rfl⟩

theorem parseName_total (msg : List Byte) (fuel pos : Nat) (name : List Byte) :
    ∃ r, parseName msg fuel pos name = .ok r := by
  induction fuel generalizing pos name with
  | zero => exact ⟨none, rfl⟩
  | succ fuel ih =>
    rw [parseName]
    split
    · exact ⟨none, rfl⟩
    · rename_i inside
      obtain ⟨labelLen, read⟩ := byteAt_total (Nat.lt_of_not_le inside)
      simp only [read, bind, Except.bind]
      split
      · exact ⟨_, rfl⟩
      split
      · exact ⟨_, rfl⟩
      split
      · exact ⟨_, rfl⟩
      split
      · exact ⟨_, rfl⟩
      · exact ih _ _

/-- **The parser reads inside the message, whatever the message.** -/
theorem dnsWireParseQuestion_total (msg : List Byte) : ∃ r, dnsWireParseQuestion msg = .ok r := by
  rw [dnsWireParseQuestion]
  split
  · exact ⟨none, rfl⟩
  · rename_i header
    rw [dnsWireHeaderLen] at header
    obtain ⟨qdcount, counted⟩ := wordAt_total (show 4 + 1 < msg.length by omega)
    simp only [counted, bind, Except.bind]
    split
    · exact ⟨_, rfl⟩
    · obtain ⟨name, parsed⟩ := parseName_total msg msg.length dnsWireHeaderLen []
      rw [parsed]
      match name with
      | none => exact ⟨_, rfl⟩
      | some (qname, pos) =>
        dsimp only
        split
        · exact ⟨_, rfl⟩
        · rename_i room
          obtain ⟨qtype, typed⟩ := wordAt_total (show pos + 1 < msg.length by omega)
          obtain ⟨qclass, classed⟩ := wordAt_total (show pos + 2 + 1 < msg.length by omega)
          rw [typed, classed]
          exact ⟨_, rfl⟩

/-- The name, type and class a message asks for, if it can be parsed. -/
def question (msg : List Byte) : Option (List Byte × BitVec 16 × BitVec 16) :=
  match dnsWireParseQuestion msg with
  | .ok (some q) => some (q.qname, q.qtype, q.qclass)
  | _ => none

theorem byteAt_dnsWireSetTxid (msg : List Byte) (txid : BitVec 16) {i : Nat} (behind : 2 ≤ i) :
    byteAt (dnsWireSetTxid msg txid) i = byteAt msg i := by
  rw [byteAt, dnsWireSetTxid, List.getElem?_set_ne (by omega), List.getElem?_set_ne (by omega), byteAt]

theorem wordAt_dnsWireSetTxid (msg : List Byte) (txid : BitVec 16) {i : Nat} (behind : 2 ≤ i) :
    wordAt (dnsWireSetTxid msg txid) i = wordAt msg i := by
  rw [wordAt, byteAt_dnsWireSetTxid msg txid behind, byteAt_dnsWireSetTxid msg txid (by omega), wordAt]

theorem parseName_dnsWireSetTxid (msg : List Byte) (txid : BitVec 16) {fuel pos : Nat} {name : List Byte} (behind : 2 ≤ pos) :
    parseName (dnsWireSetTxid msg txid) fuel pos name = parseName msg fuel pos name := by
  induction fuel generalizing pos name with
  | zero => rfl
  | succ fuel ih =>
    have label : (dnsWireSetTxid msg txid).drop (pos + 1) = msg.drop (pos + 1) := by
      rw [dnsWireSetTxid, List.drop_set_of_lt (by omega), List.drop_set_of_lt (by omega)]
    rw [parseName, parseName, length_dnsWireSetTxid, byteAt_dnsWireSetTxid msg txid behind, label]
    split
    · rfl
    · refine bind_congr fun labelLen => ?_
      rw [show (fun name => parseName (dnsWireSetTxid msg txid) fuel (pos + 1 + labelLen.toNat) name) =
        fun name => parseName msg fuel (pos + 1 + labelLen.toNat) name from funext fun name => ih (by omega)]

/-- The transaction id is no part of the question. -/
theorem question_dnsWireSetTxid (msg : List Byte) (txid : BitVec 16) :
    question (dnsWireSetTxid msg txid) = question msg := by
  have parsed : dnsWireParseQuestion (dnsWireSetTxid msg txid) = (dnsWireParseQuestion msg).map
      (Option.map fun q => { q with txid := dnsWireGetTxid (dnsWireSetTxid msg txid) }) := by
    rw [dnsWireParseQuestion, dnsWireParseQuestion, length_dnsWireSetTxid, wordAt_dnsWireSetTxid msg txid (by decide),
      parseName_dnsWireSetTxid msg txid (by decide)]
    split
    · rfl
    simp only [bind, Except.bind]
    rcases wordAt msg 4 with _ | qdcount
    · rfl
    dsimp only
    split
    · rfl
    rcases walked : parseName msg msg.length dnsWireHeaderLen [] with _ | (_ | ⟨qname, pos⟩)
    · rfl
    · rfl
    have past := parseName_pos walked
    rw [dnsWireHeaderLen] at past
    dsimp only
    split
    · rfl
    rw [wordAt_dnsWireSetTxid msg txid (by omega), wordAt_dnsWireSetTxid msg txid (by omega)]
    rcases wordAt msg pos with _ | qtype
    · rfl
    rcases wordAt msg (pos + 2) with _ | qclass <;> rfl
  rw [question, parsed, question]
  rcases dnsWireParseQuestion msg with _ | (_ | q) <;> rfl

/-! ## Responses -/

/-- `buf[pos++] = b` for each byte in turn. -/
def writeAt (buf : List Byte) (pos : Nat) (bytes : List Byte) : List Byte :=
  buf.take pos ++ bytes ++ buf.drop (pos + bytes.length)

/-- `(uint8_t)((buf[2] | 0x80) & ~0x06)`. -/
def responseFlags (b : Byte) : Byte := (b ||| 0x80#8) &&& ~~~0x06#8

/-- `dns_wire_make_error_response` on a message of `len` bytes in `buf`. -/
def dnsWireMakeErrorResponse (buf : List Byte) (len : Nat) (rcode : Byte) : List Byte :=
  if len < dnsWireHeaderLen then buf
  else (buf.set 2 (responseFlags (buf.getD 2 0#8))).set 3 (0x80#8 ||| (rcode &&& 0x0F#8))

/-- The answer record of `dns_wire_make_zero_answer`, its name a pointer to the question's. -/
def zeroAnswer (qtype : BitVec 16) (rdlength : Nat) : List Byte :=
  [0xC0#8, 0x0C#8, highByte qtype, lowByte qtype, 0x00#8, 0x01#8, 0x00#8, 0x00#8, 0x00#8, 0x3C#8,
    BitVec.ofNat 8 (rdlength / 256), BitVec.ofNat 8 rdlength] ++ List.replicate rdlength 0#8

/-- `dns_wire_make_zero_answer`: the new length, 0 when nothing was written, and the buffer. -/
def dnsWireMakeZeroAnswer (buf : List Byte) (questionEnd bufCap : Nat) (qtype : BitVec 16) : Nat × List Byte :=
  if qtype = dnsTypeA ∨ qtype = dnsTypeAaaa then
    let rdlength := if qtype = dnsTypeA then 4 else 16
    let answerLen := 2 + 2 + 2 + 4 + 2 + rdlength
    if questionEnd + answerLen > bufCap then (0, buf)
    else
      let buf := writeAt buf questionEnd (zeroAnswer qtype rdlength)
      let buf := writeAt buf 2 [responseFlags (buf.getD 2 0#8), 0x80#8]
      (questionEnd + answerLen, writeAt buf 6 [0x00#8, 0x01#8, 0x00#8, 0x00#8, 0x00#8, 0x00#8])
  else (0, buf)

theorem take_dnsWireMakeErrorResponse (buf : List Byte) {len : Nat} (rcode : Byte) :
    (dnsWireMakeErrorResponse buf len rcode).take len = dnsWireMakeErrorResponse (buf.take len) len rcode := by
  rw [dnsWireMakeErrorResponse, dnsWireMakeErrorResponse]
  split
  · rfl
  · rename_i long
    have flags : (buf.take len).getD 2 0#8 = buf.getD 2 0#8 := by
      rw [dnsWireHeaderLen] at long
      simp [List.getD_eq_getElem?_getD, show 2 < len by omega]
    rw [List.take_set, List.take_set, flags]

/-- An error response keeps the transaction id. -/
theorem dnsWireGetTxid_errorResponse (buf : List Byte) (len : Nat) (rcode : Byte) :
    dnsWireGetTxid (dnsWireMakeErrorResponse buf len rcode) = dnsWireGetTxid buf := by
  apply dnsWireGetTxid_congr
  rw [dnsWireMakeErrorResponse]
  split
  · rfl
  · rw [List.take_set_of_le (by decide), List.take_set_of_le (by decide)]

theorem take_two_writeAt {buf : List Byte} {pos : Nat} (bytes : List Byte) (long : 2 ≤ buf.length) (past : 2 ≤ pos) :
    (writeAt buf pos bytes).take 2 = buf.take 2 := by
  have room : 2 ≤ (buf.take pos).length := by rw [List.length_take]; omega
  rw [writeAt, List.append_assoc, List.take_append_of_le_length room, List.take_take, Nat.min_eq_left past]

theorem two_le_length_writeAt {buf : List Byte} {pos : Nat} (bytes : List Byte) (long : 2 ≤ buf.length) (past : 2 ≤ pos) :
    2 ≤ (writeAt buf pos bytes).length := by
  have same := congrArg List.length (take_two_writeAt bytes long past)
  rw [List.length_take, List.length_take] at same
  omega

/-- A zero-address answer keeps the transaction id. -/
theorem dnsWireGetTxid_zeroAnswer {buf : List Byte} {questionEnd cap : Nat} {qtype : BitVec 16} (long : 2 ≤ buf.length)
    (past : 2 ≤ questionEnd) :
    dnsWireGetTxid (dnsWireMakeZeroAnswer buf questionEnd cap qtype).2 = dnsWireGetTxid buf := by
  apply dnsWireGetTxid_congr
  by_cases answered : qtype = dnsTypeA ∨ qtype = dnsTypeAaaa
  · simp only [dnsWireMakeZeroAnswer, if_pos answered]
    generalize (if qtype = dnsTypeA then 4 else 16) = rdlength
    split
    · rfl
    · have long₁ := two_le_length_writeAt (zeroAnswer qtype rdlength) long past
      rw [take_two_writeAt _ (two_le_length_writeAt _ long₁ (by decide)) (by decide),
        take_two_writeAt _ long₁ (by decide), take_two_writeAt _ long past]
  · rw [dnsWireMakeZeroAnswer, if_neg answered]

/-- A zero-address answer is longer than the question. -/
theorem le_zeroAnswer_length {buf : List Byte} {questionEnd cap : Nat} {qtype : BitVec 16}
    (written : 0 < (dnsWireMakeZeroAnswer buf questionEnd cap qtype).1) :
    questionEnd ≤ (dnsWireMakeZeroAnswer buf questionEnd cap qtype).1 := by
  by_cases answered : qtype = dnsTypeA ∨ qtype = dnsTypeAaaa
  · simp only [dnsWireMakeZeroAnswer, if_pos answered] at written ⊢
    generalize (if qtype = dnsTypeA then 4 else 16) = rdlength at written ⊢
    split at written
    · exact absurd written (Nat.lt_irrefl 0)
    · rename_i room
      rw [if_neg room]
      exact Nat.le_add_right _ _
  · rw [dnsWireMakeZeroAnswer, if_neg answered] at written
    exact absurd written (Nat.lt_irrefl 0)

end EspAdblocker.Dns
