import EspAdblocker.Dns.Grammar

/-!
# The parser over its name buffer

`dns_wire_parse_question` with the 255 bytes of `qname` it stores into: a store
past them, like a read past the message, is a fault. No message leads to one,
and what is reported is what the parser over lists reports.
-/

namespace EspAdblocker.Dns

open EspAdblocker.Lib

/-! ## The parser -/

/-- `out->qname`. -/
abbrev NameBuf := Vector Byte dnsWireMaxNameLen

/-- `out` with the whole of its name buffer. -/
structure QuestionOut where
  txid : BitVec 16
  qtype : BitVec 16
  qclass : BitVec 16
  questionEnd : Nat
  qname : NameBuf

/-- `out->qname[i] = c`. -/
def storeAt (qname : NameBuf) (i : Nat) (c : Byte) : Except Fault NameBuf :=
  if inside : i < dnsWireMaxNameLen then .ok (qname.set i c inside) else .error .outOfBounds

/-- The dot in front of a label, from the second label on. -/
def pushDot (qname : NameBuf) (nameLen : Nat) : Except Fault (Option (NameBuf × Nat)) :=
  if nameLen > 0 then
    if nameLen + 1 ≥ dnsWireMaxNameLen then .ok none
    else do
      let qname ← storeAt qname nameLen 0x2E#8
      return some (qname, nameLen + 1)
  else .ok (some (qname, nameLen))

/-- The loop that copies a label of `labelLen` bytes at `pos`, from its byte `i` on. -/
def copyLabel (msg : List Byte) (pos labelLen i : Nat) (qname : NameBuf) (nameLen : Nat) :
    Except Fault (Option (NameBuf × Nat)) :=
  if i < labelLen then
    if nameLen + 1 ≥ dnsWireMaxNameLen then .ok none
    else do
      let c ← byteAt msg (pos + i)
      let qname ← storeAt qname nameLen (foldCase c)
      copyLabel msg pos labelLen (i + 1) qname (nameLen + 1)
  else .ok (some (qname, nameLen))
termination_by labelLen - i

/-- The label loop: the buffer, the length of the name in it and the position behind the name. -/
def parseNameInto (msg : List Byte) (pos : Nat) (qname : NameBuf) (nameLen : Nat) :
    Except Fault (Option (NameBuf × Nat × Nat)) :=
  if _ : pos ≥ msg.length then .ok none
  else do
    let labelLen ← byteAt msg pos
    if labelLen = 0#8 then return some (qname, nameLen, pos + 1)
    else if labelLen &&& 0xC0#8 ≠ 0#8 then return none
    else if pos + 1 + labelLen.toNat > msg.length then return none
    else
      match ← pushDot qname nameLen with
      | none => return none
      | some (qname, nameLen) =>
        match ← copyLabel msg (pos + 1) labelLen.toNat 0 qname nameLen with
        | none => return none
        | some (qname, nameLen) => parseNameInto msg (pos + 1 + labelLen.toNat) qname nameLen
termination_by msg.length - pos

/-- `dns_wire_parse_question`, storing into `qname`. -/
def dnsWireParseQuestionInto (msg : List Byte) (qname : NameBuf) : Except Fault (Option QuestionOut) :=
  if msg.length < dnsWireHeaderLen then .ok none
  else do
    let qdcount ← wordAt msg 4
    if qdcount = 0#16 then return none
    else
      let qname ← storeAt qname 0 0#8
      match ← parseNameInto msg dnsWireHeaderLen qname 0 with
      | none => return none
      | some (qname, nameLen, pos) =>
        let qname ← storeAt qname nameLen 0#8
        if pos + 4 > msg.length then return none
        else
          let qtype ← wordAt msg pos
          let qclass ← wordAt msg (pos + 2)
          return some { txid := dnsWireGetTxid msg, qtype, qclass, questionEnd := pos + 4, qname }

/-! ## The refinement -/

/-- The name read so far stands at the front of the buffer, with room for a terminator. -/
structure Holding (qname : NameBuf) (name : List Byte) : Prop where
  room : name.length < dnsWireMaxNameLen
  text : qname.toList.take name.length = name

/-- A byte is stored behind the name. -/
theorem storeAt_behind {qname : NameBuf} {name : List Byte} (h : Holding qname name) (c : Byte) :
    ∃ qname', storeAt qname name.length c = .ok qname' ∧ qname'.toList.take (name.length + 1) = name ++ [c] := by
  refine ⟨qname.set name.length c h.room, by rw [storeAt, dif_pos h.room], ?_⟩
  have size : name.length < qname.toList.length := by
    rw [Vector.length_toList]
    exact h.room
  rw [Vector.toList_set, List.take_add_one, List.getElem?_set_self size, List.take_set_of_le (Nat.le_refl _), h.text]
  rfl

theorem appendLabel_eq_bind (name label : List Byte) :
    appendLabel name label = (if name.length > 0 then pushName name 0x2E#8 else some name).bind fun name =>
      label.foldlM (fun name c => pushName name (foldCase c)) name := by
  rw [appendLabel]
  split <;> rfl

/-- What the two parsers make of a label. -/
inductive Mirrors : Option (NameBuf × Nat) → Option (List Byte) → Prop where
  | rejected : Mirrors none none
  | stored {qname : NameBuf} {name : List Byte} : Holding qname name → Mirrors (some (qname, name.length)) (some name)

theorem pushDot_mirrors {qname : NameBuf} {name : List Byte} (h : Holding qname name) :
    ∃ r, pushDot qname name.length = .ok r ∧
      Mirrors r (if name.length > 0 then pushName name 0x2E#8 else some name) := by
  rw [pushDot]
  split
  · rw [pushName]
    split
    · exact ⟨none, rfl, .rejected⟩
    · rename_i room
      obtain ⟨qname', stored, text⟩ := storeAt_behind h 0x2E#8
      refine ⟨some (qname', name.length + 1), by rw [stored]; rfl, ?_⟩
      have longer : name.length + 1 = (name ++ [0x2E#8]).length := by rw [List.length_append, List.length_singleton]
      rw [longer] at text ⊢
      exact .stored ⟨by omega, text⟩
  · exact ⟨_, rfl, .stored h⟩

theorem copyLabel_mirrors {msg label rest : List Byte} {pos labelLen i : Nat} {qname : NameBuf} {name : List Byte}
    (h : Holding qname name) (here : msg.drop (pos + i) = label ++ rest) (size : i + label.length = labelLen) :
    ∃ r, copyLabel msg pos labelLen i qname name.length = .ok r ∧
      Mirrors r (label.foldlM (fun name c => pushName name (foldCase c)) name) := by
  induction label generalizing i qname name with
  | nil =>
    rw [List.length_nil] at size
    rw [copyLabel, if_neg (by omega)]
    exact ⟨_, rfl, .stored h⟩
  | cons c label ih =>
    rw [List.length_cons] at size
    rw [copyLabel, if_pos (by omega), List.foldlM_cons, pushName]
    split
    · exact ⟨none, rfl, .rejected⟩
    · rename_i room
      obtain ⟨qname', stored, text⟩ := storeAt_behind h (foldCase c)
      have longer : name.length + 1 = (name ++ [foldCase c]).length := by rw [List.length_append, List.length_singleton]
      rw [longer] at text room
      simp only [byteAt_drop (here.trans (List.cons_append ..)), bind, Except.bind, stored, longer, Option.bind_some]
      exact ih ⟨by omega, text⟩ (by rw [← Nat.add_assoc]; exact drop_next here) (by omega)

/-- What the two parsers make of the rest of a name. -/
inductive MirrorsName : Option (NameBuf × Nat × Nat) → Option (List Byte × Nat) → Prop where
  | rejected : MirrorsName none none
  | ended {qname : NameBuf} {name : List Byte} {pos : Nat} : Holding qname name →
      MirrorsName (some (qname, name.length, pos)) (some (name, pos))

/-- The loop over the buffer leaves neither the message nor the buffer, and reads what the loop over lists reads. -/
theorem parseNameInto_mirrors {msg : List Byte} {fuel pos : Nat} {qname : NameBuf} {name : List Byte}
    (h : Holding qname name) (enough : msg.length ≤ pos + fuel) :
    ∃ r s, parseNameInto msg pos qname name.length = .ok r ∧ parseName msg fuel pos name = .ok s ∧ MirrorsName r s := by
  induction fuel generalizing pos qname name with
  | zero =>
    rw [parseNameInto, dif_pos (by omega)]
    exact ⟨none, none, rfl, rfl, .rejected⟩
  | succ fuel ih =>
    rw [parseNameInto, parseName]
    by_cases past : pos ≥ msg.length
    · rw [dif_pos past, if_pos past]
      exact ⟨none, none, rfl, rfl, .rejected⟩
    obtain ⟨labelLen, read⟩ := byteAt_total (Nat.lt_of_not_le past)
    rw [dif_neg past, if_neg past, read]
    simp only [bind, Except.bind]
    by_cases zero : labelLen = 0#8
    · rw [if_pos zero, if_pos zero]
      exact ⟨_, _, rfl, rfl, .ended h⟩
    rw [if_neg zero, if_neg zero]
    by_cases plain : labelLen &&& 0xC0#8 ≠ 0#8
    · rw [if_pos plain, if_pos plain]
      exact ⟨none, none, rfl, rfl, .rejected⟩
    rw [if_neg plain, if_neg plain]
    by_cases beyond : pos + 1 + labelLen.toNat > msg.length
    · rw [if_pos beyond, if_pos beyond]
      exact ⟨none, none, rfl, rfl, .rejected⟩
    rw [if_neg beyond, if_neg beyond]
    have label : msg.drop (pos + 1 + 0) = (msg.drop (pos + 1)).take labelLen.toNat ++ (msg.drop (pos + 1)).drop labelLen.toNat :=
      (List.take_append_drop ..).symm
    have size : 0 + ((msg.drop (pos + 1)).take labelLen.toNat).length = labelLen.toNat := by
      rw [List.length_take, List.length_drop]
      omega
    generalize (msg.drop (pos + 1)).take labelLen.toNat = bytes at label size
    obtain ⟨dot, dotted, mirrors⟩ := pushDot_mirrors h
    rw [dotted, appendLabel_eq_bind]
    generalize (if name.length > 0 then pushName name 0x2E#8 else some name) = named at mirrors
    cases mirrors with
    | rejected => exact ⟨none, none, rfl, rfl, .rejected⟩
    | stored held =>
      obtain ⟨copied, ran, mirrors⟩ := copyLabel_mirrors held label size
      rw [Option.bind_some]
      dsimp only
      rw [ran]
      generalize (bytes.foldlM (fun name c => pushName name (foldCase c)) _) = labelled at mirrors
      cases mirrors with
      | rejected => exact ⟨none, none, rfl, rfl, .rejected⟩
      | stored held =>
        have moved := byte_toNat_pos zero
        exact ih held (show msg.length ≤ pos + 1 + labelLen.toNat + fuel by omega)

/-- The question the parser reports over its buffer is the one over lists, its name a C string of the buffer. -/
structure Reports (out : QuestionOut) (q : DnsWireQuestion) : Prop where
  txid : out.txid = q.txid
  qtype : out.qtype = q.qtype
  qclass : out.qclass = q.qclass
  questionEnd : out.questionEnd = q.questionEnd
  qname : out.qname.toList.take (q.qname.length + 1) = q.qname ++ [0#8]

/-- **The parser over the buffer refines the parser over lists**: it leaves neither the
message nor the buffer, and rejects or reports the same. -/
theorem dnsWireParseQuestionInto_refines (msg : List Byte) (qname : NameBuf) :
    ∃ r s, dnsWireParseQuestionInto msg qname = .ok r ∧ dnsWireParseQuestion msg = .ok s ∧
      (r = none ∧ s = none ∨ ∃ out q, r = some out ∧ s = some q ∧ Reports out q) := by
  rw [dnsWireParseQuestionInto, dnsWireParseQuestion]
  by_cases short : msg.length < dnsWireHeaderLen
  · rw [if_pos short, if_pos short]
    exact ⟨none, none, rfl, rfl, .inl ⟨rfl, rfl⟩⟩
  rw [if_neg short, if_neg short]
  rw [dnsWireHeaderLen] at short
  obtain ⟨qdcount, counted⟩ := wordAt_total (show 4 + 1 < msg.length by omega)
  simp only [counted, bind, Except.bind]
  by_cases zero : qdcount = 0#16
  · rw [if_pos zero, if_pos zero]
    exact ⟨none, none, rfl, rfl, .inl ⟨rfl, rfl⟩⟩
  rw [if_neg zero, if_neg zero]
  have blank : ∃ cleared, storeAt qname 0 0#8 = .ok cleared ∧ Holding cleared [] :=
    ⟨_, dif_pos (by decide), by decide, rfl⟩
  obtain ⟨cleared, stored, held⟩ := blank
  obtain ⟨r, s, ran, parsed, mirrors⟩ :=
    parseNameInto_mirrors held (show msg.length ≤ dnsWireHeaderLen + msg.length from Nat.le_add_left _ _)
  rw [List.length_nil] at ran
  rw [stored]
  dsimp only
  rw [ran, parsed]
  cases mirrors with
  | rejected => exact ⟨none, none, rfl, rfl, .inl ⟨rfl, rfl⟩⟩
  | @ended qname name pos held =>
    obtain ⟨final, terminated, text⟩ := storeAt_behind held 0#8
    dsimp only
    rw [terminated]
    dsimp only
    by_cases room : pos + 4 > msg.length
    · rw [if_pos room, if_pos room]
      exact ⟨none, none, rfl, rfl, .inl ⟨rfl, rfl⟩⟩
    · obtain ⟨qtype, typed⟩ := wordAt_total (show pos + 1 < msg.length by omega)
      obtain ⟨qclass, classed⟩ := wordAt_total (show pos + 2 + 1 < msg.length by omega)
      rw [if_neg room, if_neg room, typed, classed]
      exact ⟨_, _, rfl, rfl, .inr ⟨_, _, rfl, rfl, rfl, rfl, rfl, rfl, text⟩⟩

/-- **The parser accepts exactly its grammar**, whatever the message: it ends without leaving
the message or the name buffer, returns true exactly on a question, and then reports it. -/
theorem parse_question_exact (msg : List Byte) (qname : NameBuf) :
    ∃ r, dnsWireParseQuestionInto msg qname = .ok r ∧
      (r.isSome = true ↔ ∃ labels qtype qclass rest, Asks msg labels qtype qclass rest) ∧
      ∀ out, r = some out → ∀ labels qtype qclass rest, Asks msg labels qtype qclass rest →
        Reports out (asked msg labels qtype qclass) := by
  obtain ⟨r, s, ran, parsed, rejected | ⟨out, q, rfl, rfl, reports⟩⟩ := dnsWireParseQuestionInto_refines msg qname
  · obtain ⟨rfl, rfl⟩ := rejected
    refine ⟨none, ran, ⟨?_, ?_⟩, ?_⟩
    · intro impossible
      cases impossible
    · rintro ⟨labels, qtype, qclass, rest, asks⟩
      have accepted := asks.accepted
      rw [parsed] at accepted
      cases accepted
    · intro out impossible
      cases impossible
  · obtain ⟨labels, qtype, qclass, rest, asks, rfl⟩ := dnsWireParseQuestion_iff.mp parsed
    refine ⟨some out, ran, ⟨fun _ => ⟨labels, qtype, qclass, rest, asks⟩, fun _ => rfl⟩, ?_⟩
    rintro _ ⟨⟩ labels' qtype' qclass' rest' asks'
    obtain ⟨rfl, rfl, rfl, -⟩ := asks.unique asks'
    exact reports

end EspAdblocker.Dns
