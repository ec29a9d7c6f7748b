import EspAdblocker.Dns.Wire
import EspAdblocker.Lib.Labels

/-!
# What `dns_wire_parse_question` accepts

The grammar of a question (`Asks`): a header with questions, a name of labels
whose text fits the name buffer, a type and a class. The parser accepts exactly
the messages it derives (`dnsWireParseQuestion_iff`), and a message asks at most
one question (`Asks.unique`).
-/

namespace EspAdblocker.Dns

open EspAdblocker.Lib

/-! ## The grammar -/

/-- The text of a name as the parser writes it: small letters, dots between the labels. -/
def dotted (labels : List Label) : List Byte := joined 0x2E#8 (labels.map fun l => l.bytes.map foldCase)

/-- The length of the text of a name. -/
def textLength (labels : List Label) : Nat := (labels.map fun l => l.bytes.length).sum + (labels.length - 1)

theorem length_dotted (labels : List Label) : (dotted labels).length = textLength labels := by
  rw [dotted, length_joined, List.map_map, List.length_map, textLength]
  simp [Function.comp_def]

@[simp] theorem dotted_nil : dotted [] = [] := rfl

/-- Only the root has no text. -/
theorem dotted_eq_nil_iff {labels : List Label} : dotted labels = [] ↔ labels = [] := by
  rw [dotted, joined_eq_nil_iff, List.map_eq_nil_iff]
  intro piece member
  obtain ⟨l, -, rfl⟩ := List.mem_map.mp member
  simpa using l.bytes_ne_nil

theorem dotted_concat (labels : List Label) (l : Label) :
    dotted (labels ++ [l]) = (if labels = [] then [] else dotted labels ++ [0x2E#8]) ++ l.bytes.map foldCase := by
  split
  · rename_i root
    rw [root, List.nil_append, dotted, List.map_singleton, joined_singleton, List.nil_append]
  · rename_i some
    rw [dotted, List.map_append, List.map_singleton, joined_concat _ (by simpa using some), ← dotted, List.append_assoc,
      List.singleton_append]

/-- `QDCOUNT`. -/
def qdCount (msg : List Byte) : BitVec 16 := word16 (msg.getD 4 0#8) (msg.getD 5 0#8)

/-- A message asks for a name, a type and a class, and more bytes may follow. -/
structure Asks (msg : List Byte) (labels : List Label) (qtype qclass : BitVec 16) (rest : List Byte) : Prop where
  header : dnsWireHeaderLen ≤ msg.length
  counted : qdCount msg ≠ 0#16
  question : msg.drop dnsWireHeaderLen =
    wireName labels ++ highByte qtype :: lowByte qtype :: highByte qclass :: lowByte qclass :: rest
  fits : textLength labels ≤ 254

/-- What the parser reports of a question. -/
def asked (msg : List Byte) (labels : List Label) (qtype qclass : BitVec 16) : DnsWireQuestion where
  txid := dnsWireGetTxid msg
  qtype
  qclass
  questionEnd := dnsWireHeaderLen + (wireName labels).length + 4
  qname := dotted labels

/-! ## The label loop -/

/-- Bytes are stored as long as a terminator still fits behind them. -/
theorem foldlM_pushName {name : List Byte} (label : List Byte) (fits : name.length ≤ 254) :
    label.foldlM (fun name c => pushName name (foldCase c)) name =
      if name.length + label.length ≤ 254 then some (name ++ label.map foldCase) else none := by
  induction label generalizing name with
  | nil => simp [fits]
  | cons c label ih =>
    rw [List.foldlM_cons, pushName, dnsWireMaxNameLen]
    by_cases room : name.length + 1 ≥ 255
    · have full : ¬ name.length + (c :: label).length ≤ 254 := by
        rw [List.length_cons]
        omega
      rw [if_pos room, if_neg full]
      rfl
    · have shorter : (name ++ [foldCase c]).length + label.length = name.length + (c :: label).length := by
        simp only [List.length_append, List.length_cons, List.length_nil]
        omega
      have fits : (name ++ [foldCase c]).length ≤ 254 := by
        rw [List.length_append, List.length_singleton]
        omega
      rw [if_neg room, Option.bind_eq_bind, Option.bind_some, ih fits, shorter]
      simp

/-- One label behind the labels read so far. -/
theorem appendLabel_dotted {labels : List Label} (l : Label) (fits : textLength labels ≤ 254) :
    appendLabel (dotted labels) l.bytes =
      if textLength (labels ++ [l]) ≤ 254 then some (dotted (labels ++ [l])) else none := by
  have length := length_dotted (labels ++ [l])
  have before := length_dotted labels
  rw [dotted_concat] at length ⊢
  rw [appendLabel]
  by_cases root : labels = []
  · subst root
    simp only [if_true, List.nil_append, List.length_map] at length ⊢
    rw [dotted_nil, List.length_nil, if_neg (Nat.lt_irrefl 0), Option.bind_eq_bind, Option.bind_some,
      foldlM_pushName _ (Nat.zero_le _), ← length]
    simp
  · have text : 0 < (dotted labels).length := List.length_pos_of_ne_nil fun empty => root (dotted_eq_nil_iff.mp empty)
    rw [if_neg root] at length ⊢
    simp only [List.length_append, List.length_map, List.length_singleton] at length
    rw [if_pos text, pushName, dnsWireMaxNameLen]
    have nonempty := l.nonempty
    by_cases room : (dotted labels).length + 1 ≥ 255
    · rw [if_pos room, if_neg (by omega)]
      rfl
    · have fits : (dotted labels ++ [0x2E#8]).length ≤ 254 := by
        rw [List.length_append, List.length_singleton]
        omega
      have stored := foldlM_pushName l.bytes fits
      rw [List.length_append, List.length_singleton, length] at stored
      rw [if_neg room, Option.bind_eq_bind, Option.bind_some]
      exact stored

theorem textLength_mono (labels more : List Label) : textLength labels ≤ textLength (labels ++ more) := by
  simp only [textLength, List.map_append, List.sum_append, List.length_append]
  omega

/-- What is found behind what starts at a position. -/
theorem drop_behind {msg first rest : List Byte} {pos : Nat} (here : msg.drop pos = first ++ rest) :
    msg.drop (pos + first.length) = rest := by
  rw [← List.drop_drop, here, List.drop_left]

theorem drop_next {msg rest : List Byte} {pos : Nat} {b : Byte} (here : msg.drop pos = b :: rest) :
    msg.drop (pos + 1) = rest :=
  drop_behind (show msg.drop pos = [b] ++ rest from here)

theorem byteAt_drop {msg rest : List Byte} {pos : Nat} {b : Byte} (here : msg.drop pos = b :: rest) :
    byteAt msg pos = .ok b := by
  have first : msg[pos]? = some b := by rw [← List.head?_drop, here]; rfl
  rw [byteAt, first]

/-- The loop ends at a zero byte. -/
theorem parseName_root {msg rest name : List Byte} {pos : Nat} (fuel : Nat) (here : msg.drop pos = 0#8 :: rest) :
    parseName msg (fuel + 1) pos name = .ok (some (name, pos + 1)) := by
  have inside : ¬ pos ≥ msg.length := by
    intro past
    rw [List.drop_eq_nil_of_le past] at here
    cases here
  rw [parseName, if_neg inside, byteAt_drop here]
  rfl

/-- The loop takes a label. -/
theorem parseName_label {msg rest : List Byte} {pos : Nat} {labels : List Label} {l : Label} (fuel : Nat)
    (here : msg.drop pos = l.wire ++ rest) (fits : textLength labels ≤ 254) :
    parseName msg (fuel + 1) pos (dotted labels) =
      if textLength (labels ++ [l]) ≤ 254 then parseName msg fuel (pos + l.wire.length) (dotted (labels ++ [l]))
      else .ok none := by
  have size := congrArg List.length here
  rw [List.length_drop, List.length_append, Label.length_wire] at size
  have label : (msg.drop (pos + 1)).take l.bytes.length = l.bytes := by
    rw [drop_next (here.trans (List.cons_append ..)), List.take_left]
  have position : pos + 1 + l.bytes.length = pos + l.wire.length := by
    rw [Label.length_wire]
    omega
  have inside : ¬ pos + l.wire.length > msg.length := by omega
  rw [parseName, if_neg (by omega), byteAt_drop (here.trans (List.cons_append ..))]
  simp only [bind, Except.bind, if_neg l.lengthByte_ne_zero, l.lengthByte_and, ne_eq, not_true, if_false, Label.toNat_lengthByte,
    label, position, appendLabel_dotted l fits, if_neg inside]
  by_cases more : textLength (labels ++ [l]) ≤ 254
  · rw [if_pos more, if_pos more]
  · rw [if_neg more, if_neg more]
    rfl

/-- Anything else is rejected. -/
theorem parseName_other {msg name : List Byte} {pos : Nat} (fuel : Nat) (noRoot : ∀ rest, msg.drop pos ≠ 0#8 :: rest)
    (noLabel : ∀ (l : Label) (rest : List Byte), msg.drop pos ≠ l.wire ++ rest) :
    parseName msg fuel pos name = .ok none := by
  cases fuel with
  | zero => rfl
  | succ fuel =>
    rw [parseName]
    split
    · rfl
    rename_i inside
    have inside : pos < msg.length := by omega
    have here : msg.drop pos = msg[pos] :: msg.drop (pos + 1) := List.drop_eq_getElem_cons inside
    generalize msg[pos] = b at here
    simp only [byteAt_drop here, bind, Except.bind]
    split
    · rename_i zero
      exact absurd (zero ▸ here) (noRoot _)
    split
    · rfl
    split
    · rfl
    · rename_i nonzero plain room
      have size : ((msg.drop (pos + 1)).take b.toNat).length = b.toNat := by
        rw [List.length_take, List.length_drop]
        omega
      have short := Label.and_eq_zero_iff.mp (not_not.mp plain)
      let l : Label := ⟨(msg.drop (pos + 1)).take b.toNat, by
        have := byte_toNat_pos nonzero
        omega, by omega⟩
      have length : l.lengthByte = b := by
        apply BitVec.eq_of_toNat_eq
        rw [Label.toNat_lengthByte, size]
      refine absurd ?_ (noLabel l ((msg.drop (pos + 1)).drop b.toNat))
      rw [here, Label.wire, length, List.cons_append, List.take_append_drop]

/-- The three things the loop can find. -/
theorem next_cases (bytes : List Byte) :
    (∃ rest, bytes = 0#8 :: rest) ∨ (∃ (l : Label) (rest : List Byte), bytes = l.wire ++ rest) ∨
      ((∀ rest, bytes ≠ 0#8 :: rest) ∧ ∀ (l : Label) (rest : List Byte), bytes ≠ l.wire ++ rest) := by
  by_cases root : ∃ rest, bytes = 0#8 :: rest
  · exact .inl root
  by_cases label : ∃ (l : Label) (rest : List Byte), bytes = l.wire ++ rest
  · exact .inr (.inl label)
  · exact .inr (.inr ⟨fun rest here => root ⟨rest, here⟩, fun l rest here => label ⟨l, rest, here⟩⟩)

/-- **The label loop accepts exactly the names that fit**, behind the labels it has read. -/
theorem parseName_eq_some_iff {msg : List Byte} {fuel pos : Nat} {before : List Label} (enough : msg.length ≤ pos + fuel)
    (fits : textLength before ≤ 254) {qname : List Byte} {stop : Nat} :
    parseName msg fuel pos (dotted before) = .ok (some (qname, stop)) ↔
      ∃ labels rest, msg.drop pos = wireName labels ++ rest ∧ textLength (before ++ labels) ≤ 254 ∧
        qname = dotted (before ++ labels) ∧ stop = pos + (wireName labels).length := by
  induction fuel generalizing pos before with
  | zero =>
    rw [List.drop_eq_nil_of_le (by omega)]
    constructor
    · exact fun impossible => by cases impossible
    · rintro ⟨labels, rest, here, -⟩
      simp [wireName] at here
  | succ fuel ih =>
    obtain ⟨rest, here⟩ | ⟨l, rest, here⟩ | ⟨noRoot, noLabel⟩ := next_cases (msg.drop pos)
    · rw [parseName_root fuel here, here]
      constructor
      · intro done
        cases done
        exact ⟨[], rest, rfl, by rwa [List.append_nil], by rw [List.append_nil], rfl⟩
      · rintro ⟨labels, rest', name, -, rfl, rfl⟩
        obtain ⟨rfl, -⟩ := wireName_append_inj (show wireName [] ++ rest = wireName labels ++ rest' from name)
        rw [List.append_nil]
        rfl
    · have tail := drop_behind here
      rw [parseName_label fuel here fits]
      constructor
      · intro taken
        split at taken
        · rename_i more
          obtain ⟨labels, rest', name, fits', rfl, rfl⟩ :=
            (ih (by rw [Label.length_wire]; omega) more).mp taken
          rw [List.append_assoc] at fits' ⊢
          refine ⟨l :: labels, rest', ?_, fits', rfl, ?_⟩
          · rw [here, ← tail, name, wireName_cons, List.append_assoc]
          · rw [wireName_cons, List.length_append]
            omega
        · cases taken
      · rintro ⟨labels, rest', name, fits', rfl, rfl⟩
        rw [here] at name
        cases labels with
        | nil => exact absurd name (l.wire_append_ne_zero _ _)
        | cons l' labels =>
          rw [wireName_cons, List.append_assoc] at name
          obtain ⟨rfl, -⟩ := Label.wire_append_inj name
          have split : before ++ l :: labels = before ++ [l] ++ labels := by simp
          rw [split] at fits'
          have more := (textLength_mono _ labels).trans fits'
          rw [if_pos more]
          refine (ih (by rw [Label.length_wire]; omega) more).mpr
            ⟨labels, rest', tail.trans (List.append_cancel_left name), fits', by rw [split], ?_⟩
          rw [wireName_cons, List.length_append]
          omega
    · rw [parseName_other (fuel + 1) noRoot noLabel]
      constructor
      · exact fun impossible => by cases impossible
      · rintro ⟨labels, rest, here, -⟩
        cases labels with
        | nil => exact absurd here (noRoot rest)
        | cons l labels =>
          rw [wireName_cons, List.append_assoc] at here
          exact absurd here (noLabel l _)

/-! ## The question -/

theorem wordAt_drop {msg rest : List Byte} {pos : Nat} {hi lo : Byte} (here : msg.drop pos = hi :: lo :: rest) :
    wordAt msg pos = .ok (word16 hi lo) := by
  rw [wordAt, byteAt_drop here, byteAt_drop (drop_next here)]
  rfl

theorem wordAt_getD {msg : List Byte} {i : Nat} (inside : i + 1 < msg.length) :
    wordAt msg i = .ok (word16 (msg.getD i 0#8) (msg.getD (i + 1) 0#8)) := by
  have first : msg.drop i = msg.getD i 0#8 :: msg.getD (i + 1) 0#8 :: msg.drop (i + 2) := by
    simp only [List.getD_eq_getElem?_getD]
    rw [List.drop_eq_getElem_cons (by omega), List.drop_eq_getElem_cons inside, List.getElem?_eq_getElem inside,
      List.getElem?_eq_getElem (by omega), Option.getD_some, Option.getD_some]
  exact wordAt_drop first

/-- The two words that follow a name. -/
theorem wordsAt_drop {msg rest : List Byte} {pos : Nat} {t₁ t₂ c₁ c₂ : Byte}
    (here : msg.drop pos = t₁ :: t₂ :: c₁ :: c₂ :: rest) :
    wordAt msg pos = .ok (word16 t₁ t₂) ∧ wordAt msg (pos + 2) = .ok (word16 c₁ c₂) := by
  have next : msg.drop (pos + 2) = c₁ :: c₂ :: rest :=
    drop_behind (show _ = [t₁, t₂] ++ c₁ :: c₂ :: rest from here)
  exact ⟨wordAt_drop here, wordAt_drop next⟩

theorem wordAt_qdCount {msg : List Byte} (header : dnsWireHeaderLen ≤ msg.length) :
    wordAt msg 4 = .ok (qdCount msg) := by
  unfold dnsWireHeaderLen at header
  apply wordAt_getD
  omega

/-- The label loop from the end of the header on. -/
theorem parseName_header_iff {msg qname : List Byte} {stop : Nat} :
    parseName msg msg.length dnsWireHeaderLen [] = .ok (some (qname, stop)) ↔
      ∃ labels rest, msg.drop dnsWireHeaderLen = wireName labels ++ rest ∧ textLength labels ≤ 254 ∧
        qname = dotted labels ∧ stop = dnsWireHeaderLen + (wireName labels).length := by
  have loop : parseName msg msg.length dnsWireHeaderLen (dotted []) = .ok (some (qname, stop)) ↔ _ :=
    parseName_eq_some_iff (Nat.le_add_left _ _) (Nat.zero_le _)
  simpa only [List.nil_append, dotted_nil] using loop

/-- A question of the grammar is accepted. -/
theorem Asks.accepted {msg : List Byte} {labels : List Label} {qtype qclass : BitVec 16} {rest : List Byte}
    (asks : Asks msg labels qtype qclass rest) :
    dnsWireParseQuestion msg = .ok (some (asked msg labels qtype qclass)) := by
  have parsed := parseName_header_iff.mpr ⟨labels, _, asks.question, asks.fits, rfl, rfl⟩
  have size := congrArg List.length asks.question
  simp only [List.length_drop, List.length_append, List.length_cons] at size
  obtain ⟨type, class'⟩ := wordsAt_drop (drop_behind asks.question)
  rw [dnsWireParseQuestion, if_neg (Nat.not_lt_of_le asks.header)]
  simp only [wordAt_qdCount asks.header, bind, Except.bind, if_neg asks.counted, parsed, type, class', word16_bytes]
  rw [if_neg (by omega)]
  rfl

/-- What is accepted is a question of the grammar. -/
theorem asks_of_accepted {msg : List Byte} {q : DnsWireQuestion} (accepted : dnsWireParseQuestion msg = .ok (some q)) :
    ∃ labels qtype qclass rest, Asks msg labels qtype qclass rest ∧ q = asked msg labels qtype qclass := by
  rw [dnsWireParseQuestion] at accepted
  split at accepted
  · cases accepted
  rename_i header
  have header : dnsWireHeaderLen ≤ msg.length := Nat.le_of_not_lt header
  simp only [wordAt_qdCount header, bind, Except.bind] at accepted
  split at accepted
  · cases accepted
  rename_i counted
  split at accepted
  · cases accepted
  rename_i name parsed
  cases name with
  | none => cases accepted
  | some found =>
    obtain ⟨qname, pos⟩ := found
    obtain ⟨labels, tail, name, fits, rfl, rfl⟩ := parseName_header_iff.mp parsed
    have size := congrArg List.length name
    rw [List.length_drop, List.length_append] at size
    dsimp only at accepted
    split at accepted
    · cases accepted
    rename_i room
    have four : 4 ≤ tail.length := by omega
    obtain ⟨t₁, s₁, rfl, three⟩ := exists_cons four
    obtain ⟨t₂, s₂, rfl, two⟩ := exists_cons three
    obtain ⟨c₁, s₃, rfl, one⟩ := exists_cons two
    obtain ⟨c₂, rest, rfl, -⟩ := exists_cons one
    obtain ⟨type, class'⟩ := wordsAt_drop (drop_behind name)
    rw [type, class'] at accepted
    cases accepted
    refine ⟨labels, word16 t₁ t₂, word16 c₁ c₂, rest, ⟨header, counted, ?_, fits⟩, rfl⟩
    simp only [name, highByte_word16, lowByte_word16]

/-- **The parser accepts exactly the questions of the grammar.** -/
theorem dnsWireParseQuestion_iff {msg : List Byte} {q : DnsWireQuestion} :
    dnsWireParseQuestion msg = .ok (some q) ↔
      ∃ labels qtype qclass rest, Asks msg labels qtype qclass rest ∧ q = asked msg labels qtype qclass := by
  constructor
  · exact asks_of_accepted
  · rintro ⟨labels, qtype, qclass, rest, asks, rfl⟩
    exact asks.accepted

/-- A message asks one question. -/
theorem Asks.unique {msg : List Byte} {labels labels' : List Label} {qtype qclass qtype' qclass' : BitVec 16}
    {rest rest' : List Byte} (h : Asks msg labels qtype qclass rest) (h' : Asks msg labels' qtype' qclass' rest') :
    labels = labels' ∧ qtype = qtype' ∧ qclass = qclass' ∧ rest = rest' := by
  obtain ⟨rfl, tail⟩ := wireName_append_inj (h.question.symm.trans h'.question)
  simp only [List.cons.injEq] at tail
  obtain ⟨t₁, t₂, c₁, c₂, rest⟩ := tail
  refine ⟨rfl, ?_, ?_, rest⟩
  · rw [← word16_bytes qtype, t₁, t₂, word16_bytes]
  · rw [← word16_bytes qclass, c₁, c₂, word16_bytes]

/-- A query for an address of a name given on the wire. -/
def addressQuery (name : List Byte) : List Byte :=
  [0#8, 7#8, 1#8, 0#8, 0#8, 1#8, 0#8, 0#8, 0#8, 0#8, 0#8, 0#8] ++ name ++ [0#8, 1#8, 0#8, 1#8]

/-- What the parser reports of such a query. -/
def addressQuestion (qname : List Byte) (questionEnd : Nat) : DnsWireQuestion :=
  { txid := 7#16, qtype := dnsTypeA, qclass := 1#16, questionEnd, qname }

end EspAdblocker.Dns
