import EspAdblocker.Dns.Grammar
import EspAdblocker.Dns.Proxy
import EspAdblocker.Tools.BlocklistBuild

/-!
# What a parsed name says

Every domain the tool lists is the name the parser reports of a query for it, in
any spelling. In the other direction the reported text is a C string with dots,
so it gives the labels of the query back exactly when none of them holds a dot
or a NUL.
-/

namespace EspAdblocker.Dns

open EspAdblocker.Lib EspAdblocker.Tools EspAdblocker.Storage

/-! ## Listed domains -/

/-- The name of a question that carries the labels of a domain. -/
def questionName (domain : PyStr) : List Byte := prefixed ((domain.splitOn '.').map asciiBytes)

/-- A query for a domain, with anything behind its question. -/
def queryFor (header : List Byte) (domain : PyStr) (qtype qclass : BitVec 16) (rest : List Byte) : List Byte :=
  header ++ (questionName domain ++ highByte qtype :: lowByte qtype :: highByte qclass :: lowByte qclass :: rest)

/-- Case folding of bytes is that of characters. -/
theorem foldCase_ascii {c : Char} (small : c.toNat < 128) :
    foldCase (BitVec.ofNat 8 c.toNat) = BitVec.ofNat 8 c.toLower.toNat := by
  rw [toNat_toLower]
  generalize c.toNat = n at small
  have all : ∀ n < 128, foldCase (BitVec.ofNat 8 n) = BitVec.ofNat 8 (if 65 ≤ n ∧ n ≤ 90 then n + 32 else n) := by decide
  exact all n small

theorem toLower_eq_dot_iff {c : Char} : c.toLower = '.' ↔ c = '.' := by
  rw [← Char.toNat_inj, ← Char.toNat_inj, toNat_toLower]
  have dot : '.'.toNat = 46 := by decide
  split <;> omega

/-- Lowering the letters moves no dot. -/
theorem splitOn_map_toLower (s : PyStr) : (s.map Char.toLower).splitOn '.' = (s.splitOn '.').map (List.map Char.toLower) := by
  induction s with
  | nil => rfl
  | cons c s ih =>
    rw [List.map_cons, List.splitOn_cons_eq_if_modifyHead, List.splitOn_cons_eq_if_modifyHead, ih]
    simp only [beq_iff_eq, toLower_eq_dot_iff]
    split
    · rfl
    · cases s.splitOn '.' <;> rfl

/-- A letter of a spelling is ASCII when the letter it stands for is. -/
theorem isAscii_of_map_toLower {s : PyStr} (ascii : IsAscii (s.map Char.toLower)) : IsAscii s := by
  intro c member
  have lowered := ascii c.toLower (List.mem_map_of_mem member)
  rw [toNat_toLower] at lowered
  split at lowered <;> omega

theorem asciiBytes_map_foldCase {s : PyStr} (ascii : IsAscii s) :
    (asciiBytes s).map foldCase = asciiBytes (s.map Char.toLower) := by
  rw [asciiBytes, asciiBytes, List.map_map, List.map_map]
  exact List.map_congr_left fun c member => foldCase_ascii (ascii c member)

/-- The labels of a spelling, and the text the parser makes of them. -/
theorem labels_of_spelling {d spelling : PyStr} (domain : IsDomain d) (sizes : HasLabels d)
    (spelled : spelling.map Char.toLower = d) :
    ∃ labels, wireName labels = questionName spelling ∧ dotted labels = asciiBytes d := by
  subst spelled
  have ascii := isAscii_of_map_toLower domain.isAscii
  have pieces : ∀ piece ∈ spelling.splitOn '.', (1 ≤ piece.length ∧ piece.length ≤ 63) := by
    intro piece inside
    have lowered := sizes.labels (piece.map Char.toLower)
      (by rw [splitOn_map_toLower]; exact List.mem_map_of_mem inside)
    rwa [List.length_map] at lowered
  obtain ⟨labels, bytes⟩ := exists_labels (show ∀ part ∈ (spelling.splitOn '.').map asciiBytes,
      1 ≤ part.length ∧ part.length ≤ 63 by
    intro part inside
    obtain ⟨piece, member, rfl⟩ := List.mem_map.mp inside
    rw [asciiBytes, List.length_map]
    exact pieces piece member)
  refine ⟨labels, by rw [← prefixed_bytes, bytes]; rfl, ?_⟩
  have dot : (0x2E#8 : Byte) = BitVec.ofNat 8 '.'.toNat := by decide
  have text : joined 0x2E#8 ((spelling.splitOn '.').map asciiBytes) = asciiBytes spelling := by
    rw [dot]
    exact (joined_map (fun c : Char => BitVec.ofNat 8 c.toNat) _).trans (congrArg _ (List.intercalate_splitOn '.'))
  have fold : foldCase 0x2E#8 = 0x2E#8 := by decide
  rw [← asciiBytes_map_foldCase ascii, ← text, ← bytes, ← joined_map, fold, List.map_map, dotted]
  rfl

/-- **Every domain the tool lists is matched**, in any spelling: a query for it is accepted, the
name reported is the domain byte for byte, and these are the bytes the tool hashes. -/
theorem listed_domain_is_matched {U : PyUnicode} {text d spelling : PyStr} (listed : d ∈ parseHostsFormat U text)
    (spelled : spelling.map Char.toLower = d) {header : List Byte} (size : header.length = dnsWireHeaderLen)
    (counted : qdCount header ≠ 0#16) (qtype qclass : BitVec 16) (rest : List Byte) :
    (∃ q, dnsWireParseQuestion (queryFor header spelling qtype qclass rest) = .ok (some q) ∧ q.qname = asciiBytes d ∧
      q.qtype = qtype ∧ q.qclass = qclass ∧ encodeAscii (normalizeDomain U d) = some (cstr q.qname)) ∧
      normalizeDomain U d = d := by
  have domain := isDomain_of_mem_parseHostsFormat listed
  have sizes := hasLabels_of_mem_parseHostsFormat listed
  obtain ⟨labels, wire, name⟩ := labels_of_spelling domain sizes spelled
  have header4 : qdCount (queryFor header spelling qtype qclass rest) = qdCount header := by
    rw [dnsWireHeaderLen] at size
    simp only [qdCount, queryFor, List.getD_eq_getElem?_getD]
    rw [List.getElem?_append_left (by omega), List.getElem?_append_left (by omega)]
  have fits : textLength labels ≤ 254 := by
    have short := sizes.short
    rw [← length_dotted, name, asciiBytes, List.length_map]
    omega
  have asks : Asks (queryFor header spelling qtype qclass rest) labels qtype qclass rest := by
    refine ⟨?_, header4 ▸ counted, ?_, fits⟩
    · rw [queryFor, List.length_append, size]
      exact Nat.le_add_right _ _
    · rw [queryFor, ← size, List.drop_left, wire]
  refine ⟨⟨_, asks.accepted, name, rfl, rfl, ?_⟩, domain.normalizeDomain_eq U⟩
  rw [domain.normalizeDomain_eq, encodeAscii_eq domain.isAscii]
  simp only [asked, name, cstr_eq_self domain.nulFree]

/-- The domain of `0.0.0.0 a.b`, asked for as `A.b`. -/
theorem sample_domain_is_matched :
    (∃ q, dnsWireParseQuestion (queryFor [0#8, 7#8, 1#8, 0#8, 0#8, 1#8, 0#8, 0#8, 0#8, 0#8, 0#8, 0#8] "A.b".toList dnsTypeA
        1#16 [0xFF#8]) = .ok (some q) ∧ q.qname = asciiBytes "a.b".toList ∧ q.qtype = dnsTypeA ∧ q.qclass = 1#16 ∧
        encodeAscii (normalizeDomain asciiUnicode "a.b".toList) = some (cstr q.qname)) ∧
      normalizeDomain asciiUnicode "a.b".toList = "a.b".toList := by
  have listed : "a.b".toList ∈ parseHostsFormat asciiUnicode "0.0.0.0 a.b".toList := by
    rw [parseHostsFormat, List.mem_toFinset]
    decide +kernel
  exact listed_domain_is_matched listed (by decide) (by decide) (by decide) dnsTypeA 1#16 [0xFF#8]

/-! ## Names and their text -/

/-- The labels up to the case of their letters. -/
def folded (labels : List Label) : List (List Byte) := labels.map fun l => l.bytes.map foldCase

/-- No label holds a dot or a NUL. -/
def Plain (labels : List Label) : Prop := ∀ l ∈ labels, 0x2E#8 ∉ l.bytes ∧ 0#8 ∉ l.bytes

instance (labels : List Label) : Decidable (Plain labels) :=
  inferInstanceAs (Decidable (∀ l ∈ labels, _))

theorem foldCase_eq_dot_iff {c : Byte} : foldCase c = 0x2E#8 ↔ c = 0x2E#8 := by
  revert c
  decide

theorem foldCase_eq_zero_iff {c : Byte} : foldCase c = 0#8 ↔ c = 0#8 := by
  revert c
  decide

theorem plain_iff {labels : List Label} :
    Plain labels ↔ ∀ part ∈ folded labels, 0x2E#8 ∉ part ∧ 0#8 ∉ part := by
  have fold (c : Byte) (fixed : ∀ b, foldCase b = c ↔ b = c) (l : Label) : c ∈ l.bytes.map foldCase ↔ c ∈ l.bytes := by
    simp [fixed]
  rw [folded, List.forall_mem_map]
  refine forall₂_congr fun l _ => ?_
  rw [fold _ (fun _ => foldCase_eq_dot_iff), fold _ (fun _ => foldCase_eq_zero_iff)]

/-- **The text of a name, read as a C string, gives its labels back** exactly when none of
them holds a dot or a NUL. -/
theorem unjoined_cstr_dotted_iff {labels : List Label} :
    unjoined 0x2E#8 (cstr (dotted labels)) = folded labels ↔ Plain labels := by
  rw [plain_iff]
  constructor
  · intro same part member
    rw [← same] at member
    obtain ⟨noDot, inside⟩ := mem_unjoined member
    exact ⟨noDot, fun nul => nulFree_cstr _ _ (inside _ nul) rfl⟩
  · intro plain
    have free : NulFree (dotted labels) := by
      rintro b member rfl
      rcases mem_joined member with impossible | ⟨part, inside, nul⟩
      · exact absurd impossible (by decide)
      · exact (plain part inside).2 nul
    rw [cstr_eq_self free, dotted, ← folded]
    refine unjoined_joined (fun part member => ?_) fun part member => (plain part member).1
    obtain ⟨l, -, rfl⟩ := List.mem_map.mp member
    simpa using l.bytes_ne_nil

/-- **The parsed name identifies the queried name** among names whose labels hold no dot and no
NUL; the decision depends on the labels up to case for all names. -/
theorem parsed_name_identifies {msg msg' : List Byte} {q q' : DnsWireQuestion}
    (accepted : dnsWireParseQuestion msg = .ok (some q)) (accepted' : dnsWireParseQuestion msg' = .ok (some q')) :
    ∃ labels qtype qclass rest labels' qtype' qclass' rest',
      Asks msg labels qtype qclass rest ∧ Asks msg' labels' qtype' qclass' rest' ∧
      (Plain labels → Plain labels' → (cstr q.qname = cstr q'.qname ↔ folded labels = folded labels')) ∧
      (folded labels = folded labels' → ∀ bs d, blocks bs d q.qname = blocks bs d q'.qname) := by
  obtain ⟨labels, qtype, qclass, rest, asks, rfl⟩ := dnsWireParseQuestion_iff.mp accepted
  obtain ⟨labels', qtype', qclass', rest', asks', rfl⟩ := dnsWireParseQuestion_iff.mp accepted'
  have text (same : folded labels = folded labels') : dotted labels = dotted labels' := congrArg (joined 0x2E#8) same
  refine ⟨labels, qtype, qclass, rest, labels', qtype', qclass', rest', asks, asks', fun plain plain' => ⟨?_, ?_⟩,
    fun same bs d => ?_⟩
  · intro same
    simp only [asked] at same
    rw [← unjoined_cstr_dotted_iff.mpr plain, same, unjoined_cstr_dotted_iff.mpr plain']
  · intro same
    simp only [asked, text same]
  · simp only [asked, text same]

/-- `A.b` and `a.B` have one text and the same labels up to case, `A.b` and `a.c` have neither. -/
theorem spellings_are_one_name :
    (∃ labels qtype qclass rest labels' qtype' qclass' rest',
      Asks (addressQuery [1#8, 0x41#8, 1#8, 0x62#8, 0#8]) labels qtype qclass rest ∧
      Asks (addressQuery [1#8, 0x61#8, 1#8, 0x42#8, 0#8]) labels' qtype' qclass' rest' ∧
      (Plain labels → Plain labels' →
        (cstr [0x61#8, 0x2E#8, 0x62#8] = cstr [0x61#8, 0x2E#8, 0x62#8] ↔ folded labels = folded labels')) ∧
      (folded labels = folded labels' →
        ∀ bs d, blocks bs d [0x61#8, 0x2E#8, 0x62#8] = blocks bs d [0x61#8, 0x2E#8, 0x62#8])) ∧
    ∃ labels qtype qclass rest labels' qtype' qclass' rest',
      Asks (addressQuery [1#8, 0x41#8, 1#8, 0x62#8, 0#8]) labels qtype qclass rest ∧
      Asks (addressQuery [1#8, 0x61#8, 1#8, 0x63#8, 0#8]) labels' qtype' qclass' rest' ∧
      (Plain labels → Plain labels' →
        (cstr [0x61#8, 0x2E#8, 0x62#8] = cstr [0x61#8, 0x2E#8, 0x63#8] ↔ folded labels = folded labels')) ∧
      (folded labels = folded labels' →
        ∀ bs d, blocks bs d [0x61#8, 0x2E#8, 0x62#8] = blocks bs d [0x61#8, 0x2E#8, 0x63#8]) := by
  have accepted : dnsWireParseQuestion (addressQuery [1#8, 0x41#8, 1#8, 0x62#8, 0#8]) =
      .ok (some (addressQuestion [0x61#8, 0x2E#8, 0x62#8] 21)) := by decide
  have accepted' : dnsWireParseQuestion (addressQuery [1#8, 0x61#8, 1#8, 0x42#8, 0#8]) =
      .ok (some (addressQuestion [0x61#8, 0x2E#8, 0x62#8] 21)) := by decide
  have accepted'' : dnsWireParseQuestion (addressQuery [1#8, 0x61#8, 1#8, 0x63#8, 0#8]) =
      .ok (some (addressQuestion [0x61#8, 0x2E#8, 0x63#8] 21)) := by decide
  exact ⟨parsed_name_identifies accepted accepted', parsed_name_identifies accepted accepted''⟩

/-- The one label `a.b` reads like the labels `a` and `b`, and the label `a` with a NUL behind it like `a`. -/
theorem distinct_names_share_text :
    (∃ q q' labels labels' rest rest',
      dnsWireParseQuestion (addressQuery [3#8, 0x61#8, 0x2E#8, 0x62#8, 0#8]) = .ok (some q) ∧
      dnsWireParseQuestion (addressQuery [1#8, 0x61#8, 1#8, 0x62#8, 0#8]) = .ok (some q') ∧
      cstr q.qname = cstr q'.qname ∧ Asks (addressQuery [3#8, 0x61#8, 0x2E#8, 0x62#8, 0#8]) labels dnsTypeA 1#16 rest ∧
      Asks (addressQuery [1#8, 0x61#8, 1#8, 0x62#8, 0#8]) labels' dnsTypeA 1#16 rest' ∧
      folded labels ≠ folded labels') ∧
    ∃ q q' labels labels' rest rest',
      dnsWireParseQuestion (addressQuery [2#8, 0x61#8, 0#8, 0#8]) = .ok (some q) ∧
      dnsWireParseQuestion (addressQuery [1#8, 0x61#8, 0#8]) = .ok (some q') ∧
      cstr q.qname = cstr q'.qname ∧ Asks (addressQuery [2#8, 0x61#8, 0#8, 0#8]) labels dnsTypeA 1#16 rest ∧
      Asks (addressQuery [1#8, 0x61#8, 0#8]) labels' dnsTypeA 1#16 rest' ∧ folded labels ≠ folded labels' := by
  let a : Label := ⟨[0x61#8], by decide, by decide⟩
  let b : Label := ⟨[0x62#8], by decide, by decide⟩
  let aDotB : Label := ⟨[0x61#8, 0x2E#8, 0x62#8], by decide, by decide⟩
  let aNul : Label := ⟨[0x61#8, 0#8], by decide, by decide⟩
  refine ⟨⟨addressQuestion [0x61#8, 0x2E#8, 0x62#8] 21, addressQuestion [0x61#8, 0x2E#8, 0x62#8] 21, [aDotB], [a, b], [], [],
      by decide, by decide, rfl, ⟨by decide, by decide, by decide, by decide⟩, ⟨by decide, by decide, by decide, by decide⟩,
      by decide⟩,
    addressQuestion [0x61#8, 0#8] 20, addressQuestion [0x61#8] 19, [aNul], [a], [], [], by decide, by decide, by decide,
    ⟨by decide, by decide, by decide, by decide⟩, ⟨by decide, by decide, by decide, by decide⟩, by decide⟩

end EspAdblocker.Dns
