import EspAdblocker.Lib.Lines
import EspAdblocker.Tools.BloomFormat
import Mathlib.Data.Char
import Mathlib.Data.Finset.Sort
import Mathlib.Data.List.Lex

/-!
# `tools/blocklist_build.py`

Hosts-format text to domains (`parseHostsFormat`), domains to a bit array
(`buildBitarray`) and to the sorted exact list (`domainsIdx`). The two regular
expressions are written as direct matchers. Every parsed domain is lowercase
ASCII that `normalize_domain` leaves alone (`Parsed.isDomain`).
-/

namespace EspAdblocker.Tools

open EspAdblocker.Lib EspAdblocker.Bloom

/-! ## Parsing -/

/-- `HOSTS_LINE_RE.match`: leading space, one of the two addresses, space, and
the captured run of characters that are neither space nor `#`. -/
def hostsLineRe (line : PyStr) : Option PyStr :=
  let start := line.dropWhile isSpace
  match [['0', '.', '0', '.', '0', '.', '0'], ['1', '2', '7', '.', '0', '.', '0', '.', '1']].find? (· <+: start) with
  | none => none
  | some address =>
    let rest := start.drop address.length
    let name := (rest.dropWhile isSpace).takeWhile fun c => !isSpace c && c != '#'
    if rest.head?.any isSpace && !name.isEmpty then some name else none

/-- `[a-z0-9-]`. -/
def isLabelChar (c : Char) : Bool :=
  ('a' ≤ c && c ≤ 'z') || ('0' ≤ c && c ≤ '9') || c == '-'

/-- `(?!-)[a-z0-9-]{1,63}`. -/
def isLabel (label : PyStr) : Bool :=
  label.head? != some '-' && label.all isLabelChar && 1 ≤ label.length && label.length ≤ 63

/-- The text before the position where `$` matches: the end, or before a final newline. -/
def beforeDollar (s : PyStr) : PyStr :=
  if s.getLast? = some '\n' then s.dropLast else s

/-- `DOMAIN_RE.match`: 1 to 253 characters, at least two labels between dots,
and no final hyphen. -/
def domainRe (s : PyStr) : Bool :=
  let body := beforeDollar s
  let labels := body.splitOn '.'
  1 ≤ body.length && body.length ≤ 253 && !body.contains '\n' && labels.all isLabel && 2 ≤ labels.length &&
    body.getLast? != some '-'

/-- Names `parse_hosts_format` leaves out. -/
def localNames : List PyStr :=
  ["localhost".toList, "localhost.localdomain".toList, "local".toList, "broadcasthost".toList]

/-- The domain one line of the text contributes. -/
def parseHostsLine (U : PyUnicode) (line : PyStr) : Option PyStr :=
  let line := strip line
  if line.isEmpty || line.head? = some '#' then none
  else
    match hostsLineRe line with
    | none => none
    | some name =>
      let domain := normalizeDomain U name
      if domain ∈ localNames then none
      else if domainRe domain then some domain
      else none

/-- `parse_hosts_format`. -/
def parseHostsFormat (U : PyUnicode) (text : PyStr) : Finset PyStr :=
  ((splitlines text).filterMap (parseHostsLine U)).toFinset

/-- A domain as the tool keeps it: small letters, digits, hyphens and dots, not
empty and not ending in a dot. -/
structure IsDomain (d : PyStr) : Prop where
  chars : ∀ c ∈ d, isLabelChar c = true ∨ c = '.'
  nonempty : d ≠ []
  noFinalDot : d.getLast? ≠ some '.'

/-- A character other than the separator is in one of the pieces. -/
theorem exists_mem_splitOn {s : PyStr} {sep c : Char} (member : c ∈ s) (differ : c ≠ sep) :
    ∃ piece ∈ s.splitOn sep, c ∈ piece := by
  induction s with
  | nil => simp at member
  | cons x xs ih =>
    have pieces := List.splitOn_ne_nil sep xs
    rw [List.splitOn_cons_eq_if_modifyHead]
    cases split : xs.splitOn sep with
    | nil => exact absurd split pieces
    | cons first others =>
      rw [split] at ih
      rcases List.mem_cons.mp member with rfl | later
      · rw [if_neg (by simpa using differ)]
        exact ⟨c :: first, by simp, by simp⟩
      · obtain ⟨piece, inside, here⟩ := ih later
        split
        · exact ⟨piece, by simp [List.mem_cons.mp inside], here⟩
        · rcases List.mem_cons.mp inside with rfl | rest
          · exact ⟨x :: piece, by simp, by simp [here]⟩
          · exact ⟨piece, by simp [rest], here⟩

/-- `$` matches only at the end of a name without whitespace. -/
theorem beforeDollar_eq_self {d : PyStr} (clean : ∀ c ∈ d, isSpace c = false) : beforeDollar d = d := by
  refine if_neg fun last => ?_
  have space := clean '\n' (List.mem_of_getLast? last)
  simp [isSpace] at space

/-- A name without whitespace that the domain pattern matches is a domain. -/
theorem isDomain_of_domainRe {d : PyStr} (clean : ∀ c ∈ d, isSpace c = false) (matched : domainRe d = true) :
    IsDomain d := by
  simp only [domainRe, beforeDollar_eq_self clean, Bool.and_eq_true, decide_eq_true_eq, List.all_eq_true] at matched
  obtain ⟨⟨⟨⟨⟨long, -⟩, -⟩, labels⟩, -⟩, -⟩ := matched
  refine ⟨fun c member => ?_, List.ne_nil_of_length_pos long, fun last => ?_⟩
  · by_cases dot : c = '.'
    · exact .inr dot
    · obtain ⟨label, inside, here⟩ := exists_mem_splitOn member dot
      have ok := labels label inside
      simp only [isLabel, Bool.and_eq_true, List.all_eq_true] at ok
      exact .inl (ok.1.1.2 c here)
  · -- a final dot would end the split with an empty label
    obtain ⟨front, rfl⟩ := List.getLast?_eq_some_iff.mp last
    have empty := labels [] (by simp [List.splitOn_append_cons_self])
    simp [isLabel] at empty

theorem mem_takeWhile_not_space {s : PyStr} {c : Char}
    (member : c ∈ s.takeWhile fun c => !isSpace c && c != '#') : isSpace c = false := by
  have passed := List.mem_takeWhile_imp member
  simp only [Bool.and_eq_true, Bool.not_eq_true'] at passed
  exact passed.1

theorem hostsLineRe_not_space {line name : PyStr} (captured : hostsLineRe line = some name) :
    ∀ c ∈ name, isSpace c = false := by
  simp only [hostsLineRe] at captured
  split at captured
  · cases captured
  · split at captured
    · obtain rfl := Option.some.inj captured
      exact fun c member => mem_takeWhile_not_space member
    · cases captured

theorem strip_eq_self {s : PyStr} (clean : ∀ c ∈ s, isSpace c = false) : strip s = s := by
  have whole (t : PyStr) (h : ∀ c ∈ t, isSpace c = false) : t.dropWhile isSpace = t := by
    cases t with
    | nil => rfl
    | cons c t => rw [List.dropWhile_cons_of_neg]; simpa using h c List.mem_cons_self
  rw [strip, whole s clean, whole s.reverse fun c member => clean c (List.mem_reverse.mp member), List.reverse_reverse]

theorem normalizeDomain_not_space {U : PyUnicode} {s : PyStr} (clean : ∀ c ∈ s, isSpace c = false) :
    ∀ c ∈ normalizeDomain U s, isSpace c = false := by
  have lowered := U.lower_not_space s clean
  simp only [normalizeDomain, strip_eq_self clean]
  split
  · exact fun c member => lowered c (List.mem_of_mem_dropLast member)
  · exact lowered

/-- What `parse_hosts_format` returns holds no whitespace and matches the domain pattern. -/
theorem matched_of_mem_parseHostsFormat {U : PyUnicode} {text d : PyStr} (member : d ∈ parseHostsFormat U text) :
    (∀ c ∈ d, isSpace c = false) ∧ domainRe d = true := by
  simp only [parseHostsFormat, List.mem_toFinset, List.mem_filterMap] at member
  obtain ⟨line, -, parsed⟩ := member
  simp only [parseHostsLine] at parsed
  split at parsed
  · cases parsed
  · split at parsed
    · cases parsed
    · rename_i name captured
      split at parsed
      · cases parsed
      · split at parsed
        · rename_i matched
          obtain rfl := Option.some.inj parsed
          exact ⟨normalizeDomain_not_space (hostsLineRe_not_space captured), matched⟩
        · cases parsed

/-- Every parsed name is a domain. -/
theorem isDomain_of_mem_parseHostsFormat {U : PyUnicode} {text d : PyStr} (member : d ∈ parseHostsFormat U text) :
    IsDomain d := by
  obtain ⟨clean, matched⟩ := matched_of_mem_parseHostsFormat member
  exact isDomain_of_domainRe clean matched

/-- The sizes the domain pattern allows. -/
structure HasLabels (d : PyStr) : Prop where
  short : d.length ≤ 253
  labels : ∀ label ∈ d.splitOn '.', 1 ≤ label.length ∧ label.length ≤ 63

/-- Every parsed name is made of labels. -/
theorem hasLabels_of_mem_parseHostsFormat {U : PyUnicode} {text d : PyStr} (member : d ∈ parseHostsFormat U text) :
    HasLabels d := by
  obtain ⟨clean, matched⟩ := matched_of_mem_parseHostsFormat member
  simp only [domainRe, beforeDollar_eq_self clean, Bool.and_eq_true, decide_eq_true_eq, List.all_eq_true] at matched
  obtain ⟨⟨⟨⟨⟨-, short⟩, -⟩, labels⟩, -⟩, -⟩ := matched
  refine ⟨short, fun label inside => ?_⟩
  have ok := labels label inside
  simp only [isLabel, Bool.and_eq_true, decide_eq_true_eq] at ok
  exact ⟨ok.1.2, ok.2⟩

namespace IsDomain

variable {d : PyStr} (h : IsDomain d)

include h

/-- The code points a domain may hold. -/
theorem bounds : ∀ c ∈ d, (97 ≤ c.toNat ∧ c.toNat ≤ 122) ∨ (48 ≤ c.toNat ∧ c.toNat ≤ 57) ∨ c.toNat = 45 ∨
    c.toNat = 46 := by
  intro c member
  rcases h.chars c member with label | rfl
  · simp only [isLabelChar, Bool.or_eq_true, Bool.and_eq_true, decide_eq_true_eq, beq_iff_eq] at label
    rcases label with (letter | digit) | rfl
    · exact .inl letter
    · exact .inr (.inl digit)
    · exact .inr (.inr (.inl rfl))
  · exact .inr (.inr (.inr rfl))

theorem isAscii : IsAscii d := by
  intro c member
  have := h.bounds c member
  omega

theorem not_space : ∀ c ∈ d, isSpace c = false := by
  intro c member
  have bounds := h.bounds c member
  simp only [isSpace, Bool.or_eq_false_iff, Bool.and_eq_false_iff, decide_eq_false_iff_not, beq_eq_false_iff_ne]
  omega

/-- Normalizing a domain changes nothing. -/
theorem normalizeDomain_eq (U : PyUnicode) : normalizeDomain U d = d := by
  have lowered : d.map Char.toLower = d := by
    have letters : ∀ c ∈ d, c.toLower = c := by
      intro c member
      have bounds := h.bounds c member
      exact toLower_of_not_upper (by omega)
    rw [List.map_congr_left letters, List.map_id']
  simp only [normalizeDomain, strip_eq_self h.not_space, U.lower_ascii d h.isAscii, lowered, if_neg h.noFinalDot]

theorem nulFree : NulFree (asciiBytes d) := by
  intro b member zero
  obtain ⟨c, inside, rfl⟩ := List.mem_map.mp member
  have bounds := h.bounds c inside
  have value := congrArg BitVec.toNat zero
  simp only [BitVec.toNat_ofNat] at value
  omega

/-- A domain holds neither a newline nor a NUL. -/
theorem clean : '\n' ∉ d ∧ '\x00' ∉ d := by
  constructor
  · intro member
    have bounds := h.bounds '\n' member
    revert bounds
    decide
  · intro member
    have bounds := h.bounds '\x00' member
    revert bounds
    decide

end IsDomain

/-! ## What is built -/

/-- `bits[idx // 8] |= 1 << (idx % 8)`; an index past the array raises. -/
def setBit (bits : List Byte) (idx : Nat) : Option (List Byte) :=
  match bits[idx / 8]? with
  | none => none
  | some byte => some (bits.set (idx / 8) (BitVec.ofNat 8 (byte.toNat ||| 1 <<< (idx % 8))))

/-- `build_bitarray`. -/
def buildBitarray (U : PyUnicode) (domains : List PyStr) (mBits kHashes : Nat) : Option (List Byte) :=
  let nbytes := (mBits + 7) / 8
  domains.foldlM (fun bits domain => do (← bitIndices U domain mBits kHashes).foldlM setBit bits)
    (List.replicate nbytes 0#8)

/-- Setting a bit inside the array succeeds, and sets that bit alone. -/
theorem setBit_eq_some {bits : List Byte} {idx : Nat} (inside : idx < 8 * bits.length) :
    ∃ bits', setBit bits idx = some bits' ∧ bits'.length = bits.length ∧
      ∀ i, bitAt bits' i = (bitAt bits i || decide (i = idx)) := by
  have room : idx / 8 < bits.length := by omega
  refine ⟨_, by rw [setBit, List.getElem?_eq_getElem room], List.length_set, fun i => ?_⟩
  simp only [bitAt, List.getD_eq_getElem?_getD]
  by_cases here : i / 8 = idx / 8
  · have same : (i = idx) ↔ i % 8 = idx % 8 := by omega
    rw [here, List.getElem?_set_self room, List.getElem?_eq_getElem room, Option.getD_some, Option.getD_some,
      BitVec.getLsbD_ofNat, Nat.testBit_or, BitVec.testBit_toNat, Nat.one_shiftLeft, Nat.testBit_two_pow,
      decide_eq_true (Nat.mod_lt i (by decide : 0 < 8)), Bool.true_and]
    simp only [same, eq_comm]
  · have differ : i ≠ idx := fun eq => here (by rw [eq])
    rw [List.getElem?_set_ne (Ne.symm here), decide_eq_false differ, Bool.or_false]

/-- Setting several bits inside the array. -/
theorem foldlM_setBit {idxs : List Nat} {bits : List Byte} (inside : ∀ idx ∈ idxs, idx < 8 * bits.length) :
    ∃ bits', idxs.foldlM setBit bits = some bits' ∧ bits'.length = bits.length ∧
      ∀ i, bitAt bits' i = true ↔ bitAt bits i = true ∨ i ∈ idxs := by
  induction idxs generalizing bits with
  | nil => exact ⟨bits, rfl, rfl, by simp⟩
  | cons idx idxs ih =>
    obtain ⟨next, set, len, bit⟩ := setBit_eq_some (inside idx List.mem_cons_self)
    have others : ∀ other ∈ idxs, other < 8 * next.length := fun other member =>
      len ▸ inside other (List.mem_cons_of_mem idx member)
    obtain ⟨bits', run, len', bit'⟩ := ih others
    refine ⟨bits', by rw [List.foldlM_cons, set]; exact run, len'.trans len, fun i => ?_⟩
    rw [bit', bit, Bool.or_eq_true, decide_eq_true_eq, List.mem_cons, or_assoc]

theorem setBit_length {bits bits' : List Byte} {idx : Nat} (set : setBit bits idx = some bits') :
    bits'.length = bits.length := by
  simp only [setBit] at set
  split at set
  · cases set
  · obtain rfl := Option.some.inj set
    exact List.length_set

/-- A fold that raises nothing keeps what each of its steps keeps. -/
theorem foldlM_keeps {α β : Type} {step : β → α → Option β} {P : β → Prop}
    (keeps : ∀ b a b', step b a = some b' → P b → P b') {as : List α} {b b' : β} (run : as.foldlM step b = some b')
    (start : P b) : P b' := by
  induction as generalizing b with
  | nil => obtain rfl := Option.some.inj run; exact start
  | cons a as ih =>
    rw [List.foldlM_cons, Option.bind_eq_bind, Option.bind_eq_some_iff] at run
    obtain ⟨next, first, rest⟩ := run
    exact ih rest (keeps b a next first start)

/-- A built array has the size of its bit count, rounded up. -/
theorem length_buildBitarray {U : PyUnicode} {domains : List PyStr} {mBits kHashes : Nat} {bits : List Byte}
    (built : buildBitarray U domains mBits kHashes = some bits) : bits.length = (mBits + 7) / 8 := by
  refine foldlM_keeps (P := fun b => b.length = (mBits + 7) / 8) ?_ built List.length_replicate
  intro b d b' step len
  rw [Option.bind_eq_bind, Option.bind_eq_some_iff] at step
  obtain ⟨idxs, -, set⟩ := step
  exact foldlM_keeps (fun c i c' set len => (setBit_length set).trans len) set len

/-- **What `build_bitarray` builds**, when every domain has its indices inside
the array: bit `i` is set exactly if it is an index of some domain. -/
theorem buildBitarray_eq_some {U : PyUnicode} {domains : List PyStr} {mBits kHashes : Nat} (idxs : PyStr → List Nat)
    (indices : ∀ d ∈ domains, bitIndices U d mBits kHashes = some (idxs d))
    (inside : ∀ d ∈ domains, ∀ i ∈ idxs d, i < mBits) :
    ∃ bits, buildBitarray U domains mBits kHashes = some bits ∧ bits.length = (mBits + 7) / 8 ∧
      ∀ i, bitAt bits i = true ↔ ∃ d ∈ domains, i ∈ idxs d := by
  have clear (n i : Nat) : bitAt (List.replicate n 0#8) i = false := by
    simp only [bitAt, List.getD_eq_getElem?_getD, List.getElem?_replicate]
    split <;> simp
  suffices go : ∀ bits : List Byte, bits.length = (mBits + 7) / 8 → ∃ bits',
      domains.foldlM (fun bits domain => do (← bitIndices U domain mBits kHashes).foldlM setBit bits) bits = some bits' ∧
        bits'.length = bits.length ∧ ∀ i, bitAt bits' i = true ↔ bitAt bits i = true ∨ ∃ d ∈ domains, i ∈ idxs d by
    obtain ⟨bits, run, len, bit⟩ := go (List.replicate ((mBits + 7) / 8) 0#8) List.length_replicate
    exact ⟨bits, run, by rw [len, List.length_replicate], fun i => by rw [bit, clear]; simp⟩
  induction domains with
  | nil => exact fun bits _ => ⟨bits, rfl, rfl, by simp⟩
  | cons d domains ih =>
    intro bits len
    have fits : ∀ i ∈ idxs d, i < 8 * bits.length := by
      intro i member
      have := inside d List.mem_cons_self i member
      omega
    obtain ⟨next, set, len', bit⟩ := foldlM_setBit fits
    obtain ⟨bits', run, len'', bit'⟩ := ih (fun e member => indices e (List.mem_cons_of_mem d member))
      (fun e member => inside e (List.mem_cons_of_mem d member)) next (len'.trans len)
    refine ⟨bits', ?_, len''.trans len', fun i => ?_⟩
    · rw [List.foldlM_cons, indices d List.mem_cons_self]
      simp only [Option.bind_eq_bind, Option.bind_some, set]
      exact run
    · rw [bit', bit, or_assoc, List.exists_mem_cons_iff]

/-- `sorted(domains)`, by code points. -/
def sortedDomains (domains : Finset PyStr) : List PyStr := domains.sort (· ≤ ·)

@[simp] theorem mem_sortedDomains {domains : Finset PyStr} {d : PyStr} : d ∈ sortedDomains domains ↔ d ∈ domains :=
  Finset.mem_sort _

/-- The whole of `bloom.bin`: header and bit array over the sorted domains. -/
def bloomBin (U : PyUnicode) (domains : Finset PyStr) (mBits kHashes buildUnixTs : Nat) : Option (List Byte) := do
  let bits ← buildBitarray U (sortedDomains domains) mBits kHashes
  let header ← packHeader mBits kHashes domains.card buildUnixTs bits
  return header ++ bits

/-- The whole of `domains.idx`: `"\n".join(sorted(domains)) + "\n"`, encoded. -/
def domainsIdx (domains : Finset PyStr) : Option (List Byte) :=
  encodeAscii (['\n'].intercalate (sortedDomains domains) ++ ['\n'])

/-- `("\n".join(names) + "\n").encode("ascii")`. -/
def lineFile (names : List PyStr) : Option (List Byte) := encodeAscii (['\n'].intercalate names ++ ['\n'])

/-- Lines joined by newlines and closed by one are lines each closed by one. -/
theorem intercalate_newline {lines : List PyStr} (full : lines ≠ []) :
    ['\n'].intercalate lines ++ ['\n'] = closedBy '\n' lines := by
  have closed : joined '\n' (lines ++ [[]]) = closedBy '\n' lines ++ [] := joined_concat_eq lines []
  rwa [joined_concat [] full, List.append_nil] at closed

theorem asciiBytes_closedBy (lines : List PyStr) :
    asciiBytes (closedBy '\n' lines) = closedBy 10#8 (lines.map asciiBytes) := by
  rw [asciiBytes, closedBy, List.map_flatMap, closedBy, List.flatMap_map]
  simp [asciiBytes]

/-- **What a line file holds**: the bytes of its names, which are ASCII, each closed by a newline. -/
theorem lineFile_eq_some {names : List PyStr} {content : List Byte} (some_name : names ≠ [])
    (written : lineFile names = some content) :
    (∀ name ∈ names, IsAscii name) ∧ content = closedBy 10#8 (names.map asciiBytes) := by
  have ascii := isAscii_of_encodeAscii written
  have bytes := Option.some.inj (written.symm.trans (encodeAscii_eq ascii))
  rw [intercalate_newline some_name] at ascii bytes
  rw [asciiBytes_closedBy] at bytes
  exact ⟨fun name member c inside => ascii c (List.mem_flatMap.mpr ⟨name, member, List.mem_append_left _ inside⟩), bytes⟩

end EspAdblocker.Tools
