import EspAdblocker.Storage.Updater
import EspAdblocker.Tools.BlocklistBuild

/-!
# What the tool publishes

`main` of `blocklist_build.py`, from the texts it fetched on: the domains of all
sources less those of the allowlist, and the three files made of them. The two
sizing formulas work on floating-point numbers and are parameters.
-/

namespace EspAdblocker.Tools

open EspAdblocker.Lib EspAdblocker.Storage

/-! ## The domains -/

/-- The domain one line of the allowlist names. -/
def parseAllowlistLine (U : PyUnicode) (line : PyStr) : Option PyStr :=
  let line := strip line
  if line.isEmpty || line.head? = some '#' then none else some (normalizeDomain U line)

/-- `load_allowlist`, of the text of the file if a path is given. -/
def loadAllowlist (U : PyUnicode) : Option PyStr → Finset PyStr
  | none => ∅
  | some text => ((splitlines text).filterMap (parseAllowlistLine U)).toFinset

/-- `all_domains` when it is sorted: the union over the sources, less the allowlist. -/
def allDomains (U : PyUnicode) (sources : List PyStr) (allowlistText : Option PyStr) : Finset PyStr :=
  let allDomains := sources.foldl (fun all text => all ∪ parseHostsFormat U text) ∅
  let allowlist := loadAllowlist U allowlistText
  if allowlist = ∅ then allDomains else allDomains \ allowlist

theorem mem_foldl_union {α β : Type} [DecidableEq β] (parse : α → Finset β) (texts : List α) (start : Finset β) (d : β) :
    d ∈ texts.foldl (fun all text => all ∪ parse text) start ↔ d ∈ start ∨ ∃ text ∈ texts, d ∈ parse text := by
  induction texts generalizing start with
  | nil => simp
  | cons text texts ih => rw [List.foldl_cons, ih, Finset.mem_union, List.exists_mem_cons_iff, or_assoc]

/-- What is published: the domains of the sources that the allowlist does not name. -/
theorem mem_allDomains {U : PyUnicode} {sources : List PyStr} {allowlistText : Option PyStr} {d : PyStr} :
    d ∈ allDomains U sources allowlistText ↔
      (∃ text ∈ sources, d ∈ parseHostsFormat U text) ∧ d ∉ loadAllowlist U allowlistText := by
  rw [allDomains]
  split
  · rename_i empty
    simp [mem_foldl_union, empty]
  · simp [mem_foldl_union]

theorem isDomain_of_mem_allDomains {U : PyUnicode} {sources : List PyStr} {allowlistText : Option PyStr} {d : PyStr}
    (member : d ∈ allDomains U sources allowlistText) : IsDomain d := by
  obtain ⟨⟨text, -, parsed⟩, -⟩ := mem_allDomains.mp member
  exact isDomain_of_mem_parseHostsFormat parsed

/-! ## The files -/

/-- `hashlib.sha256(…).hexdigest()`: two hexadecimal digits for each byte. -/
def hexdigest (digest : List Byte) : PyStr :=
  digest.flatMap fun b => [Nat.digitChar (b.toNat / 16), Nat.digitChar (b.toNat % 16)]

/-- The three files of the output directory. -/
structure Artifacts where
  bloomBin : List Byte
  domainsIdx : List Byte
  sha256 : List Byte
  deriving DecidableEq, Repr

/-- The values of the two formulas of `optimal_size` for a number of domains, before
the second is raised to 1. -/
structure Formulas where
  ceil : Nat → Nat
  round : Nat → Nat

/-- `optimal_size`. -/
def optimalSize (formulas : Formulas) (nDomains : Nat) : Option (Nat × Nat) :=
  if nDomains = 0 then none else some (formulas.ceil nDomains, max 1 (formulas.round nDomains))

/-- `main`; without domains it exits before it writes. -/
def main (U : PyUnicode) (sha256 : Sha256) (formulas : Formulas) (now : Nat) (sources : List PyStr)
    (allowlistText : Option PyStr) : Option Artifacts := do
  let domains := allDomains U sources allowlistText
  let n := domains.card
  if n = 0 then none
  else
    let (mBits, kHashes) ← optimalSize formulas n
    let bloom ← bloomBin U domains mBits kHashes now
    let idx ← domainsIdx domains
    let sha ← encodeAscii (hexdigest (sha256.run idx) ++ ['\n'])
    return { bloomBin := bloom, domainsIdx := idx, sha256 := sha }

/-! ## The digest -/

/-- A digit below 16 is the firmware's and no capital. -/
theorem digitChar_eq {n : Nat} (small : n < 16) :
    BitVec.ofNat 8 (Nat.digitChar n).toNat = hexDigit n ∧ toLowerByte (hexDigit n) = hexDigit n := by
  have all : ∀ i : Fin 16, BitVec.ofNat 8 (Nat.digitChar i).toNat = hexDigit i ∧ toLowerByte (hexDigit i) = hexDigit i := by
    decide
  exact all ⟨n, small⟩

theorem digits_lt (b : Byte) : b.toNat / 16 < 16 ∧ b.toNat % 16 < 16 := by
  have := b.isLt
  omega

/-- **The tool and the firmware write digests alike.** -/
theorem asciiBytes_hexdigest (digest : List Byte) : asciiBytes (hexdigest digest) = hexEncodeLower digest := by
  rw [asciiBytes, hexdigest, hexEncodeLower, List.map_flatMap]
  refine List.flatMap_congr fun b _ => ?_
  obtain ⟨high, low⟩ := digits_lt b
  simp only [List.map_cons, List.map_nil, (digitChar_eq high).1, (digitChar_eq low).1]

/-- Lowering a digest changes nothing. -/
theorem map_toLowerByte_hexEncodeLower (digest : List Byte) :
    (hexEncodeLower digest).map toLowerByte = hexEncodeLower digest := by
  rw [hexEncodeLower, List.map_flatMap]
  refine List.flatMap_congr fun b _ => ?_
  obtain ⟨high, low⟩ := digits_lt b
  simp only [List.map_cons, List.map_nil, (digitChar_eq high).2, (digitChar_eq low).2]

/-- Digests are written without loss. -/
theorem hexEncodeLower_injective : Function.Injective hexEncodeLower := by
  have digits : ∀ i j : Fin 16, hexDigit i = hexDigit j → i = j := by decide
  intro s
  induction s with
  | nil =>
    rintro (_ | ⟨b, t⟩) same
    · rfl
    · cases same
  | cons a s ih =>
    rintro (_ | ⟨b, t⟩) same
    · cases same
    · simp only [hexEncodeLower, List.flatMap_cons, List.cons_append, List.nil_append, List.cons.injEq] at same
      obtain ⟨high, low, rest⟩ := same
      have high' := congrArg Fin.val (digits ⟨_, (digits_lt a).1⟩ ⟨_, (digits_lt b).1⟩ high)
      have low' := congrArg Fin.val (digits ⟨_, (digits_lt a).2⟩ ⟨_, (digits_lt b).2⟩ low)
      dsimp only at high' low'
      rw [ih rest, BitVec.eq_of_toNat_eq (x := a) (y := b) (by omega)]

/-! ## What the files hold -/

/-- An array was built of some domain only with bits to set. -/
theorem mBits_pos_of_buildBitarray {U : PyUnicode} {d : PyStr} {domains : List PyStr} {mBits kHashes : Nat}
    {bits : List Byte} (hashes : 1 ≤ kHashes) (built : buildBitarray U (d :: domains) mBits kHashes = some bits) :
    1 ≤ mBits := by
  obtain ⟨k, rfl⟩ := Nat.exists_eq_add_of_le' hashes
  simp only [buildBitarray, List.foldlM_cons, Option.bind_eq_bind, Option.bind_eq_some_iff] at built
  obtain ⟨_, ⟨idxs, indices, -⟩, -⟩ := built
  by_contra none_set
  obtain rfl : mBits = 0 := by omega
  simp [bitIndices, List.range_succ_eq_map, List.mapM_cons] at indices

/-- What `main` wrote when it wrote something. -/
structure Publishes (U : PyUnicode) (sha256 : Sha256) (domains : Finset PyStr) (artifacts : Artifacts) : Prop where
  nonempty : domains.Nonempty
  bloom : ∃ mBits kHashes now, 1 ≤ mBits ∧ bloomBin U domains mBits kHashes now = some artifacts.bloomBin
  idx : domainsIdx domains = some artifacts.domainsIdx
  sha : artifacts.sha256 = hexEncodeLower (sha256.run artifacts.domainsIdx) ++ [10#8]

/-- The list closes every line. -/
theorem Publishes.newline {U : PyUnicode} {sha256 : Sha256} {domains : Finset PyStr} {artifacts : Artifacts}
    (published : Publishes U sha256 domains artifacts) : 10#8 ∈ artifacts.domainsIdx := by
  have encoded := published.idx
  rw [domainsIdx] at encoded
  rw [encodeAscii_eq (isAscii_of_encodeAscii encoded)] at encoded
  rw [← Option.some.inj encoded, asciiBytes]
  exact List.mem_map.mpr ⟨'\n', List.mem_append_right _ (List.mem_singleton_self _), by decide⟩

theorem main_eq_some {U : PyUnicode} {sha256 : Sha256} {formulas : Formulas} {now : Nat} {sources : List PyStr}
    {allowlistText : Option PyStr} {artifacts : Artifacts}
    (built : main U sha256 formulas now sources allowlistText = some artifacts) :
    Publishes U sha256 (allDomains U sources allowlistText) artifacts := by
  simp only [main, Option.bind_eq_bind] at built
  split at built
  · cases built
  · rename_i some_domain
    simp only [optimalSize, if_neg some_domain, Option.bind_some, Option.bind_eq_some_iff] at built
    obtain ⟨bloom, made, idx, written, sha, encoded, packed⟩ := built
    obtain rfl := Option.some.inj packed
    have nonempty := Finset.card_pos.mp (Nat.pos_of_ne_zero some_domain)
    refine ⟨nonempty, ⟨_, _, _, ?_, made⟩, written, ?_⟩
    · obtain ⟨d, member⟩ := nonempty
      obtain ⟨bits, array, -⟩ := Option.bind_eq_some_iff.mp made
      cases listed : sortedDomains (allDomains U sources allowlistText) with
      | nil =>
        rw [← mem_sortedDomains, listed] at member
        cases member
      | cons first others =>
        rw [listed] at array
        exact mBits_pos_of_buildBitarray (Nat.le_max_left ..) array
    · have ascii := isAscii_of_encodeAscii encoded
      rw [encodeAscii_eq ascii] at encoded
      rw [← Option.some.inj encoded, asciiBytes, List.map_append, ← asciiBytes, asciiBytes_hexdigest]
      rfl

end EspAdblocker.Tools
