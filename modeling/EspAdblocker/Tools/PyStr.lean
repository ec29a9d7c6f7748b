import EspAdblocker.Lib.Bytes

/-!
# Python strings

The string methods the build tools call, over lists of code points. Python's
full Unicode `str.lower` is a parameter (`PyUnicode`): of it, the tools need
that ASCII text is lowered letter by letter and that lowering creates no
whitespace.
-/

namespace EspAdblocker.Tools

open EspAdblocker.Lib

/-- A Python `str`. -/
abbrev PyStr := List Char

/-- `str.isspace` of one code point, which is also `\s` in a `str` pattern. -/
def isSpace (c : Char) : Bool :=
  let n := c.toNat
  (9 ≤ n && n ≤ 13) || (28 ≤ n && n ≤ 32) || n == 0x85 || n == 0xA0 || n == 0x1680 ||
    (0x2000 ≤ n && n ≤ 0x200A) || n == 0x2028 || n == 0x2029 || n == 0x202F || n == 0x205F || n == 0x3000

/-- Where `str.splitlines` breaks. -/
def isLineBreak (c : Char) : Bool :=
  let n := c.toNat
  (10 ≤ n && n ≤ 13) || (28 ≤ n && n ≤ 30) || n == 0x85 || n == 0x2028 || n == 0x2029

/-- `str.strip()`. -/
def strip (s : PyStr) : PyStr :=
  ((s.dropWhile isSpace).reverse.dropWhile isSpace).reverse

/-- `str.splitlines()`: `\r\n` is one break, and a break at the end starts no
further line. -/
def splitlines : PyStr → List PyStr
  | [] => []
  | '\r' :: '\n' :: rest => [] :: splitlines rest
  | c :: rest =>
    if isLineBreak c then [] :: splitlines rest
    else
      match splitlines rest with
      | [] => [[c]]
      | line :: lines => (c :: line) :: lines

/-- ASCII text. -/
def IsAscii (s : PyStr) : Prop :=
  ∀ c ∈ s, c.toNat < 128

instance (s : PyStr) : Decidable (IsAscii s) := List.decidableBAll (fun c : Char => c.toNat < 128) s

/-- Python's `str.lower`, as far as the tools depend on it. -/
structure PyUnicode where
  lower : PyStr → PyStr
  lower_ascii : ∀ s, IsAscii s → lower s = s.map Char.toLower
  lower_not_space : ∀ s, (∀ c ∈ s, isSpace c = false) → ∀ c ∈ lower s, isSpace c = false

/-- `str.encode("ascii")`, which raises on other text. -/
def encodeAscii (s : PyStr) : Option (List Byte) :=
  s.mapM fun c => if c.toNat < 128 then some (BitVec.ofNat 8 c.toNat) else none

/-- The bytes of ASCII text. -/
def asciiBytes (s : PyStr) : List Byte :=
  s.map fun c => BitVec.ofNat 8 c.toNat

theorem encodeAscii_eq {s : PyStr} (ascii : IsAscii s) : encodeAscii s = some (asciiBytes s) := by
  induction s with
  | nil => rfl
  | cons c s ih =>
    have rest := ih fun d member => ascii d (List.mem_cons_of_mem c member)
    have first := ascii c List.mem_cons_self
    rw [encodeAscii] at rest ⊢
    rw [List.mapM_cons, if_pos first, rest]
    rfl

/-- Text that was encoded is ASCII. -/
theorem isAscii_of_encodeAscii {s : PyStr} {bytes : List Byte} (encoded : encodeAscii s = some bytes) : IsAscii s := by
  induction s generalizing bytes with
  | nil => exact fun _ member => absurd member List.not_mem_nil
  | cons c s ih =>
    rw [encodeAscii, List.mapM_cons, Option.bind_eq_bind, Option.bind_eq_some_iff] at encoded
    obtain ⟨b, first, rest⟩ := encoded
    obtain ⟨bs, others, -⟩ := Option.bind_eq_some_iff.mp rest
    have small : c.toNat < 128 := by
      by_contra large
      rw [if_neg large] at first
      cases first
    rintro d (_ | ⟨_, inside⟩)
    · exact small
    · exact ih others d inside

/-- The byte of an ASCII character stands for it alone. -/
theorem asciiByte_inj {c d : Char} (hc : c.toNat < 128) (hd : d.toNat < 128)
    (same : BitVec.ofNat 8 c.toNat = BitVec.ofNat 8 d.toNat) : c = d := by
  have value := congrArg BitVec.toNat same
  rw [BitVec.toNat_ofNat, BitVec.toNat_ofNat, Nat.mod_eq_of_lt (by omega), Nat.mod_eq_of_lt (by omega)] at value
  exact Char.toNat_inj.mp value

/-- The bytes of ASCII text stand for its characters. -/
theorem mem_asciiBytes {s : PyStr} (ascii : IsAscii s) {c : Char} (small : c.toNat < 128) :
    BitVec.ofNat 8 c.toNat ∈ asciiBytes s ↔ c ∈ s := by
  rw [asciiBytes, List.mem_map]
  constructor
  · rintro ⟨d, member, same⟩
    rwa [← asciiByte_inj (ascii d member) small same]
  · exact fun member => ⟨c, member, rfl⟩

/-- `Char.toLower` moves the ASCII capitals and nothing else. -/
theorem toNat_toLower (c : Char) :
    c.toLower.toNat = if 65 ≤ c.toNat ∧ c.toNat ≤ 90 then c.toNat + 32 else c.toNat := by
  have bounds : (c.val ≥ 'A'.val ∧ c.val ≤ 'Z'.val) ↔ (65 ≤ c.toNat ∧ c.toNat ≤ 90) := Iff.rfl
  unfold Char.toLower
  by_cases upper : 65 ≤ c.toNat ∧ c.toNat ≤ 90
  · rw [dif_pos (bounds.mpr upper), if_pos upper]
    have small : c.val.toNat ≤ 90 := upper.2
    have gap : ('a'.val - 'A'.val).toNat = 32 := by decide
    simp only [Char.toNat, UInt32.toNat_add, gap]
    omega
  · rw [dif_neg (fun h => upper (bounds.mp h)), if_neg upper]

theorem toLower_of_not_upper {c : Char} (h : ¬ (65 ≤ c.toNat ∧ c.toNat ≤ 90)) : c.toLower = c := by
  rw [← Char.toNat_inj, toNat_toLower, if_neg h]

/-- Lowering letter by letter is one such `str.lower`. -/
def asciiUnicode : PyUnicode where
  lower s := s.map Char.toLower
  lower_ascii _ _ := rfl
  lower_not_space s clean c member := by
    obtain ⟨d, inside, rfl⟩ := List.mem_map.mp member
    have before := clean d inside
    simp only [isSpace, toNat_toLower] at before ⊢
    split
    · simp only [Bool.or_eq_false_iff, Bool.and_eq_false_iff, decide_eq_false_iff_not, beq_eq_false_iff_ne]
      omega
    · exact before

end EspAdblocker.Tools
