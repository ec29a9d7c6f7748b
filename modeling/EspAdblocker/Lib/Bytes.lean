import Mathlib.Algebra.GroupWithZero.Nat
import Mathlib.Data.List.Lex
import Mathlib.Data.List.TakeWhile
import Mathlib.Data.Nat.Bits

/-!
# Bytes, little-endian fields and C strings

Byte strings are lists of `BitVec 8`. Three views of them are used: the
little-endian value of a packed field (`leNat`, `leBytes`), the sequence of
bits with the least significant bit of each byte first (`bitAt`, `bitsOf`),
and the C string that starts at a byte (`cstr`), compared by `strcmp`.
-/

namespace EspAdblocker.Lib

abbrev Byte := BitVec 8

/-- What a C program may do that has no defined result. -/
inductive Fault where
  | remainderByZero
  | outOfBounds
  | deadStorage
  deriving DecidableEq, Repr

/-! ## Little-endian fields -/

/-- The little-endian value of a byte string. -/
def leNat : List Byte → Nat
  | [] => 0
  | b :: bs => b.toNat + 256 * leNat bs

/-- The `n` low bytes of `v`, least significant first. -/
def leBytes : Nat → Nat → List Byte
  | 0, _ => []
  | n + 1, v => BitVec.ofNat 8 v :: leBytes n (v / 256)

@[simp] theorem length_leBytes (n v : Nat) : (leBytes n v).length = n := by
  induction n generalizing v with
  | zero => rfl
  | succ n ih => simp [leBytes, ih]

/-- Writing `n` bytes and reading them back keeps the value below `256 ^ n`. -/
theorem leNat_leBytes (n v : Nat) : leNat (leBytes n v) = v % 256 ^ n := by
  induction n generalizing v with
  | zero => simp [leBytes, leNat, Nat.mod_one]
  | succ n ih =>
    have split := Nat.mod_mul (a := 256) (b := 256 ^ n) (x := v)
    rw [leBytes, leNat, ih, BitVec.toNat_ofNat, Nat.pow_succ 256, Nat.mul_comm (256 ^ n) 256, split]

/-- A field of `w` bits at byte offset `off`, read little-endian. -/
def readLe (w : Nat) (bs : List Byte) (off : Nat) : BitVec w :=
  BitVec.ofNat w (leNat ((bs.drop off).take (w / 8)))

/-- A packed field is read back at its own offset, whatever surrounds it. -/
theorem readLe_packed (w v : Nat) (pre post : List Byte) (hw : 256 ^ (w / 8) = 2 ^ w) (hv : v < 2 ^ w) :
    readLe w (pre ++ leBytes (w / 8) v ++ post) pre.length = BitVec.ofNat w v := by
  have body : ((pre ++ leBytes (w / 8) v ++ post).drop pre.length).take (w / 8) = leBytes (w / 8) v := by
    rw [List.append_assoc, List.drop_left, List.take_left' (length_leBytes _ _)]
  rw [readLe, body, leNat_leBytes, hw, Nat.mod_eq_of_lt hv]

/-- A packed record: its fields' sizes in bytes and values, in order. -/
def packFields (fields : List (Nat × Nat)) : List Byte :=
  fields.flatMap fun field => leBytes field.1 field.2

theorem length_packFields (fields : List (Nat × Nat)) :
    (packFields fields).length = (fields.map Prod.fst).sum := by
  induction fields with
  | nil => rfl
  | cons field fields ih => rw [packFields, List.flatMap_cons, List.length_append, length_leBytes, ← packFields, ih]; rfl

/-- A field of a packed record is read back at the sum of the sizes before it. -/
theorem readLe_packFields (w v : Nat) (before after : List (Nat × Nat)) (rest : List Byte)
    (hw : 256 ^ (w / 8) = 2 ^ w) (hv : v < 2 ^ w) :
    readLe w (packFields (before ++ (w / 8, v) :: after) ++ rest) (before.map Prod.fst).sum = BitVec.ofNat w v := by
  have layout : packFields (before ++ (w / 8, v) :: after) ++ rest =
      packFields before ++ leBytes (w / 8) v ++ (packFields after ++ rest) := by
    simp [packFields]
  rw [layout, ← length_packFields, readLe_packed w v _ _ hw hv]

/-- The values of a packed record whose fields have these sizes. -/
def unpackFields : List Nat → List Byte → List Nat
  | [], _ => []
  | size :: sizes, raw => leNat (raw.take size) :: unpackFields sizes (raw.drop size)

/-- **A packed record is unpacked to the values it was packed from**, whatever bytes follow. -/
theorem unpackFields_packFields {fields : List (Nat × Nat)} (fits : ∀ field ∈ fields, field.2 < 256 ^ field.1)
    (rest : List Byte) : unpackFields (fields.map Prod.fst) (packFields fields ++ rest) = fields.map Prod.snd := by
  induction fields with
  | nil => rfl
  | cons field fields ih =>
    have front : packFields (field :: fields) ++ rest = leBytes field.1 field.2 ++ (packFields fields ++ rest) := by
      rw [packFields, List.flatMap_cons, List.append_assoc, ← packFields]
    have here := fits field List.mem_cons_self
    rw [front, List.map_cons, unpackFields, List.take_left' (length_leBytes _ _), List.drop_left' (length_leBytes _ _),
      leNat_leBytes, Nat.mod_eq_of_lt here, ih fun other member => fits other (List.mem_cons_of_mem field member),
      List.map_cons]

/-! ## Bits, least significant first -/

/-- Bit `i` of a byte string: bit `i % 8` of byte `i / 8`. -/
def bitAt (bs : List Byte) (i : Nat) : Bool :=
  (bs.getD (i / 8) 0#8).getLsbD (i % 8)

/-- All bits of a byte, least significant first. -/
def byteBits (b : Byte) : List Bool :=
  (List.range 8).map b.getLsbD

/-- All bits of a byte string in order. -/
def bitsOf (bs : List Byte) : List Bool :=
  bs.flatMap byteBits

@[simp] theorem length_byteBits (b : Byte) : (byteBits b).length = 8 := by
  simp [byteBits]

@[simp] theorem bitsOf_nil : bitsOf [] = [] := rfl

@[simp] theorem bitsOf_cons (b : Byte) (bs : List Byte) : bitsOf (b :: bs) = byteBits b ++ bitsOf bs := rfl

@[simp] theorem length_bitsOf (bs : List Byte) : (bitsOf bs).length = 8 * bs.length := by
  induction bs with
  | nil => rfl
  | cons b bs ih => simp only [bitsOf_cons, List.length_append, length_byteBits, ih, List.length_cons]; omega

theorem getD_byteBits (b : Byte) {i : Nat} (hi : i < 8) : (byteBits b)[i]? = some (b.getLsbD i) := by
  simp [byteBits, hi]

/-- The list of bits and the indexed bits agree. -/
theorem getElem?_bitsOf (bs : List Byte) {i : Nat} (hi : i < 8 * bs.length) :
    (bitsOf bs)[i]? = some (bitAt bs i) := by
  induction bs generalizing i with
  | nil => simp at hi
  | cons b bs ih =>
    rw [bitsOf_cons]
    by_cases here : i < 8
    · rw [List.getElem?_append_left (by simpa using here), getD_byteBits b here]
      simp [bitAt, Nat.div_eq_of_lt here, Nat.mod_eq_of_lt here]
    · rw [List.length_cons] at hi
      rw [List.getElem?_append_right (by simp; omega), length_byteBits, ih (by omega)]
      have index : i / 8 = (i - 8) / 8 + 1 := by omega
      have offset : (i - 8) % 8 = i % 8 := by omega
      simp [bitAt, index, offset]

/-- Bytes are determined by their bits. -/
theorem byte_ext {a b : Byte} (h : ∀ i, i < 8 → a.getLsbD i = b.getLsbD i) : a = b :=
  BitVec.eq_of_getLsbD_eq h

/-- Byte strings of one length are equal when their bits are. -/
theorem bytes_ext {as bs : List Byte} (len : as.length = bs.length)
    (h : ∀ i, i < 8 * as.length → bitAt as i = bitAt bs i) : as = bs := by
  apply List.ext_getElem len
  intro n ha hb
  apply byte_ext
  intro i hi
  have bit := h (8 * n + i) (by omega)
  have index : (8 * n + i) / 8 = n := by omega
  have offset : (8 * n + i) % 8 = i := by omega
  simpa [bitAt, index, offset, ha, hb] using bit

/-- `bs` and `cs` differ only inside a window of `n` consecutive bits. -/
def DiffersWithin (n : Nat) (bs cs : List Byte) : Prop :=
  ∃ start, ∀ i, bitAt bs i ≠ bitAt cs i → start ≤ i ∧ i < start + n

theorem bitAt_of_length_le {bs : List Byte} {i : Nat} (past : 8 * bs.length ≤ i) : bitAt bs i = false := by
  rw [bitAt, List.getD_eq_getElem?_getD, List.getElem?_eq_none (by omega), Option.getD_none, BitVec.getLsbD_zero]

/-- Only the bits of the two strings need to be compared. -/
theorem differsWithin_of_bits {n : Nat} {bs cs : List Byte} (start : Nat) (len : bs.length = cs.length)
    (window : ∀ i < 8 * bs.length, bitAt bs i ≠ bitAt cs i → start ≤ i ∧ i < start + n) : DiffersWithin n bs cs := by
  refine ⟨start, fun i differ => window i ?_ differ⟩
  by_contra past
  exact differ (by rw [bitAt_of_length_le (by omega), bitAt_of_length_le (by omega)])

theorem bitAt_drop (bs : List Byte) (k i : Nat) : bitAt (bs.drop k) i = bitAt bs (8 * k + i) := by
  have index : (8 * k + i) / 8 = k + i / 8 := by omega
  have offset : (8 * k + i) % 8 = i % 8 := by omega
  simp only [bitAt, List.getD_eq_getElem?_getD, List.getElem?_drop, index, offset]

/-- Tails of strings that differ within a window differ within a window. -/
theorem DiffersWithin.drop {n : Nat} {bs cs : List Byte} (h : DiffersWithin n bs cs) (k : Nat) :
    DiffersWithin n (bs.drop k) (cs.drop k) := by
  obtain ⟨start, window⟩ := h
  refine ⟨start - 8 * k, fun i differ => ?_⟩
  rw [bitAt_drop, bitAt_drop] at differ
  have := window _ differ
  omega

/-! ## C strings -/

/-- The C string that starts at a buffer: its bytes up to the first NUL. -/
def cstr (bs : List Byte) : List Byte :=
  bs.takeWhile (· ≠ 0#8)

/-- A list longer than `n` starts with an element before at least `n` others. -/
theorem exists_cons {α : Type} {n : Nat} {s : List α} (long : n + 1 ≤ s.length) :
    ∃ b rest, s = b :: rest ∧ n ≤ rest.length := by
  cases s with
  | nil => exact absurd long (Nat.not_succ_le_zero n)
  | cons b rest => exact ⟨b, rest, rfl, Nat.le_of_succ_le_succ long⟩

/-- The bytes of a C string, none of them NUL. -/
def NulFree (s : List Byte) : Prop :=
  ∀ b ∈ s, b ≠ 0#8

instance (s : List Byte) : Decidable (NulFree s) := inferInstanceAs (Decidable (∀ b ∈ s, b ≠ 0#8))

theorem nulFree_cstr (bs : List Byte) : NulFree (cstr bs) := by
  intro b member
  simpa using List.mem_takeWhile_imp member

theorem NulFree.tail {b : Byte} {s : List Byte} (h : NulFree (b :: s)) : NulFree s :=
  fun c member => h c (List.mem_cons_of_mem b member)

theorem NulFree.head {b : Byte} {s : List Byte} (h : NulFree (b :: s)) : b ≠ 0#8 :=
  h b List.mem_cons_self

/-- A string followed by its terminator is read back whole. -/
theorem cstr_append {s : List Byte} (h : NulFree s) (rest : List Byte) : cstr (s ++ 0#8 :: rest) = s := by
  induction s with
  | nil => simp [cstr]
  | cons b s ih =>
    have stays := ih h.tail
    have nonzero := h.head
    rw [cstr] at stays ⊢
    rw [List.cons_append, List.takeWhile_cons_of_pos (by simpa using nonzero), stays]

/-- What follows a NUL is not part of the C string. -/
theorem cstr_append_of_mem {s : List Byte} (nul : 0#8 ∈ s) (rest : List Byte) : cstr (s ++ rest) = cstr s := by
  induction s with
  | nil => cases nul
  | cons b s ih =>
    rw [cstr, cstr, List.cons_append, List.takeWhile_cons, List.takeWhile_cons]
    by_cases zero : b = 0#8
    · simp [zero]
    · have later : 0#8 ∈ s := (List.mem_cons.mp nul).resolve_left (Ne.symm zero)
      rw [← cstr, ← cstr, ih later]

/-- A string without NUL is its own C string. -/
theorem cstr_eq_self {s : List Byte} (h : NulFree s) : cstr s = s :=
  List.takeWhile_eq_self_iff.mpr fun b member => by simpa using h b member

/-- `strcmp`: the difference of the first bytes that differ, as unsigned
values, the terminator counting as 0. -/
def strcmp : List Byte → List Byte → Int
  | [], [] => 0
  | [], b :: _ => -(b.toNat : Int)
  | a :: _, [] => a.toNat
  | a :: as, b :: bs => if a = b then strcmp as bs else (a.toNat : Int) - b.toNat

theorem byte_toNat_pos {b : Byte} (h : b ≠ 0#8) : 0 < b.toNat := by
  have nonzero : b.toNat ≠ 0 := fun zero => h (BitVec.eq_of_toNat_eq zero)
  omega

@[simp] theorem strcmp_self (s : List Byte) : strcmp s s = 0 := by
  induction s with
  | nil => rfl
  | cons b s ih => simp [strcmp, ih]

/-- Comparing the other way round changes the sign. -/
theorem strcmp_swap (s t : List Byte) : strcmp t s = -strcmp s t := by
  induction s generalizing t with
  | nil => cases t <;> simp [strcmp]
  | cons a s ih =>
    cases t with
    | nil => simp [strcmp]
    | cons b t =>
      by_cases same : a = b
      · simp [strcmp, same, ih]
      · simp only [strcmp, same, Ne.symm same, if_false]
        omega

/-- `strcmp` is zero exactly on equal strings. -/
theorem strcmp_eq_zero_iff {s t : List Byte} (hs : NulFree s) (ht : NulFree t) : strcmp s t = 0 ↔ s = t := by
  induction s generalizing t with
  | nil =>
    cases t with
    | nil => simp [strcmp]
    | cons b t =>
      have positive := byte_toNat_pos ht.head
      simp only [strcmp, reduceCtorEq, iff_false]
      omega
  | cons a s ih =>
    cases t with
    | nil =>
      have positive := byte_toNat_pos hs.head
      simp only [strcmp, reduceCtorEq, iff_false]
      omega
    | cons b t =>
      by_cases same : a = b
      · simp [strcmp, same, ih hs.tail ht.tail]
      · have differ : a.toNat ≠ b.toNat := fun eq => same (BitVec.eq_of_toNat_eq eq)
        simp only [strcmp, same, if_false, List.cons.injEq, false_and, iff_false]
        omega

/-- A string that compares equal to one of several is one of them. -/
theorem exists_strcmp_eq_zero_iff {s : List Byte} {names : List (List Byte)} (hs : NulFree s)
    (free : ∀ name ∈ names, NulFree name) : (∃ name ∈ names, strcmp s name = 0) ↔ s ∈ names := by
  constructor
  · rintro ⟨name, member, zero⟩
    rwa [(strcmp_eq_zero_iff hs (free name member)).mp zero]
  · exact fun member => ⟨s, member, strcmp_self s⟩

end EspAdblocker.Lib
