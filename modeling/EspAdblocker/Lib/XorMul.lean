import EspAdblocker.Lib.Bytes
import Mathlib.Data.BitVec
import Mathlib.Data.Nat.Bitwise
import Mathlib.Data.Nat.ModEq
import Mathlib.Dynamics.PeriodicPts.Lemmas
import Mathlib.Tactic.Ring

/-!
# Xor-then-multiply hashes reach every value

A register absorbs a byte by xoring it into the low end and multiplying by a
constant `p` (`absorb`). When `p ≡ 3 (mod 8)`, the strings without NUL take any
register value to any other (`digest_surjective`). Each absorption permutes the
registers, so it can be undone by further ones (`Reaches.undo`); xoring a byte and
multiplying by `p` are then both reachable moves; and powers of `p` flip one
bit at a time from bit 8 up (`pow_two_pow_mod`).
-/

namespace EspAdblocker.Lib

section

variable {w : Nat} (p : BitVec w)

/-- Absorb one byte. -/
def absorb (h : BitVec w) (b : Byte) : BitVec w :=
  (h ^^^ b.setWidth w) * p

/-- Absorb a byte string. -/
def digest (seed : BitVec w) (s : List Byte) : BitVec w :=
  s.foldl (absorb p) seed

theorem digest_append (seed : BitVec w) (s t : List Byte) :
    digest p seed (s ++ t) = digest p (digest p seed s) t := by
  simp only [digest, List.foldl_append]

/-- Some string without NUL takes the register from `g` to `h`. -/
def Reaches (g h : BitVec w) : Prop :=
  ∃ s, NulFree s ∧ digest p g s = h

variable {p}

theorem Reaches.refl (h : BitVec w) : Reaches p h h :=
  ⟨[], by simp [NulFree], rfl⟩

theorem Reaches.trans {f g h : BitVec w} : Reaches p f g → Reaches p g h → Reaches p f h := by
  rintro ⟨s, freeS, rfl⟩ ⟨t, freeT, rfl⟩
  refine ⟨s ++ t, ?_, digest_append p f s t⟩
  intro b member
  exact (List.mem_append.mp member).elim (freeS b) (freeT b)

theorem reaches_absorb (h : BitVec w) {b : Byte} (nonzero : b ≠ 0#8) : Reaches p h (absorb p h b) :=
  ⟨[b], by simpa [NulFree] using nonzero, rfl⟩

/-! ## Absorptions can be undone -/

theorem mul_injective (odd : p.toNat % 2 = 1) : Function.Injective (fun h : BitVec w => h * p) := by
  intro a b same
  have coprime : Nat.gcd (2 ^ w) p.toNat = 1 :=
    Nat.Coprime.pow_left w ((Nat.coprime_two_left).mpr (Nat.odd_iff.mpr odd))
  have cong : a.toNat * p.toNat ≡ b.toNat * p.toNat [MOD 2 ^ w] := by
    simpa [Nat.ModEq] using congrArg BitVec.toNat same
  have cancel := Nat.ModEq.cancel_right_of_coprime coprime cong
  apply BitVec.eq_of_toNat_eq
  rwa [Nat.ModEq, Nat.mod_eq_of_lt a.isLt, Nat.mod_eq_of_lt b.isLt] at cancel

theorem xor_cancel_right (a b : BitVec w) : a ^^^ b ^^^ b = a := by
  rw [BitVec.xor_assoc, BitVec.xor_self, BitVec.xor_zero]

theorem absorb_injective (odd : p.toNat % 2 = 1) (b : Byte) : Function.Injective (fun h => absorb p h b) := by
  intro g h same
  have before := congrArg (· ^^^ b.setWidth w) (mul_injective odd same)
  simpa only [xor_cancel_right] using before

instance finiteBitVec : Finite (BitVec w) :=
  Finite.of_injective BitVec.toFin fun _ _ same => BitVec.eq_of_toFin_eq same

theorem digest_replicate (b : Byte) (n : Nat) (h : BitVec w) :
    digest p h (List.replicate n b) = (fun g => absorb p g b)^[n] h := by
  induction n generalizing h with
  | zero => rfl
  | succ n ih => rw [List.replicate_succ, Function.iterate_succ_apply, ← ih]; rfl

/-- Absorbing the same byte often enough undoes one absorption. -/
theorem Reaches.undo (odd : p.toNat % 2 = 1) (h : BitVec w) {b : Byte} (nonzero : b ≠ 0#8) :
    Reaches p (absorb p h b) h := by
  obtain ⟨n, positive, period⟩ := (absorb_injective odd b).mem_periodicPts h
  refine ⟨List.replicate (n - 1) b, ?_, ?_⟩
  · intro c member
    rwa [List.eq_of_mem_replicate member]
  · have turns : n = n - 1 + 1 := by omega
    rw [Function.IsPeriodicPt, Function.IsFixedPt, turns, Function.iterate_succ_apply] at period
    rw [digest_replicate, period]

/-! ## The moves -/

/-- Xoring any byte into the low end is a reachable move. -/
theorem Reaches.xor (odd : p.toNat % 2 = 1) (h : BitVec w) (d : Byte) : Reaches p h (h ^^^ d.setWidth w) := by
  obtain ⟨b, nonzero, differ⟩ : ∃ b : Byte, b ≠ 0#8 ∧ b ^^^ d ≠ 0#8 := by
    by_cases one : d = 1#8
    · exact ⟨2#8, by decide, by subst one; decide⟩
    · exact ⟨1#8, by decide, fun zero => one (by
        rw [← xor_cancel_right d d, BitVec.xor_self] at *
        have := congrArg (· ^^^ d) zero
        simpa [BitVec.xor_assoc] using this.symm)⟩
  have meet : absorb p (h ^^^ d.setWidth w) (b ^^^ d) = absorb p h b := by
    simp only [absorb, BitVec.setWidth_xor]
    rw [BitVec.xor_comm (b.setWidth w), ← BitVec.xor_assoc, xor_cancel_right]
  exact (reaches_absorb h nonzero).trans (meet ▸ .undo odd _ differ)

/-- Multiplying by a power of `p` is a reachable move. -/
theorem Reaches.mul_pow (odd : p.toNat % 2 = 1) (h : BitVec w) (n : Nat) : Reaches p h (h * p ^ n) := by
  induction n with
  | zero => simpa using Reaches.refl h
  | succ n ih =>
    have step : absorb p (h * p ^ n ^^^ (1#8).setWidth w) 1#8 = h * p ^ (n + 1) := by
      rw [absorb, xor_cancel_right, pow_succ, mul_assoc]
    exact (ih.trans (.xor odd _ 1#8)).trans (step ▸ reaches_absorb _ (by decide))

end

/-! ## One bit at a time -/

/-- For `p ≡ 3 (mod 8)` the power `p ^ 2 ^ n` is `1 + 2 ^ (n + 2)` modulo `2 ^ (n + 3)`. -/
theorem pow_two_pow_mod {p : Nat} (h : p % 8 = 3) {n : Nat} (hn : 1 ≤ n) :
    p ^ 2 ^ n % 2 ^ (n + 3) = 1 + 2 ^ (n + 2) := by
  induction n, hn using Nat.le_induction with
  | base =>
    obtain ⟨k, rfl⟩ : ∃ k, p = 8 * k + 3 := ⟨p / 8, by omega⟩
    have square : (8 * k + 3) ^ 2 ^ 1 = 16 * (4 * k * k + 3 * k) + 9 := by ring
    rw [square]
    omega
  | succ n hn ih =>
    have split := Nat.div_add_mod (p ^ 2 ^ n) (2 ^ (n + 3))
    rw [ih] at split
    generalize p ^ 2 ^ n / 2 ^ (n + 3) = m at split
    have high : 2 ^ (n + 2) * 2 ^ (n + 2) = 2 ^ (n + 4) * 2 ^ n := by rw [← pow_add, ← pow_add]; congr 1; omega
    have small : 1 + 2 ^ (n + 3) < 2 ^ (n + 4) := by
      have positive := Nat.two_pow_pos (n + 3)
      rw [show n + 4 = n + 3 + 1 by omega, pow_succ]
      have one : 1 < 2 ^ (n + 3) := Nat.one_lt_two_pow (by omega)
      omega
    have square : p ^ 2 ^ (n + 1) = 2 ^ (n + 4) * (m + 2 ^ n * (2 * m + 1) ^ 2) + (1 + 2 ^ (n + 3)) := by
      calc p ^ 2 ^ (n + 1) = p ^ 2 ^ n * p ^ 2 ^ n := by rw [pow_succ, pow_mul, pow_two]
        _ = (2 ^ (n + 2) * (2 * m + 1) + 1) * (2 ^ (n + 2) * (2 * m + 1) + 1) := by rw [← split]; ring
        _ = 2 ^ (n + 2) * 2 ^ (n + 2) * (2 * m + 1) ^ 2 + 2 ^ (n + 3) * (2 * m + 1) + 1 := by ring
        _ = 2 ^ (n + 4) * (m + 2 ^ n * (2 * m + 1) ^ 2) + (1 + 2 ^ (n + 3)) := by rw [high]; ring
    rw [square, Nat.mul_add_mod, Nat.mod_eq_of_lt small]

section

variable {w : Nat} {p : BitVec w}

theorem toNat_mul_mod (a b : BitVec w) {n : Nat} (hn : n ≤ w) : (a * b).toNat % 2 ^ n = a.toNat * b.toNat % 2 ^ n := by
  rw [BitVec.toNat_mul, Nat.mod_mod_of_dvd _ (pow_dvd_pow 2 hn)]

theorem toNat_pow_mod (p : BitVec w) (k : Nat) {n : Nat} (hn : n ≤ w) :
    (p ^ k).toNat % 2 ^ n = p.toNat ^ k % 2 ^ n := by
  induction k with
  | zero => rw [pow_zero, pow_zero, show (1 : BitVec w) = 1#w from rfl, BitVec.toNat_ofNat, Nat.mod_mod_of_dvd _ (pow_dvd_pow 2 hn)]
  | succ k ih => rw [pow_succ, toNat_mul_mod _ _ hn, Nat.mul_mod, ih, ← Nat.mul_mod, pow_succ]

/-- From an odd register a power of `p` flips bit `n` and keeps the bits below. -/
theorem Reaches.flip_odd (three : p.toNat % 8 = 3) {n : Nat} (low : 3 ≤ n) (hn : n < w) {x : BitVec w}
    (hx : x.toNat % 2 = 1) : ∃ z, Reaches p x z ∧ z.toNat % 2 ^ (n + 1) = (x.toNat + 2 ^ n) % 2 ^ (n + 1) := by
  refine ⟨x * p ^ 2 ^ (n - 2), .mul_pow (by omega) x _, ?_⟩
  have power := pow_two_pow_mod three (n := n - 2) (by omega)
  rw [show n - 2 + 3 = n + 1 by omega, show n - 2 + 2 = n by omega] at power
  obtain ⟨k, half⟩ : ∃ k, x.toNat = 2 * k + 1 := ⟨x.toNat / 2, by omega⟩
  have expand : x.toNat * (1 + 2 ^ n) = x.toNat + 2 ^ n + 2 ^ (n + 1) * k := by rw [half]; ring
  rw [toNat_mul_mod x _ (by omega), Nat.mul_mod, toNat_pow_mod p _ (by omega), power,
    ← Nat.mod_eq_of_lt (a := 1 + 2 ^ n) (b := 2 ^ (n + 1)) (by rw [← power]; exact Nat.mod_lt _ (Nat.two_pow_pos _)),
    ← Nat.mul_mod, expand, Nat.add_mul_mod_self_left]

theorem toNat_xor_one (x : BitVec w) (pos : 8 ≤ w) :
    (x ^^^ (1#8).setWidth w).toNat = if x.toNat % 2 = 0 then x.toNat + 1 else x.toNat - 1 := by
  have one : ((1#8).setWidth w).toNat = 1 := by
    rw [BitVec.toNat_setWidth]
    exact Nat.mod_eq_of_lt (Nat.one_lt_two_pow (by omega))
  rw [BitVec.toNat_xor, one]
  split
  · exact Nat.xor_one_of_even (Nat.even_iff.mpr ‹_›)
  · exact Nat.xor_one_of_odd (Nat.odd_iff.mpr (by omega))

/-- From any register some reachable one flips bit `n` and keeps the bits below. -/
theorem Reaches.flip (three : p.toNat % 8 = 3) {n : Nat} (low : 8 ≤ n) (hn : n < w) (x : BitVec w) :
    ∃ z, Reaches p x z ∧ z.toNat % 2 ^ (n + 1) = (x.toNat + 2 ^ n) % 2 ^ (n + 1) := by
  by_cases hx : x.toNat % 2 = 1
  · exact Reaches.flip_odd three (by omega) hn hx
  have up := toNat_xor_one x (by omega)
  rw [if_pos (by omega)] at up
  obtain ⟨y, reach, bits⟩ := Reaches.flip_odd three (by omega) hn (x := x ^^^ (1#8).setWidth w) (by omega)
  have even : 2 ∣ 2 ^ n := dvd_pow_self 2 (by omega)
  have wide : 2 ^ (n + 1) = 2 * 2 ^ n := by ring
  have down := toNat_xor_one y (by omega)
  have oddY : y.toNat % 2 = 1 := by
    have parity := congrArg (· % 2) bits
    simp only [Nat.mod_mod_of_dvd _ (dvd_pow_self 2 (Nat.succ_ne_zero n))] at parity
    omega
  rw [if_neg (by omega)] at down
  have odd : p.toNat % 2 = 1 := by omega
  refine ⟨y ^^^ (1#8).setWidth w, (Reaches.xor odd x 1#8).trans (reach.trans (.xor odd y 1#8)), ?_⟩
  have cong : y.toNat - 1 + 1 ≡ x.toNat + 2 ^ n + 1 [MOD 2 ^ (n + 1)] := by
    rw [Nat.ModEq, show y.toNat - 1 + 1 = y.toNat by omega, bits, up]
    congr 1
    omega
  rw [down]
  exact Nat.ModEq.add_right_cancel' 1 cong

/-- Registers that agree on their low `n` bits reach each other. -/
theorem Reaches.of_low_bits (three : p.toNat % 8 = 3) {n : Nat} (low : 8 ≤ n) (hn : n ≤ w) {x y : BitVec w}
    (same : x.toNat % 2 ^ n = y.toNat % 2 ^ n) : Reaches p x y := by
  obtain ⟨j, left⟩ : ∃ j, w - n = j := ⟨_, rfl⟩
  -- downwards from `n = w`, one bit flipped at a time
  induction j generalizing n x with
  | zero =>
    obtain rfl : n = w := by omega
    rw [Nat.mod_eq_of_lt x.isLt, Nat.mod_eq_of_lt y.isLt] at same
    exact BitVec.eq_of_toNat_eq same ▸ .refl x
  | succ j ih =>
    by_cases here : x.toNat % 2 ^ (n + 1) = y.toNat % 2 ^ (n + 1)
    · exact ih (by omega) (by omega) here (by omega)
    obtain ⟨z, reach, bits⟩ := Reaches.flip three low (by omega : n < w) x
    refine reach.trans (ih (n := n + 1) (by omega) (by omega) ?_ (by omega))
    rw [bits]
    have wide : 2 ^ (n + 1) = 2 ^ n * 2 := pow_succ 2 n
    have splitX := Nat.mod_mul (x := x.toNat) (a := 2 ^ n) (b := 2)
    have splitY := Nat.mod_mul (x := y.toNat) (a := 2 ^ n) (b := 2)
    have splitZ := Nat.mod_mul (x := x.toNat + 2 ^ n) (a := 2 ^ n) (b := 2)
    rw [Nat.add_mod_right, Nat.add_div_right _ (Nat.two_pow_pos n)] at splitZ
    rw [wide] at here ⊢
    rw [splitX, splitY, same] at here
    rw [splitZ, splitY, same]
    have opposite : x.toNat / 2 ^ n % 2 ≠ y.toNat / 2 ^ n % 2 := fun eq => here (by rw [eq])
    have flipped : (x.toNat / 2 ^ n).succ % 2 = y.toNat / 2 ^ n % 2 := by omega
    rw [flipped]

/-- **Every register value is reached** from every other by a string without
NUL, when `p ≡ 3 (mod 8)`. -/
theorem digest_surjective (three : p.toNat % 8 = 3) (wide : 8 ≤ w) (seed target : BitVec w) :
    ∃ s, NulFree s ∧ digest p seed s = target := by
  have near := Reaches.xor (by omega : p.toNat % 2 = 1) seed ((seed ^^^ target).setWidth 8)
  refine near.trans (.of_low_bits three (Nat.le_refl 8) wide ?_)
  have low : (seed ^^^ ((seed ^^^ target).setWidth 8).setWidth w).setWidth 8 = target.setWidth 8 := by
    apply BitVec.eq_of_getLsbD_eq
    intro i hi
    have inside : i < w := by omega
    simp [hi, inside]
  simpa only [BitVec.toNat_setWidth] using congrArg BitVec.toNat low

end

end EspAdblocker.Lib
