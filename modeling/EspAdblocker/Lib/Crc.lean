import EspAdblocker.Lib.Bytes

/-!
# Reflected cyclic redundancy registers

A register of `w` bits is shifted right one bit at a time; the bit shifted out
selects whether the generator `poly` is added (`crcStep`). A message is fed
least significant bit first (`feed`). For any generator whose top bit is set
the step is injective, so a non-zero difference survives every later bit, and
two messages that differ only inside a window of `w` bits leave different
registers (`crcBytes_burst`). `crcByteTable` is the byte-at-a-time form.
-/

namespace EspAdblocker.Lib

section Register

variable {w : Nat} (poly : BitVec w)

/-- One shift of the register. -/
def crcStep (s : BitVec w) : BitVec w :=
  (s >>> 1) ^^^ (if s.getLsbD 0 then poly else 0#w)

/-- `n` shifts of the register. -/
def crcSteps : Nat → BitVec w → BitVec w
  | 0, s => s
  | n + 1, s => crcSteps n (crcStep poly s)

/-- The word with only bit 0, set to `b`. -/
def unitWord (b : Bool) : BitVec w := if b then 1#w else 0#w

/-- Feed one message bit. -/
def feedBit (s : BitVec w) (b : Bool) : BitVec w :=
  crcStep poly (s ^^^ unitWord b)

/-- Feed a message, bit by bit. -/
def feed (s : BitVec w) (bits : List Bool) : BitVec w :=
  bits.foldl (feedBit poly) s

/-- Feed a byte: add it to the low end and shift eight times. -/
def crcByte (s : BitVec w) (b : Byte) : BitVec w :=
  crcSteps poly 8 (s ^^^ b.setWidth w)

/-- Feed a byte string. -/
def crcBytes (s : BitVec w) (bs : List Byte) : BitVec w :=
  bs.foldl (crcByte poly) s

/-- Feed a byte through a table of the 256 eight-shift words. -/
def crcByteTable (s : BitVec w) (b : Byte) : BitVec w :=
  (s >>> 8) ^^^ crcSteps poly 8 (((s ^^^ b.setWidth w).setWidth 8).setWidth w)

theorem feed_cons (s : BitVec w) (b : Bool) (bits : List Bool) :
    feed poly s (b :: bits) = feed poly (feedBit poly s b) bits := rfl

theorem feed_append (s : BitVec w) (u v : List Bool) : feed poly s (u ++ v) = feed poly (feed poly s u) v := by
  simp only [feed, List.foldl_append]

/-! ## Linearity -/

theorem crcStep_xor (a b : BitVec w) : crcStep poly (a ^^^ b) = crcStep poly a ^^^ crcStep poly b := by
  simp only [crcStep, BitVec.getLsbD_xor, BitVec.ushiftRight_xor_distrib]
  apply BitVec.eq_of_getLsbD_eq
  intro i _
  simp only [BitVec.getLsbD_xor]
  generalize (a >>> 1).getLsbD i = x
  generalize (b >>> 1).getLsbD i = y
  cases a.getLsbD 0 <;> cases b.getLsbD 0 <;> simp <;> cases x <;> cases y <;> simp

theorem crcSteps_xor (n : Nat) (a b : BitVec w) :
    crcSteps poly n (a ^^^ b) = crcSteps poly n a ^^^ crcSteps poly n b := by
  induction n generalizing a b with
  | zero => rfl
  | succ n ih => simp only [crcSteps, crcStep_xor, ih]

/-- A register whose low bit is clear is only shifted. -/
theorem crcStep_even {s : BitVec w} (h : s.getLsbD 0 = false) : crcStep poly s = s >>> 1 := by
  simp [crcStep, h]

/-- A register whose low `n` bits are clear is only moved down `n` places. -/
theorem crcSteps_high {n : Nat} {s : BitVec w} (h : ∀ i, i < n → s.getLsbD i = false) :
    crcSteps poly n s = s >>> n := by
  induction n generalizing s with
  | zero => simp [crcSteps]
  | succ n ih =>
    have shifted : ∀ i, i < n → (s >>> 1).getLsbD i = false := by
      intro i hi
      rw [BitVec.getLsbD_ushiftRight]
      exact h (1 + i) (by omega)
    rw [crcSteps, crcStep_even poly (h 0 (by omega)), ih shifted, ← BitVec.shiftRight_add, Nat.add_comm]

/-! ## Injectivity -/

/-- A clear register after one shift was clear before it, when the generator
reaches the top bit. -/
theorem eq_zero_of_crcStep (top : poly.msb = true) {s : BitVec w} (h : crcStep poly s = 0#w) : s = 0#w := by
  have pos : 0 < w := by
    rcases Nat.eq_zero_or_pos w with rfl | pos
    · simp [BitVec.eq_nil poly] at top
    · exact pos
  have low : s.getLsbD 0 = false := by
    by_contra set
    have bit := congrArg (BitVec.getLsbD · (w - 1)) h
    rw [BitVec.msb_eq_getLsbD_last] at top
    have out : ¬ 1 + (w - 1) < w := by omega
    simp [crcStep, set, top, BitVec.getLsbD_of_ge s (1 + (w - 1)) (by omega)] at bit
  rw [crcStep_even poly low] at h
  apply BitVec.eq_of_getLsbD_eq
  intro i _
  cases i with
  | zero => simpa using low
  | succ i =>
    have bit := congrArg (BitVec.getLsbD · i) h
    simpa [Nat.add_comm] using bit

theorem xor_eq_zero_iff (a b : BitVec w) : a ^^^ b = 0#w ↔ a = b := by
  constructor
  · intro h
    apply BitVec.eq_of_getLsbD_eq
    intro i _
    have bit := congrArg (BitVec.getLsbD · i) h
    simpa using bit
  · rintro rfl; exact BitVec.xor_self

theorem crcStep_injective (top : poly.msb = true) : Function.Injective (crcStep poly) := by
  intro a b same
  rw [← xor_eq_zero_iff] at same ⊢
  rw [← crcStep_xor] at same
  exact eq_zero_of_crcStep poly top same

theorem crcSteps_injective (top : poly.msb = true) (n : Nat) : Function.Injective (crcSteps poly n) := by
  induction n with
  | zero => exact fun _ _ same => same
  | succ n ih => exact fun a b same => crcStep_injective poly top (ih same)

/-- Registers that differ keep differing over any common tail. -/
theorem feed_injective (top : poly.msb = true) (bits : List Bool) :
    Function.Injective (fun s => feed poly s bits) := by
  induction bits with
  | nil => exact fun _ _ same => same
  | cons b bits ih =>
    intro s t same
    have before := crcStep_injective poly top (ih same)
    rwa [← xor_eq_zero_iff, BitVec.xor_assoc, BitVec.xor_comm (unitWord b), BitVec.xor_assoc,
      BitVec.xor_self, BitVec.xor_zero, xor_eq_zero_iff] at before

/-! ## A short run of bits as a word -/

/-- The word whose low bits are the list, first bit lowest. -/
def wordOf : List Bool → BitVec w
  | [] => 0#w
  | b :: bits => (wordOf bits <<< 1) ^^^ unitWord b

theorem getLsbD_unitWord (b : Bool) {i : Nat} (hi : i < w) :
    (unitWord b : BitVec w).getLsbD i = (decide (i = 0) && b) := by
  cases b
  · simp [unitWord]
  · have pos : 0 < w := by omega
    simp [unitWord, BitVec.getLsbD_one, pos]

theorem getLsbD_wordOf (bits : List Bool) {i : Nat} (hi : i < w) :
    (wordOf bits : BitVec w).getLsbD i = bits.getD i false := by
  induction bits generalizing i with
  | nil => simp [wordOf]
  | cons b bits ih =>
    cases i with
    | zero => simp [wordOf, getLsbD_unitWord b hi]
    | succ i =>
      have inside : i < w := by omega
      simp only [wordOf, BitVec.getLsbD_xor, BitVec.getLsbD_shiftLeft, getLsbD_unitWord b hi, hi, Nat.add_sub_cancel,
        ih inside]
      simp

/-- Runs of one length up to `w` are determined by their words. -/
theorem wordOf_injective {u v : List Bool} (len : u.length = v.length) (short : u.length ≤ w)
    (same : (wordOf u : BitVec w) = wordOf v) : u = v := by
  apply List.ext_getElem len
  intro i hu hv
  have bit := congrArg (BitVec.getLsbD · i) same
  simp only [getLsbD_wordOf _ (by omega : i < w)] at bit
  simpa [hu, hv] using bit

/-- Feeding up to `w` bits is adding their word and shifting. -/
theorem feed_eq_crcSteps (s : BitVec w) (bits : List Bool) (short : bits.length ≤ w) :
    feed poly s bits = crcSteps poly bits.length (s ^^^ wordOf bits) := by
  induction bits generalizing s with
  | nil => simp [feed, crcSteps, wordOf]
  | cons b bits ih =>
    rw [List.length_cons] at short
    have room : (wordOf bits : BitVec w).getLsbD (w - 1) = false := by
      rw [getLsbD_wordOf bits (by omega)]
      simp only [List.getD_eq_getElem?_getD]
      rw [List.getElem?_eq_none (by omega)]; rfl
    have shifted : crcStep poly ((wordOf bits : BitVec w) <<< 1) = wordOf bits := by
      rw [crcStep_even poly (by simp)]
      apply BitVec.eq_of_getLsbD_eq
      intro i hi
      rw [BitVec.getLsbD_ushiftRight, BitVec.getLsbD_shiftLeft]
      by_cases last : i = w - 1
      · subst last; simp [room]
      · have inside : 1 + i < w := by omega
        simp [inside]
    rw [feed_cons, ih (feedBit poly s b) (by omega), List.length_cons, crcSteps, wordOf, BitVec.xor_comm (wordOf bits <<< 1),
      ← BitVec.xor_assoc, crcStep_xor, shifted, feedBit]

/-- The word of a byte's bits is the byte. -/
theorem wordOf_byteBits (b : Byte) : (wordOf (byteBits b) : BitVec w) = b.setWidth w := by
  apply BitVec.eq_of_getLsbD_eq
  intro i hi
  rw [getLsbD_wordOf _ hi, BitVec.getLsbD_setWidth, List.getD_eq_getElem?_getD]
  by_cases inside : i < 8
  · simp [getD_byteBits b inside, hi]
  · rw [List.getElem?_eq_none (by simp; omega), BitVec.getLsbD_of_ge b i (by omega)]
    simp

/-- Feeding bytes is feeding their bits. -/
theorem crcBytes_eq_feed (wide : 8 ≤ w) (s : BitVec w) (bs : List Byte) :
    crcBytes poly s bs = feed poly s (bitsOf bs) := by
  induction bs generalizing s with
  | nil => rfl
  | cons b bs ih =>
    have byte := feed_eq_crcSteps poly s (byteBits b) (by simpa using wide)
    rw [length_byteBits, wordOf_byteBits] at byte
    rw [bitsOf_cons, feed_append, byte, ← ih]
    rfl

/-! ## Bursts -/

/-- Two messages that agree outside a run of at most `w` bits, and differ
inside it, leave different registers. -/
theorem feed_burst (top : poly.msb = true) (s : BitVec w) {p u v q : List Bool} (len : u.length = v.length)
    (short : u.length ≤ w) (differ : u ≠ v) : feed poly s (p ++ u ++ q) ≠ feed poly s (p ++ v ++ q) := by
  intro same
  simp only [feed_append] at same
  have before := feed_injective poly top q same
  rw [feed_eq_crcSteps poly _ u short, feed_eq_crcSteps poly _ v (len ▸ short), len] at before
  have words := crcSteps_injective poly top _ before
  rw [← xor_eq_zero_iff, BitVec.xor_assoc, BitVec.xor_comm (wordOf u), BitVec.xor_assoc,
    ← BitVec.xor_assoc, BitVec.xor_self, BitVec.zero_xor, BitVec.xor_comm, xor_eq_zero_iff] at words
  exact differ (wordOf_injective len short words)

/-- **Burst detection**: byte strings of one length whose differing bits lie
in a window of `w` consecutive bits leave different registers. -/
theorem crcBytes_burst (wide : 8 ≤ w) (top : poly.msb = true) (s : BitVec w) {bs cs : List Byte}
    (len : bs.length = cs.length) (near : DiffersWithin w bs cs) (differ : bs ≠ cs) :
    crcBytes poly s bs ≠ crcBytes poly s cs := by
  obtain ⟨start, window⟩ := near
  have agree : ∀ i, i < start ∨ start + w ≤ i → (bitsOf bs)[i]? = (bitsOf cs)[i]? := by
    intro i outside
    by_cases hi : i < 8 * bs.length
    · rw [getElem?_bitsOf bs hi, getElem?_bitsOf cs (len ▸ hi)]
      by_contra ne
      have inside := window i (fun eq => ne (by rw [eq]))
      omega
    · rw [List.getElem?_eq_none (by simp; omega), List.getElem?_eq_none (by simp; omega)]
  have front : (bitsOf bs).take start = (bitsOf cs).take start := by
    apply List.ext_getElem?
    intro i
    by_cases hi : i < start
    · simp only [List.getElem?_take_of_lt hi, agree i (.inl hi)]
    · rw [List.getElem?_eq_none (by simp; omega), List.getElem?_eq_none (by simp; omega)]
  have back : ((bitsOf bs).drop start).drop w = ((bitsOf cs).drop start).drop w := by
    apply List.ext_getElem?
    intro i
    simp only [List.getElem?_drop]
    exact agree _ (.inr (by omega))
  have split : ∀ bits : List Bool, bits = bits.take start ++ (bits.drop start).take w ++ (bits.drop start).drop w := by
    intro bits
    rw [List.append_assoc, List.take_append_drop, List.take_append_drop]
  have inner : ((bitsOf bs).drop start).take w ≠ ((bitsOf cs).drop start).take w := by
    intro same
    have bits : bitsOf bs = bitsOf cs := by rw [split (bitsOf bs), split (bitsOf cs), front, same, back]
    refine differ (bytes_ext len fun i hi => ?_)
    have bit := congrArg (·[i]?) bits
    simpa only [getElem?_bitsOf bs hi, getElem?_bitsOf cs (len ▸ hi), Option.some.injEq] using bit
  rw [crcBytes_eq_feed poly wide, crcBytes_eq_feed poly wide, split (bitsOf bs), split (bitsOf cs), front, back]
  exact feed_burst poly top s (by simp [len]) (List.length_take_le _ _) inner

/-! ## The table form -/

/-- Eight shifts: those of the low byte, and the rest moved down eight places. -/
theorem crcSteps_eight (x : BitVec w) :
    crcSteps poly 8 x = (x >>> 8) ^^^ crcSteps poly 8 ((x.setWidth 8).setWidth w) := by
  have split : x = (x ^^^ (x.setWidth 8).setWidth w) ^^^ (x.setWidth 8).setWidth w := by
    rw [BitVec.xor_assoc, BitVec.xor_self, BitVec.xor_zero]
  have clear : ∀ i, i < 8 → (x ^^^ (x.setWidth 8).setWidth w).getLsbD i = false := by
    intro i hi
    by_cases inside : i < w
    · simp [hi, inside]
    · simp [BitVec.getLsbD_of_ge x i (by omega)]
  have high : (x ^^^ (x.setWidth 8).setWidth w) >>> 8 = x >>> 8 := by
    apply BitVec.eq_of_getLsbD_eq
    intro i _
    simp
  conv => lhs; rw [split, crcSteps_xor, crcSteps_high poly clear, high]

/-- The table form feeds the same byte. -/
theorem crcByteTable_eq (s : BitVec w) (b : Byte) : crcByteTable poly s b = crcByte poly s b := by
  have high : (s ^^^ b.setWidth w) >>> 8 = s >>> 8 := by
    apply BitVec.eq_of_getLsbD_eq
    intro i _
    simp
  rw [crcByte, crcSteps_eight, high, crcByteTable]

end Register

end EspAdblocker.Lib
