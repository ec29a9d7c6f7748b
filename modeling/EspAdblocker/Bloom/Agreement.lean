import EspAdblocker.Tools.BlocklistBuild

/-!
# The firmware and the tool agree on the filter

The cross-check test compares `bloom_filter_test` with its own walk over
`bit_indices` (`pyTest`). The two answer alike on every array, and the array
`build_bitarray` builds answers yes for every domain it was built from
(`firmware_agrees_with_tool`).
-/

namespace EspAdblocker.Bloom

open EspAdblocker.Lib EspAdblocker.Tools

/-- `py_test` of the cross-check: `all(bits[idx // 8] & (1 << (idx % 8)) for idx in bit_indices(...))`. -/
def pyTest (U : PyUnicode) (bits : List Byte) (domain : PyStr) (mBits kHashes : Nat) : Option Bool := do
  (← bitIndices U domain mBits kHashes).allM fun idx =>
    bits[idx / 8]?.map fun byte => byte.toNat &&& (1 <<< (idx % 8)) != 0

/-- The domains the two sides are compared on: ASCII without NUL, and already normalized. -/
structure Normalized (U : PyUnicode) (d : PyStr) : Prop where
  ascii : IsAscii d
  noNul : ∀ c ∈ d, c.toNat ≠ 0
  fixed : normalizeDomain U d = d

theorem Normalized.nulFree {U : PyUnicode} {d : PyStr} (h : Normalized U d) : NulFree (asciiBytes d) := by
  intro b member zero
  obtain ⟨c, inside, rfl⟩ := List.mem_map.mp member
  have ascii := h.ascii c inside
  have nonzero := h.noNul c inside
  have value := congrArg BitVec.toNat zero
  simp only [BitVec.toNat_ofNat] at value
  omega

/-- Parsed domains are among them. -/
theorem normalized_of_isDomain (U : PyUnicode) {d : PyStr} (h : IsDomain d) : Normalized U d where
  ascii := h.isAscii
  noNul c member := by
    have := h.bounds c member
    omega
  fixed := h.normalizeDomain_eq U

/-- Python's mask tests the bit the firmware tests. -/
theorem and_shift_ne_zero (byte : Byte) (i : Nat) : (byte.toNat &&& (1 <<< i) != 0) = byte.getLsbD i := by
  have power := Nat.two_pow_pos i
  rw [Nat.one_shiftLeft, Nat.and_two_pow, BitVec.testBit_toNat]
  cases byte.getLsbD i
  · simp
  · simp only [Bool.toNat_true, Nat.one_mul, bne_iff_ne]
    omega

/-- The test walk over indices inside the array raises nothing. -/
theorem allM_eq {bits : List Byte} {idxs : List Nat} (inside : ∀ idx ∈ idxs, idx < 8 * bits.length) :
    idxs.allM (fun idx => bits[idx / 8]?.map fun byte => byte.toNat &&& (1 <<< (idx % 8)) != 0) =
      some (idxs.all fun idx => bitAt bits idx) := by
  induction idxs with
  | nil => rfl
  | cons idx idxs ih =>
    have here := inside idx List.mem_cons_self
    have room : idx / 8 < bits.length := by omega
    have rest := ih fun other member => inside other (List.mem_cons_of_mem idx member)
    have bit : bitAt bits idx = bits[idx / 8].getLsbD (idx % 8) := by
      rw [bitAt, List.getD_eq_getElem?_getD, List.getElem?_eq_getElem room, Option.getD_some]
    rw [List.allM, List.getElem?_eq_getElem room, Option.map_some, and_shift_ne_zero, List.all_cons, bit, rest]
    cases bits[idx / 8].getLsbD (idx % 8) <;> rfl

section

variable {U : PyUnicode} {mBits kHashes : Nat} {header : BloomHeader}

/-- The indices of a normalized domain, as the firmware computes them. -/
def indicesOf (mBits kHashes : Nat) (d : PyStr) : List Nat :=
  (List.range kHashes).map fun i =>
    (bitIndex (fnv1a64 (asciiBytes d) fnvSeed1) (fnv1a64 (asciiBytes d) fnvSeed2) (BitVec.ofNat 64 mBits) i).toNat

theorem lt_of_mem_indicesOf (positive : 1 ≤ mBits) (fits : mBits < 2 ^ 64) {d : PyStr} {i : Nat}
    (member : i ∈ indicesOf mBits kHashes d) : i < mBits := by
  obtain ⟨j, -, rfl⟩ := List.mem_map.mp member
  rw [bitIndex, BitVec.toNat_umod, BitVec.toNat_ofNat, Nat.mod_eq_of_lt fits]
  exact Nat.mod_lt _ positive

/-- A header for `mBits` bits over an array of that many bits answers every query. -/
theorem answers_of_length (positive : 1 ≤ mBits) (fits : mBits < 2 ^ 64) {bits : List Byte}
    (len : (mBits + 7) / 8 ≤ bits.length) : Answers (BitVec.ofNat 64 mBits) bits := by
  have value : (BitVec.ofNat 64 mBits).toNat = mBits := Nat.mod_eq_of_lt fits
  refine ⟨fun zero => ?_, by rwa [value]⟩
  have := congrArg BitVec.toNat zero
  rw [value] at this
  simp only [BitVec.toNat_ofNat] at this
  omega

/-- The firmware answers whether all indices of the domain are set. -/
theorem bloomFilterTest_normalized (positive : 1 ≤ mBits) (fits : mBits < 2 ^ 64) (small : kHashes < 2 ^ 32)
    (hm : header.mBits = BitVec.ofNat 64 mBits) (hk : header.kHashes = BitVec.ofNat 32 kHashes) {bits : List Byte}
    (len : (mBits + 7) / 8 ≤ bits.length) {d : PyStr} (ok : Normalized U d) :
    bloomFilterTest ⟨header, bits⟩ (asciiBytes d) =
      .ok ((indicesOf mBits kHashes d).all fun idx => bitAt bits idx) := by
  have answers : Answers (BloomFilter.mk header bits).header.mBits bits := hm ▸ answers_of_length positive fits len
  rw [bloomFilterTest_eq answers, cstr_eq_self ok.nulFree, indicesOf, List.all_map]
  simp only [hm, hk, BitVec.toNat_ofNat, Nat.mod_eq_of_lt small]
  rfl

/-- A domain tests positive in the array built from a list that holds it. -/
theorem buildBitarray_positive (positive : 1 ≤ mBits) (fits : mBits < 2 ^ 64) (small : kHashes < 2 ^ 32)
    (hm : header.mBits = BitVec.ofNat 64 mBits) (hk : header.kHashes = BitVec.ofNat 32 kHashes) {ds : List PyStr}
    (ok : ∀ d ∈ ds, Normalized U d) : ∃ bits, buildBitarray U ds mBits kHashes = some bits ∧
      bits.length = (mBits + 7) / 8 ∧
      ∀ rest, ∀ d ∈ ds, bloomFilterTest ⟨header, bits ++ rest⟩ (asciiBytes d) = .ok true := by
  obtain ⟨bits, built, len, bit⟩ := buildBitarray_eq_some (indicesOf mBits kHashes)
    (fun d member => bitIndices_eq (ok d member).ascii (ok d member).fixed positive fits kHashes)
    (fun d _ i => lt_of_mem_indicesOf positive fits)
  refine ⟨bits, built, len, fun rest d member => ?_⟩
  have room : (mBits + 7) / 8 ≤ (bits ++ rest).length := by rw [List.length_append]; omega
  rw [bloomFilterTest_normalized positive fits small hm hk room (ok d member), Except.ok.injEq, List.all_eq_true]
  intro i index
  have small := lt_of_mem_indicesOf positive fits index
  have inside : i / 8 < bits.length := by omega
  have kept : bitAt (bits ++ rest) i = bitAt bits i := by
    simp only [bitAt, List.getD_eq_getElem?_getD, List.getElem?_append_left inside]
  rw [kept]
  exact (bit i).mpr ⟨d, member, index⟩

/-- **The firmware and the tool agree bit for bit.** On every array of the right
size they give a normalized domain the same answer, and the array built from a
list of such domains answers yes for each of them. -/
theorem firmware_agrees_with_tool (U : PyUnicode) {mBits kHashes : Nat} (positive : 1 ≤ mBits) (fits : mBits < 2 ^ 64)
    (small : kHashes < 2 ^ 32) (header : BloomHeader) (hm : header.mBits = BitVec.ofNat 64 mBits)
    (hk : header.kHashes = BitVec.ofNat 32 kHashes) :
    (∀ (bits : List Byte) (d : PyStr), bits.length = (mBits + 7) / 8 → Normalized U d →
      ∃ answer, pyTest U bits d mBits kHashes = some answer ∧
        bloomFilterTest ⟨header, bits⟩ (asciiBytes d) = .ok answer) ∧
    (∀ ds : List PyStr, (∀ d ∈ ds, Normalized U d) → ∃ bits, buildBitarray U ds mBits kHashes = some bits ∧
      bits.length = (mBits + 7) / 8 ∧ ∀ d ∈ ds, bloomFilterTest ⟨header, bits⟩ (asciiBytes d) = .ok true) := by
  constructor
  · intro bits d len ok
    refine ⟨_, ?_, bloomFilterTest_normalized positive fits small hm hk len.ge ok⟩
    rw [pyTest, bitIndices_eq ok.ascii ok.fixed positive fits kHashes, ← indicesOf]
    refine allM_eq fun idx index => ?_
    have := lt_of_mem_indicesOf positive fits index
    omega
  · intro ds ok
    obtain ⟨bits, built, len, tests⟩ := buildBitarray_positive positive fits small hm hk ok
    exact ⟨bits, built, len, fun d member => by simpa using tests [] d member⟩

/-- Eight bits and two hashes. -/
def smallHeader : BloomHeader :=
  ⟨bloomHeaderMagic, bloomHeaderVersion, 0, 8, 2, 1, 0, 0, 0⟩

theorem firmware_agrees_with_tool_small :
    ∃ bits, buildBitarray asciiUnicode ["a.b".toList, "c.d".toList] 8 2 = some bits ∧ bits.length = 1 ∧
      ∀ d ∈ ["a.b".toList, "c.d".toList], bloomFilterTest ⟨smallHeader, bits⟩ (asciiBytes d) = .ok true := by
  have ok : ∀ d ∈ ["a.b".toList, "c.d".toList], Normalized asciiUnicode d := by
    have clean : ∀ d ∈ ["a.b".toList, "c.d".toList], (d.all fun c => c.toNat != 0) = true := by decide
    intro d member
    refine ⟨?_, by simpa using clean d member, ?_⟩ <;> revert d member <;> decide
  exact (firmware_agrees_with_tool asciiUnicode (by decide) (by decide) (by decide) smallHeader rfl rfl).2 _ ok

end

end EspAdblocker.Bloom
