import EspAdblocker.Lib.XorMul

/-!
# The bloom filter image and its queries

`fnv1a64.c` and `bloom_filter.c`: the double hash, the 44-byte packed header,
the acceptance check of an image (`bloomFilterInit`) and the membership walk
(`bloomFilterTest`). A query is run in `Except Fault`, so that a remainder by
zero and a read outside the image are results of their own. An accepted image
is safe to query exactly when its header asks for no hash, or when its bit
count is non-zero and its bits, counted without wrapping, fit the image
(`bloomFilterTest_safe_iff`).
-/

namespace EspAdblocker.Bloom

open EspAdblocker.Lib

/-! ## FNV-1a -/

def fnvPrime64 : BitVec 64 := 0x100000001B3#64

def fnvSeed1 : BitVec 64 := 0xCBF29CE484222325#64

def fnvSeed2 : BitVec 64 := 0x9E3779B97F4A7C15#64

/-- `fnv1a64`: xor a byte in, multiply, modulo 2⁶⁴. -/
def fnv1a64 (data : List Byte) (seed : BitVec 64) : BitVec 64 :=
  data.foldl (fun h b => (h ^^^ b.setWidth 64) * fnvPrime64) seed

theorem fnv1a64_eq_digest (data : List Byte) (seed : BitVec 64) :
    fnv1a64 data seed = digest fnvPrime64 seed data := rfl

/-- Some string without NUL has any given first hash. -/
theorem exists_fnv1a64 (target : BitVec 64) : ∃ s, NulFree s ∧ fnv1a64 s fnvSeed1 = target := by
  obtain ⟨s, free, hit⟩ : ∃ s, NulFree s ∧ digest fnvPrime64 fnvSeed1 s = target :=
    digest_surjective (by decide) (by decide) fnvSeed1 target
  exact ⟨s, free, (fnv1a64_eq_digest s fnvSeed1).trans hit⟩

/-! ## The header -/

def bloomHeaderMagic : BitVec 32 := 0x4D4F4C42#32

def bloomHeaderVersion : BitVec 16 := 1#16

/-- `sizeof(bloom_header_t)`. -/
def bloomHeaderLen : Nat := 44

/-- `bloom_header_t`. -/
structure BloomHeader where
  magic : BitVec 32
  version : BitVec 16
  reserved : BitVec 16
  mBits : BitVec 64
  kHashes : BitVec 32
  nDomains : BitVec 64
  hashSeed : BitVec 32
  buildUnixTs : BitVec 64
  crc32 : BitVec 32
  deriving DecidableEq, Repr

/-- The packed header read at the start of a buffer. -/
def BloomHeader.ofBytes (buf : List Byte) : BloomHeader where
  magic := readLe 32 buf 0
  version := readLe 16 buf 4
  reserved := readLe 16 buf 6
  mBits := readLe 64 buf 8
  kHashes := readLe 32 buf 16
  nDomains := readLe 64 buf 20
  hashSeed := readLe 32 buf 28
  buildUnixTs := readLe 64 buf 32
  crc32 := readLe 32 buf 40

/-- `(size_t)((m_bits + 7) / 8)`: the sum wraps at 64 bits, the quotient is cut to 32. -/
def BloomHeader.bitarrayBytes (hdr : BloomHeader) : BitVec 32 :=
  ((hdr.mBits + 7#64) / 8#64).setWidth 32

/-- `bloom_filter_t`: the header and the bytes that follow it in the buffer. -/
structure BloomFilter where
  header : BloomHeader
  bits : List Byte
  deriving DecidableEq, Repr

/-- `bloom_filter_init` on a buffer of `len` bytes; `len` and the sum it is
compared with are 32-bit. -/
def bloomFilterInit (buf : List Byte) (len : BitVec 32) : Option BloomFilter :=
  if len < BitVec.ofNat 32 bloomHeaderLen then none
  else
    let hdr := BloomHeader.ofBytes buf
    if hdr.magic ≠ bloomHeaderMagic ∨ hdr.version ≠ bloomHeaderVersion then none
    else if len < BitVec.ofNat 32 bloomHeaderLen + hdr.bitarrayBytes then none
    else some { header := hdr, bits := buf.drop bloomHeaderLen }

/-- What `bloom_filter_init` checks of a buffer it accepts. -/
structure Accepted (buf : List Byte) (len : BitVec 32) (f : BloomFilter) : Prop where
  header : f.header = BloomHeader.ofBytes buf
  bits : f.bits = buf.drop bloomHeaderLen
  headerFits : bloomHeaderLen ≤ len.toNat
  magic : f.header.magic = bloomHeaderMagic
  version : f.header.version = bloomHeaderVersion
  /-- The 32-bit sum, which may have wrapped. -/
  bitsFit : BitVec.ofNat 32 bloomHeaderLen + f.header.bitarrayBytes ≤ len

theorem bloomFilterInit_eq_some_iff {buf : List Byte} {len : BitVec 32} {f : BloomFilter} :
    bloomFilterInit buf len = some f ↔ Accepted buf len f := by
  constructor
  · intro h
    simp only [bloomFilterInit] at h
    split at h
    · cases h
    rename_i long
    split at h
    · cases h
    rename_i known
    split at h
    · cases h
    rename_i fits
    obtain rfl := Option.some.inj h
    rw [not_or, not_not, not_not] at known
    exact ⟨rfl, rfl, by simpa [BitVec.lt_def, bloomHeaderLen] using long, known.1, known.2, BitVec.not_lt.mp fits⟩
  · rintro ⟨header, bits, headerFits, magic, version, bitsFit⟩
    rw [header] at magic version bitsFit
    have long : ¬ len < BitVec.ofNat 32 bloomHeaderLen := by
      simpa [BitVec.lt_def, bloomHeaderLen] using headerFits
    have known : ¬ ((BloomHeader.ofBytes buf).magic ≠ bloomHeaderMagic ∨
        (BloomHeader.ofBytes buf).version ≠ bloomHeaderVersion) := by
      simp [magic, version]
    simp only [bloomFilterInit, if_neg long, if_neg known, if_neg (BitVec.not_lt.mpr bitsFit)]
    rw [← header, ← bits]

/-! ## Queries -/

/-- `(h1 + (uint64_t)i * h2) % m_bits`. -/
def bitIndex (h1 h2 mBits : BitVec 64) (i : Nat) : BitVec 64 :=
  (h1 + BitVec.ofNat 64 i * h2) % mBits

/-- The loop of `bloom_filter_test`: `n` hashes left, the next one being `i`. -/
def bloomFilterLoop (bits : List Byte) (mBits h1 h2 : BitVec 64) : Nat → Nat → Except Fault Bool
  | 0, _ => .ok true
  | n + 1, i =>
    if mBits = 0#64 then .error .remainderByZero
    else
      let idx := bitIndex h1 h2 mBits i
      match bits[(idx / 8#64).toNat]? with
      | none => .error .outOfBounds
      | some byte =>
        if byte.setWidth 32 &&& (1#32 <<< (idx % 8#64).toNat) = 0#32 then .ok false
        else bloomFilterLoop bits mBits h1 h2 n (i + 1)

/-- `bloom_filter_test` on the C string at `domain`. -/
def bloomFilterTest (filter : BloomFilter) (domain : List Byte) : Except Fault Bool :=
  let h1 := fnv1a64 (cstr domain) fnvSeed1
  let h2 := fnv1a64 (cstr domain) fnvSeed2
  bloomFilterLoop filter.bits filter.header.mBits h1 h2 filter.header.kHashes.toNat 0

/-- Masking a byte tests one of its bits. -/
theorem mask_eq_zero_iff (byte : Byte) {i : Nat} (hi : i < 8) :
    byte.setWidth 32 &&& (1#32 <<< i) = 0#32 ↔ byte.getLsbD i = false := by
  constructor
  · intro clear
    have bit := congrArg (BitVec.getLsbD · i) clear
    simpa [hi, show i < 32 by omega] using bit
  · intro clear
    apply BitVec.eq_of_getLsbD_eq
    intro j hj
    rcases Nat.lt_trichotomy j i with below | rfl | above
    · simp [below]
    · simp [clear]
    · simp [show ¬ j < i by omega, show j - i ≠ 0 by omega, BitVec.getLsbD_one]

/-- The bits a filter holds answer every query: no remainder by zero, no read
outside the array. -/
structure Answers (mBits : BitVec 64) (bits : List Byte) : Prop where
  nonzero : mBits ≠ 0#64
  covers : (mBits.toNat + 7) / 8 ≤ bits.length

theorem Answers.bitIndex_lt {mBits : BitVec 64} {bits : List Byte} (ok : Answers mBits bits) (h1 h2 : BitVec 64)
    (i : Nat) : (bitIndex h1 h2 mBits i).toNat < mBits.toNat := by
  have positive : 0 < mBits.toNat := by
    have nonzero : mBits.toNat ≠ 0 := fun zero => ok.nonzero (BitVec.eq_of_toNat_eq zero)
    omega
  rw [bitIndex, BitVec.toNat_umod]
  exact Nat.mod_lt _ positive

/-- One hash: the bit is clear and the walk stops, or it is set and the walk goes on. -/
theorem bloomFilterLoop_succ {mBits : BitVec 64} {bits : List Byte} (ok : Answers mBits bits) (h1 h2 : BitVec 64)
    (n i : Nat) : bloomFilterLoop bits mBits h1 h2 (n + 1) i =
      if bitAt bits (bitIndex h1 h2 mBits i).toNat then bloomFilterLoop bits mBits h1 h2 n (i + 1) else .ok false := by
  have small := ok.bitIndex_lt h1 h2 i
  have covers := ok.covers
  rw [bloomFilterLoop, if_neg ok.nonzero]
  simp only [BitVec.toNat_udiv, BitVec.toNat_umod, BitVec.toNat_ofNat, Nat.reducePow, Nat.reduceMod]
  generalize (bitIndex h1 h2 mBits i).toNat = idx at small ⊢
  have inside : idx / 8 < bits.length := by omega
  rw [List.getElem?_eq_getElem inside]
  simp only [mask_eq_zero_iff _ (Nat.mod_lt idx (by decide : 0 < 8)), bitAt, List.getD_eq_getElem?_getD,
    List.getElem?_eq_getElem inside, Option.getD_some]
  cases bits[idx / 8].getLsbD (idx % 8) <;> simp

/-- The walk answers whether every remaining bit is set. -/
theorem bloomFilterLoop_eq {mBits : BitVec 64} {bits : List Byte} (ok : Answers mBits bits) (h1 h2 : BitVec 64)
    (n i : Nat) : bloomFilterLoop bits mBits h1 h2 n i =
      .ok ((List.range' i n).all fun j => bitAt bits (bitIndex h1 h2 mBits j).toNat) := by
  induction n generalizing i with
  | zero => rfl
  | succ n ih =>
    rw [bloomFilterLoop_succ ok, ih, List.range'_succ, List.all_cons]
    cases bitAt bits (bitIndex h1 h2 mBits i).toNat <;> simp

/-- **What a query answers**: whether all of its bits are set. -/
theorem bloomFilterTest_eq {f : BloomFilter} (ok : Answers f.header.mBits f.bits) (domain : List Byte) :
    bloomFilterTest f domain = .ok ((List.range f.header.kHashes.toNat).all fun j => bitAt f.bits
      (bitIndex (fnv1a64 (cstr domain) fnvSeed1) (fnv1a64 (cstr domain) fnvSeed2) f.header.mBits j).toNat) := by
  rw [bloomFilterTest, bloomFilterLoop_eq ok, List.range_eq_range']

/-- A filter without hashes answers yes without reading anything. -/
theorem bloomFilterTest_of_no_hashes {f : BloomFilter} (noHashes : f.header.kHashes = 0#32) (domain : List Byte) :
    bloomFilterTest f domain = .ok true := by
  simp [bloomFilterTest, noHashes, bloomFilterLoop]

/-- A bit count of zero makes the first hash a remainder by zero. -/
theorem bloomFilterTest_remainderByZero {f : BloomFilter} (hashes : f.header.kHashes ≠ 0#32)
    (zero : f.header.mBits = 0#64) (domain : List Byte) :
    bloomFilterTest f domain = .error .remainderByZero := by
  obtain ⟨n, count⟩ : ∃ n, f.header.kHashes.toNat = n + 1 :=
    Nat.exists_eq_add_one_of_ne_zero fun eq => hashes (BitVec.eq_of_toNat_eq eq)
  simp [bloomFilterTest, count, bloomFilterLoop, zero]

/-- Without hashes, or without bits to hash into, a query does not read the array. -/
theorem bloomFilterTest_congr_bits {header : BloomHeader} {bits bits' : List Byte}
    (unread : header.kHashes = 0#32 ∨ header.mBits = 0#64) (domain : List Byte) :
    bloomFilterTest ⟨header, bits⟩ domain = bloomFilterTest ⟨header, bits'⟩ domain := by
  by_cases noHashes : header.kHashes = 0#32
  · rw [bloomFilterTest_of_no_hashes noHashes, bloomFilterTest_of_no_hashes noHashes]
  · have zero : header.mBits = 0#64 := unread.resolve_left noHashes
    rw [bloomFilterTest_remainderByZero noHashes zero, bloomFilterTest_remainderByZero noHashes zero]

/-- Where there is no array the first hash leaves it. -/
theorem bloomFilterTest_outOfBounds {header : BloomHeader} (hashes : header.kHashes ≠ 0#32) (nonzero : header.mBits ≠ 0#64)
    (domain : List Byte) : bloomFilterTest ⟨header, []⟩ domain = .error .outOfBounds := by
  obtain ⟨n, count⟩ : ∃ n, header.kHashes.toNat = n + 1 :=
    Nat.exists_eq_add_one_of_ne_zero fun eq => hashes (BitVec.eq_of_toNat_eq eq)
  simp [bloomFilterTest, count, bloomFilterLoop, nonzero]

/-- Bits the image does not hold are read for some domain. -/
theorem exists_bloomFilterTest_outOfBounds {f : BloomFilter} (hashes : f.header.kHashes ≠ 0#32)
    (short : f.bits.length < (f.header.mBits.toNat + 7) / 8) :
    ∃ domain, NulFree domain ∧ bloomFilterTest f domain = .error .outOfBounds := by
  have bound := f.header.mBits.isLt
  obtain ⟨n, count⟩ : ∃ n, f.header.kHashes.toNat = n + 1 :=
    Nat.exists_eq_add_one_of_ne_zero fun eq => hashes (BitVec.eq_of_toNat_eq eq)
  obtain ⟨domain, free, hash⟩ := exists_fnv1a64 (BitVec.ofNat 64 (8 * f.bits.length))
  refine ⟨domain, free, ?_⟩
  have nonzero : f.header.mBits ≠ 0#64 := by
    intro zero
    rw [zero] at short
    simp at short
  have small : 8 * f.bits.length < f.header.mBits.toNat := by omega
  have value : (BitVec.ofNat 64 (8 * f.bits.length)).toNat = 8 * f.bits.length := by
    rw [BitVec.toNat_ofNat, Nat.mod_eq_of_lt (small.trans bound)]
  have index (h2 : BitVec 64) : bitIndex (BitVec.ofNat 64 (8 * f.bits.length)) h2 f.header.mBits 0 =
      BitVec.ofNat 64 (8 * f.bits.length) := by
    apply BitVec.eq_of_toNat_eq
    rw [bitIndex, BitVec.zero_mul, BitVec.add_zero, BitVec.toNat_umod, value, Nat.mod_eq_of_lt small]
  have first : (BitVec.ofNat 64 (8 * f.bits.length) / 8#64).toNat = f.bits.length := by
    rw [BitVec.toNat_udiv, value]
    exact Nat.mul_div_cancel_left _ (by decide)
  rw [bloomFilterTest, cstr_eq_self free, hash, count, bloomFilterLoop, if_neg nonzero, index]
  simp only [first, List.getElem?_eq_none (Nat.le_refl _)]

/-- **When an accepted image is safe to query**: exactly when its header asks
for no hash, or for a non-zero number of bits that the image holds. -/
theorem bloomFilterTest_safe_iff {buf : List Byte} {len : BitVec 32} {f : BloomFilter}
    (whole : buf.length = len.toNat) (accepted : bloomFilterInit buf len = some f) :
    (∀ domain, ∃ answer, bloomFilterTest f domain = .ok answer) ↔
      f.header.kHashes = 0#32 ∨
        (f.header.mBits ≠ 0#64 ∧ bloomHeaderLen + (f.header.mBits.toNat + 7) / 8 ≤ len.toNat) := by
  have init := bloomFilterInit_eq_some_iff.mp accepted
  have room : f.bits.length = len.toNat - bloomHeaderLen := by rw [init.bits, List.length_drop, whole]
  have headerFits := init.headerFits
  constructor
  · intro safe
    by_contra unsound
    rw [not_or, not_and_or, not_not] at unsound
    obtain ⟨hashes, zero | short⟩ := unsound
    · obtain ⟨answer, ok⟩ := safe []
      rw [bloomFilterTest_remainderByZero hashes zero] at ok
      cases ok
    · obtain ⟨domain, -, out⟩ := exists_bloomFilterTest_outOfBounds hashes (by omega)
      obtain ⟨answer, ok⟩ := safe domain
      rw [out] at ok
      cases ok
  · rintro (noHashes | ⟨nonzero, fits⟩) domain
    · exact ⟨true, bloomFilterTest_of_no_hashes noHashes domain⟩
    · exact ⟨_, bloomFilterTest_eq ⟨nonzero, by omega⟩ domain⟩

/-- An image that asks for one hash into `mBits` bits, whatever bits are behind its header. -/
def sampleImage (mBits : Nat) (bits : List Byte) : List Byte :=
  leBytes 4 0x4D4F4C42 ++ leBytes 2 1 ++ leBytes 2 0 ++ leBytes 8 mBits ++ leBytes 4 1 ++ leBytes 8 0 ++
    leBytes 4 0 ++ leBytes 8 0 ++ leBytes 4 0 ++ bits

/-- A buffer that has room for a header may hold an image. -/
theorem exists_accepted {size : BitVec 32} (room : bloomHeaderLen ≤ size.toNat) :
    ∃ f, bloomFilterInit (sampleImage 0 []) size = some f := by
  have no_bits : (BloomHeader.ofBytes (sampleImage 0 [])).bitarrayBytes = 0#32 := by decide +kernel
  refine ⟨⟨.ofBytes (sampleImage 0 []), (sampleImage 0 []).drop bloomHeaderLen⟩, bloomFilterInit_eq_some_iff.mpr ?_⟩
  refine ⟨rfl, rfl, room, by decide +kernel, by decide +kernel, ?_⟩
  rw [no_bits, BitVec.add_zero, BitVec.le_def]
  exact room

theorem sampleImage_safe : ∃ f, bloomFilterInit (sampleImage 8 [0xFF#8]) 45#32 = some f ∧
    ∀ domain, ∃ answer, bloomFilterTest f domain = .ok answer := by
  have whole : (sampleImage 8 [0xFF#8]).length = (45#32).toNat := by decide
  have accepted : bloomFilterInit (sampleImage 8 [0xFF#8]) 45#32 =
      some ⟨.ofBytes (sampleImage 8 [0xFF#8]), [0xFF#8]⟩ := by decide +kernel
  exact ⟨_, accepted, (bloomFilterTest_safe_iff whole accepted).mpr (.inr (by decide +kernel))⟩

/-- The check accepts 44 bytes that claim no bits, and 44 bytes that claim
2³⁵ bits: the byte count 2³² is cut to zero. Looking up `a` divides by zero in
the first and leaves the buffer in the second. -/
theorem sampleImage_unsafe :
    ((sampleImage 0 []).length = 44 ∧ ∃ f, bloomFilterInit (sampleImage 0 []) 44#32 = some f ∧
      bloomFilterTest f [0x61#8] = .error .remainderByZero) ∧
    ((sampleImage (2 ^ 35) []).length = 44 ∧ ∃ f, bloomFilterInit (sampleImage (2 ^ 35) []) 44#32 = some f ∧
      bloomFilterTest f [0x61#8] = .error .outOfBounds) := by
  refine ⟨⟨by decide, ⟨.ofBytes (sampleImage 0 []), []⟩, ?_, ?_⟩,
    ⟨by decide, ⟨.ofBytes (sampleImage (2 ^ 35) []), []⟩, ?_, ?_⟩⟩ <;> decide +kernel

end EspAdblocker.Bloom
