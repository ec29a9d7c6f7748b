import EspAdblocker.Bloom.Agreement

/-!
# Corrupted images

The updater activates a download that `bloom_filter_init` accepts and whose
checksum over the bit array matches its header (`PassesChecks`). The checksum
covers the bit array only, so an accepted image within a 32-bit burst of the
tool's image answers alike when it carries the same bit and hash counts and
the burst does not reach both the stored checksum and the array
(`corrupted_image_harmless`). Each of the three conditions is needed
(`corrupted_image_accepted`).
-/

namespace EspAdblocker.Bloom

open EspAdblocker.Lib EspAdblocker.Tools

/-- The checks an image passes before it is activated, the checksum being read
inside the image. -/
structure PassesChecks (image : List Byte) (f : BloomFilter) : Prop where
  init : bloomFilterInit image (BitVec.ofNat 32 image.length) = some f
  inside : f.header.bitarrayBytes.toNat ≤ f.bits.length
  crc : crc32Ieee (f.bits.take f.header.bitarrayBytes.toNat) = f.header.crc32

instance (image : List Byte) (f : BloomFilter) : Decidable (PassesChecks image f) :=
  decidable_of_iff (bloomFilterInit image (BitVec.ofNat 32 image.length) = some f ∧
      f.header.bitarrayBytes.toNat ≤ f.bits.length ∧
      crc32Ieee (f.bits.take f.header.bitarrayBytes.toNat) = f.header.crc32)
    ⟨fun ⟨init, inside, crc⟩ => ⟨init, inside, crc⟩, fun ⟨init, inside, crc⟩ => ⟨init, inside, crc⟩⟩

/-- `build_bitarray` behind `pack_header`: the image the tool writes for a list of domains. -/
def toolImage (U : PyUnicode) (ds : List PyStr) (mBits kHashes nDomains buildUnixTs : Nat) : Option (List Byte) := do
  let bits ← buildBitarray U ds mBits kHashes
  let header ← packHeader mBits kHashes nDomains buildUnixTs bits
  return header ++ bits

section

variable {U : PyUnicode} {ds : List PyStr} {mBits kHashes nDomains buildUnixTs : Nat} {image : List Byte}

/-- The header and the array of a tool image. -/
theorem toolImage_eq_some (made : toolImage U ds mBits kHashes nDomains buildUnixTs = some image) :
    ∃ header bits, buildBitarray U ds mBits kHashes = some bits ∧
      packHeader mBits kHashes nDomains buildUnixTs bits = some header ∧ image = header ++ bits := by
  simp only [toolImage, Option.bind_eq_bind, Option.bind_eq_some_iff, Option.pure_def, Option.some.injEq] at made
  obtain ⟨bits, built, header, packed, rfl⟩ := made
  exact ⟨header, bits, built, packed, rfl⟩

/-- The byte count the firmware computes for a bit count whose array fits 32 bits. -/
theorem bitarrayBytes_eq {hdr : BloomHeader} (hm : hdr.mBits = BitVec.ofNat 64 mBits)
    (fits : (mBits + 7) / 8 < 2 ^ 32) : hdr.bitarrayBytes.toNat = (mBits + 7) / 8 := by
  simp only [BloomHeader.bitarrayBytes, hm, BitVec.toNat_setWidth, BitVec.toNat_udiv, BitVec.toNat_add,
    BitVec.toNat_ofNat, Nat.reducePow, Nat.reduceMod]
  omega

/-- **The firmware accepts every image the tool packs**, whatever bytes follow
it, as long as the image fits the size it is given. -/
theorem bloomFilterInit_packed {bits header : List Byte} (size : bits.length = (mBits + 7) / 8)
    (packed : packHeader mBits kHashes nDomains buildUnixTs bits = some header) {len : BitVec 32}
    (fits : (header ++ bits).length ≤ len.toNat) (rest : List Byte) :
    bloomFilterInit (header ++ bits ++ rest) len =
      some ⟨.ofBytes (header ++ bits ++ rest), bits ++ rest⟩ := by
  have head := length_packHeader packed
  have read := ofBytes_packHeader packed (bits ++ rest)
  rw [← List.append_assoc] at read
  have bound := len.isLt
  rw [List.length_append, head, size] at fits
  rw [bloomFilterInit_eq_some_iff]
  refine ⟨rfl, ?_, Nat.le_trans (Nat.le_add_right _ _) fits, by rw [read], by rw [read], ?_⟩
  · rw [List.append_assoc, List.drop_left' head]
  · have count : (BloomHeader.ofBytes (header ++ bits ++ rest)).mBits = BitVec.ofNat 64 mBits := by rw [read]
    have bytes := bitarrayBytes_eq count (by omega)
    simp only [bloomHeaderLen] at fits
    rw [BitVec.le_def, BitVec.toNat_add, bytes, BitVec.toNat_ofNat]
    simp only [bloomHeaderLen]
    omega

/-- So it accepts every image the tool builds. -/
theorem bloomFilterInit_tool {bits header : List Byte} (built : buildBitarray U ds mBits kHashes = some bits)
    (packed : packHeader mBits kHashes nDomains buildUnixTs bits = some header) {len : BitVec 32}
    (fits : (header ++ bits).length ≤ len.toNat) (rest : List Byte) :
    bloomFilterInit (header ++ bits ++ rest) len =
      some ⟨.ofBytes (header ++ bits ++ rest), bits ++ rest⟩ :=
  bloomFilterInit_packed (length_buildBitarray built) packed fits rest

/-- Filters with the same counts and the same bits answer alike. -/
theorem bloomFilterTest_congr {f g : BloomFilter} (m : f.header.mBits = g.header.mBits)
    (k : f.header.kHashes = g.header.kHashes) (bits : f.bits = g.bits) (domain : List Byte) :
    bloomFilterTest f domain = bloomFilterTest g domain := by
  rw [bloomFilterTest, bloomFilterTest, m, k, bits]

/-- **A corrupted download is rejected or harmless**, as far as its checksum
reaches: an accepted image of the tool image's length that differs from it
within 32 consecutive bits, carries the same bit and hash counts, and agrees
with it on the stored checksum or on the bit array, answers every query as the
tool image does. -/
theorem corrupted_image_harmless (made : toolImage U ds mBits kHashes nDomains buildUnixTs = some image)
    (fits : image.length < 2 ^ 32) {image' : List Byte} {f' : BloomFilter} (len : image'.length = image.length)
    (near : DiffersWithin 32 image image') (accepted : PassesChecks image' f')
    (sameBits : f'.header.mBits = BitVec.ofNat 64 mBits) (sameHashes : f'.header.kHashes = BitVec.ofNat 32 kHashes)
    (agree : f'.header.crc32 = (BloomHeader.ofBytes image).crc32 ∨ f'.bits = image.drop bloomHeaderLen) :
    ∃ f, PassesChecks image f ∧ ∀ domain, bloomFilterTest f' domain = bloomFilterTest f domain := by
  obtain ⟨header, bits, built, packed, rfl⟩ := toolImage_eq_some made
  have head := length_packHeader packed
  have size := length_buildBitarray built
  have read := ofBytes_packHeader packed bits
  have value : (BitVec.ofNat 32 (header ++ bits).length).toNat = (header ++ bits).length := Nat.mod_eq_of_lt fits
  have init := bloomFilterInit_tool built packed value.ge []
  rw [List.append_nil, List.append_nil] at init
  have init' := bloomFilterInit_eq_some_iff.mp accepted.init
  have tail : (header ++ bits).drop bloomHeaderLen = bits := List.drop_left' head
  rw [List.length_append, head, size, bloomHeaderLen] at fits
  have room : f'.bits.length = bits.length := by
    rw [init'.bits, List.length_drop, len, List.length_append, head, Nat.add_sub_cancel_left]
  have bytes : f'.header.bitarrayBytes.toNat = bits.length := by
    rw [bitarrayBytes_eq sameBits (by omega), size]
  have bytes0 : (BloomHeader.ofBytes (header ++ bits)).bitarrayBytes.toNat = bits.length := by
    have count : (BloomHeader.ofBytes (header ++ bits)).mBits = BitVec.ofNat 64 mBits := by rw [read]
    rw [bitarrayBytes_eq count (by omega), size]
  have original : PassesChecks (header ++ bits) ⟨.ofBytes (header ++ bits), bits⟩ :=
    ⟨init, bytes0.le, by rw [bytes0, List.take_length, read]⟩
  have checked := accepted.crc
  rw [bytes, ← room, List.take_length] at checked
  have same : f'.bits = bits := by
    rcases agree with crc | array
    · rw [checked.symm, read] at crc
      by_contra differ
      have window := near.drop bloomHeaderLen
      rw [tail, ← init'.bits] at window
      apply crcBytes_burst crc32Poly (by decide) (by decide) 0xFFFFFFFF#32 room.symm window (Ne.symm differ)
      exact crc32Ieee_eq_iff.mp crc.symm
    · rwa [tail] at array
  exact ⟨_, original, bloomFilterTest_congr (by rw [sameBits, read]) (by rw [sameHashes, read]) same⟩

end

/-- The image with some bytes from `start` on xored with a mask. -/
def tamper (image : List Byte) (start : Nat) (mask : List Byte) : List Byte :=
  image.take start ++ List.zipWith (· ^^^ ·) (image.drop start) mask ++ image.drop (start + mask.length)

/-- The tool's image of `a.b` alone, with one hash. -/
def sampleTool (mBits : Nat) : List Byte :=
  (toolImage asciiUnicode ["a.b".toList] mBits 1 1 0).getD []

/-- The filter over an image, accepted or not. -/
def filterOver (image : List Byte) : BloomFilter :=
  ⟨.ofBytes image, image.drop bloomHeaderLen⟩

/-- A flipped bit of the reserved field is accepted and changes no answer. -/
theorem tampered_reserved_harmless : ∃ f, PassesChecks (sampleTool 8) f ∧ ∀ domain,
    bloomFilterTest (filterOver (tamper (sampleTool 8) 6 [1#8])) domain = bloomFilterTest f domain := by
  have made : toolImage asciiUnicode ["a.b".toList] 8 1 1 0 = some (sampleTool 8) := by decide +kernel
  have near : DiffersWithin 32 (sampleTool 8) (tamper (sampleTool 8) 6 [1#8]) :=
    differsWithin_of_bits 48 (by decide +kernel) (by decide +kernel)
  exact corrupted_image_harmless made (by decide +kernel) (by decide +kernel) near (by decide +kernel)
    (by decide +kernel) (by decide +kernel) (.inl (by decide +kernel))

/-- A tampered image passes the checks and loses `a.b`. -/
structure Overlooked (mBits start : Nat) (mask : List Byte) : Prop where
  made : toolImage asciiUnicode ["a.b".toList] mBits 1 1 0 = some (sampleTool mBits)
  length : (tamper (sampleTool mBits) start mask).length = (sampleTool mBits).length
  near : DiffersWithin 32 (sampleTool mBits) (tamper (sampleTool mBits) start mask)
  accepted : PassesChecks (tamper (sampleTool mBits) start mask) (filterOver (tamper (sampleTool mBits) start mask))
  listed : bloomFilterTest (filterOver (sampleTool mBits)) (asciiBytes "a.b".toList) = .ok true
  lost : bloomFilterTest (filterOver (tamper (sampleTool mBits) start mask)) (asciiBytes "a.b".toList) = .ok false

/-- What the checks overlook: one flipped bit of `k_hashes`, one flipped bit of
`m_bits`, and a 31-bit burst over the stored checksum and the array behind it.
Each turns a listed name into an unlisted one. -/
theorem corrupted_image_accepted :
    Overlooked 60 16 [2#8] ∧ Overlooked 60 8 [1#8] ∧ Overlooked 8 40 [0xc0#8, 0xa8#8, 0x6b#8, 0x64#8, 0x19#8] := by
  refine ⟨⟨?_, ?_, differsWithin_of_bits 128 ?_ ?_, ?_, ?_, ?_⟩, ⟨?_, ?_, differsWithin_of_bits 64 ?_ ?_, ?_, ?_, ?_⟩,
    ⟨?_, ?_, differsWithin_of_bits 326 ?_ ?_, ?_, ?_, ?_⟩⟩ <;> decide +kernel

end EspAdblocker.Bloom
