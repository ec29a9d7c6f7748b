import EspAdblocker.Bloom.Corruption
import EspAdblocker.Storage.Updater

/-!
# The image format, read back

What `pack_header` writes in front of an array is read back by both readers, the
packed structure of the firmware and `unpack_header`, and the image passes
`bloom_filter_init` and the checksum of `update_bloom`, with or without the rest
of a partition behind it (`packed_image_read_back`).
-/

namespace EspAdblocker.Bloom

open EspAdblocker.Lib EspAdblocker.Tools EspAdblocker.Storage

/-- What the firmware and the tool read of an image for `bits`, and what follows it. -/
structure ReadBack (mBits kHashes nDomains buildUnixTs : Nat) (bitarray rest image : List Byte) (f : BloomFilter) :
    Prop where
  header : f.header =
    { magic := BitVec.ofNat 32 headerMagic
      version := BitVec.ofNat 16 headerVersion
      reserved := 0#16
      mBits := BitVec.ofNat 64 mBits
      kHashes := BitVec.ofNat 32 kHashes
      nDomains := BitVec.ofNat 64 nDomains
      hashSeed := 0#32
      buildUnixTs := BitVec.ofNat 64 buildUnixTs
      crc32 := BitVec.ofNat 32 (zlibCrc32 bitarray &&& 0xFFFFFFFF) }
  unpacked : unpackHeader image = some
    { magic := headerMagic
      version := headerVersion
      mBits
      kHashes
      nDomains
      hashSeed := 0
      buildUnixTs
      crc32 := zlibCrc32 bitarray &&& 0xFFFFFFFF }
  /-- The pointer is to the array, and the header counts the array's bytes. -/
  bits : f.bits = bitarray ++ rest
  count : f.header.bitarrayBytes.toNat = bitarray.length
  /-- The comparison of `update_bloom`, which reads no byte behind the buffer. -/
  checked : computeCrc f = return f.header.crc32

/-- **Every image the tool packs is accepted and read back unchanged**, whatever bytes follow it. -/
theorem packed_image_read_back {mBits kHashes nDomains buildUnixTs : Nat} (hashes : kHashes < 2 ^ 32)
    (domains : nDomains < 2 ^ 64) (stamp : buildUnixTs < 2 ^ 64) {bits : List Byte} (size : bits.length = (mBits + 7) / 8)
    {len : BitVec 32} (short : bloomHeaderLen + bits.length ≤ len.toNat) :
    ∃ hdr, packHeader mBits kHashes nDomains buildUnixTs bits = some hdr ∧ hdr.length = bloomHeaderLen ∧
      ∀ rest, ∃ f, bloomFilterInit (hdr ++ bits ++ rest) len = some f ∧
        ReadBack mBits kHashes nDomains buildUnixTs bits rest (hdr ++ bits ++ rest) f := by
  have bound := len.isLt
  have fits : HeaderFits mBits kHashes nDomains buildUnixTs := ⟨by omega, hashes, domains, stamp⟩
  have packed : packHeader mBits kHashes nDomains buildUnixTs bits = some _ := packHeader_eq_some_iff.mpr ⟨fits, rfl⟩
  have head := length_packHeader packed
  refine ⟨_, packed, head, fun rest => ⟨_, bloomFilterInit_packed size packed ?_ rest, ?_⟩⟩
  · rwa [List.length_append, head]
  rw [List.append_assoc]
  have read := ofBytes_packHeader packed (bits ++ rest)
  have crc : BitVec.ofNat 32 (zlibCrc32 bits &&& 0xFFFFFFFF) = crc32Ieee bits := by
    rw [crc_and, BitVec.ofNat_toNat, BitVec.setWidth_eq]
  have count : (BloomHeader.ofBytes (packFields
      (headerFields mBits kHashes nDomains buildUnixTs (crc32Ieee bits).toNat) ++ (bits ++ rest))).bitarrayBytes.toNat =
      bits.length := by
    rw [bitarrayBytes_eq (congrArg BloomHeader.mBits read) (by omega), size]
  refine
    { header := by rw [read, crc]; rfl
      unpacked := unpackHeader_packHeader packed _
      bits := rfl
      count
      checked := ?_ }
  have inside : bits.length ≤ (bits ++ rest).length := by
    rw [List.length_append]
    exact Nat.le_add_right _ _
  rw [computeCrc, count, if_pos inside, List.take_left, read]

/-- An image of one byte, in a buffer of 64 bytes. -/
theorem one_byte_image_read_back : ∃ hdr, packHeader 8 2 1 1700000000 [0xA5#8] = some hdr ∧
    ∃ f, bloomFilterInit (hdr ++ [0xA5#8] ++ List.replicate 19 0xFF#8) 64#32 = some f ∧
      ReadBack 8 2 1 1700000000 [0xA5#8] (List.replicate 19 0xFF#8) (hdr ++ [0xA5#8] ++ List.replicate 19 0xFF#8) f := by
  have size : [0xA5#8].length = (8 + 7) / 8 := rfl
  have short : bloomHeaderLen + [0xA5#8].length ≤ (64#32).toNat := by decide
  have hashes : 2 < 2 ^ 32 := by decide
  have domains : 1 < 2 ^ 64 := by decide
  have stamp : 1700000000 < 2 ^ 64 := by decide
  obtain ⟨hdr, packed, -, reads⟩ := packed_image_read_back hashes domains stamp size short
  exact ⟨hdr, packed, reads _⟩

end EspAdblocker.Bloom
