import EspAdblocker.Bloom.Crc32
import EspAdblocker.Bloom.Filter
import EspAdblocker.Tools.PyStr

/-!
# `tools/bloom_format.py`

The tool's side of the filter: the hash over unbounded integers with its
masks, `normalize_domain`, `bit_indices` and `pack_header`. A function that
raises in Python is an `Option` here. What `pack_header` writes, the firmware's
header reads back field by field (`ofBytes_packHeader`).
-/

namespace EspAdblocker.Tools

open EspAdblocker.Lib EspAdblocker.Bloom

/-! ## Hash spec -/

def fnvPrime64 : Nat := 0x100000001B3

def fnvSeed1 : Nat := 0xCBF29CE484222325

def fnvSeed2 : Nat := 0x9E3779B97F4A7C15

def mask64 : Nat := (1 <<< 64) - 1

/-- `fnv1a64`: Python integers, masked after each multiplication. -/
def fnv1a64 (data : List Byte) (seed : Nat) : Nat :=
  data.foldl (fun h byte => ((h ^^^ byte.toNat) * fnvPrime64) &&& mask64) seed

/-- `normalize_domain`. -/
def normalizeDomain (U : PyUnicode) (domain : PyStr) : PyStr :=
  let d := U.lower (strip domain)
  if d.getLast? = some '.' then d.dropLast else d

/-- `bit_indices`: raises on a domain that is not ASCII, and on a remainder by zero. -/
def bitIndices (U : PyUnicode) (domain : PyStr) (mBits kHashes : Nat) : Option (List Nat) := do
  let data ← encodeAscii (normalizeDomain U domain)
  let h1 := fnv1a64 data fnvSeed1
  let h2 := fnv1a64 data fnvSeed2
  (List.range kHashes).mapM fun i =>
    let term := (i * h2) &&& mask64
    let combined := (h1 + term) &&& mask64
    if mBits = 0 then none else some (combined % mBits)

theorem and_mask64 (n : Nat) : n &&& mask64 = n % 2 ^ 64 := by
  have ones : mask64 = 2 ^ 64 - 1 := by decide
  rw [ones, Nat.and_two_pow_sub_one_eq_mod]

/-- One masked step is the firmware's wrapping step. -/
theorem fnv_step_eq (h : BitVec 64) (byte : Byte) :
    ((h.toNat ^^^ byte.toNat) * fnvPrime64) &&& mask64 = ((h ^^^ byte.setWidth 64) * Bloom.fnvPrime64).toNat := by
  have wide : (byte.setWidth 64).toNat = byte.toNat := BitVec.toNat_setWidth_of_le (by decide)
  have prime : Bloom.fnvPrime64.toNat = fnvPrime64 := by decide
  rw [and_mask64, BitVec.toNat_mul, BitVec.toNat_xor, wide, prime]

/-- Masking after each step is the firmware's wrapping arithmetic. -/
theorem fnv1a64_eq (data : List Byte) (seed : BitVec 64) :
    fnv1a64 data seed.toNat = (Bloom.fnv1a64 data seed).toNat :=
  List.foldl_hom BitVec.toNat fnv_step_eq

/-- One masked index is the firmware's index. -/
theorem combined_eq (h1 h2 : BitVec 64) {mBits : Nat} (fits : mBits < 2 ^ 64) (i : Nat) :
    ((h1.toNat + ((i * h2.toNat) &&& mask64)) &&& mask64) % mBits =
      (bitIndex h1 h2 (BitVec.ofNat 64 mBits) i).toNat := by
  simp only [and_mask64, bitIndex, BitVec.toNat_umod, BitVec.toNat_add, BitVec.toNat_mul, BitVec.toNat_ofNat,
    Nat.mod_eq_of_lt fits, Nat.mod_mul_mod]

/-- `bit_indices` of a normalized ASCII domain are the indices the firmware walks. -/
theorem bitIndices_eq {U : PyUnicode} {domain : PyStr} (ascii : IsAscii domain)
    (fixed : normalizeDomain U domain = domain) {mBits : Nat} (positive : 1 ≤ mBits) (fits : mBits < 2 ^ 64)
    (kHashes : Nat) : bitIndices U domain mBits kHashes = some ((List.range kHashes).map fun i =>
      (bitIndex (Bloom.fnv1a64 (asciiBytes domain) Bloom.fnvSeed1) (Bloom.fnv1a64 (asciiBytes domain) Bloom.fnvSeed2)
        (BitVec.ofNat 64 mBits) i).toNat) := by
  have seed1 : fnvSeed1 = Bloom.fnvSeed1.toNat := rfl
  have seed2 : fnvSeed2 = Bloom.fnvSeed2.toNat := rfl
  have nonzero : mBits ≠ 0 := by omega
  simp only [bitIndices, fixed, encodeAscii_eq ascii, Option.bind_eq_bind, Option.bind_some, if_neg nonzero, seed1, seed2,
    fnv1a64_eq, combined_eq _ _ fits]
  exact List.mapM_pure

/-! ## The file format -/

def headerMagic : Nat := 0x4D4F4C42

def headerVersion : Nat := 1

/-- `zlib.crc32`: a byte at a time, through the table of the generator. -/
def zlibCrc32 (data : List Byte) : Nat :=
  (~~~ data.foldl (crcByteTable 0xEDB88320#32) 0xFFFFFFFF#32).toNat

/-- The two sides compute one checksum. -/
theorem zlibCrc32_eq (data : List Byte) : zlibCrc32 data = (crc32Ieee data).toNat := by
  have step : crcByteTable 0xEDB88320#32 = crcByte crc32Poly := by
    funext crc byte
    exact crcByteTable_eq _ crc byte
  rw [zlibCrc32, crc32Ieee_eq, step, crcBytes]

/-- `struct.pack` of little-endian unsigned fields; a value that does not fit raises. -/
def structPack (fields : List (Nat × Nat)) : Option (List Byte) :=
  if fields.all fun field => field.2 < 256 ^ field.1 then some (packFields fields) else none

/-- The fields of `HEADER_FORMAT = "<IHHQIQIQI"`. -/
def headerFields (mBits kHashes nDomains buildUnixTs crc : Nat) : List (Nat × Nat) :=
  [(4, headerMagic), (2, headerVersion), (2, 0), (8, mBits), (4, kHashes), (8, nDomains), (4, 0),
    (8, buildUnixTs), (4, crc)]

/-- `pack_header`. -/
def packHeader (mBits kHashes nDomains buildUnixTs : Nat) (bitarray : List Byte) : Option (List Byte) :=
  let crc := zlibCrc32 bitarray &&& 0xFFFFFFFF
  structPack (headerFields mBits kHashes nDomains buildUnixTs crc)

/-- The values `pack_header` accepts. -/
structure HeaderFits (mBits kHashes nDomains buildUnixTs : Nat) : Prop where
  mBits : mBits < 2 ^ 64
  kHashes : kHashes < 2 ^ 32
  nDomains : nDomains < 2 ^ 64
  buildUnixTs : buildUnixTs < 2 ^ 64

theorem crc_and (data : List Byte) : zlibCrc32 data &&& 0xFFFFFFFF = (crc32Ieee data).toNat := by
  have ones : 0xFFFFFFFF = 2 ^ 32 - 1 := by decide
  rw [ones, Nat.and_two_pow_sub_one_eq_mod, zlibCrc32_eq, Nat.mod_eq_of_lt (crc32Ieee data).isLt]

theorem packHeader_eq_some_iff {mBits kHashes nDomains buildUnixTs : Nat} {bitarray hdr : List Byte} :
    packHeader mBits kHashes nDomains buildUnixTs bitarray = some hdr ↔
      HeaderFits mBits kHashes nDomains buildUnixTs ∧
        packFields (headerFields mBits kHashes nDomains buildUnixTs (crc32Ieee bitarray).toNat) = hdr := by
  have crcFits := (crc32Ieee bitarray).isLt
  rw [packHeader, crc_and, structPack]
  have fits : (headerFields mBits kHashes nDomains buildUnixTs (crc32Ieee bitarray).toNat).all
      (fun field => field.2 < 256 ^ field.1) = true ↔ HeaderFits mBits kHashes nDomains buildUnixTs := by
    simp only [headerFields, headerMagic, headerVersion, List.all_cons, List.all_nil, Bool.and_true, Bool.and_eq_true,
      decide_eq_true_eq]
    constructor
    · rintro ⟨-, -, -, m, k, n, -, ts, -⟩
      exact ⟨m, k, n, ts⟩
    · rintro ⟨m, k, n, ts⟩
      exact ⟨by decide, by decide, by decide, m, k, n, by decide, ts, crcFits⟩
  split
  · rename_i ok
    rw [Option.some.injEq, and_iff_right (fits.mp ok)]
  · rename_i bad
    simp only [reduceCtorEq, false_iff, not_and]
    exact fun ok => absurd (fits.mpr ok) bad

/-- The header is 44 bytes. -/
theorem length_packHeader {mBits kHashes nDomains buildUnixTs : Nat} {bitarray hdr : List Byte}
    (packed : packHeader mBits kHashes nDomains buildUnixTs bitarray = some hdr) : hdr.length = bloomHeaderLen := by
  obtain ⟨-, rfl⟩ := packHeader_eq_some_iff.mp packed
  exact length_packFields _

/-- **The firmware reads back what the tool packs**, whatever bytes follow. -/
theorem ofBytes_packHeader {mBits kHashes nDomains buildUnixTs : Nat} {bitarray hdr : List Byte}
    (packed : packHeader mBits kHashes nDomains buildUnixTs bitarray = some hdr) (rest : List Byte) :
    BloomHeader.ofBytes (hdr ++ rest) =
      { magic := bloomHeaderMagic
        version := bloomHeaderVersion
        reserved := 0#16
        mBits := BitVec.ofNat 64 mBits
        kHashes := BitVec.ofNat 32 kHashes
        nDomains := BitVec.ofNat 64 nDomains
        hashSeed := 0#32
        buildUnixTs := BitVec.ofNat 64 buildUnixTs
        crc32 := crc32Ieee bitarray } := by
  obtain ⟨fits, rfl⟩ := packHeader_eq_some_iff.mp packed
  have crcFits := (crc32Ieee bitarray).isLt
  simp only [BloomHeader.ofBytes, BloomHeader.mk.injEq]
  refine ⟨readLe_packFields 32 _ [] _ rest rfl (by decide),
    readLe_packFields 16 _ [(4, headerMagic)] _ rest rfl (by decide),
    readLe_packFields 16 _ [(4, headerMagic), (2, headerVersion)] _ rest rfl (by decide),
    readLe_packFields 64 _ [(4, headerMagic), (2, headerVersion), (2, 0)] _ rest rfl fits.mBits,
    readLe_packFields 32 _ [(4, headerMagic), (2, headerVersion), (2, 0), (8, mBits)] _ rest rfl fits.kHashes,
    readLe_packFields 64 _ [(4, headerMagic), (2, headerVersion), (2, 0), (8, mBits), (4, kHashes)] _ rest rfl
      fits.nDomains,
    readLe_packFields 32 _ [(4, headerMagic), (2, headerVersion), (2, 0), (8, mBits), (4, kHashes), (8, nDomains)] _
      rest rfl (by decide),
    readLe_packFields 64 _ [(4, headerMagic), (2, headerVersion), (2, 0), (8, mBits), (4, kHashes), (8, nDomains),
      (4, 0)] _ rest rfl fits.buildUnixTs, ?_⟩
  have crc := readLe_packFields 32 _ [(4, headerMagic), (2, headerVersion), (2, 0), (8, mBits), (4, kHashes),
    (8, nDomains), (4, 0), (8, buildUnixTs)] [] rest rfl crcFits
  rwa [BitVec.ofNat_toNat, BitVec.setWidth_eq] at crc

/-! ## Reading a header back -/

/-- The sizes of `HEADER_FORMAT`. -/
def headerFormat : List Nat := [4, 2, 2, 8, 4, 8, 4, 8, 4]

/-- `HEADER_LEN`. -/
def headerLen : Nat := headerFormat.sum

/-- `struct.unpack` of little-endian unsigned fields; a buffer of another size raises. -/
def structUnpack (sizes : List Nat) (raw : List Byte) : Option (List Nat) :=
  if raw.length = sizes.sum then some (unpackFields sizes raw) else none

/-- The dictionary of `unpack_header`. -/
structure UnpackedHeader where
  magic : Nat
  version : Nat
  mBits : Nat
  kHashes : Nat
  nDomains : Nat
  hashSeed : Nat
  buildUnixTs : Nat
  crc32 : Nat
  deriving DecidableEq, Repr

/-- `unpack_header`. -/
def unpackHeader (raw : List Byte) : Option UnpackedHeader := do
  match ← structUnpack headerFormat (raw.take headerLen) with
  | [magic, version, _reserved, mBits, kHashes, nDomains, hashSeed, buildUnixTs, crc32] =>
    return { magic, version, mBits, kHashes, nDomains, hashSeed, buildUnixTs, crc32 }
  | _ => none

/-- **The tool reads back what it packs**, whatever bytes follow. -/
theorem unpackHeader_packHeader {mBits kHashes nDomains buildUnixTs : Nat} {bitarray hdr : List Byte}
    (packed : packHeader mBits kHashes nDomains buildUnixTs bitarray = some hdr) (rest : List Byte) :
    unpackHeader (hdr ++ rest) = some
      { magic := headerMagic
        version := headerVersion
        mBits
        kHashes
        nDomains
        hashSeed := 0
        buildUnixTs
        crc32 := zlibCrc32 bitarray &&& 0xFFFFFFFF } := by
  have length := length_packHeader packed
  obtain ⟨fits, rfl⟩ := packHeader_eq_some_iff.mp packed
  have crcFits := (crc32Ieee bitarray).isLt
  have taken : (packFields (headerFields mBits kHashes nDomains buildUnixTs (crc32Ieee bitarray).toNat) ++ rest).take
      headerLen = packFields (headerFields mBits kHashes nDomains buildUnixTs (crc32Ieee bitarray).toNat) :=
    List.take_left' length
  have fields : ∀ field ∈ headerFields mBits kHashes nDomains buildUnixTs (crc32Ieee bitarray).toNat,
      field.2 < 256 ^ field.1 := by
    simp only [headerFields, List.forall_mem_cons]
    exact ⟨by decide, by decide, by decide, fits.mBits, fits.kHashes, fits.nDomains, by decide, fits.buildUnixTs, crcFits,
      List.forall_mem_nil _⟩
  have unpacked := unpackFields_packFields fields []
  rw [List.append_nil] at unpacked
  have format : headerFormat = (headerFields mBits kHashes nDomains buildUnixTs (crc32Ieee bitarray).toNat).map Prod.fst := rfl
  have sized : (packFields (headerFields mBits kHashes nDomains buildUnixTs (crc32Ieee bitarray).toNat)).length =
      headerFormat.sum := length
  rw [unpackHeader, taken, structUnpack, if_pos sized, format, unpacked, crc_and]
  rfl

end EspAdblocker.Tools
