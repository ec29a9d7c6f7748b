import EspAdblocker.Bloom.Crc32
import EspAdblocker.Storage.Loaders

/-!
# `blocklist_updater.c`

The two updates and the run that performs both, in the order of the C code.
SHA-256 is a parameter: a function of the file's bytes with 32 bytes of result.
-/

namespace EspAdblocker.Storage

open EspAdblocker.Lib EspAdblocker.Bloom

/-- SHA-256. -/
structure Sha256 where
  run : List Byte → List Byte
  length_run : ∀ bytes, (run bytes).length = 32

/-! ## Downloads -/

/-- `MAX_URL_LEN`. -/
def maxUrlLen : Nat := 300

/-- The bytes of an ASCII text. -/
def textBytes (s : String) : List Byte :=
  s.toList.map fun c => BitVec.ofNat 8 c.toNat

/-- `snprintf(url, sizeof(url), "%s/…", base_url)`. -/
def urlOf (baseUrl : List Byte) (suffix : String) : List Byte :=
  (cstr baseUrl ++ textBytes suffix).take (maxUrlLen - 1)

/-- `(long)written`, a 32-bit conversion. -/
def toLong (written : Nat) : Int := (BitVec.ofNat 32 written).toInt

/-- The read loop of `http_get_to_buffer`: each read asks for the room left. -/
def readBody (cap : Nat) (written : List Byte) : List (List Byte) → List Byte
  | [] => written
  | chunk :: chunks =>
    if written.length < cap then
      let r := chunk.take (cap - written.length)
      if r = [] then written else readBody cap (written ++ r) chunks
    else written

/-- `http_get_to_buffer` into `cap` bytes: the length, or -1, and the bytes. -/
def httpGetToBuffer (url : List Byte) (cap : Nat) : DeviceM (Int × List Byte) := do
  match ← perform (.httpGet url) with
  | .noClient => return (-1, [])
  | .openFailed => return (-1, [])
  | .response status chunks =>
    if status = 200 then
      let body := readBody cap [] chunks
      return (toLong body.length, body)
    else return (-1, [])

/-- The copy loop of `http_get_to_file`: each read asks for 1024 bytes, and the
result of each write is ignored. -/
def writeBody (f : DomainFile) (written : Nat) : List (List Byte) → DeviceM Nat
  | [] => return written
  | chunk :: chunks => do
    let r := chunk.take 1024
    if r = [] then return written
    else
      let _ ← perform (.fwrite f r)
      writeBody f (written + r.length) chunks

/-- `http_get_to_file`. -/
def httpGetToFile (url : List Byte) (f : DomainFile) : DeviceM Int := do
  match ← perform (.httpGet url) with
  | .noClient => return -1
  | .openFailed => return -1
  | .response status chunks =>
    if status = 200 then
      match ← perform (.fopenWrite f) with
      | false => return -1
      | true =>
        let written ← writeBody f 0 chunks
        let _ ← perform (.fcloseWrite f)
        return toLong written
    else return -1

/-! ## The bloom filter -/

/-- `crc32_ieee(filter.bits, bitarray_bytes)`, which may leave the buffer. -/
def computeCrc (filter : BloomFilter) : DeviceM (BitVec 32) :=
  if filter.header.bitarrayBytes.toNat ≤ filter.bits.length then
    return crc32Ieee (filter.bits.take filter.header.bitarrayBytes.toNat)
  else do
    let impossible ← perform (.abort .outOfBounds)
    nomatch impossible

/-- The flash half of `update_bloom`: erase, and write when that succeeded. -/
def flashImage (h : Half) (image : List Byte) : DeviceM EspErr := do
  let err ← perform (.eraseRange h)
  if err = .ok then perform (.writePartition h image) else return err

/-- `update_bloom` from the activation on. -/
def activateBloom (seedLen : BitVec 32) (target : BitVec 8) : DeviceM EspErr := do
  let err ← perform (.setBloomSlot target)
  if err = .ok then
    dnsProxyReloadBloomFilter seedLen
    return .ok
  else return err

/-- `update_bloom` once the image is in memory. -/
def installBloom (seedLen : BitVec 32) (target : BitVec 8) (buf : Nat) (image : List Byte) : DeviceM EspErr := do
  match bloomFilterInit image (BitVec.ofNat 32 image.length) with
  | none =>
    free buf
    return .invalidResponse
  | some filter =>
    let computedCrc ← computeCrc filter
    if computedCrc = filter.header.crc32 then
      let err ← flashImage (halfOf target) image
      free buf
      if err = .ok then activateBloom seedLen target else return err
    else
      free buf
      return .invalidCrc

/-- `update_bloom`. -/
def updateBloom (seedLen : BitVec 32) (baseUrl : List Byte) : DeviceM EspErr := do
  let active ← appConfigGetBloomActiveSlot
  let target := targetSlot active
  match ← findPartition (halfOf target) with
  | none => return .notFound
  | some size =>
    match ← mallocChars size.toNat with
    | none => return .noMem
    | some buf =>
      let (len, image) ← httpGetToBuffer (urlOf baseUrl "/bloom.bin") size.toNat
      if len ≤ 0 then
        free buf
        return .fail
      else installBloom seedLen target buf image

/-! ## The exact list -/

/-- The digit of `hex_encode_lower` for a value below 16. -/
def hexDigit (n : Nat) : Byte :=
  (textBytes "0123456789abcdef").getD n 0#8

/-- `hex_encode_lower`. -/
def hexEncodeLower (bytes : List Byte) : List Byte :=
  bytes.flatMap fun b => [hexDigit (b.toNat / 16), hexDigit (b.toNat % 16)]

/-- `tolower` of a byte in the C locale. -/
def toLowerByte (b : Byte) : Byte :=
  if 0x41#8 ≤ b ∧ b ≤ 0x5A#8 then b + 0x20#8 else b

/-- `strncmp` of two buffers: `strcmp` of their first `n` bytes. -/
def strncmp (s t : List Byte) (n : Nat) : Int :=
  strcmp (cstr (s.take n)) (cstr (t.take n))

/-- `sha256_file`. -/
def sha256File (sha : Sha256) (f : DomainFile) : DeviceM (Except EspErr (List Byte)) := do
  match ← perform (.fopenRead f) with
  | false => return .error .notFound
  | true =>
    let bytes ← perform (.readAll f)
    return .ok (hexEncodeLower (sha.run bytes))

/-- `update_domain_list` from the activation on. -/
def activateDomainList (target : BitVec 8) : DeviceM EspErr := do
  let err ← perform (.setListSlot target)
  if err = .ok then sdStorageLoadDomainList else return err

/-- `update_domain_list` once the list and its digest are downloaded. -/
def checkDomainList (sha : Sha256) (target : BitVec 8) (shaResp : List Byte) : DeviceM EspErr := do
  let targetFile := DomainFile.half (halfOf target)
  let expectedHex := (shaResp.take 64).map toLowerByte
  match ← sha256File sha targetFile with
  | .error err =>
    let _ ← perform (.remove targetFile)
    return err
  | .ok actualHex =>
    if strncmp actualHex expectedHex 64 ≠ 0 then
      let _ ← perform (.remove targetFile)
      return .invalidCrc
    else activateDomainList target

/-- `update_domain_list`. -/
def updateDomainList (sha : Sha256) (baseUrl : List Byte) : DeviceM EspErr := do
  let s ← readStatics
  if s.mounted then
    let active ← appConfigGetExactListActiveSlot
    let target := targetSlot active
    let len ← httpGetToFile (urlOf baseUrl "/domains.idx") (.half (halfOf target))
    if len ≤ 0 then return .fail
    else
      let (shaLen, shaResp) ← httpGetToBuffer (urlOf baseUrl "/domains.idx.sha256") 127
      if shaLen < 64 then
        let _ ← perform (.remove (.half (halfOf target)))
        return .fail
      else checkDomainList sha target shaResp
  else return .invalidState

/-- `blocklist_updater_check_and_apply`. -/
def blocklistUpdaterCheckAndApply (sha : Sha256) (seedLen : BitVec 32) (baseUrl : List Byte) : DeviceM EspErr := do
  let bloomErr ← updateBloom seedLen baseUrl
  let listErr ← updateDomainList sha baseUrl
  if bloomErr = .ok ∧ listErr = .ok then return .ok else return .fail

end EspAdblocker.Storage
