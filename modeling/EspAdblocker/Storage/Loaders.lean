import EspAdblocker.Storage.State

/-!
# Loading the artifacts

The three loaders, as programs over the device's operations, in the order the
C code performs them: `dns_proxy_reload_bloom_filter`,
`dns_proxy_reload_allowlist` and `sd_storage_load_domain_list`. Both lists are
split in place by one loop (`splitLines`), which ends each line with a NUL and
collects the starts of the lines that are not empty.
-/

namespace EspAdblocker.Storage

open EspAdblocker.Lib EspAdblocker.Bloom

/-! ## Operations with their result types -/

abbrev perform (op : Op) : DeviceM (Res op) := Prog.perform op

abbrev readStatics : DeviceM Statics := perform .readStatics

abbrev assign (update : Statics → Statics) : DeviceM Unit := perform (.assign update)

abbrev free (block : Nat) : DeviceM Unit := perform (.free block)

abbrev mallocChars (size : Nat) : DeviceM (Option Nat) := perform (.mallocChars size)

abbrev mallocPtrs (count : Nat) : DeviceM (Option Nat) := perform (.mallocPtrs count)

abbrev findPartition (h : Half) : DeviceM (Option (BitVec 32)) := perform (.findPartition h)

abbrev appConfigGetBloomActiveSlot : DeviceM (BitVec 8) := perform .getBloomSlot

abbrev appConfigGetExactListActiveSlot : DeviceM (BitVec 8) := perform .getListSlot

/-! ## The bloom filter -/

/-- The first half of the swap in `try_load_bloom_from_partition`: drop the mapping in use. -/
def unmapBloom : DeviceM Unit := do
  let s ← readStatics
  if s.bloomMmapActive then
    perform (.munmap s.bloomMmapHandle)
    assign fun s => { s with bloomMmapActive := false }
  else return ()

/-- `bloom_filter_init(…, &s_bloom)` on a region of `len` bytes: the two pointers
are stored only when the image is accepted. -/
def initBloom (r : Region) (len : BitVec 32) : DeviceM Bool := do
  let buf ← perform (.readRegion r)
  match bloomFilterInit buf len with
  | none => return false
  | some _ =>
    assign fun s => { s with bloomHeader := some r }
    assign fun s => { s with bloomBits := some r }
    return true

/-- `try_load_bloom_from_partition`. -/
def tryLoadBloomFromPartition (slot : BitVec 8) : DeviceM Bool := do
  match ← findPartition (halfOf slot) with
  | none => return false
  | some size =>
    unmapBloom
    match ← perform (.mmap (halfOf slot)) with
    | none => return false
    | some handle =>
      match ← initBloom (.mapped handle) size with
      | false =>
        perform (.munmap handle)
        return false
      | true =>
        assign fun s => { s with bloomMmapHandle := handle }
        assign fun s => { s with bloomMmapActive := true }
        return true

/-- The seed's part of `dns_proxy_reload_bloom_filter`: `bloom_bin_end - bloom_bin_start` bytes. -/
def loadBloomSeed (len : BitVec 32) : DeviceM Unit := do
  match ← initBloom .seed len with
  | true =>
    assign fun s => { s with bloomReady := true }
    assign fun s => { s with bloomFromSeed := true }
  | false => assign fun s => { s with bloomReady := false }

/-- `dns_proxy_reload_bloom_filter`. -/
def dnsProxyReloadBloomFilter (seedLen : BitVec 32) : DeviceM Unit := do
  let active ← appConfigGetBloomActiveSlot
  match ← tryLoadBloomFromPartition active with
  | true =>
    assign fun s => { s with bloomReady := true }
    assign fun s => { s with bloomFromSeed := false }
  | false => loadBloomSeed seedLen

/-! ## Splitting text in place -/

/-- The state of the splitting loops: the buffer, `line_start`, and the starts stored so far. -/
structure Split where
  buf : List Byte
  lineStart : Nat
  starts : List Nat
  deriving DecidableEq, Repr

/-- One turn of a splitting loop: at a byte that ends a line, terminate the line
and keep its start unless the line is empty. -/
def splitStep (ends : Byte → Bool) (st : Split) (i : Nat) : Split :=
  if ends (st.buf.getD i 0#8) then
    let buf := st.buf.set i 0#8
    { buf
      lineStart := i + 1
      starts := if buf.getD st.lineStart 0#8 ≠ 0#8 then st.starts ++ [st.lineStart] else st.starts }
  else st

/-- The splitting loop over the first `n` bytes of a buffer. -/
def splitLines (ends : Byte → Bool) (buf : List Byte) (n : Nat) : Split :=
  (List.range n).foldl (splitStep ends) { buf, lineStart := 0, starts := [] }

/-- `if (p != NULL) { free(p); p = NULL; }` on a static pointer. -/
def releaseBlock (pointer : Statics → Option Nat) (clear : Statics → Statics) : DeviceM Unit := do
  let s ← readStatics
  match pointer s with
  | none => return ()
  | some block =>
    free block
    assign clear

/-! ## The allowlist -/

/-- Free the loaded allowlist. -/
def releaseAllowlist : DeviceM Unit := do
  releaseBlock (·.allowlistBuf) fun s => { s with allowlistBuf := none }
  releaseBlock (·.allowlistEntries) fun s => { s with allowlistEntries := none }
  assign fun s => { s with allowlistCount := 0 }

/-- Split the text in `buf` and publish it. The walk goes up to and including the terminator. -/
def installAllowlist (buf : Nat) (text : List Byte) : DeviceM Unit := do
  perform (.storeChars buf (text ++ [0#8]))
  let lineCount := 1 + (cstr text).count 10#8
  match ← mallocPtrs lineCount with
  | none => free buf
  | some entries =>
    let split := splitLines (fun b => b == 10#8 || b == 0#8) (text ++ [0#8]) ((cstr text).length + 1)
    perform (.storeChars buf split.buf)
    perform (.storePtrs entries (split.starts.map fun start => (buf, start)))
    assign fun s => { s with allowlistBuf := some buf }
    assign fun s => { s with allowlistEntries := some entries }
    assign fun s => { s with allowlistCount := split.starts.length }

/-- `dns_proxy_reload_allowlist`. -/
def dnsProxyReloadAllowlist : DeviceM Unit := do
  releaseAllowlist
  match ← mallocChars 2048 with
  | none => return ()
  | some buf =>
    match ← perform .getAllowlist with
    | none => free buf
    | some text => if cstr text = [] then free buf else installAllowlist buf text

/-! ## The exact list -/

/-- Free the loaded list. -/
def releaseDomainList : DeviceM Unit := do
  releaseBlock (·.domainBuf) fun s => { s with domainBuf := none }
  releaseBlock (·.domainLines) fun s => { s with domainLines := none }
  assign fun s => { s with domainCount := 0 }

/-- Open the active file, or the file of the earlier name. -/
def openDomainList (h : Half) : DeviceM (Option DomainFile) := do
  match ← perform (.fopenRead (.half h)) with
  | true => return some (.half h)
  | false =>
    match ← perform (.fopenRead .legacy) with
    | true => return some .legacy
    | false => return none

/-- Split the `read` bytes in `buf` into lines and publish them. -/
def installDomainList (buf : Nat) (read : List Byte) : DeviceM EspErr := do
  perform (.storeChars buf (read ++ [0#8]))
  let lineCount := read.count 10#8
  if lineCount = 0 then
    free buf
    assign fun s => { s with domainBuf := none }
    return .invalidSize
  else
    let lines ← mallocPtrs lineCount
    assign fun s => { s with domainLines := lines }
    match lines with
    | none =>
      free buf
      assign fun s => { s with domainBuf := none }
      return .noMem
    | some lines =>
      let split := splitLines (· == 10#8) (read ++ [0#8]) read.length
      perform (.storeChars buf split.buf)
      perform (.storePtrs lines (split.starts.map fun start => (buf, start)))
      assign fun s => { s with domainCount := split.starts.length }
      return .ok

/-- Read an opened list into memory. -/
def readDomainList (f : DomainFile) : DeviceM EspErr := do
  let size ← perform (.fileSize f)
  if size ≤ 0 then return .invalidSize
  else
    let buf ← mallocChars (size.toNat + 1)
    assign fun s => { s with domainBuf := buf }
    match buf with
    | none => return .noMem
    | some buf =>
      let read ← perform (.fread f size.toNat)
      installDomainList buf read

/-- `sd_storage_load_domain_list`. -/
def sdStorageLoadDomainList : DeviceM EspErr := do
  releaseDomainList
  let s ← readStatics
  if s.mounted then
    let slot ← appConfigGetExactListActiveSlot
    match ← openDomainList (halfOf slot) with
    | none => return .notFound
    | some f => readDomainList f
  else return .invalidState

end EspAdblocker.Storage
