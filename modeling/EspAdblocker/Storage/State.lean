import EspAdblocker.Bloom.Filter
import EspAdblocker.Lib.Prog
import Mathlib.Logic.Function.Basic

/-!
# The device

What the firmware's storage code works on: the NVS keys, the two bloom
partitions, the files of the SD card, flash mappings, the heap and the static
variables (`Device`); the operations it performs on them (`Op`); and what each
operation may return and leave behind (`Device.step`), or leave when the power
goes inside it (`Device.torn`). An operation that fails may leave its own target
in any state, except a slot setter, which leaves the old byte.
-/

namespace EspAdblocker.Storage

open EspAdblocker.Lib EspAdblocker.Bloom

/-! ## Names of the A/B pair -/

/-- One of the two places an artifact is stored in. -/
inductive Half where
  | a
  | b
  deriving DecidableEq, Repr

/-- The other place. -/
def Half.other : Half → Half
  | .a => .b
  | .b => .a

@[simp] theorem Half.other_ne (h : Half) : h.other ≠ h := by cases h <;> decide

@[simp] theorem Half.ne_other (h : Half) : h ≠ h.other := by cases h <;> decide

theorem Half.eq_of_ne_other {h k : Half} (apart : h ≠ k.other) : h = k := by
  cases h <;> cases k <;> first | rfl | exact absurd rfl apart

/-- `slot == 0 ? "bloom_a" : "bloom_b"`, and `slot == 0 ? 'a' : 'b'` of a file name. -/
def halfOf (slot : BitVec 8) : Half :=
  if slot = 0#8 then .a else .b

/-- `active == 0 ? 1 : 0`. -/
def targetSlot (active : BitVec 8) : BitVec 8 :=
  if active = 0#8 then 1#8 else 0#8

/-- The target slot names the place the active slot does not. -/
@[simp] theorem halfOf_targetSlot (active : BitVec 8) : halfOf (targetSlot active) = (halfOf active).other := by
  by_cases zero : active = 0#8
  · simp [targetSlot, halfOf, zero, Half.other]
  · simp [targetSlot, halfOf, zero, Half.other]

/-- The files of the SD card the firmware names: `domains_a.idx`, `domains_b.idx`
and the earlier `domains.idx`. -/
inductive DomainFile where
  | half (h : Half)
  | legacy
  deriving DecidableEq, Repr

/-- The `esp_err_t` values the code returns itself, and any other a driver returns. -/
inductive EspErr where
  | ok
  | fail
  | noMem
  | invalidState
  | invalidSize
  | notFound
  | invalidResponse
  | invalidCrc
  | driver (code : Int)
  deriving DecidableEq, Repr

/-! ## State -/

/-- `esp_netif_ip_info_t`. -/
structure IpInfo where
  ip : BitVec 32
  netmask : BitVec 32
  gw : BitVec 32
  deriving DecidableEq, Repr

/-- The NVS keys the modelled code reads; a key that was never written is `none`. -/
structure Nvs where
  bloomSlot : Option (BitVec 8) := none
  listSlot : Option (BitVec 8) := none
  blockEn : Option (BitVec 8) := none
  blockPolicy : Option (BitVec 8) := none
  upstream1 : Option (BitVec 32) := none
  upstream2 : Option (BitVec 32) := none
  allowlist : Option (List Byte) := none
  netMode : Option (BitVec 8) := none
  staticIp : Option IpInfo := none
  blocklistUrl : Option (List Byte) := none
  refreshHrs : Option (BitVec 32) := none
  fwUrl : Option (List Byte) := none
  deriving DecidableEq, Repr

/-- `app_config_get_bloom_active_slot`. -/
def Nvs.bloomActiveSlot (nvs : Nvs) : BitVec 8 := nvs.bloomSlot.getD 0#8

/-- `app_config_get_exact_list_active_slot`. -/
def Nvs.exactListActiveSlot (nvs : Nvs) : BitVec 8 := nvs.listSlot.getD 0#8

/-- `app_config_get_blocking_enabled`: on by default. -/
def Nvs.blockingEnabled (nvs : Nvs) : Bool := nvs.blockEn.getD 1#8 != 0#8

/-- `app_config_get_block_policy`: `APP_CONFIG_BLOCK_NXDOMAIN`, which is 0, by default. -/
def Nvs.policy (nvs : Nvs) : BitVec 8 := nvs.blockPolicy.getD 0#8

/-- `app_config_get_allowlist` into `APP_CONFIG_ALLOWLIST_MAX_LEN` bytes: a text
that does not fit with its terminator is an error, as is none at all. -/
def Nvs.allowlistText (nvs : Nvs) : Option (List Byte) :=
  nvs.allowlist.filter fun text => text.length < 2048

/-- A pointer: a heap block and an offset into it. -/
abbrev CharPtr := Nat × Nat

/-- The contents of a heap block: bytes, or an array of pointers, each written or not. -/
inductive Block where
  | chars (bytes : List Byte)
  | ptrs (entries : List (Option CharPtr))
  deriving DecidableEq, Repr

/-- Where a bloom image is read from: the embedded seed, or a flash mapping. -/
inductive Region where
  | seed
  | mapped (handle : Nat)
  deriving DecidableEq, Repr

/-- The static variables of `dns_proxy.c` and `sd_storage.c` that describe what
is loaded. A null pointer is `none`. -/
structure Statics where
  bloomHeader : Option Region := none
  bloomBits : Option Region := none
  bloomReady : Bool := false
  bloomFromSeed : Bool := false
  bloomMmapHandle : Nat := 0
  bloomMmapActive : Bool := false
  allowlistBuf : Option Nat := none
  allowlistEntries : Option Nat := none
  allowlistCount : Nat := 0
  mounted : Bool := false
  domainBuf : Option Nat := none
  domainLines : Option Nat := none
  domainCount : Nat := 0
  deriving DecidableEq, Repr

/-- The device. -/
structure Device where
  nvs : Nvs := {}
  /-- The size of each bloom partition, `none` when the table does not list it. -/
  partSize : Half → Option (BitVec 32)
  flash : Half → List Byte
  files : DomainFile → Option (List Byte)
  /-- The embedded `bloom.bin`. -/
  seed : List Byte
  /-- The partition each live mapping shows. -/
  maps : Nat → Option Half := fun _ => none
  heap : Nat → Option Block := fun _ => none
  statics : Statics := {}

namespace Device

/-- The partition `bloom_active_slot` names. -/
def activePartition (d : Device) : Half := halfOf d.nvs.bloomActiveSlot

/-- The domain file `exact_list_active_slot` names. -/
def activeFile (d : Device) : DomainFile := .half (halfOf d.nvs.exactListActiveSlot)

/-- An update works on the file that is not active. -/
theorem targetFile_ne_activeFile (d : Device) : .half (halfOf (targetSlot d.nvs.exactListActiveSlot)) ≠ d.activeFile := by
  rw [activeFile, halfOf_targetSlot]
  exact fun same => Half.other_ne _ (DomainFile.half.inj same)

/-- The bytes a region shows; a mapping shows what the partition holds now. -/
def regionBytes (d : Device) : Region → Option (List Byte)
  | .seed => some d.seed
  | .mapped handle => (d.maps handle).map d.flash

end Device

/-! ## Operations -/

/-- How a server answers a GET: `chunks` are what successive reads return, the
first empty one being the end of the body or an error. -/
inductive Reply where
  | noClient
  | openFailed
  | response (status : Int) (chunks : List (List Byte))
  deriving DecidableEq, Repr

/-- What the storage code does to the device. -/
inductive Op where
  | getBloomSlot
  | getListSlot
  | setBloomSlot (slot : BitVec 8)
  | setListSlot (slot : BitVec 8)
  | getAllowlist
  | findPartition (h : Half)
  | eraseRange (h : Half)
  | writePartition (h : Half) (bytes : List Byte)
  | mmap (h : Half)
  | munmap (handle : Nat)
  | readRegion (r : Region)
  | httpGet (url : List Byte)
  | fopenWrite (f : DomainFile)
  | fwrite (f : DomainFile) (bytes : List Byte)
  | fcloseWrite (f : DomainFile)
  | remove (f : DomainFile)
  | fopenRead (f : DomainFile)
  | fileSize (f : DomainFile)
  | fread (f : DomainFile) (size : Nat)
  | readAll (f : DomainFile)
  | mallocChars (size : Nat)
  | mallocPtrs (count : Nat)
  | free (block : Nat)
  | storeChars (block : Nat) (bytes : List Byte)
  | storePtrs (block : Nat) (entries : List CharPtr)
  | readStatics
  | assign (update : Statics → Statics)
  /-- Undefined behaviour; the run does not continue. -/
  | abort (fault : Fault)

/-- What an operation returns. -/
@[reducible] def Res : Op → Type
  | .getBloomSlot | .getListSlot => BitVec 8
  | .setBloomSlot _ | .setListSlot _ | .eraseRange _ | .writePartition _ _ => EspErr
  | .getAllowlist => Option (List Byte)
  | .findPartition _ => Option (BitVec 32)
  | .mmap _ | .mallocChars _ | .mallocPtrs _ => Option Nat
  | .readRegion _ | .fread _ _ | .readAll _ => List Byte
  | .httpGet _ => Reply
  | .fopenWrite _ | .fwrite _ _ | .fcloseWrite _ | .remove _ | .fopenRead _ => Bool
  | .fileSize _ => Int
  | .readStatics => Statics
  | .munmap _ | .free _ | .storeChars _ _ | .storePtrs _ _ | .assign _ => Unit
  | .abort _ => Empty

namespace Device

/-- `d` with the partition holding other bytes. -/
def withFlash (d : Device) (h : Half) (bytes : List Byte) : Device :=
  { d with flash := Function.update d.flash h bytes }

/-- `d` with the file holding other bytes, or gone. -/
def withFile (d : Device) (f : DomainFile) (content : Option (List Byte)) : Device :=
  { d with files := Function.update d.files f content }

/-- `d` with other contents of a heap block; `none` frees it. -/
def withBlock (d : Device) (block : Nat) (content : Option Block) : Device :=
  { d with heap := Function.update d.heap block content }

/-- `d` with a mapping made or dropped. -/
def withMap (d : Device) (handle : Nat) (target : Option Half) : Device :=
  { d with maps := Function.update d.maps handle target }

/-- A file's bytes; a file that is gone reads as empty. -/
def fileBytes (d : Device) (f : DomainFile) : List Byte := (d.files f).getD []

/-- What reading `bytes` may give: all of them, or a prefix when reads may fall short. -/
def ReadOf (short : Bool) (bytes got : List Byte) : Prop :=
  got <+: bytes ∧ (short = false → got = bytes)

/-- What an operation may return and leave behind. `short` allows reads of a
file to stop early. A store beyond its block, or into one that is gone, is
undefined behaviour like an abort, and the run does not continue. -/
def step (short : Bool) (d : Device) : (op : Op) → Res op → Device → Prop
  | .getBloomSlot, r, d' => r = d.nvs.bloomActiveSlot ∧ d' = d
  | .getListSlot, r, d' => r = d.nvs.exactListActiveSlot ∧ d' = d
  | .setBloomSlot slot, r, d' =>
    if r = EspErr.ok then d' = { d with nvs := { d.nvs with bloomSlot := some slot } } else d' = d
  | .setListSlot slot, r, d' =>
    if r = EspErr.ok then d' = { d with nvs := { d.nvs with listSlot := some slot } } else d' = d
  | .getAllowlist, r, d' => r = d.nvs.allowlistText ∧ d' = d
  | .findPartition h, r, d' => r = d.partSize h ∧ d' = d
  | .eraseRange h, r, d' =>
    if r = EspErr.ok then d' = d.withFlash h (List.replicate ((d.partSize h).getD 0#32).toNat 0xFF#8)
    else ∃ bytes, d' = d.withFlash h bytes
  | .writePartition h bytes, r, d' =>
    if r = EspErr.ok then d' = d.withFlash h (bytes ++ (d.flash h).drop bytes.length)
    else ∃ bytes, d' = d.withFlash h bytes
  | .mmap h, r, d' =>
    match r with
    | none => d' = d
    | some handle => d.maps handle = none ∧ d' = d.withMap handle (some h)
  | .munmap handle, _, d' => d' = d.withMap handle none
  | .readRegion region, r, d' => (∀ bytes, d.regionBytes region = some bytes → r = bytes) ∧ d' = d
  | .httpGet _, _, d' => d' = d
  | .fopenWrite f, r, d' => if r = true then d' = d.withFile f (some []) else ∃ content, d' = d.withFile f content
  | .fwrite f bytes, r, d' =>
    if r = true then d' = d.withFile f (some (d.fileBytes f ++ bytes)) else ∃ content, d' = d.withFile f content
  | .fcloseWrite f, r, d' => if r = true then d' = d else ∃ content, d' = d.withFile f content
  | .remove f, r, d' => if r = true then d' = d.withFile f none else ∃ content, d' = d.withFile f content
  | .fopenRead f, r, d' => (r = true → (d.files f).isSome) ∧ d' = d
  | .fileSize f, r, d' =>
    (r = (d.fileBytes f).length ∧ (d.fileBytes f).length < 2 ^ 31 ∨ r = -1) ∧ d' = d
  | .fread f size, r, d' => ReadOf short ((d.fileBytes f).take size) r ∧ d' = d
  | .readAll f, r, d' => ReadOf short (d.fileBytes f) r ∧ d' = d
  | .mallocChars size, r, d' =>
    match r with
    | none => d' = d
    | some block => d.heap block = none ∧ ∃ junk : List Byte, junk.length = size ∧ d' = d.withBlock block (some (.chars junk))
  | .mallocPtrs count, r, d' =>
    match r with
    | none => d' = d
    | some block => d.heap block = none ∧ d' = d.withBlock block (some (.ptrs (List.replicate count none)))
  | .free block, _, d' => d' = d.withBlock block none
  | .storeChars block bytes, _, d' => ∃ old, d.heap block = some (.chars old) ∧ bytes.length ≤ old.length ∧
    d' = d.withBlock block (some (.chars (bytes ++ old.drop bytes.length)))
  | .storePtrs block entries, _, d' => ∃ old, d.heap block = some (.ptrs old) ∧ entries.length ≤ old.length ∧
    d' = d.withBlock block (some (.ptrs (entries.map some ++ old.drop entries.length)))
  | .readStatics, r, d' => r = d.statics ∧ d' = d
  | .assign update, _, d' => d' = { d with statics := update d.statics }
  | .abort _, r, _ => nomatch r

/-- The operation is no undefined behaviour: no abort, and no store but into a live block with room for it. -/
def Defined (d : Device) : Op → Prop
  | .storeChars block bytes => ∃ old, d.heap block = some (.chars old) ∧ bytes.length ≤ old.length
  | .storePtrs block entries => ∃ old, d.heap block = some (.ptrs old) ∧ entries.length ≤ old.length
  | .abort _ => False
  | _ => True

/-- What a power loss inside an operation may leave: any contents of the
partition or file it works on, the old or the new slot byte. -/
def torn (d : Device) : Op → Device → Prop
  | .setBloomSlot slot, d' => d' = d ∨ d' = { d with nvs := { d.nvs with bloomSlot := some slot } }
  | .setListSlot slot, d' => d' = d ∨ d' = { d with nvs := { d.nvs with listSlot := some slot } }
  | .eraseRange h, d' | .writePartition h _, d' => ∃ bytes, d' = d.withFlash h bytes
  | .fopenWrite f, d' | .fwrite f _, d' | .fcloseWrite f, d' | .remove f, d' => ∃ content, d' = d.withFile f content
  | _, d' => d' = d

end Device

/-- The semantics of the operations. -/
def deviceSem (short : Bool) : Sem Op Res Device where
  step := Device.step short
  torn := Device.torn

/-- A piece of firmware that works on the device. -/
abbrev DeviceM := Prog Op Res

/-- An operation that was performed, with its result. -/
abbrev Event := Sem.Done Op Res

end EspAdblocker.Storage
