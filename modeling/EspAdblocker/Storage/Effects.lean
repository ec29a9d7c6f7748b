import EspAdblocker.Storage.Updater

/-!
# What the storage code leaves alone

Two classes of operations and the programs that stay inside them: those that
change nothing a reboot would find (`Volatile`), and those that change nothing
the loaded bloom filter depends on (`KeepsBloom`).
-/

namespace EspAdblocker.Storage

open EspAdblocker.Lib EspAdblocker.Bloom

/-! ## Nothing persistent -/

/-- The operation changes no NVS key, no flash and no file. -/
def Volatile : Op → Prop
  | .setBloomSlot _ | .setListSlot _ | .eraseRange _ | .writePartition _ _ => False
  | .fopenWrite _ | .fwrite _ _ | .fcloseWrite _ | .remove _ => False
  | _ => True

/-- Two devices agree on what a reboot would find. -/
structure SamePersistent (d d' : Device) : Prop where
  nvs : d'.nvs = d.nvs
  flash : d'.flash = d.flash
  files : d'.files = d.files
  partSize : d'.partSize = d.partSize
  seed : d'.seed = d.seed

theorem SamePersistent.refl (d : Device) : SamePersistent d d := ⟨rfl, rfl, rfl, rfl, rfl⟩

theorem SamePersistent.trans {d e f : Device} (h : SamePersistent d e) (k : SamePersistent e f) : SamePersistent d f where
  nvs := k.nvs.trans h.nvs
  flash := k.flash.trans h.flash
  files := k.files.trans h.files
  partSize := k.partSize.trans h.partSize
  seed := k.seed.trans h.seed

theorem SamePersistent.activePartition {d d' : Device} (h : SamePersistent d d') :
    d'.activePartition = d.activePartition := by
  rw [Device.activePartition, Device.activePartition, h.nvs]

theorem SamePersistent.activeFile {d d' : Device} (h : SamePersistent d d') : d'.activeFile = d.activeFile := by
  rw [Device.activeFile, Device.activeFile, h.nvs]

theorem Volatile.step {short : Bool} {d d' : Device} {op : Op} {r : Res op} (h : Volatile op)
    (stepped : Device.step short d op r d') : SamePersistent d d' := by
  cases op with
  | setBloomSlot | setListSlot | eraseRange | writePartition => exact h.elim
  | fopenWrite | fwrite | fcloseWrite | remove => exact h.elim
  | getBloomSlot | getListSlot | getAllowlist | findPartition | readRegion | fopenRead | fileSize | fread | readAll |
      readStatics =>
    obtain rfl := stepped.2
    exact .refl d'
  | httpGet => obtain rfl := stepped; exact .refl d'
  | mmap | mallocPtrs =>
    cases r with
    | none => obtain rfl := stepped; exact .refl d'
    | some => obtain ⟨-, rfl⟩ := stepped; exact ⟨rfl, rfl, rfl, rfl, rfl⟩
  | mallocChars =>
    cases r with
    | none => obtain rfl := stepped; exact .refl d'
    | some => obtain ⟨-, junk, -, rfl⟩ := stepped; exact ⟨rfl, rfl, rfl, rfl, rfl⟩
  | munmap | free | assign => obtain rfl := stepped; exact ⟨rfl, rfl, rfl, rfl, rfl⟩
  | storeChars | storePtrs => obtain ⟨-, -, -, rfl⟩ := stepped; exact ⟨rfl, rfl, rfl, rfl, rfl⟩
  | abort => exact nomatch r

/-- A program of such operations leaves what a reboot would find. -/
theorem ends_samePersistent {short : Bool} {α : Type} {p : DeviceM α} (only : p.Only Volatile) (d : Device) :
    (deviceSem short).Ends p (fun _ d' => SamePersistent d d') d :=
  Sem.ends_of_only .refl (fun _ _ _ => .trans) (fun _ _ _ _ h step => h.step step) only d

theorem Volatile.torn {d d' : Device} {op : Op} (h : Volatile op) (lost : Device.torn d op d') : d' = d := by
  cases op <;> first | exact h.elim | exact lost

/-! ## Nothing the loaded filter depends on -/

/-- The statics of the bloom filter. -/
structure BloomStatics where
  header : Option Region
  bits : Option Region
  ready : Bool
  fromSeed : Bool
  mmapHandle : Nat
  mmapActive : Bool
  deriving DecidableEq, Repr

/-- The bloom filter's part of the statics. -/
def Statics.bloom (s : Statics) : BloomStatics :=
  ⟨s.bloomHeader, s.bloomBits, s.bloomReady, s.bloomFromSeed, s.bloomMmapHandle, s.bloomMmapActive⟩

/-- The operation changes nothing the loaded filter depends on. -/
def KeepsBloom : Op → Prop
  | .setBloomSlot _ | .eraseRange _ | .writePartition _ _ | .mmap _ | .munmap _ => False
  | .assign update => ∀ s, (update s).bloom = s.bloom
  | _ => True

/-- Two devices agree on all the loaded filter depends on. -/
structure SameBloom (d d' : Device) : Prop where
  slot : d'.nvs.bloomSlot = d.nvs.bloomSlot
  flash : d'.flash = d.flash
  partSize : d'.partSize = d.partSize
  seed : d'.seed = d.seed
  maps : d'.maps = d.maps
  statics : d'.statics.bloom = d.statics.bloom

theorem SameBloom.refl (d : Device) : SameBloom d d := ⟨rfl, rfl, rfl, rfl, rfl, rfl⟩

theorem SameBloom.trans {d e f : Device} (h : SameBloom d e) (k : SameBloom e f) : SameBloom d f where
  slot := k.slot.trans h.slot
  flash := k.flash.trans h.flash
  partSize := k.partSize.trans h.partSize
  seed := k.seed.trans h.seed
  maps := k.maps.trans h.maps
  statics := k.statics.trans h.statics

theorem KeepsBloom.step {short : Bool} {d d' : Device} {op : Op} {r : Res op} (h : KeepsBloom op)
    (stepped : Device.step short d op r d') : SameBloom d d' := by
  cases op with
  | setBloomSlot | eraseRange | writePartition | mmap | munmap => exact h.elim
  | getBloomSlot | getListSlot | getAllowlist | findPartition | readRegion | fopenRead | fileSize | fread | readAll |
      readStatics =>
    obtain rfl := stepped.2
    exact .refl d'
  | httpGet => obtain rfl := stepped; exact .refl d'
  | setListSlot =>
    simp only [Device.step] at stepped
    split at stepped <;> subst stepped <;> exact ⟨rfl, rfl, rfl, rfl, rfl, rfl⟩
  | fopenWrite | fwrite | fcloseWrite | remove =>
    simp only [Device.step] at stepped
    split at stepped
    · subst stepped; exact ⟨rfl, rfl, rfl, rfl, rfl, rfl⟩
    · obtain ⟨content, rfl⟩ := stepped; exact ⟨rfl, rfl, rfl, rfl, rfl, rfl⟩
  | mallocChars =>
    cases r with
    | none => obtain rfl := stepped; exact .refl d'
    | some => obtain ⟨-, junk, -, rfl⟩ := stepped; exact ⟨rfl, rfl, rfl, rfl, rfl, rfl⟩
  | mallocPtrs =>
    cases r with
    | none => obtain rfl := stepped; exact .refl d'
    | some => obtain ⟨-, rfl⟩ := stepped; exact ⟨rfl, rfl, rfl, rfl, rfl, rfl⟩
  | free => obtain rfl := stepped; exact ⟨rfl, rfl, rfl, rfl, rfl, rfl⟩
  | assign update => obtain rfl := stepped; exact ⟨rfl, rfl, rfl, rfl, rfl, h d.statics⟩
  | storeChars | storePtrs => obtain ⟨-, -, -, rfl⟩ := stepped; exact ⟨rfl, rfl, rfl, rfl, rfl, rfl⟩
  | abort => exact nomatch r

/-- A program of such operations leaves the loaded filter. -/
theorem ends_sameBloom {short : Bool} {α : Type} {p : DeviceM α} (only : p.Only KeepsBloom) (d : Device) :
    (deviceSem short).Ends p (fun _ d' => SameBloom d d') d :=
  Sem.ends_of_only .refl (fun _ _ _ => .trans) (fun _ _ _ _ h step => h.step step) only d

/-! ## The other of two places -/

/-- The operation erases or writes a partition other than `h`. -/
def RewritesOther (h : Half) (op : Op) : Prop :=
  ∃ k, k ≠ h ∧ (op = .eraseRange k ∨ ∃ bytes, op = .writePartition k bytes)

theorem RewritesOther.step {short : Bool} {h : Half} {d d' : Device} {op : Op} {r : Res op} (other : RewritesOther h op)
    (stepped : Device.step short d op r d') : ∃ k bytes, k ≠ h ∧ d' = d.withFlash k bytes := by
  obtain ⟨k, differ, rfl | ⟨_, rfl⟩⟩ := other
  all_goals
    simp only [Device.step] at stepped
    split at stepped
    · exact ⟨k, _, differ, stepped⟩
    · obtain ⟨bytes, rfl⟩ := stepped; exact ⟨k, bytes, differ, rfl⟩

theorem RewritesOther.torn {h : Half} {d d' : Device} {op : Op} (other : RewritesOther h op) (lost : Device.torn d op d') :
    ∃ k bytes, k ≠ h ∧ d' = d.withFlash k bytes := by
  obtain ⟨k, differ, rfl | ⟨_, rfl⟩⟩ := other
  all_goals
    obtain ⟨bytes, rfl⟩ := lost
    exact ⟨k, bytes, differ, rfl⟩

/-- The operation truncates, writes, closes after writing or removes a file other than `f`. -/
def ReplacesOther (f : DomainFile) (op : Op) : Prop :=
  ∃ g, g ≠ f ∧ (op = .fopenWrite g ∨ (∃ bytes, op = .fwrite g bytes) ∨ op = .fcloseWrite g ∨ op = .remove g)

theorem ReplacesOther.step {short : Bool} {f : DomainFile} {d d' : Device} {op : Op} {r : Res op}
    (other : ReplacesOther f op) (stepped : Device.step short d op r d') :
    d' = d ∨ ∃ g content, g ≠ f ∧ d' = d.withFile g content := by
  obtain ⟨g, differ, rfl | ⟨_, rfl⟩ | rfl | rfl⟩ := other
  all_goals
    simp only [Device.step] at stepped
    split at stepped
  case inr.inr.inl.isTrue => exact .inl stepped
  all_goals
    first
    | exact .inr ⟨g, _, differ, stepped⟩
    | obtain ⟨content, rfl⟩ := stepped; exact .inr ⟨g, content, differ, rfl⟩

theorem ReplacesOther.torn {f : DomainFile} {d d' : Device} {op : Op} (other : ReplacesOther f op)
    (lost : Device.torn d op d') : ∃ g content, g ≠ f ∧ d' = d.withFile g content := by
  obtain ⟨g, differ, rfl | ⟨_, rfl⟩ | rfl | rfl⟩ := other
  all_goals
    obtain ⟨content, rfl⟩ := lost
    exact ⟨g, content, differ, rfl⟩

/-! ## The programs inside the classes -/

theorem only_releaseBlock {P : Op → Prop} (pointer : Statics → Option Nat) (clear : Statics → Statics)
    (read : P .readStatics) (freed : ∀ block, P (.free block)) (assigned : P (.assign clear)) :
    (releaseBlock pointer clear).Only P := by
  simp only [releaseBlock, Prog.bind_eq, Prog.perform_bind, Prog.pure_eq]
  refine .call read fun s => ?_
  split
  · trivial
  · exact .call (freed _) fun _ => .call assigned fun _ => trivial

/-- What a reload of the filter performs. -/
def ReloadsBloom : Op → Prop
  | .getBloomSlot | .findPartition _ | .mmap _ | .munmap _ | .readRegion _ | .readStatics | .assign _ => True
  | _ => False

theorem ReloadsBloom.volatile {op : Op} (h : ReloadsBloom op) : Volatile op := by
  cases op <;> trivial

theorem unmapBloom_reloads : unmapBloom.Only ReloadsBloom := by
  simp only [unmapBloom, Prog.bind_eq, Prog.perform_bind, Prog.pure_eq]
  refine .call trivial fun s => ?_
  split
  · exact .call trivial fun _ => .call trivial fun _ => trivial
  · trivial

theorem initBloom_reloads (r : Region) (len : BitVec 32) : (initBloom r len).Only ReloadsBloom := by
  simp only [initBloom, Prog.bind_eq, Prog.perform_bind, Prog.pure_eq]
  refine .call trivial fun buf => ?_
  split
  · trivial
  · exact .call trivial fun _ => .call trivial fun _ => trivial

theorem tryLoadBloomFromPartition_reloads (slot : BitVec 8) : (tryLoadBloomFromPartition slot).Only ReloadsBloom := by
  simp only [tryLoadBloomFromPartition, Prog.bind_eq, Prog.perform_bind, Prog.pure_eq]
  refine .call trivial fun size => ?_
  split
  · trivial
  refine unmapBloom_reloads.bind fun _ => .call trivial fun handle => ?_
  split
  · trivial
  refine (initBloom_reloads _ _).bind fun accepted => ?_
  split
  · exact .call trivial fun _ => trivial
  · exact .call trivial fun _ => .call trivial fun _ => trivial

theorem dnsProxyReloadBloomFilter_reloads (seedLen : BitVec 32) :
    (dnsProxyReloadBloomFilter seedLen).Only ReloadsBloom := by
  simp only [dnsProxyReloadBloomFilter, loadBloomSeed, Prog.bind_eq, Prog.perform_bind]
  refine .call trivial fun slot => (tryLoadBloomFromPartition_reloads slot).bind fun loaded => ?_
  split
  · exact .call trivial fun _ => .call trivial fun _ => trivial
  refine (initBloom_reloads _ _).bind fun accepted => ?_
  split
  · exact .call trivial fun _ => .call trivial fun _ => trivial
  · exact .call trivial fun _ => trivial

theorem unmapBloom_volatile : unmapBloom.Only Volatile := unmapBloom_reloads.mono fun _ h => h.volatile

theorem initBloom_volatile (r : Region) (len : BitVec 32) : (initBloom r len).Only Volatile :=
  (initBloom_reloads r len).mono fun _ h => h.volatile

theorem tryLoadBloomFromPartition_volatile (slot : BitVec 8) : (tryLoadBloomFromPartition slot).Only Volatile :=
  (tryLoadBloomFromPartition_reloads slot).mono fun _ h => h.volatile

theorem dnsProxyReloadBloomFilter_volatile (seedLen : BitVec 32) :
    (dnsProxyReloadBloomFilter seedLen).Only Volatile :=
  (dnsProxyReloadBloomFilter_reloads seedLen).mono fun _ h => h.volatile

/-- What a load of the list performs: nothing persistent, and assignments to the list statics. -/
def LoadsList : Op → Prop
  | .getListSlot | .fopenRead _ | .fileSize _ | .fread _ _ | .readStatics => True
  | .mallocChars _ | .mallocPtrs _ | .free _ | .storeChars _ _ | .storePtrs _ _ => True
  | .assign update => ∀ s, (update s).bloom = s.bloom
  | _ => False

/-- The operations of the list loader: nothing persistent, and nothing the loaded filter depends on. -/
def ListLoads (op : Op) : Prop := Volatile op ∧ KeepsBloom op

theorem LoadsList.listLoads {op : Op} (h : LoadsList op) : ListLoads op := by
  cases op <;> first | exact ⟨trivial, trivial⟩ | exact ⟨trivial, h⟩ | exact h.elim

/-- Freeing the list assigns to nothing the filter or the mount depends on. -/
theorem releaseDomainList_only {P : Op → Prop} (read : P .readStatics) (freed : ∀ block, P (.free block))
    (assigned : ∀ update, (∀ s, (update s).bloom = s.bloom ∧ (update s).mounted = s.mounted) → P (.assign update)) :
    releaseDomainList.Only P := by
  simp only [releaseDomainList, Prog.bind_eq]
  refine .bind (only_releaseBlock _ _ read freed (assigned _ fun _ => ⟨rfl, rfl⟩)) fun _ => ?_
  refine .bind (only_releaseBlock _ _ read freed (assigned _ fun _ => ⟨rfl, rfl⟩)) fun _ => ?_
  exact .call (assigned _ fun _ => ⟨rfl, rfl⟩) fun _ => trivial

theorem releaseDomainList_loads : releaseDomainList.Only LoadsList :=
  releaseDomainList_only trivial (fun _ => trivial) fun _ kept s => (kept s).1

theorem openDomainList_loads (h : Half) : (openDomainList h).Only LoadsList := by
  simp only [openDomainList, Prog.bind_eq, Prog.perform_bind, Prog.pure_eq]
  refine .call trivial fun opened => ?_
  split
  · trivial
  refine .call trivial fun opened => ?_
  split <;> trivial

theorem installDomainList_loads (buf : Nat) (read : List Byte) : (installDomainList buf read).Only LoadsList := by
  simp only [installDomainList, Prog.bind_eq, Prog.perform_bind, Prog.pure_eq]
  refine .call trivial fun _ => ?_
  split
  · exact .call trivial fun _ => .call (fun _ => rfl) fun _ => trivial
  refine .call trivial fun lines => .call (fun _ => rfl) fun _ => ?_
  split
  · exact .call trivial fun _ => .call (fun _ => rfl) fun _ => trivial
  · exact .call trivial fun _ => .call trivial fun _ =>
      .call (fun _ => rfl) fun _ => trivial

theorem readDomainList_loads (f : DomainFile) : (readDomainList f).Only LoadsList := by
  simp only [readDomainList, Prog.bind_eq, Prog.perform_bind, Prog.pure_eq]
  refine .call trivial fun size => ?_
  split
  · trivial
  refine .call trivial fun buf => .call (fun _ => rfl) fun _ => ?_
  split
  · trivial
  · exact .call trivial fun read => installDomainList_loads _ read

theorem sdStorageLoadDomainList_loads : sdStorageLoadDomainList.Only LoadsList := by
  simp only [sdStorageLoadDomainList, Prog.bind_eq, Prog.perform_bind, Prog.pure_eq]
  refine releaseDomainList_loads.bind fun _ => .call trivial fun s => ?_
  split
  · refine .call trivial fun slot => (openDomainList_loads _).bind fun opened => ?_
    split
    · trivial
    · exact readDomainList_loads _
  · trivial

theorem releaseDomainList_listLoads : releaseDomainList.Only ListLoads :=
  releaseDomainList_loads.mono fun _ h => h.listLoads

theorem sdStorageLoadDomainList_listLoads : sdStorageLoadDomainList.Only ListLoads :=
  sdStorageLoadDomainList_loads.mono fun _ h => h.listLoads

end EspAdblocker.Storage
