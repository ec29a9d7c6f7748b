import EspAdblocker.Lib.Life
import EspAdblocker.Storage.AllowlistLoops
import EspAdblocker.Storage.Installing

/-!
# The artifacts over the life of a device

From the factory on a device boots, updates from one server or another, is cut
off in the middle, and boots again, one program at a time and with its NVS never
erased. Whatever the order, the partition and the file that the slot bytes name
hold what they held at first or what passed the checks of some update
(`BloomOrigin`, `ListOrigin`), no program works on them, and a filter that a boot
could once load can be loaded by every later boot (`artifacts_last`).
-/

namespace EspAdblocker.Storage

open EspAdblocker.Lib EspAdblocker.Bloom

/-! ## What a device does -/

/-- What a power cycle leaves: the settings, the flash and the card. -/
def Device.powerCycle (d : Device) : Device :=
  { d with
    maps := fun _ => none
    heap := fun _ => none
    statics := {} }

theorem Device.samePersistent_powerCycle (d : Device) : SamePersistent d d.powerCycle := ⟨rfl, rfl, rfl, rfl, rfl⟩

/-- The loads of `dns_proxy_start`, which returns before them without memory for its mutex. -/
def dnsProxyStart (seedLen : BitVec 32) (mutexCreated : Bool) : DeviceM Unit :=
  if mutexCreated then do
    dnsProxyReloadBloomFilter seedLen
    dnsProxyReloadAllowlistInPlace
  else return ()

/-- The loads of `app_main`, in its order; `mounted` is what `sd_storage_mount` returns. They come after
`nvs_flash_init`, which here finds NVS as it was: its erasure in `app_main` is no part of this. -/
def appMain (seedLen : BitVec 32) (mutexCreated : Bool) (mounted : EspErr) : DeviceM EspErr := do
  dnsProxyStart seedLen mutexCreated
  if mounted = .ok then
    assign fun s => { s with mounted := true }
    sdStorageLoadDomainList
  else return mounted

/-- `dns_proxy_reload_allowlist` after a new allowlist was stored. -/
def reloadAllowlist : DeviceM EspErr := do
  dnsProxyReloadAllowlistInPlace
  return .ok

/-- The programs that work on the device. -/
inductive Runs (sha : Sha256) (seedLen : BitVec 32) : DeviceM EspErr → Prop where
  | boot (mutexCreated : Bool) (mounted : EspErr) : Runs sha seedLen (appMain seedLen mutexCreated mounted)
  | reloadAllowlist : Runs sha seedLen reloadAllowlist
  | update (baseUrl : List Byte) : Runs sha seedLen (blocklistUpdaterCheckAndApply sha seedLen baseUrl)

/-- Settings are saved, which changes no slot byte. -/
structure SettingsSaved (w w' : Device × List Event) : Prop where
  only : w'.1 = { w.1 with nvs := w'.1.nvs }
  bloomSlot : w'.1.nvs.bloomSlot = w.1.nvs.bloomSlot
  listSlot : w'.1.nvs.listSlot = w.1.nvs.listSlot
  events : w'.2 = w.2

/-- A device, with the record of all its operations. It is at work on one program at a time: updates
that overlap are the subject of `Storage.Overlap`. -/
def machine (sha : Sha256) (seedLen : BitVec 32) : Sem.Machine Op Res (Device × List Event) EspErr where
  runs := Runs sha seedLen
  powerCycle w := (w.1.powerCycle, w.2)
  other := SettingsSaved

/-- The lives of the device `d₀`. -/
abbrev Life (short : Bool) (sha : Sha256) (seedLen : BitVec 32) (d₀ : Device) (w : Device × List Event) : Prop :=
  (deviceSem short).traced.Life (machine sha seedLen) (d₀, []) w

section

variable {short : Bool} {sha : Sha256} {seedLen : BitVec 32}

theorem dnsProxyReloadAllowlistInPlace_volatile : dnsProxyReloadAllowlistInPlace.Only Volatile := by
  rw [dnsProxyReloadAllowlistInPlace_eq]
  exact dnsProxyReloadAllowlist_loads.mono fun _ h => h.volatile

/-- A boot changes nothing that lasts. -/
theorem appMain_volatile (mutexCreated : Bool) (mounted : EspErr) : (appMain seedLen mutexCreated mounted).Only Volatile := by
  simp only [appMain, dnsProxyStart, Prog.bind_eq, Prog.pure_eq]
  refine Prog.Only.bind ?_ fun _ => ?_
  · split
    · exact (dnsProxyReloadBloomFilter_volatile seedLen).bind fun _ => dnsProxyReloadAllowlistInPlace_volatile
    · trivial
  · split
    · exact .call trivial fun _ => sdStorageLoadDomainList_listLoads.mono fun _ h => h.1
    · trivial

theorem reloadAllowlist_volatile : reloadAllowlist.Only Volatile := by
  simp only [reloadAllowlist, Prog.bind_eq, Prog.pure_eq]
  exact dnsProxyReloadAllowlistInPlace_volatile.bind fun _ => trivial

/-- One way to show that something is kept for life: volatile work keeps it, updates
keep it, and settings keep it. -/
theorem kept_of_volatile {I : Device × List Event → Prop} {G : Device × List Event → Op → Prop}
    (allowed : ∀ w op, Volatile op → G w op)
    (volatile : ∀ w w' : Device × List Event, SamePersistent w.1 w'.1 → w.2 <+: w'.2 → I w → I w')
    (settings : ∀ w w', SettingsSaved w w' → I w → I w')
    (update : ∀ baseUrl w, I w → (deviceSem short).traced.Safe I G (blocklistUpdaterCheckAndApply sha seedLen baseUrl)
      (fun _ _ => True) w) : Sem.Kept (deviceSem short).traced (machine sha seedLen) I G where
  safe p w runs here := by
    have only_volatile (only : p.Only Volatile) : (deviceSem short).traced.Safe I G p (fun _ _ => True) w := by
      refine Sem.safe_of_only only (fun v op r v' one kept step => ?_) (fun v op v' one kept lost => ?_)
        (fun v op one _ => allowed v op one) here
      · exact volatile v v' (one.step step.1) (prefix_of_traced step) kept
      · refine volatile v v' ?_ ?_ kept
        · rw [one.torn lost.1]
          exact .refl _
        · rw [lost.2]
    cases runs with
    | boot mutexCreated mounted => exact only_volatile (appMain_volatile mutexCreated mounted)
    | reloadAllowlist => exact only_volatile reloadAllowlist_volatile
    | update baseUrl => exact update baseUrl w here
  powerCycle w here := volatile w _ w.1.samePersistent_powerCycle (List.prefix_refl _) here
  other w w' saved here := settings w w' saved here

/-! ## What a boot can load -/

/-- A reload that can map the active partition accepts the image in it. -/
def BloomAccepted (d : Device) : Prop :=
  ∃ size, d.partSize d.activePartition = some size ∧ (bloomFilterInit (d.flash d.activePartition) size).isSome

theorem readLe_append {w off : Nat} {image : List Byte} (inside : off + w / 8 ≤ image.length) (rest : List Byte) :
    readLe w (image ++ rest) off = readLe w image off := by
  rw [readLe, readLe, List.drop_append_of_le_length (by omega),
    List.take_append_of_le_length (by rw [List.length_drop]; omega)]

/-- The header is read inside its 44 bytes. -/
theorem ofBytes_append {image : List Byte} (long : bloomHeaderLen ≤ image.length) (rest : List Byte) :
    BloomHeader.ofBytes (image ++ rest) = BloomHeader.ofBytes image := by
  rw [bloomHeaderLen] at long
  simp only [BloomHeader.ofBytes, BloomHeader.mk.injEq]
  refine ⟨?_, ?_, ?_, ?_, ?_, ?_, ?_, ?_, ?_⟩ <;> exact readLe_append (by omega) rest

/-- **What passes the checks of an update is accepted by every later boot**, whatever the partition holds behind it. -/
theorem accepted_of_passesChecks {image : List Byte} {f : BloomFilter} {size : BitVec 32} (checks : PassesChecks image f)
    (room : image.length ≤ size.toNat) (rest : List Byte) : (bloomFilterInit (image ++ rest) size).isSome := by
  have accepted := bloomFilterInit_eq_some_iff.mp checks.init
  have bound := size.isLt
  have value : (BitVec.ofNat 32 image.length).toNat = image.length := Nat.mod_eq_of_lt (by omega)
  have long := accepted.headerFits
  rw [value] at long
  have inside := checks.inside
  rw [accepted.bits, List.length_drop] at inside
  have same := ofBytes_append long rest
  have known : f.header = BloomHeader.ofBytes (image ++ rest) := accepted.header.trans same.symm
  rw [Option.isSome_iff_exists]
  refine ⟨⟨f.header, (image ++ rest).drop bloomHeaderLen⟩, bloomFilterInit_eq_some_iff.mpr ?_⟩
  refine ⟨known, rfl, Nat.le_trans long room, accepted.magic, accepted.version, ?_⟩
  rw [BitVec.le_def, BitVec.toNat_add, BitVec.toNat_ofNat]
  simp only [bloomHeaderLen] at inside long ⊢
  omega

/-- Two devices agree on what decides about a boot. -/
theorem BloomAccepted.congr {d d' : Device} (accepted : BloomAccepted d) (slot : d'.nvs.bloomSlot = d.nvs.bloomSlot)
    (flash : d'.flash d.activePartition = d.flash d.activePartition) (partSize : d'.partSize = d.partSize) :
    BloomAccepted d' := by
  have same : d'.activePartition = d.activePartition := by
    rw [Device.activePartition, Device.activePartition, Nvs.bloomActiveSlot, Nvs.bloomActiveSlot, slot]
  rw [BloomAccepted, same, flash, partSize]
  exact accepted

/-! ## An update of the filter -/

/-- What an update of the filter keeps up to the activation. -/
structure BeforeActivation (d₀ : Device) (tr : List Event) (w : Device × List Event) : Prop where
  before : BeforeBloom d₀ w.1
  partSize : w.1.partSize = d₀.partSize
  later : tr <+: w.2

/-- The active partition was switched to a body that was fetched, as far as the
partition's size goes, and that passed the checks. -/
def Switched (url : List Byte) (w : Device × List Event) : Prop :=
  ∃ chunks size f rest, (⟨.httpGet url, .response 200 chunks⟩ : Event) ∈ w.2 ∧
    w.1.partSize w.1.activePartition = some size ∧ PassesChecks ((bodyOf chunks).take size.toNat) f ∧
    w.1.flash w.1.activePartition = (bodyOf chunks).take size.toNat ++ rest

/-- At every point of an update the filter is that of before, or switched. -/
def Stage (url : List Byte) (d₀ : Device) (tr : List Event) (w : Device × List Event) : Prop :=
  BeforeActivation d₀ tr w ∨ Switched url w

theorem Switched.congr {url : List Byte} {w w' : Device × List Event} (switched : Switched url w)
    (slot : w'.1.nvs.bloomSlot = w.1.nvs.bloomSlot) (flash : w'.1.flash = w.1.flash) (partSize : w'.1.partSize = w.1.partSize)
    (later : w.2 <+: w'.2) : Switched url w' := by
  obtain ⟨chunks, size, f, rest, fetched, table, checks, stored⟩ := switched
  have same : w'.1.activePartition = w.1.activePartition := by
    rw [Device.activePartition, Device.activePartition, Nvs.bloomActiveSlot, Nvs.bloomActiveSlot, slot]
  exact ⟨chunks, size, f, rest, later.subset fetched, by rw [same, partSize, table], checks, by rw [same, flash, stored]⟩

theorem Switched.accepted {url : List Byte} {w : Device × List Event} (switched : Switched url w) : BloomAccepted w.1 := by
  obtain ⟨chunks, size, f, rest, -, table, checks, stored⟩ := switched
  refine ⟨size, table, ?_⟩
  rw [stored]
  exact accepted_of_passesChecks checks (List.length_take_le ..) rest

theorem activationPhase (d₀ : Device) (tr : List Event) : (deviceSem short).traced.Phase
    (fun op => Volatile op ∨ RewritesOther d₀.activePartition op) (BeforeActivation d₀ tr) Guard where
  keeps v op r v' work here step := by
    have later := here.later.trans (prefix_of_traced step)
    refine ⟨(bloomPhase d₀).keeps v op r v' work here.before step, ?_, later⟩
    rcases work with volatile | other
    · exact (volatile.step step.1).partSize.trans here.partSize
    · obtain ⟨k, bytes, -, written⟩ := other.step step.1
      rw [written]
      exact here.partSize
  torn v op v' work here lost := by
    refine ⟨(bloomPhase d₀).torn v op v' work here.before lost, ?_, lost.2 ▸ here.later⟩
    rcases work with volatile | other
    · rw [volatile.torn lost.1, here.partSize]
    · obtain ⟨k, bytes, -, written⟩ := other.torn lost.1
      rw [written]
      exact here.partSize
  allowed v op work here := by
    have phase : (deviceSem short).traced.Phase _ _ Guard := bloomPhase d₀
    exact phase.allowed v op work here.before

section

variable {d₀ : Device} {tr : List Event} {w : Device × List Event} {url : List Byte} {target : BitVec 8}
  {chunks : List (List Byte)} {rest : List Byte} {f : BloomFilter} {size : BitVec 32}

theorem flashImage_staged {h : Half} (here : BeforeActivation d₀ tr w) (other : h ≠ d₀.activePartition) (image : List Byte) :
    (deviceSem short).traced.Safe (Stage url d₀ tr) Guard (flashImage h image)
      (fun err v => BeforeActivation d₀ tr v ∧ (err = .ok → ∃ rest, v.1.flash h = image ++ rest)) w := by
  have phase : (deviceSem short).traced.Phase _ _ Guard := activationPhase d₀ tr
  simp only [flashImage, Prog.bind_eq, Prog.perform_bind, Prog.pure_eq]
  refine phase.call (fun _ => .inl) (.inr ⟨h, other, .inl rfl⟩) here fun err w₁ _ here₁ => ?_
  split
  · refine phase.call (fun _ => .inl) (.inr ⟨h, other, .inr ⟨image, rfl⟩⟩) here₁
      fun err w₂ step here₂ => ⟨.inl here₂, here₂, ?_⟩
    rintro rfl
    have written := step.1
    simp only [deviceSem, Device.step, if_true] at written
    exact ⟨_, by rw [written]; exact Function.update_self ..⟩
  · rename_i failed
    exact ⟨.inl here₁, here₁, fun ok => absurd ok failed⟩

theorem activateBloom_staged (here : BeforeActivation d₀ tr w)
    (written : w.1.flash (halfOf target) = (bodyOf chunks).take size.toNat ++ rest)
    (checks : PassesChecks ((bodyOf chunks).take size.toNat) f) (table : d₀.partSize (halfOf target) = some size)
    (fetched : (⟨.httpGet url, .response 200 chunks⟩ : Event) ∈ tr) :
    (deviceSem short).traced.Safe (Stage url d₀ tr) Guard (activateBloom seedLen target) (fun _ _ => True) w := by
  have flipped (part : List Event) :
      Switched url ({ w.1 with nvs := { w.1.nvs with bloomSlot := some target } }, w.2 ++ part) :=
    ⟨chunks, size, f, rest, List.mem_append_left _ (here.later.subset fetched), by rw [← table, ← here.partSize]; rfl, checks,
      written⟩
  simp only [activateBloom, Prog.bind_eq, Prog.perform_bind, Prog.pure_eq]
  refine Sem.safe_call (.inl here) trivial ?_ ?_
  · rintro ⟨d', tr'⟩ ⟨lost, rfl⟩
    rcases lost with same | stored
    · obtain rfl : d' = w.1 := same
      exact .inl here
    · obtain rfl : d' = _ := stored
      exact .inr (by simpa using flipped [])
  · rintro err ⟨d', tr'⟩ ⟨stored, rfl⟩
    by_cases ok : err = .ok
    · obtain rfl : d' = { w.1 with nvs := { w.1.nvs with bloomSlot := some target } } := by
        simpa [deviceSem, Device.step, ok] using stored
      rw [if_pos ok]
      have lasts (v : Device × List Event) (kept : SamePersistent { w.1 with nvs := { w.1.nvs with bloomSlot := some target } } v.1 ∧
          (w.2 ++ [⟨.setBloomSlot target, err⟩] <+: v.2)) : Stage url d₀ tr v :=
        .inr ((flipped _).congr (by rw [kept.1.nvs]) kept.1.flash kept.1.partSize kept.2)
      exact (volatilePhase _).bind lasts (dnsProxyReloadBloomFilter_volatile seedLen) ⟨.refl _, List.prefix_refl _⟩
        fun _ v kept => ⟨lasts v kept, trivial⟩
    · obtain rfl : d' = w.1 := by simpa [deviceSem, Device.step, ok] using stored
      rw [if_neg ok]
      exact ⟨.inl ⟨here.before, here.partSize, here.later.trans (List.prefix_append ..)⟩, trivial⟩

theorem installBloom_staged (here : BeforeActivation d₀ tr w) (chosen : halfOf target = d₀.activePartition.other)
    (table : d₀.partSize (halfOf target) = some size) (buf : Nat)
    (fetched : (⟨.httpGet url, .response 200 chunks⟩ : Event) ∈ tr) :
    (deviceSem short).traced.Safe (Stage url d₀ tr) Guard
      (installBloom seedLen target buf ((bodyOf chunks).take size.toNat)) (fun _ _ => True) w := by
  have phase : (deviceSem short).traced.Phase _ _ Guard := activationPhase d₀ tr
  have other : halfOf target ≠ d₀.activePartition := by rw [chosen]; exact Half.other_ne _
  simp only [installBloom, computeCrc, Prog.bind_eq, Prog.perform_bind, Prog.pure_eq]
  split
  · exact phase.call (fun _ => .inl) (.inl trivial) here fun _ w₁ _ here₁ => ⟨.inl here₁, trivial⟩
  rename_i filter passed
  split
  · rename_i inside
    rw [Prog.ret_bind]
    split
    · rename_i crc
      refine Sem.safe_bind ((flashImage_staged here other _).mono ?_)
      rintro err w₁ - ⟨here₁, written⟩
      refine phase.call (fun _ => .inl) (.inl trivial) here₁ fun _ w₂ freed here₂ => ?_
      split
      · rename_i ok
        obtain ⟨rest, stored⟩ := written ok
        have kept : w₂.1.flash = w₁.1.flash := by
          have same : w₂.1 = _ := freed.1
          rw [same]
          rfl
        exact activateBloom_staged here₂ (by rw [kept, stored]) ⟨passed, inside, crc⟩ table fetched
      · exact ⟨.inl here₂, trivial⟩
    · exact phase.call (fun _ => .inl) (.inl trivial) here fun _ w₁ _ here₁ => ⟨.inl here₁, trivial⟩
  · exact phase.call (fun _ => .inl) (.inl trivial) here fun impossible => by cases impossible

end

/-- **An update of the filter switches to what it fetched and checked**, or not at all. -/
theorem updateBloom_staged (baseUrl : List Byte) (d₀ : Device) (tr : List Event) :
    (deviceSem short).traced.Safe (Stage (urlOf baseUrl "/bloom.bin") d₀ tr) Guard (updateBloom seedLen baseUrl)
      (fun _ _ => True) (d₀, tr) := by
  have phase : (deviceSem short).traced.Phase _ _ Guard := activationPhase d₀ tr
  simp only [updateBloom, httpGetToBuffer, Prog.bind_eq, Prog.perform_bind, Prog.pure_eq]
  refine phase.call (fun _ => .inl) (.inl trivial) ⟨⟨rfl, rfl, rfl⟩, rfl, List.prefix_refl _⟩ fun slot w₁ done here₁ => ?_
  obtain ⟨⟨read, _⟩, _⟩ := done
  subst read
  refine phase.call (fun _ => .inl) (.inl trivial) here₁ fun size w₂ done here₂ => ?_
  obtain ⟨⟨table, _⟩, _⟩ := done
  rw [here₁.partSize] at table
  split
  · exact ⟨.inl here₂, trivial⟩
  rename_i size _
  refine phase.call (fun _ => .inl) (.inl trivial) here₂ fun buf w₃ _ here₃ => ?_
  split
  · exact ⟨.inl here₃, trivial⟩
  rename_i buf _
  refine phase.call (fun _ => .inl) (.inl trivial) here₃ fun reply w₄ done here₄ => ?_
  have refuse : (deviceSem short).traced.Safe (Stage (urlOf baseUrl "/bloom.bin") d₀ tr) Guard
      (.call (.free buf) fun _ => .ret EspErr.fail) (fun _ _ => True) w₄ :=
    phase.call (fun _ => .inl) (.inl trivial) here₄ fun _ w₅ _ here₅ => ⟨.inl here₅, trivial⟩
  cases reply with
  | noClient => exact refuse
  | openFailed => exact refuse
  | response status chunks =>
    by_cases found : status = 200
    · subst found
      simp only [if_true, Prog.ret_bind]
      split
      · exact refuse
      · rw [readBody_eq]
        have fetched : (⟨.httpGet (urlOf baseUrl "/bloom.bin"), .response 200 chunks⟩ : Event) ∈ w₄.2 := by
          rw [done.2]
          exact List.mem_append_right _ (List.mem_singleton_self _)
        have here : BeforeActivation d₀ w₄.2 w₄ := ⟨here₄.before, here₄.partSize, List.prefix_refl _⟩
        have rebased (v : Device × List Event) (stage : Stage (urlOf baseUrl "/bloom.bin") d₀ w₄.2 v) :
            Stage (urlOf baseUrl "/bloom.bin") d₀ tr v :=
          stage.imp_left fun before => ⟨before.before, before.partSize, here₄.later.trans before.later⟩
        exact (installBloom_staged here (halfOf_targetSlot _) table.symm buf fetched).weaken rebased fun _ _ _ allowed => allowed
    · simp only [if_neg found, Prog.ret_bind]
      exact refuse

theorem KeepsBloom.torn {d d' : Device} {op : Op} (h : KeepsBloom op) (lost : Device.torn d op d') : SameBloom d d' := by
  cases op with
  | setBloomSlot | eraseRange | writePartition | mmap | munmap => exact h.elim
  | setListSlot =>
    rcases lost with rfl | rfl
    · exact .refl _
    · exact ⟨rfl, rfl, rfl, rfl, rfl, rfl⟩
  | fopenWrite | fwrite | fcloseWrite | remove =>
    obtain ⟨content, rfl⟩ := lost
    exact ⟨rfl, rfl, rfl, rfl, rfl, rfl⟩
  | _ =>
    obtain rfl : d' = d := lost
    exact .refl d'

/-! ## Where the named content comes from -/

/-- The partition the slot byte names holds what it held at first, or an image that was
fetched and passed the checks. -/
inductive BloomOrigin (d₀ : Device) (w : Device × List Event) : Prop where
  | kept : w.1.nvs.bloomActiveSlot = d₀.nvs.bloomActiveSlot → w.1.flash w.1.activePartition = d₀.flash d₀.activePartition →
      BloomOrigin d₀ w
  | checked {baseUrl : List Byte} : Switched (urlOf baseUrl "/bloom.bin") w → BloomOrigin d₀ w

/-- The file the slot byte names holds what it held at first, or one whose digest was fetched. -/
inductive ListOrigin (short : Bool) (sha : Sha256) (d₀ : Device) (w : Device × List Event) : Prop where
  | kept : w.1.nvs.exactListActiveSlot = d₀.nvs.exactListActiveSlot → w.1.files w.1.activeFile = d₀.files d₀.activeFile →
      ListOrigin short sha d₀ w
  | checked {baseUrl content read body : List Byte} : w.1.files w.1.activeFile = some content →
      Device.ReadOf short content read → Fetched (urlOf baseUrl "/domains.idx.sha256") 127 w.2 body →
      hexEncodeLower (sha.run read) = (body.take 64).map toLowerByte → ListOrigin short sha d₀ w

/-- Both origins. -/
structure Origins (short : Bool) (sha : Sha256) (d₀ : Device) (w : Device × List Event) : Prop where
  bloom : BloomOrigin d₀ w
  list : ListOrigin short sha d₀ w

/-- What lasts of the filter: its origin, and that it can be loaded. -/
structure BloomLasts (d₀ : Device) (w : Device × List Event) : Prop where
  origin : BloomOrigin d₀ w
  accepted : BloomAccepted d₀ → BloomAccepted w.1

theorem BloomLasts.congr {d₀ : Device} {w w' : Device × List Event} (lasts : BloomLasts d₀ w)
    (slot : w'.1.nvs.bloomSlot = w.1.nvs.bloomSlot) (flash : w'.1.flash = w.1.flash) (partSize : w'.1.partSize = w.1.partSize)
    (later : w.2 <+: w'.2) : BloomLasts d₀ w' := by
  have active : w'.1.nvs.bloomActiveSlot = w.1.nvs.bloomActiveSlot := by
    rw [Nvs.bloomActiveSlot, Nvs.bloomActiveSlot, slot]
  have same : w'.1.activePartition = w.1.activePartition := congrArg halfOf active
  refine ⟨?_, fun accepted => (lasts.accepted accepted).congr slot (by rw [flash]) partSize⟩
  cases lasts.origin with
  | kept slot₀ flash₀ => exact .kept (active.trans slot₀) (by rw [same, flash, flash₀])
  | checked switched => exact .checked (switched.congr slot flash partSize later)

/-- What lasts before an update lasts at every stage of it. -/
theorem BloomLasts.stage {d₀ : Device} {w v : Device × List Event} {baseUrl : List Byte} (lasts : BloomLasts d₀ w)
    (stage : Stage (urlOf baseUrl "/bloom.bin") w.1 w.2 v) : BloomLasts d₀ v := by
  rcases stage with here | switched
  · have slot : v.1.nvs.bloomSlot = w.1.nvs.bloomSlot := congrArg Nvs.bloomSlot here.before.nvs
    have same := here.before.activePartition
    refine ⟨?_, fun accepted => (lasts.accepted accepted).congr slot here.before.flash here.partSize⟩
    cases lasts.origin with
    | kept slot₀ flash₀ =>
      exact .kept ((congrArg Nvs.bloomActiveSlot here.before.nvs).trans slot₀) (by rw [same, here.before.flash, flash₀])
    | checked switched =>
      obtain ⟨chunks, size, f, rest, fetched, table, checks, stored⟩ := switched
      exact .checked ⟨chunks, size, f, rest, here.later.subset fetched, by rw [same, here.partSize, table], checks,
        by rw [same, here.before.flash, stored]⟩
  · exact ⟨.checked switched, fun _ => switched.accepted⟩

theorem bloomLasts_kept (d₀ : Device) :
    Sem.Kept (deviceSem short).traced (machine sha seedLen) (BloomLasts d₀) fun _ _ => True := by
  refine kept_of_volatile (fun _ _ _ => trivial) (fun w w' same later lasts => ?_) (fun w w' saved lasts => ?_)
    fun baseUrl w lasts => ?_
  · exact lasts.congr (by rw [same.nvs]) same.flash same.partSize later
  · exact lasts.congr saved.bloomSlot (by rw [saved.only]) (by rw [saved.only]) (by rw [saved.events])
  · simp only [blocklistUpdaterCheckAndApply, Prog.bind_eq, Prog.pure_eq]
    apply Sem.safe_bind
    have first : (deviceSem short).traced.Safe (Stage (urlOf baseUrl "/bloom.bin") w.1 w.2) Guard (updateBloom seedLen baseUrl)
        (fun _ _ => True) w := updateBloom_staged baseUrl w.1 w.2
    refine (first.weaken (fun _ => lasts.stage) fun _ _ _ _ => trivial).mono fun bloomErr w₁ lasts₁ _ => Sem.safe_bind ?_
    have list : (deviceSem short).traced.Safe (BloomLasts d₀) (fun _ _ => True) (updateDomainList sha baseUrl)
        (fun _ _ => True) w₁ := by
      refine Sem.safe_of_only (updateDomainList_keepsBloom sha baseUrl) ?_ ?_ (fun _ _ _ _ => trivial) lasts₁
      · intro v op r v' keeps here step
        have same := keeps.step step.1
        exact here.congr same.slot same.flash same.partSize (prefix_of_traced step)
      · intro v op v' keeps here lost
        have same := keeps.torn lost.1
        exact here.congr same.slot same.flash same.partSize (by rw [lost.2])
    refine list.mono fun listErr w₂ lasts₂ _ => ?_
    split <;> exact ⟨lasts₂, trivial⟩

theorem Fetched.mono {url body : List Byte} {cap : Nat} {tr tr' : List Event} (fetched : Fetched url cap tr body)
    (later : tr ⊆ tr') : Fetched url cap tr' body := by
  obtain ⟨chunks, member, whole⟩ := fetched
  exact ⟨chunks, later member, whole⟩

/-- The origin of what a run starts from and what the run does with it give the origin afterwards. -/
theorem ListOrigin.after {baseUrl : List Byte} {d₀ d d' : Device} {tr part : List Event}
    (origin : ListOrigin short sha d₀ (d, tr)) (pair : ListPair short sha baseUrl d (d', part)) :
    ListOrigin short sha d₀ (d', tr ++ part) := by
  cases pair with
  | kept slot files =>
    cases origin with
    | kept slot₀ files₀ => exact .kept (slot.trans slot₀) (files.trans files₀)
    | checked content read fetched digest =>
      exact .checked (files.trans content) read (fetched.mono (List.subset_append_left ..)) digest
  | moved _ content read fetched digest =>
    exact .checked content read (fetched.mono (List.subset_append_right ..)) digest

theorem ListOrigin.congr {d₀ : Device} {w w' : Device × List Event} (origin : ListOrigin short sha d₀ w)
    (slot : w'.1.nvs.exactListActiveSlot = w.1.nvs.exactListActiveSlot) (files : w'.1.files = w.1.files)
    (later : w.2 <+: w'.2) : ListOrigin short sha d₀ w' := by
  have same : w'.1.activeFile = w.1.activeFile := congrArg (fun s => DomainFile.half (halfOf s)) slot
  cases origin with
  | kept slot₀ files₀ => exact .kept (slot.trans slot₀) (by rw [same, files, files₀])
  | checked content read fetched digest =>
    exact .checked (by rw [same, files, content]) read (fetched.mono later.subset) digest

/-- One run of the updater, cut off anywhere, keeps its pairs. -/
theorem updater_safe (baseUrl : List Byte) (d : Device) :
    (deviceSem short).traced.Safe (Pairs short sha baseUrl d) Guard (blocklistUpdaterCheckAndApply sha seedLen baseUrl)
      (fun _ _ => True) (d, []) := by
  simp only [blocklistUpdaterCheckAndApply, Prog.bind_eq, Prog.pure_eq]
  apply Sem.safe_bind
  have first : (deviceSem short).traced.Safe (DuringBloom d) Guard (updateBloom seedLen baseUrl)
      (fun _ w => DuringBloom d w) (d, []) :=
    (updateBloom_safe seedLen baseUrl d).mono fun _ _ during _ => during
  refine (first.weaken (fun _ => DuringBloom.pairs) fun _ _ _ allowed => allowed).mono fun bloomErr w _ during => ?_
  refine Sem.safe_bind ((updateDomainList_safe during).mono fun listErr w' here _ => ?_)
  split <;> exact ⟨here, trivial⟩

theorem listOrigin_kept (d₀ : Device) :
    Sem.Kept (deviceSem short).traced (machine sha seedLen) (ListOrigin short sha d₀) Guard := by
  refine kept_of_volatile (fun w _ one => one.sparesNamed w.1) (fun w w' same later origin => ?_)
    (fun w w' saved origin => ?_) fun baseUrl w origin => ?_
  · exact origin.congr (by rw [same.nvs]) same.files later
  · exact origin.congr (by rw [Nvs.exactListActiveSlot, saved.listSlot]; rfl) (by rw [saved.only]) (by rw [saved.events])
  · have safe : (deviceSem short).traced.Safe (Pairs short sha baseUrl w.1) Guard
        (blocklistUpdaterCheckAndApply sha seedLen baseUrl) (fun _ _ => True) (w.1, []) := updater_safe baseUrl w.1
    have recorded := safe.after_record w.2
    rw [List.append_nil] at recorded
    refine recorded.weaken ?_ ?_
    · rintro ⟨d, _⟩ ⟨part, rfl, pairs⟩
      exact origin.after pairs.2
    · rintro ⟨d, _⟩ op - ⟨part, -, allowed⟩
      exact allowed

/-- **A filter that can be loaded can be loaded for life.** -/
theorem bloomLasts {d₀ : Device} {w : Device × List Event} (life : Life short sha seedLen d₀ w) : BloomLasts d₀ w :=
  life.invariant (bloomLasts_kept d₀) ⟨.kept rfl rfl, fun accepted => accepted⟩

/-! ## What a boot serves -/

/-- The partition could not be mapped. -/
def unmapped : Event → Bool
  | ⟨.mmap _, none⟩ => true
  | _ => false

/-- Memory shows the active partition. -/
structure FromFlash (d : Device) : Prop where
  ready : d.statics.bloomReady = true
  fromFlash : d.statics.bloomFromSeed = false
  shows : ShowsPartition d.activePartition d

theorem initBloom_of_accepted {handle : Nat} {h : Half} {size : BitVec 32} {d : Device} (live : d.maps handle = some h)
    (accepted : (bloomFilterInit (d.flash h) size).isSome) :
    (deviceSem short).Ends (initBloom (.mapped handle) size) (fun loaded _ => loaded = true) d := by
  simp only [initBloom, Prog.bind_eq, Prog.perform_bind, Prog.pure_eq]
  refine Sem.ends_call fun buf d₁ done => ?_
  obtain ⟨read, -⟩ := done
  obtain rfl : buf = d.flash h := read _ (by simp [Device.regionBytes, live])
  split
  · rename_i refused
    rw [refused] at accepted
    cases accepted
  · exact Sem.ends_call fun _ d₂ _ => Sem.ends_call fun _ d₃ _ => Sem.ends_ret rfl

theorem tryLoadBloomFromPartition_of_accepted {slot : BitVec 8} {size : BitVec 32} {d : Device}
    (table : d.partSize (halfOf slot) = some size) (accepted : (bloomFilterInit (d.flash (halfOf slot)) size).isSome) :
    (deviceSem short).traced.Ends (tryLoadBloomFromPartition slot) (fun loaded v =>
      v.2.any unmapped = false → loaded = true) (d, []) := by
  simp only [tryLoadBloomFromPartition, Prog.bind_eq, Prog.perform_bind, Prog.pure_eq]
  refine Sem.ends_traced_call fun found d₁ done => ?_
  obtain ⟨same_table, same⟩ := done
  subst same
  rw [table] at same_table
  subst same_table
  refine Sem.ends_traced_bind (((ends_samePersistent unmapBloom_volatile d₁).traced []).mono fun _ v₂ kept => ?_)
  refine Sem.ends_traced_call fun handle d₃ mapped => ?_
  cases handle with
  | none =>
    refine Sem.ends_ret fun quiet => ?_
    simp [unmapped] at quiet
  | some handle =>
    obtain ⟨-, rfl⟩ := mapped
    have live : (v₂.1.withMap handle (some (halfOf slot))).maps handle = some (halfOf slot) := Function.update_self ..
    have accepted' : (bloomFilterInit ((v₂.1.withMap handle (some (halfOf slot))).flash (halfOf slot)) size).isSome := by
      change (bloomFilterInit (v₂.1.flash (halfOf slot)) size).isSome
      rw [kept.flash]
      exact accepted
    refine Sem.ends_traced_bind (((initBloom_of_accepted live accepted').traced []).mono fun loaded v₄ done => ?_)
    obtain rfl : loaded = true := done
    exact Sem.ends_traced_call fun _ d₅ _ => Sem.ends_traced_call fun _ d₆ _ => Sem.ends_ret fun _ => rfl

/-- **A reload that can map an accepted image serves it.** -/
theorem dnsProxyReloadBloomFilter_of_accepted {d : Device} (accepted : BloomAccepted d) :
    (deviceSem short).traced.Ends (dnsProxyReloadBloomFilter seedLen) (fun _ v =>
      SamePersistent d v.1 ∧ (v.2.any unmapped = false → FromFlash v.1)) (d, []) := by
  refine (((ends_samePersistent (dnsProxyReloadBloomFilter_volatile seedLen) d).traced []).and ?_)
  obtain ⟨size, table, image⟩ := accepted
  simp only [dnsProxyReloadBloomFilter, Prog.bind_eq, Prog.perform_bind]
  refine Sem.ends_traced_call fun slot d₁ done => ?_
  obtain ⟨read, same⟩ := done
  subst same read
  refine Sem.ends_traced_bind (((tryLoadBloomFromPartition_of_accepted table image).and
    ((tryLoadBloomFromPartition_ends _ d₁).traced [])).mono ?_)
  rintro loaded v₂ ⟨loads, kept, shows⟩
  cases loaded with
  | true =>
    obtain ⟨⟨handle, header, bits, live⟩, accepted⟩ := shows rfl
    refine Sem.ends_traced_call fun _ d₃ set => Sem.ends_traced_call fun _ d₄ set' => Sem.ends_ret fun _ => ?_
    obtain rfl : d₃ = _ := set
    obtain rfl : d₄ = _ := set'
    refine ⟨rfl, rfl, ?_⟩
    change ShowsPartition v₂.1.activePartition _
    rw [kept.activePartition]
    exact ⟨⟨handle, header, bits, live⟩, accepted⟩
  | false =>
    intro _ v₃ _ quiet
    rw [List.any_cons, List.any_append, Bool.or_eq_false_iff, Bool.or_eq_false_iff] at quiet
    exact absurd (loads quiet.2.1) (by simp)

theorem FromFlash.congr {d d' : Device} (serves : FromFlash d) (same : SameBloom d d') : FromFlash d' := by
  have fromSeed : d'.statics.bloomFromSeed = d.statics.bloomFromSeed := congrArg BloomStatics.fromSeed same.statics
  have ready : d'.statics.bloomReady = d.statics.bloomReady := congrArg BloomStatics.ready same.statics
  refine ⟨ready.trans serves.ready, fromSeed.trans serves.fromFlash, ?_⟩
  cases (same.spares d.activePartition).serving (.active serves.fromFlash serves.shows) with
  | notReady idle => rw [ready, serves.ready] at idle; cases idle
  | seed seed => rw [fromSeed, serves.fromFlash] at seed; cases seed
  | active _ shows => exact shows

theorem installAllowlist_keepsBloom (buf : Nat) (text : List Byte) : (installAllowlist buf text).Only KeepsBloom := by
  simp only [installAllowlist, Prog.bind_eq, Prog.perform_bind]
  refine .call trivial fun _ => .call trivial fun entries => ?_
  split
  · exact .call trivial fun _ => trivial
  · exact .call trivial fun _ => .call trivial fun _ =>
      .call (fun _ => rfl) fun _ => .call (fun _ => rfl) fun _ => .call (fun _ => rfl) fun _ => trivial

theorem dnsProxyReloadAllowlistInPlace_keepsBloom : dnsProxyReloadAllowlistInPlace.Only KeepsBloom := by
  rw [dnsProxyReloadAllowlistInPlace_eq]
  simp only [dnsProxyReloadAllowlist, releaseAllowlist, Prog.bind_eq, Prog.perform_bind, Prog.pure_eq]
  refine .bind ?_ fun _ => .call trivial fun buf => ?_
  · refine .bind (only_releaseBlock _ _ trivial (fun _ => trivial) fun _ => rfl) fun _ => ?_
    exact .bind (only_releaseBlock _ _ trivial (fun _ => trivial) fun _ => rfl) fun _ => .call (fun _ => rfl) fun _ => trivial
  split
  · trivial
  refine .call trivial fun text => ?_
  split
  · exact .call trivial fun _ => trivial
  split
  · exact .call trivial fun _ => trivial
  · exact installAllowlist_keepsBloom _ _

/-- **A boot that can map an accepted image serves it.** -/
theorem appMain_of_accepted (mounted : EspErr) {d : Device} (accepted : BloomAccepted d) :
    (deviceSem short).traced.Ends (appMain seedLen true mounted) (fun _ v => SamePersistent d v.1 ∧
      (v.2.any unmapped = false → FromFlash v.1)) (d, []) := by
  refine ((ends_samePersistent (appMain_volatile true mounted) d).traced []).and ?_
  simp only [appMain, dnsProxyStart, Prog.bind_eq, Prog.pure_eq, if_true]
  refine Sem.ends_traced_bind (Sem.ends_traced_bind ((dnsProxyReloadBloomFilter_of_accepted accepted).mono ?_))
  rintro _ v₁ ⟨-, serves⟩
  refine ((ends_sameBloom dnsProxyReloadAllowlistInPlace_keepsBloom v₁.1).traced []).mono fun _ v₂ same => ?_
  have rest : (deviceSem short).traced.Ends
      (if mounted = .ok then (assign fun s => { s with mounted := true }).bind fun _ => sdStorageLoadDomainList
        else .ret mounted) (fun _ v => SameBloom v₂.1 v.1) (v₂.1, []) := by
    refine (ends_sameBloom ?_ v₂.1).traced []
    split
    · exact .call (fun _ => rfl) fun _ => sdStorageLoadDomainList_listLoads.mono fun _ h => h.2
    · trivial
  refine rest.mono fun _ v₃ same' quiet => ?_
  rw [List.any_append, List.any_append, Bool.or_eq_false_iff, Bool.or_eq_false_iff] at quiet
  exact ((serves quiet.1.1).congr same).congr same'

/-! ## For life -/

/-- **The artifacts last.** At every point of every life, with updates from any servers
cut off anywhere, the content that the slot bytes name is that of the beginning or passed
the checks; no program works on it; and if the first boot could load a filter from flash,
so can a boot after a power loss now, and it serves the partition the slot byte names. -/
theorem artifacts_last {d₀ : Device} {w : Device × List Event} (life : Life short sha seedLen d₀ w) :
    Origins short sha d₀ w ∧
    (∀ p v op, Runs sha seedLen p → (deviceSem short).traced.Performs p w v op → SparesNamed v.1 op) ∧
    (BloomAccepted d₀ → ∀ mounted err d' tr,
      (deviceSem short).traced.Runs (appMain seedLen true mounted) (w.1.powerCycle, []) err (d', tr) →
        tr.any unmapped = false → FromFlash d' ∧ ∀ domain, d'.bloomTest domain =
          bloomFilterTest ⟨.ofBytes (w.1.flash w.1.activePartition), (w.1.flash w.1.activePartition).drop bloomHeaderLen⟩
            domain) := by
  have bloom := bloomLasts life
  have start : ListOrigin short sha d₀ (d₀, []) := .kept rfl rfl
  refine ⟨⟨bloom.origin, life.invariant (listOrigin_kept d₀) start⟩, fun p v op runs does => ?_,
    fun accepted mounted err d' tr boots quiet => ?_⟩
  · exact life.allowed (listOrigin_kept d₀) start runs does
  · have here := bloom.accepted accepted
    have lasts := w.1.samePersistent_powerCycle
    have cycled : BloomAccepted w.1.powerCycle := here.congr rfl rfl rfl
    obtain ⟨kept, serves⟩ := appMain_of_accepted mounted cycled err (d', tr) boots
    have shown := serves quiet
    refine ⟨shown, fun domain => ?_⟩
    have same := lasts.trans kept
    rw [shown.shows.bloomTest_eq, same.activePartition, same.flash]

/-- A device that left the factory with an image in its first partition. -/
def factoryDevice : Device where
  partSize _ := some 64#32
  flash h := if h = .a then sampleTool 8 else []
  files _ := none
  seed := []

/-- Every GET is answered with a small image. -/
def sampleServer (_ : List Byte) : Reply := .response 200 [sampleTool 60]

/-- One update is cut off after it wrote the image, a second one activates its own:
the device then boots from its second partition. -/
theorem two_updates_last : ∃ w, Life false sampleSha 0#32 factoryDevice w ∧ w.1.activePartition = .b ∧
    Origins false sampleSha factoryDevice w ∧
    ∃ err d' tr, (deviceSem false).traced.Runs (appMain 0#32 true .fail) (w.1.powerCycle, []) err (d', tr) ∧ FromFlash d' := by
  let update := blocklistUpdaterCheckAndApply sampleSha 0#32 []
  have computed : ((update.after (Sem.recorded (Device.ideal sampleServer)) 6 (factoryDevice, [])).bind fun first =>
      (update.exec (Sem.recorded (Device.ideal sampleServer)) (first.2.1.powerCycle, first.2.2)).bind fun second =>
        ((appMain 0#32 true .fail).exec (Sem.recorded (Device.ideal sampleServer)) (second.2.1.powerCycle, [])).map
          fun third => (second.2.1.activePartition, third.2.2.any unmapped)) = some (.b, false) := by
    decide +kernel
  obtain ⟨⟨_, w₁⟩, first, rest⟩ := Option.bind_eq_some_iff.mp computed
  obtain ⟨⟨_, w₂⟩, second, rest⟩ := Option.bind_eq_some_iff.mp rest
  obtain ⟨⟨err, d', tr⟩, third, found⟩ := Option.map_eq_some_iff.mp rest
  obtain ⟨active, quiet⟩ := Prod.mk.inj found
  have answers (w : Device × List Event) (op : Op) (r : Res op) (v : Device × List Event) :
      Sem.recorded (Device.ideal sampleServer) w op = some (r, v) → (deviceSem false).traced.step w op r v :=
    Sem.recorded_step fun _ _ _ _ => Device.ideal_step false sampleServer
  have life : Life false sampleSha 0#32 factoryDevice w₂ :=
    .run (.cut .start (.update []) (Sem.crash_after answers first)) (.update []) (Device.runs_recorded_ideal false second)
  have boots := Device.runs_recorded_ideal false third
  obtain ⟨origins, -, serves⟩ := artifacts_last life
  have accepted : BloomAccepted factoryDevice := ⟨64#32, rfl, by decide +kernel⟩
  exact ⟨w₂, life, active, origins, err, d', tr, boots, (serves accepted .fail err d' tr boots quiet).1⟩

end

end EspAdblocker.Storage
