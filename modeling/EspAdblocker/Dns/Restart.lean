import EspAdblocker.Dns.Allowing
import EspAdblocker.Dns.InService
import EspAdblocker.Storage.Restart

/-!
# Decisions over restarts

What a boot decides about a name is a function of what the device stores
(`storedBlocks`). So restarts change no decision, and a publication that an update
has installed is in service after every later boot, even if the update itself
could not load it (`update_survives_restart`).
-/

namespace EspAdblocker.Dns

open EspAdblocker.Lib EspAdblocker.Bloom EspAdblocker.Tools EspAdblocker.Storage

/-- What `try_block` decides from what the device stores. -/
def storedBlocks (bs : Bsearch) (mounted : EspErr) (d : Device) (qname : List Byte) : Except Fault Bool :=
  if d.nvs.blockingEnabled = true then do
    if ← bloomFilterTest (storedFilter d) qname then
      if cstr qname ∈ storedAllowlist d then return false
      else return confirmIn bs (storedList mounted d) qname != .notBlocked
    else return false
  else .ok false

section

variable {mounted : EspErr} {d d' : Device}

theorem nulFree_storedAllowlist : ∀ name ∈ storedAllowlist d, NulFree name := by
  intro name member
  rw [storedAllowlist] at member
  cases text : d.nvs.allowlistText with
  | none =>
    rw [text] at member
    cases member
  | some text' =>
    rw [text] at member
    exact nulFree_of_mem_allowlistLines member

/-- Memory that recalls what is stored decides by it. -/
theorem blocks_of_recalls (recalls : Recalls mounted d d') (bs : Bsearch) (qname : List Byte) :
    blocks bs d' qname = storedBlocks bs mounted d qname := by
  rw [blocks, storedBlocks, recalls.same.nvs, recalls.bloomTest, isAllowlisted_eq recalls.allowlist nulFree_storedAllowlist,
    recalls.confirm]
  by_cases enabled : d.nvs.blockingEnabled = true
  · rw [if_pos ⟨enabled, recalls.filter.ready⟩, if_pos enabled]
    refine bind_congr fun answer => ?_
    by_cases allowed : cstr qname ∈ storedAllowlist d <;> simp [allowed, bind, Except.bind]
  · rw [if_neg fun both => enabled both.1, if_neg enabled]

/-- What lasts decides. -/
theorem storedBlocks_congr (same : SamePersistent d d') (bs : Bsearch) (qname : List Byte) :
    storedBlocks bs mounted d' qname = storedBlocks bs mounted d qname := by
  have filter : storedFilter d' = storedFilter d := by rw [storedFilter, storedFilter, same.flash, same.activePartition]
  have allowlist : storedAllowlist d' = storedAllowlist d := by rw [storedAllowlist, storedAllowlist, same.nvs]
  have list : storedList mounted d' = storedList mounted d := by
    rw [storedList, storedList, Device.fileBytes, Device.fileBytes, same.files, same.listFile]
  rw [storedBlocks, storedBlocks, same.nvs, filter, allowlist, list]

variable {sha : Sha256} {seedLen : BitVec 32} {d₀ : Device} {w : Device × List Event} {err : EspErr} {tr : List Event}

/-- **Every boot decides by what the device stores.** At any point of any life of a device
that could once load a filter, a boot that nothing hinders decides every name by the
settings, the partition and the file that are stored then; what it stores stays the
same, so that the next boot decides alike. -/
theorem boots_decide_by_storage (life : Life false sha seedLen d₀ w) (accepted : BloomAccepted d₀)
    (boots : (deviceSem false).traced.Runs (appMain seedLen true mounted) (w.1.powerCycle, []) err (d', tr))
    (mapped : tr.any unmapped = false) (unhindered : tr.any (hindered w.1.files) = false) (bs : Bsearch) (qname : List Byte) :
    blocks bs d' qname = storedBlocks bs mounted w.1 qname ∧
      storedBlocks bs mounted d' qname = storedBlocks bs mounted w.1 qname := by
  have here := (bloomLasts life).accepted accepted
  have recalls : Recalls mounted w.1 d' := appMain_recalls mounted here err (d', tr) boots mapped unhindered
  refine ⟨blocks_of_recalls recalls bs qname, ?_⟩
  exact storedBlocks_congr recalls.same bs qname

/-! ## An update, and then a restart -/

/-- The device stores the filter of one publication and the list of another. -/
structure Stores (filtered listed : Artifacts) (d : Device) : Prop where
  flashed : ∃ rest, d.flash d.activePartition = filtered.bloomBin ++ rest
  listed : d.files d.activeFile = some listed.domainsIdx

/-- A run of the updater that succeeds stores what was published. -/
theorem stores_of_ok {U : PyUnicode} {D : Finset PyStr} {artifacts : Artifacts} {baseUrl : List Byte}
    (published : Publishes U sha D artifacts) (fits : artifacts.bloomBin.length < 2 ^ 32)
    (ran : (deviceSem false).traced.Runs (blocklistUpdaterCheckAndApply sha seedLen baseUrl) (d, []) .ok (d', tr))
    (served : Serves baseUrl artifacts tr) (collisionFree : NoCollision sha artifacts.domainsIdx tr) :
    Stores artifacts artifacts d' := by
  obtain ⟨⟨chunks, cap, fetched, ⟨f, checks⟩, ⟨rest, stored⟩, -⟩, list⟩ :=
    blocklistUpdaterCheckAndApply_installs sha seedLen baseUrl d .ok (d', tr) ran rfl
  obtain ⟨chunks', file, content, fetched', read, digest, held, -⟩ := list
  obtain ⟨mBits, kHashes, now, -, made⟩ := published.bloom
  have whole := eq_of_passesChecks made fits ((List.take_prefix ..).trans (served.bloom chunks fetched)) checks
  have same : content = artifacts.domainsIdx :=
    collisionFree file content read (eq_of_digest (published.sha ▸ served.sha chunks' fetched') digest)
  exact ⟨⟨rest, by rw [← whole]; exact stored⟩, by rw [← same]; exact held⟩

theorem Stores.congr {filtered listed : Artifacts} (stores : Stores filtered listed d)
    (bloomSlot : d'.nvs.bloomSlot = d.nvs.bloomSlot) (listSlot : d'.nvs.listSlot = d.nvs.listSlot)
    (flash : d'.flash = d.flash) (files : d'.files = d.files) : Stores filtered listed d' := by
  have partition : d'.activePartition = d.activePartition := by
    rw [Device.activePartition, Device.activePartition, Nvs.bloomActiveSlot, Nvs.bloomActiveSlot, bloomSlot]
  have file : d'.activeFile = d.activeFile := by
    rw [Device.activeFile, Device.activeFile, Nvs.exactListActiveSlot, Nvs.exactListActiveSlot, listSlot]
  exact ⟨by rw [flash, partition]; exact stores.flashed, by rw [files, file]; exact stores.listed⟩

/-- A boot that recalls what is stored serves it. -/
theorem Stores.served {filtered listed : Artifacts} (stores : Stores filtered listed d) (recalls : Recalls .ok d d')
    (newline : 10#8 ∈ listed.domainsIdx) : ServesFilter filtered d' ∧ ListLoaded listed.domainsIdx d' := by
  obtain ⟨rest, flashed⟩ := stores.flashed
  refine ⟨⟨recalls.filter.shows, ⟨rest, ?_⟩⟩, recalls.list _ (storedList_of_active stores.listed newline)⟩
  rw [recalls.same.activePartition, recalls.same.flash, flashed]

/-- A device that is not updated: it boots, loads what it stores, loses its power, and
settings are saved. -/
def withoutUpdates : Sem.Machine Op Res (Device × List Event) EspErr where
  runs p := p.Only Volatile
  powerCycle w := (w.1.powerCycle, w.2)
  other := SettingsSaved

/-- What is stored lasts until the next update. -/
theorem stored_kept (artifacts : Artifacts) : Sem.Kept (deviceSem false).traced withoutUpdates
    (fun w => BloomAccepted w.1 ∧ Stores artifacts artifacts w.1) fun _ _ => True where
  safe p w runs here := by
    refine Sem.safe_of_only runs (fun v op r v' one kept step => ?_) (fun v op v' one kept lost => ?_)
      (fun _ _ _ _ => trivial) here
    · have same := Volatile.step one step.1
      exact ⟨kept.1.congr (by rw [same.nvs]) (by rw [same.flash]) same.partSize,
        kept.2.congr (by rw [same.nvs]) (by rw [same.nvs]) same.flash same.files⟩
    · rw [Volatile.torn one lost.1]
      exact kept
  powerCycle w here := ⟨here.1.congr rfl rfl rfl, here.2.congr rfl rfl rfl rfl⟩
  other w w' saved here := by
    have flash : w'.1.flash = w.1.flash := by rw [saved.only]
    refine ⟨here.1.congr saved.bloomSlot (by rw [flash]) (by rw [saved.only]), ?_⟩
    exact here.2.congr saved.bloomSlot saved.listSlot flash (by rw [saved.only])

/-- **A publication that was installed is in service after every later boot.** At any point
of any life of a device that could once load a filter, let a run of the updater succeed,
whether or not it could load what it installed. Until the next update, whatever else
happens, a boot that nothing hinders puts the publication in service. -/
theorem update_survives_restart {U : PyUnicode} {formulas : Formulas} {now : Nat} {sources : List PyStr}
    {allowlistText : Option PyStr} {artifacts : Artifacts} {baseUrl : List Byte} {w' : Device × List Event} {tr' : List Event}
    {d'' : Device} (built : main U sha formulas now sources allowlistText = some artifacts)
    (fits : artifacts.bloomBin.length < 2 ^ 32) (life : Life false sha seedLen d₀ w) (accepted : BloomAccepted d₀)
    (ran : (deviceSem false).traced.Runs (blocklistUpdaterCheckAndApply sha seedLen baseUrl) (w.1, []) .ok (d', tr))
    (served : Serves baseUrl artifacts tr) (collisionFree : NoCollision sha artifacts.domainsIdx tr)
    (later : (deviceSem false).traced.Life withoutUpdates (d', tr) w') (enabled : w'.1.nvs.blockingEnabled = true)
    (boots : (deviceSem false).traced.Runs (appMain seedLen true .ok) (w'.1.powerCycle, []) err (d'', tr'))
    (mapped : tr'.any unmapped = false) (unhindered : tr'.any (hindered w'.1.files) = false) : InService artifacts d'' := by
  have published := main_eq_some built
  have update : Life false sha seedLen w.1 (d', tr) := .run .start (.update baseUrl) ran
  have updated := (bloomLasts update).accepted ((bloomLasts life).accepted accepted)
  have stored := stores_of_ok published fits ran served collisionFree
  obtain ⟨loadable, stores⟩ := Sem.Life.invariant (stored_kept artifacts) ⟨updated, stored⟩ later
  have recalls := appMain_recalls .ok loadable err (d'', tr') boots mapped unhindered
  obtain ⟨serves, loaded⟩ := stores.served recalls published.newline
  exact ⟨⟨serves, loaded⟩, by rw [recalls.same.nvs]; exact enabled, recalls.filter.ready⟩

end

/-! ## A shipped device -/

/-- It left the factory with the image of `a.b`, and with the list on its card. -/
def shippedDevice : Device where
  partSize _ := some 64#32
  flash h := if h = .a then oneNameArtifacts.bloomBin else []
  files f := if f = .half .a then some oneNameArtifacts.domainsIdx else none
  seed := []

/-- Its first boot blocks `a.b`. -/
theorem shipped_device_boots : ∃ err d' tr,
    (deviceSem false).traced.Runs (appMain 0#32 true .ok) (shippedDevice.powerCycle, []) err (d', tr) ∧
    blocks .binary d' (asciiBytes "a.b".toList) = .ok true := by
  have computed : ((appMain 0#32 true .ok).exec (Sem.recorded (Device.ideal oneNameServer))
      (shippedDevice.powerCycle, [])).map (fun last => (last.2.2.any unmapped, last.2.2.any (hindered shippedDevice.files))) =
      some (false, false) := by
    decide +kernel
  obtain ⟨⟨err, d', tr⟩, boots, found⟩ := Option.map_eq_some_iff.mp computed
  obtain ⟨mapped, unhindered⟩ := Prod.mk.inj found
  have boots' := Device.runs_recorded_ideal false boots
  have life : Life false oneNameSha 0#32 shippedDevice (shippedDevice, []) := .start
  have decides := boots_decide_by_storage life ⟨64#32, rfl, by decide +kernel⟩ boots' mapped unhindered .binary
    (asciiBytes "a.b".toList)
  exact ⟨err, d', tr, boots', decides.1.trans (by decide +kernel)⟩

/-- It boots and is updated, loses its power while it reloads its allowlist, and serves
what was published after the next boot. -/
theorem shipped_device_updated : ∃ w d' tr w' err d'' tr', Life false oneNameSha 0#32 shippedDevice w ∧
    (deviceSem false).traced.Runs (blocklistUpdaterCheckAndApply oneNameSha 0#32 []) (w.1, []) .ok (d', tr) ∧
    (deviceSem false).traced.Life withoutUpdates (d', tr) w' ∧
    (deviceSem false).traced.Runs (appMain 0#32 true .ok) (w'.1.powerCycle, []) err (d'', tr') ∧
    InService oneNameArtifacts d'' := by
  have computed : ((appMain 0#32 true .ok).exec (Sem.recorded (Device.ideal oneNameServer)) (shippedDevice, [])).bind
      (fun w => ((blocklistUpdaterCheckAndApply oneNameSha 0#32 []).exec (Sem.recorded (Device.ideal oneNameServer))
        (w.2.1, [])).bind fun first => (reloadAllowlist.after (Sem.recorded (Device.ideal oneNameServer)) 1 first.2).bind
          fun second => ((appMain 0#32 true .ok).exec (Sem.recorded (Device.ideal oneNameServer))
            (second.2.1.powerCycle, [])).map fun third => ((first.1, first.2.2.all fromPublication),
              second.2.1.nvs.blockingEnabled, third.2.2.any unmapped, third.2.2.any (hindered second.2.1.files))) =
      some ((.ok, true), true, false, false) := by
    decide +kernel
  obtain ⟨⟨_, w⟩, start, rest⟩ := Option.bind_eq_some_iff.mp computed
  obtain ⟨⟨_, d', tr⟩, first, rest⟩ := Option.bind_eq_some_iff.mp rest
  obtain ⟨⟨_, w'⟩, second, rest⟩ := Option.bind_eq_some_iff.mp rest
  obtain ⟨⟨err, d'', tr'⟩, third, found⟩ := Option.map_eq_some_iff.mp rest
  simp only [Prod.mk.injEq] at found
  obtain ⟨⟨rfl, sent⟩, enabled, mapped, unhindered⟩ := found
  obtain ⟨served, collisionFree⟩ := serves_of_fromPublication sent
  have answers (w : Device × List Event) (op : Op) (r : Res op) (v : Device × List Event) :
      Sem.recorded (Device.ideal oneNameServer) w op = some (r, v) → (deviceSem false).traced.step w op r v :=
    Sem.recorded_step fun _ _ _ _ => Device.ideal_step false oneNameServer
  have life : Life false oneNameSha 0#32 shippedDevice w :=
    .run .start (.boot true .ok) (Device.runs_recorded_ideal false start)
  have later : (deviceSem false).traced.Life withoutUpdates (d', tr) (w'.1.powerCycle, w'.2) :=
    .cut (p := reloadAllowlist) .start reloadAllowlist_volatile (Sem.crash_after answers second)
  have ran := Device.runs_recorded_ideal false first
  have boots := Device.runs_recorded_ideal false third
  exact ⟨w, d', tr, _, err, d'', tr', life, ran, later, boots, update_survives_restart main_oneName (by decide +kernel) life
    ⟨64#32, rfl, by decide +kernel⟩ ran served collisionFree later enabled boots mapped unhindered⟩

end EspAdblocker.Dns
