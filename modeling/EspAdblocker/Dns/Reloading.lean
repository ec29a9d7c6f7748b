import EspAdblocker.Dns.Proxy
import EspAdblocker.Storage.Ideal
import EspAdblocker.Storage.Reloads

/-!
# Lookups during reloads

What a lookup needs of the state it begins at (`Guarded`), in every system that
reloads reach. It holds as long as reloads of one store do not overlap and each
starts with nothing published that it replaces; a reload that starts otherwise
may free or unmap what its guard still publishes, or leave the header of one
image beside the bits of another (`reloads_guarded_iff`).
-/

namespace EspAdblocker.Dns

open EspAdblocker.Lib EspAdblocker.Bloom EspAdblocker.Storage Function

/-- The image that is shown asks for no hash, or holds all the bits it counts. -/
def ImageHolds (d : Device) : Prop :=
  ∀ r bytes, d.statics.bloomHeader = some r → d.regionBytes r = some bytes →
    (BloomHeader.ofBytes bytes).kHashes = 0#32 ∨ Answers (BloomHeader.ofBytes bytes).mBits (bytes.drop bloomHeaderLen)

/-- What `try_block` may rely on: whatever a guard publishes is live, the filter's
two pointers being to one image, so that a lookup begun now touches only live storage. -/
structure Guarded (d : Device) : Prop where
  bloom : d.statics.bloomReady = true → ∃ r bytes, d.statics.bloomHeader = some r ∧ d.statics.bloomBits = some r ∧
    d.regionBytes r = some bytes
  allowlist : 0 < d.statics.allowlistCount → ∃ entries buf, d.statics.allowlistEntries = some entries ∧
    d.statics.allowlistBuf = some buf ∧ d.heap entries ≠ none ∧ d.heap buf ≠ none
  domains : ∀ lines, d.statics.domainLines = some lines → 0 < d.statics.domainCount →
    d.heap lines ≠ none ∧ ∃ buf, d.statics.domainBuf = some buf ∧ d.heap buf ≠ none
  lookup : ImageHolds d → ∀ bs buf n q, ∃ reply, tryBlock bs d buf n q = .ok reply

/-! ## What a sound device answers -/

section

variable {d : Device}

theorem regionBytes_of_live {r : Region} (live : RegionLive d.maps r) : ∃ bytes, d.regionBytes r = some bytes := by
  cases r with
  | seed => exact ⟨d.seed, rfl⟩
  | mapped handle =>
    obtain ⟨h, mapped⟩ := Option.ne_none_iff_exists'.mp live
    exact ⟨d.flash h, by simp [Device.regionBytes, mapped]⟩

theorem shown_of_sound (sound : Sound .bloom d) (ready : d.statics.bloomReady = true) :
    ∃ r bytes, d.statics.bloomHeader = some r ∧ d.statics.bloomBits = some r ∧ d.regionBytes r = some bytes := by
  obtain ⟨r, header, bits, live⟩ := sound ready
  obtain ⟨bytes, shown⟩ := regionBytes_of_live live
  exact ⟨r, bytes, header, bits, shown⟩

/-- A filter that is ready answers from the one image it shows. -/
theorem bloomTest_of_sound (sound : Sound .bloom d) (holds : ImageHolds d) (ready : d.statics.bloomReady = true)
    (domain : List Byte) : ∃ answer, d.bloomTest domain = .ok answer := by
  obtain ⟨r, bytes, header, bits, shown⟩ := shown_of_sound sound ready
  have tested : d.bloomTest domain = bloomFilterTest ⟨.ofBytes bytes, bytes.drop bloomHeaderLen⟩ domain := by
    simp [Device.bloomTest, header, bits, shown]
  rcases holds r bytes header shown with no_hashes | answers
  · exact ⟨true, tested.trans (bloomFilterTest_of_no_hashes no_hashes domain)⟩
  · exact ⟨_, tested.trans (bloomFilterTest_eq answers domain)⟩

/-- The strings of a store that counts lines are all there. -/
theorem strings_of_sound {l : ListStore} (sound : Sound (.list l) d) (counted : 0 < (d.statics.list l).count) :
    ∃ array buf names, (d.statics.list l).entries = some array ∧ (d.statics.list l).buf = some buf ∧
      d.heap array ≠ none ∧ d.heap buf ≠ none ∧ d.strings array (d.statics.list l).count = .ok names := by
  obtain ⟨blocks, loaded, live⟩ := sound counted
  generalize d.statics.list l = s at loaded counted
  cases loaded with
  | nothing => exact absurd counted (Nat.lt_irrefl 0)
  | @lines buf array contents starts old inside =>
    have chars := live _ (List.mem_cons_self ..)
    have ptrs := live _ (List.mem_cons_of_mem _ (List.mem_cons_self ..))
    refine ⟨array, buf, _, rfl, rfl, ?_, ?_, strings_of_starts chars ptrs inside⟩
    · rw [ptrs]
      exact Option.some_ne_none _
    · rw [chars]
      exact Option.some_ne_none _

theorem isAllowlisted_of_sound (sound : Sound (.list .allowlist) d) (qname : List Byte) :
    ∃ b, isAllowlisted d qname = .ok b := by
  unfold isAllowlisted
  split
  · exact ⟨false, rfl⟩
  · rename_i counted
    obtain ⟨array, _, names, entries, -, -, -, strings⟩ := strings_of_sound sound (Nat.pos_of_ne_zero counted)
    change d.statics.allowlistEntries = some array at entries
    change d.strings array d.statics.allowlistCount = .ok names at strings
    rw [entries]
    dsimp only
    rw [strings]
    exact ⟨_, rfl⟩

theorem sdStorageConfirm_of_sound (sound : Sound (.list .domains) d) (bs : Bsearch) (qname : List Byte) :
    ∃ confirm, d.sdStorageConfirm bs qname = .ok confirm := by
  unfold Device.sdStorageConfirm
  split
  · exact ⟨.unavailable, rfl⟩
  rename_i lines published
  split
  · exact ⟨.unavailable, rfl⟩
  · rename_i counted
    obtain ⟨array, _, names, entries, -, -, -, strings⟩ := strings_of_sound sound (Nat.pos_of_ne_zero counted)
    obtain rfl : lines = array := Option.some.inj (published.symm.trans entries)
    change d.strings lines d.statics.domainCount = .ok names at strings
    rw [strings]
    simp only [bind, Except.bind]
    split
    · exact ⟨.blocked, rfl⟩
    · exact ⟨.notBlocked, rfl⟩

theorem tryBlock_of_sound (sound : ∀ i, Sound i d) (holds : ImageHolds d) (bs : Bsearch) (buf : List Byte) (n : Nat)
    (q : DnsWireQuestion) : ∃ reply, tryBlock bs d buf n q = .ok reply := by
  have answered : ∃ blocked, blocks bs d q.qname = .ok blocked := by
    unfold blocks
    split
    · rename_i consulted
      obtain ⟨positive, tested⟩ := bloomTest_of_sound (sound .bloom) holds consulted.2 q.qname
      obtain ⟨listed, allowlisted⟩ := isAllowlisted_of_sound (sound (.list .allowlist)) q.qname
      obtain ⟨confirm, confirmed⟩ := sdStorageConfirm_of_sound (sound (.list .domains)) bs q.qname
      cases positive <;> cases listed <;> simp [bind, Except.bind, pure, Except.pure, tested, allowlisted, confirmed]
    · exact ⟨false, rfl⟩
  obtain ⟨blocked, answer⟩ := answered
  rw [tryBlock, answer]
  cases blocked <;> exact ⟨_, rfl⟩

/-- **What the guards guard is all a lookup needs.** -/
theorem guarded_of_sound (sound : ∀ i, Sound i d) : Guarded d where
  bloom := shown_of_sound (sound .bloom)
  allowlist counted := by
    obtain ⟨array, buf, -, entries, text, liveArray, liveBuf, -⟩ := strings_of_sound (sound (.list .allowlist)) counted
    exact ⟨array, buf, entries, text, liveArray, liveBuf⟩
  domains lines published counted := by
    obtain ⟨array, buf, -, entries, text, liveArray, liveBuf, -⟩ := strings_of_sound (sound (.list .domains)) counted
    obtain rfl : lines = array := Option.some.inj (published.symm.trans entries)
    exact ⟨liveArray, buf, text, liveBuf⟩
  lookup := tryBlock_of_sound sound

end

/-! ## Reloads that tear down what is published -/

section

variable {short : Bool} {d : Device}

theorem releaseBlock_passes {pointer : Statics → Option Nat} {clear : Statics → Statics} {block : Nat}
    (points : pointer d.statics = some block) :
    (deviceSem short).Passes (releaseBlock pointer clear) d (d.withBlock block none) := by
  unfold releaseBlock
  simp only [Prog.bind_eq, Prog.perform_bind, Prog.pure_eq]
  refine .inr ⟨d.statics, d, ⟨rfl, rfl⟩, ?_⟩
  dsimp only
  rw [points]
  exact .inr ⟨(), d.withBlock block none, rfl, Sem.passes_start _ _⟩

/-- A reload of a list frees the text first. -/
theorem reload_list_passes (seedLen : BitVec 32) {l : ListStore} {buf : Nat} (text : (d.statics.list l).buf = some buf) :
    (deviceSem short).Passes (reload seedLen (.list l)) d (d.withBlock buf none) := by
  cases l with
  | allowlist =>
    rw [reload, dnsProxyReloadAllowlist, releaseAllowlist]
    exact Sem.Passes.bind (Sem.Passes.bind (releaseBlock_passes text) _) _
  | domains =>
    rw [reload, sdStorageLoadDomainList, releaseDomainList]
    exact Sem.Passes.bind (Sem.Passes.bind (Sem.Passes.bind (releaseBlock_passes text) _) _) _

/-- A text that lines are counted in is not to be freed. -/
theorem not_guarded_freed {l : ListStore} {buf array : Nat} (text : (d.statics.list l).buf = some buf)
    (entries : (d.statics.list l).entries = some array) (counted : 0 < (d.statics.list l).count) :
    ¬ Guarded (d.withBlock buf none) := by
  intro guarded
  have gone : (d.withBlock buf none).heap buf = none := update_self ..
  cases l with
  | allowlist =>
    obtain ⟨_, buf', -, text', -, live⟩ := guarded.allowlist counted
    obtain rfl : buf = buf' := Option.some.inj (text.symm.trans text')
    exact live gone
  | domains =>
    obtain ⟨-, buf', text', live⟩ := guarded.domains array entries counted
    obtain rfl : buf = buf' := Option.some.inj (text.symm.trans text')
    exact live gone

/-- No image is shown where the header is of one region and the bits are of another. -/
theorem not_guarded_torn {r r' : Region} (ready : d.statics.bloomReady = true) (header : d.statics.bloomHeader = some r)
    (bits : d.statics.bloomBits = some r') (differ : r ≠ r') : ¬ Guarded d := by
  intro guarded
  obtain ⟨image, -, header', bits', -⟩ := guarded.bloom ready
  exact differ (Option.some.inj ((header.symm.trans header').trans (bits'.symm.trans bits)))

/-- Dropping the mapping in use, if any. -/
theorem runs_unmapBloom (short : Bool) (d : Device) : ∃ maps, (∀ handle, d.maps handle = none → maps handle = none) ∧
    (deviceSem short).Runs unmapBloom d () { d with maps, statics := { d.statics with bloomMmapActive := false } } := by
  unfold unmapBloom
  simp only [Prog.bind_eq, Prog.perform_bind, Prog.pure_eq]
  by_cases active : d.statics.bloomMmapActive = true
  · refine ⟨update d.maps d.statics.bloomMmapHandle none, fun handle free => ?_, d.statics, d, ⟨rfl, rfl⟩, ?_⟩
    · rw [update_apply]
      split
      · rfl
      · exact free
    · dsimp only
      rw [if_pos active]
      exact ⟨(), _, rfl, (), _, rfl, rfl, rfl⟩
  · have same : { d.statics with bloomMmapActive := false } = d.statics := by
      rw [← Bool.eq_false_iff.mpr active]
    refine ⟨d.maps, fun _ free => free, d.statics, d, ⟨rfl, rfl⟩, ?_⟩
    dsimp only
    rw [if_neg active, same]
    exact ⟨rfl, rfl⟩

/-- A reload of the filter drops the mapping in use before anything else. -/
theorem reload_bloom_unmaps (seedLen : BitVec 32) (active : d.statics.bloomMmapActive = true)
    (listed : d.partSize d.activePartition ≠ none) :
    (deviceSem short).Passes (reload seedLen .bloom) d (d.withMap d.statics.bloomMmapHandle none) := by
  obtain ⟨size, found⟩ := Option.ne_none_iff_exists'.mp listed
  unfold reload dnsProxyReloadBloomFilter tryLoadBloomFromPartition unmapBloom
  simp only [Prog.bind_eq, Prog.perform_bind, Prog.call_bind, Prog.pure_eq]
  refine .inr ⟨d.nvs.bloomActiveSlot, d, ⟨rfl, rfl⟩, .inr ⟨some size, d, ⟨found.symm, rfl⟩, ?_⟩⟩
  refine .inr ⟨d.statics, d, ⟨rfl, rfl⟩, ?_⟩
  dsimp only
  rw [if_pos active]
  exact .inr ⟨(), d.withMap d.statics.bloomMmapHandle none, rfl, Sem.passes_start _ _⟩

theorem not_guarded_unmapped (ready : d.statics.bloomReady = true)
    (shown : d.statics.bloomHeader = some (.mapped d.statics.bloomMmapHandle)) :
    ¬ Guarded (d.withMap d.statics.bloomMmapHandle none) := by
  intro guarded
  obtain ⟨r, bytes, header, -, read⟩ := guarded.bloom ready
  obtain rfl : r = _ := Option.some.inj (header.symm.trans shown)
  have gone : (d.withMap d.statics.bloomMmapHandle none).maps d.statics.bloomMmapHandle = none := update_self ..
  rw [Device.regionBytes, gone] at read
  cases read

/-- An accepted image is assigned to `s_bloom` header first. -/
theorem initBloom_passes {r : Region} {bytes : List Byte} {len : BitVec 32} {f : BloomFilter}
    (read : d.regionBytes r = some bytes) (accepted : bloomFilterInit bytes len = some f) :
    (deviceSem short).Passes (initBloom r len) d { d with statics := { d.statics with bloomHeader := some r } } := by
  unfold initBloom
  simp only [Prog.bind_eq, Prog.perform_bind, Prog.pure_eq]
  refine .inr ⟨bytes, d, ⟨fun _ same => Option.some.inj (read.symm.trans same), rfl⟩, ?_⟩
  dsimp only
  rw [accepted]
  exact .inr ⟨(), _, rfl, Sem.passes_start _ _⟩

/-- Without the partition the seed is assigned over what is shown. -/
theorem reload_bloom_shows_seed {seedLen : BitVec 32} {f : BloomFilter} (missing : d.partSize d.activePartition = none)
    (accepted : bloomFilterInit d.seed seedLen = some f) :
    (deviceSem short).Passes (reload seedLen .bloom) d
      { d with statics := { d.statics with bloomHeader := some .seed } } := by
  unfold reload dnsProxyReloadBloomFilter tryLoadBloomFromPartition loadBloomSeed
  simp only [Prog.bind_eq, Prog.perform_bind, Prog.call_bind, Prog.pure_eq]
  refine .inr ⟨d.nvs.bloomActiveSlot, d, ⟨rfl, rfl⟩, .inr ⟨none, d, ⟨missing.symm, rfl⟩, ?_⟩⟩
  exact (initBloom_passes (r := .seed) rfl accepted).bind _

/-- An image in the active partition is assigned over what is shown. -/
theorem reload_bloom_shows_mapping (short : Bool) (seedLen : BitVec 32) {size : BitVec 32} {handle : Nat} {f : BloomFilter}
    (listed : d.partSize d.activePartition = some size) (free : d.maps handle = none)
    (accepted : bloomFilterInit (d.flash d.activePartition) size = some f) :
    ∃ v, (deviceSem short).Passes (reload seedLen .bloom) d v ∧ v.statics.bloomReady = d.statics.bloomReady ∧
      v.statics.bloomHeader = some (.mapped handle) ∧ v.statics.bloomBits = d.statics.bloomBits := by
  obtain ⟨maps, kept, unmaps⟩ := runs_unmapBloom short d
  let unmapped : Device := { d with maps, statics := { d.statics with bloomMmapActive := false } }
  let mapped := unmapped.withMap handle (some d.activePartition)
  refine ⟨{ mapped with statics := { mapped.statics with bloomHeader := some (.mapped handle) } }, ?_, rfl, rfl, rfl⟩
  have shown : mapped.regionBytes (.mapped handle) = some (d.flash d.activePartition) := by
    have here : mapped.maps handle = some d.activePartition := update_self ..
    rw [Device.regionBytes, here]
    rfl
  have tries : (deviceSem short).Passes (tryLoadBloomFromPartition d.nvs.bloomActiveSlot) d
      { mapped with statics := { mapped.statics with bloomHeader := some (.mapped handle) } } := by
    unfold tryLoadBloomFromPartition
    simp only [Prog.bind_eq, Prog.perform_bind, Prog.pure_eq]
    refine .inr ⟨some size, d, ⟨listed.symm, rfl⟩, unmaps.passes_bind ?_⟩
    refine .inr ⟨some handle, mapped, ⟨kept handle free, rfl⟩, ?_⟩
    exact (initBloom_passes shown accepted).bind _
  unfold reload dnsProxyReloadBloomFilter
  simp only [Prog.bind_eq, Prog.perform_bind]
  exact .inr ⟨d.nvs.bloomActiveSlot, d, ⟨rfl, rfl⟩, tries.bind _⟩

/-- Other contents of the flash partitions and of the card. -/
def Refilled (d w : Device) : Prop := Elsewhere d w ∧ w.nvs = d.nvs

/-- **A reload of the filter over one that is ready** may unmap it, or leave the
header of one image beside the bits of another. -/
theorem reload_bloom_exposes {seedLen : BitVec 32} (rest : BloomRest d.statics.bloom d.maps)
    (published : ¬ Unpublished seedLen d .bloom) :
    ∃ w, Refilled d w ∧ ∃ v, (deviceSem short).Passes (reload seedLen .bloom) w v ∧ ¬ Guarded v := by
  have same : Refilled d d := ⟨⟨rfl, rfl, rfl, rfl, rfl⟩, rfl⟩
  change ¬ Replaceable d.seed seedLen d.statics.bloom (d.partSize d.activePartition) at published
  cases listed : d.partSize d.activePartition with
  | none =>
    simp only [listed, Replaceable, SeedCovers, not_forall, not_or] at published
    obtain ⟨ready, header, covered⟩ := published
    obtain ⟨f, accepted⟩ := Option.ne_none_iff_exists'.mp covered
    obtain ⟨r, shown, bits, -⟩ := rest.shown ready
    refine ⟨d, same, _, reload_bloom_shows_seed listed accepted, not_guarded_torn ready rfl bits ?_⟩
    rintro rfl
    exact header shown
  | some size =>
    simp only [listed, Replaceable, not_forall, not_and_or, Nat.not_lt] at published
    obtain ⟨ready, unfit⟩ := published
    obtain ⟨r, shown, bits, kept⟩ := rest.shown ready
    cases r with
    | mapped handle =>
      obtain ⟨active, rfl⟩ := kept
      have found : d.partSize d.activePartition ≠ none := by
        rw [listed]
        exact Option.some_ne_none _
      exact ⟨d, same, _, reload_bloom_unmaps seedLen active found, not_guarded_unmapped ready shown⟩
    | seed =>
      -- an image that is accepted is in the partition by now
      obtain ⟨f, accepted⟩ := exists_accepted (unfit.resolve_right fun other => other shown)
      let w : Device := { d with flash := fun _ => sampleImage 0 [] }
      have free : d.maps (d.statics.bloomMmapHandle + 1) = none := by
        by_contra mapped
        exact Nat.succ_ne_self _ (rest.mapping.only _ mapped).2
      obtain ⟨v, passes, ready', header, bits'⟩ := reload_bloom_shows_mapping (d := w) short seedLen listed free accepted
      refine ⟨w, ⟨⟨rfl, rfl, rfl, rfl, rfl⟩, rfl⟩, v, passes, ?_⟩
      exact not_guarded_torn (ready'.trans ready) header (bits'.trans bits) fun impossible => by cases impossible

theorem unpublished_refilled {seedLen : BitVec 32} {w : Device} {i : Store} (unpublished : Unpublished seedLen d i)
    (refilled : Refilled d w) : Unpublished seedLen w i := by
  obtain ⟨elsewhere, nvs⟩ := refilled
  cases i with
  | bloom =>
    change Replaceable w.seed seedLen w.statics.bloom (w.partSize w.activePartition)
    rw [elsewhere.seed, elsewhere.statics, elsewhere.partSize, Device.activePartition, nvs]
    exact unpublished
  | list l => exact (congrArg (fun s : Statics => (s.list l).count) elsewhere.statics).trans unpublished

/-- A reload that starts with its own store published may expose what is no image or no longer live. -/
theorem reload_exposes {seedLen : BitVec 32} {i : Store} {owners : Owners} (rest : Rest i (d, owners))
    (published : ¬ Unpublished seedLen d i) :
    ∃ w, Refilled d w ∧ ∃ v, (deviceSem short).Passes (reload seedLen i) w v ∧ ¬ Guarded v := by
  cases i with
  | bloom => exact reload_bloom_exposes rest published
  | list l =>
    have counted : 0 < (d.statics.list l).count := Nat.pos_of_ne_zero published
    obtain ⟨array, buf, _, entries, text, -⟩ := strings_of_sound (ListRest.sound rest) counted
    exact ⟨d, ⟨⟨rfl, rfl, rfl, rfl, rfl⟩, rfl⟩, _, reload_list_passes seedLen text, not_guarded_freed text entries counted⟩

end

/-- **Lookups meet only live storage** in every system that reloads reach, when
each starts with no other reload of its store under way and nothing published
that it replaces; and a store at rest may be reloaded if and only if that is so,
whatever the reload meets. -/
theorem reloads_guarded_iff {short : Bool} {seedLen : BitVec 32} {d : Device} {mounted : Bool} {x : System}
    (run : ReloadRun short seedLen (MayStart seedLen) (booted d mounted) x) :
    Guarded x.world ∧ ∀ i, x.AtRest i →
      (Unpublished seedLen x.world i ↔
        ∀ w v, Refilled x.world w → (deviceSem short).Passes (reload seedLen i) w v → Guarded v) := by
  have guarded {y : System} (run : ReloadRun short seedLen (MayStart seedLen) (booted d mounted) y) : Guarded y.world := by
    obtain ⟨owners, orderly⟩ := run.orderly
    exact guarded_of_sound fun i => orderly.holds (reloads_agree short seedLen) i
  refine ⟨guarded run, fun i quiet => ⟨fun unpublished w v refilled passes => ?_, fun always => ?_⟩⟩
  · obtain ⟨t, free⟩ := run.some_free
    have moved : ReloadRun short seedLen (MayStart seedLen) (booted d mounted) ⟨w, x.running⟩ :=
      run.tail (.other refilled.1)
    have admitted : MayStart seedLen ⟨w, x.running⟩ i := ⟨quiet, unpublished_refilled unpublished refilled⟩
    obtain ⟨y, later, rfl⟩ := Tasks.Run.passing (x := ⟨w, x.running⟩) free admitted passes
    exact guarded (moved.trans later)
  · obtain ⟨owners, orderly⟩ := run.orderly
    by_contra published
    obtain ⟨w, refilled, v, passes, exposed⟩ := reload_exposes (orderly.resting quiet) published
    exact exposed (always w v refilled passes)

/-! ## A device with an allowlist -/

/-- A device whose allowlist holds one name. -/
def listedDevice : Device where
  nvs := { allowlist := some [97#8] }
  partSize _ := none
  flash _ := []
  files _ := none
  seed := []

/-- The first load of that allowlist, every operation succeeding. -/
theorem listedDevice_loads : ∃ d, (deviceSem false).Runs (reload 0#32 (.list .allowlist))
    (booted listedDevice true).world () d ∧ d.statics.list .allowlist = ⟨some 0, some 1, 1⟩ := by
  have computed : ((reload 0#32 (.list .allowlist)).exec (Device.ideal fun _ => .noClient)
      (booted listedDevice true).world).map (fun done => done.2.statics.list .allowlist) =
        some ⟨some 0, some 1, 1⟩ := by
    decide +kernel
  obtain ⟨⟨_, d⟩, run, loaded⟩ := Option.map_eq_some_iff.mp computed
  exact ⟨d, Device.runs_ideal false run, loaded⟩

/-- After the first load the allowlist is published, and all of it is live. -/
theorem first_load_guarded : ∃ x, ReloadRun false 0#32 (MayStart 0#32) (booted listedDevice true) x ∧
    x.world.statics.allowlistCount = 1 ∧ Guarded x.world := by
  obtain ⟨d, runs, loaded⟩ := listedDevice_loads
  have admitted : MayStart 0#32 (booted listedDevice true) (.list .allowlist) := by
    constructor
    · exact fun t p there => by cases there
    · rfl
  have run : ReloadRun false 0#32 (MayStart 0#32) (booted listedDevice true) ⟨d, (booted listedDevice true).running⟩ :=
    Tasks.Run.alone (t := 0) rfl admitted runs
  exact ⟨_, run, congrArg ListStatics.count loaded, (reloads_guarded_iff run).1⟩

/-- The second load frees the text while its line is still counted. -/
theorem second_load_exposes : ¬ ∀ (short : Bool) (seedLen : BitVec 32) (d : Device) (mounted : Bool) (x : System),
    ReloadRun short seedLen (fun _ _ => True) (booted d mounted) x → Guarded x.world := by
  intro always
  obtain ⟨d, runs, loaded⟩ := listedDevice_loads
  have first : ReloadRun false 0#32 (fun _ _ => True) (booted listedDevice true) ⟨d, (booted listedDevice true).running⟩ :=
    Tasks.Run.alone (t := 0) rfl trivial runs
  have text : (d.statics.list .allowlist).buf = some 0 := congrArg ListStatics.buf loaded
  have entries : (d.statics.list .allowlist).entries = some 1 := congrArg ListStatics.entries loaded
  have counted : 0 < (d.statics.list .allowlist).count := by
    rw [loaded]
    exact Nat.one_pos
  have passes : (deviceSem false).Passes (reload 0#32 (.list .allowlist)) d (d.withBlock 0 none) :=
    reload_list_passes 0#32 text
  obtain ⟨y, second, there⟩ : ∃ y, ReloadRun false 0#32 (fun _ _ => True) ⟨d, (booted listedDevice true).running⟩ y ∧
      y.world = d.withBlock 0 none := Tasks.Run.passing (t := 0) rfl trivial passes
  have guarded := always false 0#32 listedDevice true y (first.trans second)
  rw [there] at guarded
  exact not_guarded_freed text entries counted guarded

end EspAdblocker.Dns
