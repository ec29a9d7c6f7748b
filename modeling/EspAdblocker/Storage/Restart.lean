import EspAdblocker.Storage.Lifetime
import EspAdblocker.Storage.Reloads

/-!
# What a boot remembers

A boot loads the filter, the allowlist and the exact list one after the other,
and none of the loads disturbs what the others have loaded. Unless something
hinders it, it ends with what the device stores in memory (`appMain_recalls`).
-/

namespace EspAdblocker.Storage

open EspAdblocker.Lib EspAdblocker.Bloom

/-! ## What is stored -/

/-- The names of the stored allowlist. -/
def storedAllowlist (d : Device) : List (List Byte) := d.nvs.allowlistText.elim [] allowlistLines

/-- The file that a boot loads, which needs an end of line in it. -/
def storedList (mounted : EspErr) (d : Device) : Option (List Byte) :=
  if mounted = .ok ∧ (d.fileBytes d.listFile).contains 10#8 then some (d.fileBytes d.listFile) else none

theorem storedList_of_newline {d : Device} (newline : 10#8 ∈ d.fileBytes d.listFile) :
    storedList .ok d = some (d.fileBytes d.listFile) :=
  if_pos ⟨rfl, List.contains_iff_mem.mpr newline⟩

theorem storedList_of_unended {mounted : EspErr} {d : Device} (unended : 10#8 ∉ d.fileBytes d.listFile) :
    storedList mounted d = none :=
  if_neg fun both => unended (List.contains_iff_mem.mp both.2)

/-- The stored image. -/
def storedFilter (d : Device) : BloomFilter :=
  ⟨.ofBytes (d.flash d.activePartition), (d.flash d.activePartition).drop bloomHeaderLen⟩

/-- What `sd_storage_confirm` answers from the names of a file. -/
def confirmIn (bs : Bsearch) (list : Option (List Byte)) (domain : List Byte) : Confirm :=
  match list with
  | none => .unavailable
  | some content =>
    if listStrings content = [] then .unavailable
    else if (bs.run (cstr domain) (listStrings content)).isSome then .blocked
    else .notBlocked

/-- The memory of `d'` is what `d` stores; the card is there if `mounted` says so. -/
structure Recalls (mounted : EspErr) (d d' : Device) : Prop where
  same : SamePersistent d d'
  filter : FromFlash d'
  allowlist : AllowlistLoaded (storedAllowlist d) d'
  list : ∀ content, storedList mounted d = some content → ListLoaded content d'
  none_listed : storedList mounted d = none → d'.statics.domainCount = 0

section

variable {short : Bool} {seedLen : BitVec 32}

/-! ## One load after the other -/

/-- A load alone on the device: its store comes to rest, and the others are undisturbed. -/
theorem reload_alone {i : Store} {w : Device × Owners} (rest : Rest i w) (unpublished : Unpublished seedLen w.1 i) :
    (deviceSem short).Ends (reload seedLen i) (fun _ d => ∃ owners, Rest i (d, owners) ∧
      ∀ j, j ≠ i → Undisturbed j w (d, owners)) w.1 := by
  refine (reload_begins seedLen rest unpublished).alone Undisturbed.refl Undisturbed.trans fun a returns => ?_
  cases i with
  | bloom => cases returns
  | list l => cases l <;> cases returns

/-- An allowlist at rest stays loaded while its part is undisturbed. -/
theorem AllowlistLoaded.undisturbed {names : List (List Byte)} {w v : Device × Owners} (loaded : AllowlistLoaded names w.1)
    (rest : ListRest .allowlist w) (moved : ListUndisturbed .allowlist w v) : AllowlistLoaded names v.1 := by
  obtain ⟨s, blocks, holding, refers⟩ := rest
  have later := holding.undisturbed moved
  have statics : v.1.statics.list .allowlist = w.1.statics.list .allowlist := moved.statics
  have count : v.1.statics.allowlistCount = w.1.statics.allowlistCount := congrArg ListStatics.count statics
  have entries : v.1.statics.allowlistEntries = w.1.statics.allowlistEntries := congrArg ListStatics.entries statics
  refine ⟨count.trans loaded.count, fun some_name => ?_⟩
  obtain ⟨array, published, shown⟩ := loaded.entries some_name
  refine ⟨array, entries.trans published, ?_⟩
  have known : (w.1.statics.list .allowlist).entries = some array := published
  have counted : (w.1.statics.list .allowlist).count = names.length := loaded.count
  rw [holding.statics] at known counted
  cases refers with
  | nothing => cases known
  | @lines buf array' contents starts old inside =>
    obtain rfl : array' = array := Option.some.inj known
    have before := strings_of_starts (holding.owned _ (List.mem_cons_self ..)).2
      (holding.owned _ (List.mem_cons_of_mem _ (List.mem_singleton_self _))).2 inside
    have after := strings_of_starts (later.owned _ (List.mem_cons_self ..)).2
      (later.owned _ (List.mem_cons_of_mem _ (List.mem_singleton_self _))).2 inside
    have length : starts.length = names.length := counted
    rw [← length] at shown ⊢
    rw [after, ← before, shown]

/-- What is stored is as it was, and no list is loaded yet. -/
structure NoList (d d' : Device) : Prop where
  same : SamePersistent d d'
  idle : ∃ owners, ∀ l, ListRest l (d', owners) ∧ (d'.statics.list l).count = 0

/-- What the first load of a boot leaves. -/
structure FilterLoaded (d : Device) (v : Device × List Event) : Prop extends NoList d v.1 where
  serves : v.2.any unmapped = false → FromFlash v.1

/-- After a power cycle every store is at rest. -/
theorem rest_powerCycle (d : Device) (i : Store) : Rest i (d.powerCycle, fun _ => none) :=
  (booted_orderly false d.powerCycle false).resting fun t p working => by cases working

theorem noList_powerCycle (d : Device) : NoList d d.powerCycle := by
  refine ⟨d.samePersistent_powerCycle, fun _ => none, fun l => ⟨rest_powerCycle d (.list l), ?_⟩⟩
  cases l <;> rfl

/-- The filter may or may not be loaded: the lists are not. -/
theorem loadFilter_noList (d : Device) :
    (deviceSem short).Ends (dnsProxyReloadBloomFilter seedLen) (fun _ v => NoList d v) d.powerCycle := by
  have alone : (deviceSem short).Ends (dnsProxyReloadBloomFilter seedLen) _ d.powerCycle :=
    reload_alone (rest_powerCycle d .bloom) (unpublished_of_unready rfl)
  have volatile : (deviceSem short).Ends (dnsProxyReloadBloomFilter seedLen) (fun _ v => SamePersistent d.powerCycle v)
      d.powerCycle := ends_samePersistent (dnsProxyReloadBloomFilter_volatile seedLen) d.powerCycle
  refine (volatile.and alone).mono ?_
  rintro _ v ⟨kept, owners, -, others⟩
  refine ⟨d.samePersistent_powerCycle.trans kept, owners, fun l => ?_⟩
  have moved : ListUndisturbed l (d.powerCycle, fun _ => none) (v, owners) := others (.list l) (by simp)
  have rest : ListRest l (d.powerCycle, fun _ => none) := rest_powerCycle d (.list l)
  refine ⟨rest.undisturbed moved, ?_⟩
  rw [moved.statics]
  cases l <;> rfl

theorem loadFilter_ends {d : Device} (accepted : BloomAccepted d) :
    (deviceSem short).traced.Ends (dnsProxyReloadBloomFilter seedLen) (fun _ v => FilterLoaded d v) (d.powerCycle, []) := by
  have cycled : BloomAccepted d.powerCycle := accepted.congr rfl rfl rfl
  refine ((dnsProxyReloadBloomFilter_of_accepted cycled).and ((loadFilter_noList d).traced [])).mono ?_
  rintro _ v ⟨⟨-, serves⟩, before⟩
  exact ⟨before, serves⟩

/-- What the second load of a boot leaves. -/
structure AllowlistKept (d : Device) (names : List (List Byte)) (v : Device × Owners) : Prop where
  same : SamePersistent d v.1
  loaded : AllowlistLoaded names v.1
  allowlist : ListRest .allowlist v
  domains : ListRest .domains v
  idle : v.1.statics.domainCount = 0

theorem loadAllowlist_ends {d w : Device} (before : NoList d w) :
    (deviceSem short).traced.Ends dnsProxyReloadAllowlistInPlace (fun _ v => SameBloom w v.1 ∧
      ∃ owners, AllowlistKept d (if v.2.any failedAlloc then [] else storedAllowlist d) (v.1, owners)) (w, []) := by
  obtain ⟨owners, idle⟩ := before.idle
  have rest : Rest (.list .allowlist) (w, owners) := (idle .allowlist).1
  have alone : (deviceSem short).Ends (reload 0#32 (.list .allowlist)) _ w := reload_alone rest (idle .allowlist).2
  have kept : (deviceSem short).Ends dnsProxyReloadAllowlist (fun _ v => SamePersistent w v) w :=
    ends_samePersistent (dnsProxyReloadAllowlist_loads.mono fun _ h => h.volatile) w
  have keeps : (deviceSem short).Ends dnsProxyReloadAllowlistInPlace (fun _ v => SameBloom w v) w :=
    ends_sameBloom dnsProxyReloadAllowlistInPlace_keepsBloom w
  rw [dnsProxyReloadAllowlistInPlace_eq] at keeps ⊢
  refine (((alone.and kept).and keeps).traced []).and (dnsProxyReloadAllowlist_ends w) |>.mono ?_
  rintro _ v ⟨⟨⟨⟨owners', rest', others⟩, same⟩, bloom⟩, loaded⟩
  refine ⟨bloom, owners', before.same.trans same, ?_, rest', ?_, ?_⟩
  · rw [before.same.nvs] at loaded
    exact loaded
  · exact (idle .domains).1.undisturbed (others (.list .domains) (by simp))
  · have moved : ListUndisturbed .domains (w, owners) (v.1, owners') := others (.list .domains) (by simp)
    exact (congrArg ListStatics.count moved.statics).trans (idle .domains).2

/-- The last load of a boot. -/
theorem loadNames_ends {d : Device} {names : List (List Byte)} {v : Device × Owners} (kept : AllowlistKept d names v)
    (mounted : v.1.statics.mounted = true) :
    (deviceSem false).traced.Ends sdStorageLoadDomainList (fun _ u => SamePersistent d u.1 ∧ SameBloom v.1 u.1 ∧
      AllowlistLoaded names u.1 ∧ (u.2.any (hindered d.files) = false →
        (∀ content, storedList .ok d = some content → ListLoaded content u.1) ∧
        (storedList .ok d = none → u.1.statics.domainCount = 0))) (v.1, []) := by
  have rest : Rest (.list .domains) v := kept.domains
  have alone : (deviceSem false).Ends (reload 0#32 (.list .domains)) _ v.1 := reload_alone rest kept.idle
  have others : (deviceSem false).Ends sdStorageLoadDomainList (fun _ u => ∃ owners,
      ListUndisturbed .allowlist v (u, owners)) v.1 := by
    intro err u ran
    obtain ⟨owners, -, undisturbed⟩ := alone () u (Sem.runs_bind.mpr ⟨err, u, ran, rfl, rfl⟩)
    exact ⟨owners, undisturbed (.list .allowlist) (by simp)⟩
  have volatile : (deviceSem false).Ends sdStorageLoadDomainList (fun _ u => SamePersistent v.1 u) v.1 :=
    ends_samePersistent (sdStorageLoadDomainList_listLoads.mono fun _ h => h.1) v.1
  have bloom : (deviceSem false).Ends sdStorageLoadDomainList (fun _ u => SameBloom v.1 u) v.1 :=
    ends_sameBloom (sdStorageLoadDomainList_listLoads.mono fun _ h => h.2) v.1
  refine (((others.and volatile).and bloom).traced []).and (sdStorageLoadDomainList_outcome v.1) |>.mono ?_
  rintro err u ⟨⟨⟨⟨owners, moved⟩, same⟩, sameBloom⟩, outcome⟩
  refine ⟨kept.same.trans same, sameBloom, kept.loaded.undisturbed kept.allowlist moved, fun quiet => ?_⟩
  have files : v.1.files = d.files := kept.same.files
  have listed : v.1.listFile = d.listFile := SamePersistent.listFile kept.same
  have bytes : v.1.fileBytes v.1.listFile = d.fileBytes d.listFile := by rw [listed, Device.fileBytes, Device.fileBytes, files]
  rw [← files] at quiet
  cases outcome with
  | unread _ empty _ cause =>
    have nothing : d.fileBytes d.listFile = [] := by
      by_contra full
      rw [← bytes] at full
      rw [cause mounted full] at quiet
      cases quiet
    rw [storedList_of_unended (by rw [nothing]; exact List.not_mem_nil)]
    exact ⟨fun _ impossible => (by cases impossible), fun _ => empty⟩
  | @read f read _ first _ got _ outcome =>
    obtain rfl : f = v.1.listFile := first.resolve_right fun hindrance => by rw [hindrance] at quiet; cases quiet
    obtain rfl : read = d.fileBytes d.listFile := (got.2 rfl).trans bytes
    cases outcome with
    | rejected _ empty cause =>
      have unended : 10#8 ∉ d.fileBytes d.listFile := cause.resolve_right fun failed => by
        rw [hindered_of_failedAlloc _ failed] at quiet
        cases quiet
      rw [storedList_of_unended unended]
      exact ⟨fun _ impossible => (by cases impossible), fun _ => empty⟩
    | published _ newline _ loaded =>
      rw [storedList_of_newline newline]
      exact ⟨fun _ same => Option.some.inj same ▸ loaded, fun impossible => (by cases impossible)⟩

/-- The card is marked as mounted. -/
theorem AllowlistKept.mounted {d : Device} {names : List (List Byte)} {v : Device × Owners} (kept : AllowlistKept d names v) :
    AllowlistKept d names ({ v.1 with statics := { v.1.statics with mounted := true } }, v.2) := by
  have moved (l : ListStore) : ListUndisturbed l v ({ v.1 with statics := { v.1.statics with mounted := true } }, v.2) :=
    ⟨by cases l <;> rfl, fun b owned _ => ⟨owned, rfl⟩⟩
  exact ⟨kept.same.trans ⟨rfl, rfl, rfl, rfl, rfl⟩, kept.loaded.undisturbed kept.allowlist (moved .allowlist),
    kept.allowlist.undisturbed (moved .allowlist), kept.domains.undisturbed (moved .domains), kept.idle⟩

/-- **A boot that nothing hinders recalls what is stored.** -/
theorem appMain_recalls (mounted : EspErr) {d : Device} (accepted : BloomAccepted d) :
    (deviceSem false).traced.Ends (appMain seedLen true mounted) (fun _ v =>
      v.2.any unmapped = false → v.2.any (hindered d.files) = false → Recalls mounted d v.1) (d.powerCycle, []) := by
  simp only [appMain, dnsProxyStart, Prog.bind_eq, Prog.pure_eq, if_true]
  refine Sem.ends_traced_bind (Sem.ends_traced_bind ((loadFilter_ends accepted).mono fun _ v₁ filter => ?_))
  refine (loadAllowlist_ends filter.toNoList).mono ?_
  rintro _ v₂ ⟨sameBloom, owners, kept⟩
  -- memory was refused to the allowlist only if something was hindered
  have names (quiet : v₂.2.any (hindered d.files) = false) :
      (if v₂.2.any failedAlloc then [] else storedAllowlist d) = storedAllowlist d := by
    rw [if_neg]
    intro failed
    rw [hindered_of_failedAlloc _ failed] at quiet
    cases quiet
  split
  · rename_i present
    subst present
    refine Sem.ends_traced_call fun _ d₃ marked => ?_
    obtain rfl : d₃ = _ := marked
    refine (loadNames_ends kept.mounted rfl).mono ?_
    rintro err u ⟨same, sameBloom', allowlist, list⟩ mapped quiet
    simp only [List.any_append, List.any_cons, Bool.or_eq_false_iff] at mapped quiet
    rw [names quiet.1.2] at allowlist
    obtain ⟨loaded, none_loaded⟩ := list quiet.2.2
    have marked : SameBloom v₂.1 { v₂.1 with statics := { v₂.1.statics with mounted := true } } := ⟨rfl, rfl, rfl, rfl, rfl, rfl⟩
    have serves := (((filter.serves mapped.1.1).congr sameBloom).congr marked).congr sameBloom'
    exact ⟨same, serves, allowlist, loaded, none_loaded⟩
  · rename_i absent
    refine Sem.ends_ret fun mapped quiet => ?_
    simp only [List.any_append, Bool.or_eq_false_iff, List.any_nil] at mapped quiet
    have allowlist := kept.loaded
    rw [names quiet.1.2] at allowlist
    have none_listed : storedList mounted d = none := if_neg fun both => absent both.1
    refine ⟨kept.same, (filter.serves mapped.1.1).congr sameBloom, allowlist, fun content impossible => ?_, fun _ => kept.idle⟩
    rw [none_listed] at impossible
    cases impossible

/-- The last load of a boot, for what is known of the allowlist. -/
theorem loadNames_allowlist {d : Device} {names : List (List Byte)} {v : Device × Owners} (mounted : EspErr)
    (kept : AllowlistKept d names v) : (deviceSem false).traced.Ends
      (if mounted = .ok then (do assign fun s => { s with mounted := true }; sdStorageLoadDomainList) else return mounted)
      (fun _ u => SamePersistent d u.1 ∧ AllowlistLoaded names u.1) (v.1, []) := by
  simp only [Prog.bind_eq, Prog.pure_eq]
  split
  · refine Sem.ends_traced_call fun _ d' marked => ?_
    obtain rfl : d' = _ := marked
    exact (loadNames_ends kept.mounted rfl).mono fun _ _ ends => ⟨ends.1, ends.2.2.1⟩
  · exact Sem.ends_ret ⟨kept.same, kept.loaded⟩

/-- **Every boot loads the stored allowlist** if it has its mutex and its memory, and otherwise none. -/
theorem appMain_allowlist (created : Bool) (mounted : EspErr) (d : Device) :
    (deviceSem false).traced.Ends (appMain seedLen created mounted) (fun _ v => SamePersistent d v.1 ∧
      (AllowlistLoaded (storedAllowlist d) v.1 ∨
        (created = false ∨ v.2.any failedAlloc = true) ∧ AllowlistLoaded [] v.1)) (d.powerCycle, []) := by
  simp only [appMain, dnsProxyStart]
  rw [Prog.bind_eq]
  refine Sem.ends_traced_bind ?_
  cases created with
  | false =>
    obtain ⟨same, owners, idle⟩ := noList_powerCycle d
    have kept : AllowlistKept d [] (d.powerCycle, owners) :=
      ⟨same, .nothing rfl, (idle .allowlist).1, (idle .domains).1, (idle .domains).2⟩
    refine Sem.ends_ret ((loadNames_allowlist mounted kept).mono ?_)
    rintro _ v ⟨same, loaded⟩
    exact ⟨same, .inr ⟨.inl rfl, loaded⟩⟩
  | true =>
    rw [if_pos rfl, Prog.bind_eq]
    refine Sem.ends_traced_bind (((loadFilter_noList d).traced []).mono fun _ v₁ before => ?_)
    refine (loadAllowlist_ends before).mono ?_
    rintro _ v₂ ⟨-, owners, kept⟩
    refine (loadNames_allowlist mounted kept).mono ?_
    rintro _ v₃ ⟨same, loaded⟩
    refine ⟨same, ?_⟩
    split at loaded
    · rename_i failed
      exact .inr ⟨.inr (by simp [failed]), loaded⟩
    · exact .inl loaded

/-! ## What is recalled -/

/-- An active file with an end of line is the one that a boot loads. -/
theorem storedList_of_active {d : Device} {content : List Byte} (active : d.files d.activeFile = some content)
    (newline : 10#8 ∈ content) : storedList .ok d = some content := by
  have named : d.listFile = d.activeFile := if_pos (by rw [active]; rfl)
  have bytes : d.fileBytes d.listFile = content := by rw [named, Device.fileBytes, active]; rfl
  rw [storedList_of_newline (bytes.symm ▸ newline), bytes]

/-- A list that is loaded answers from its strings. -/
theorem ListLoaded.confirmIn_eq {read : List Byte} {d : Device} (loaded : ListLoaded read d) (bs : Bsearch)
    (domain : List Byte) : d.sdStorageConfirm bs domain = .ok (confirmIn bs (some read) domain) := by
  obtain ⟨lines, published, shown⟩ := loaded.lines
  have count : (listSplit read).starts.length = (listStrings read).length := by rw [listStrings, List.length_map]
  rw [confirmIn]
  by_cases empty : listStrings read = []
  · rw [if_pos empty]
    apply sdStorageConfirm_of_empty
    rw [loaded.count, count, empty, List.length_nil]
  · have counted : (listSplit read).starts.length ≠ 0 := by
      rw [count]
      simpa using empty
    rw [Device.sdStorageConfirm, published, loaded.count, if_neg empty]
    simp only [if_neg counted, shown, bind, Except.bind, pure, Except.pure]
    cases bs.run (cstr domain) (listStrings read) <;> rfl

theorem Recalls.confirm {mounted : EspErr} {d d' : Device} (recalls : Recalls mounted d d') (bs : Bsearch)
    (domain : List Byte) : d'.sdStorageConfirm bs domain = .ok (confirmIn bs (storedList mounted d) domain) := by
  cases stored : storedList mounted d with
  | none => exact sdStorageConfirm_of_empty bs (recalls.none_listed stored) domain
  | some content => exact (recalls.list content stored).confirmIn_eq bs domain

theorem Recalls.bloomTest {mounted : EspErr} {d d' : Device} (recalls : Recalls mounted d d') (domain : List Byte) :
    d'.bloomTest domain = bloomFilterTest (storedFilter d) domain := by
  rw [recalls.filter.shows.bloomTest_eq, recalls.same.activePartition, recalls.same.flash, storedFilter]

end

end EspAdblocker.Storage
