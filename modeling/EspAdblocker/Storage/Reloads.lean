import EspAdblocker.Storage.Stores

/-!
# Reloads among lookups

Each reload, followed from one operation to the next while lookups and the other
reloads go on. Started with nothing published that it replaces, it keeps what
the guard of its store guards and leaves the store ready for the next one
(`reload_begins`). A reload of a list works behind a count of zero up to its
last assignment. The reload of the filter has no such cover: the filter that is
ready is assigned over field by field.
-/

namespace EspAdblocker.Storage

open EspAdblocker.Lib EspAdblocker.Bloom Function

variable {short : Bool} {α : Type}

/-! ## The list stores -/

section

variable {l : ListStore} {s : ListStatics} {blocks : List (Nat × Block)} {w : Device × Owners}
  {pointer : Statics → Option Nat} {clear : Statics → Statics} {Q : Unit → Device × Owners → Prop}

theorem keepsList_rest {a : α} (rest : ListRest l w) : KeepsList short l (.ret a) (fun _ v => ListRest l v) w :=
  fun _ moved => ⟨(rest.undisturbed moved).sound, rest.undisturbed moved⟩

/-- There is nothing to release. -/
theorem keepsList_releaseBlock_none (null : ∀ r : Statics, r.list l = s → pointer r = none)
    (holding : Holding l s blocks w) (idle : s.count = 0) (next : ∀ v, Holding l s blocks v → Q () v) :
    KeepsList short l (releaseBlock pointer clear) Q w := by
  unfold releaseBlock
  simp only [Prog.bind_eq, Prog.perform_bind, Prog.pure_eq]
  refine keepsList_statics holding idle fun r v read still => ?_
  rw [null r read]
  exact keepsList_ret still idle next

/-- Releasing the first of the blocks held. -/
theorem keepsList_releaseBlock_some {f : ListStatics → ListStatics} {block : Nat} {content : Block}
    (changes : Changes l clear f) (points : ∀ r : Statics, r.list l = s → pointer r = some block)
    (holding : Holding l s ((block, content) :: blocks) w) (idle : s.count = 0) (idle' : (f s).count = 0)
    (next : ∀ v, Holding l (f s) blocks v → Q () v) : KeepsList short l (releaseBlock pointer clear) Q w := by
  unfold releaseBlock
  simp only [Prog.bind_eq, Prog.perform_bind, Prog.pure_eq]
  refine keepsList_statics holding idle fun r v read still => ?_
  rw [points r read]
  refine keepsList_free still idle fun v₁ freed => ?_
  exact keepsList_assign changes freed idle fun v₂ cleared => keepsList_ret cleared idle' next

/-- Releasing a list whose count is zero. -/
theorem keepsList_release {entries : Statics → Option Nat} {clearEntries clearCount : Statics → Statics}
    (points : ∀ r : Statics, pointer r = (r.list l).buf) (pointsEntries : ∀ r : Statics, entries r = (r.list l).entries)
    (clears : Changes l clear fun s => { s with buf := none })
    (clearsEntries : Changes l clearEntries fun s => { s with entries := none })
    (clearsCount : Changes l clearCount fun s => { s with count := 0 })
    (loaded : Loaded s blocks) (holding : Holding l s blocks w) (idle : s.count = 0)
    (next : ∀ v, Holding l ⟨none, none, 0⟩ [] v → Q () v) :
    KeepsList short l ((releaseBlock pointer clear).bind fun _ => (releaseBlock entries clearEntries).bind fun _ =>
      assign clearCount) Q w := by
  cases loaded with
  | nothing =>
    apply Tasks.keeps_bind (Undisturbed.refl _)
    refine keepsList_releaseBlock_none (fun r read => by rw [points, read]) holding rfl fun v₁ held₁ => ?_
    apply Tasks.keeps_bind (Undisturbed.refl _)
    refine keepsList_releaseBlock_none (fun r read => by rw [pointsEntries, read]) held₁ rfl fun v₂ held₂ => ?_
    exact keepsList_assign clearsCount held₂ rfl fun v₃ held₃ => keepsList_ret held₃ rfl next
  | lines inside =>
    apply Tasks.keeps_bind (Undisturbed.refl _)
    refine keepsList_releaseBlock_some clears (fun r read => by rw [points, read]) holding idle idle fun v₁ held₁ => ?_
    apply Tasks.keeps_bind (Undisturbed.refl _)
    refine keepsList_releaseBlock_some clearsEntries (fun r read => by rw [pointsEntries, read]) held₁ idle idle
      fun v₂ held₂ => ?_
    exact keepsList_assign clearsCount held₂ idle fun v₃ held₃ => keepsList_ret held₃ rfl next

end

/-- The starts a splitting loop collects lie in the buffer. -/
theorem splitLines_inside {ends : Byte → Bool} {buf : List Byte} {n start : Nat} (bound : n ≤ buf.length)
    (member : start ∈ (splitLines ends buf n).starts) : start < (splitLines ends buf n).buf.length := by
  have behind := splitLines_behind ends buf n
  have before := behind.starts start member
  rw [behind.length]
  omega

/-- A split text and the pointers to its lines, once the statics point to them. -/
theorem listRest_lines {l : ListStore} {w : Device × Owners} {buf array : Nat} {split : Split} {tail : List Byte}
    {old : List (Option CharPtr)} (inside : ∀ start ∈ split.starts, start < split.buf.length)
    (holding : Holding l ⟨some buf, some array, split.starts.length⟩
      [(buf, .chars (split.buf ++ tail)), (array, .ptrs ((split.starts.map fun start => (buf, start)).map some ++ old))] w) :
    ListRest l w := by
  refine ⟨_, _, holding, .lines fun start member => ?_⟩
  rw [List.length_append]
  exact Nat.lt_add_right _ (inside start member)

/-! ## The allowlist -/

section

variable {w : Device × Owners}

/-- The assignment changes only what the allowlist refers to. -/
theorem changes_allowlist {change : Statics → Statics} {f : ListStatics → ListStatics}
    (own : ∀ s, (change s).list .allowlist = f (s.list .allowlist))
    (domains : ∀ s, (change s).list .domains = s.list .domains) (bloom : ∀ s, (change s).bloom = s.bloom) :
    Changes .allowlist change f := by
  refine ⟨own, fun s l differ => ?_, bloom⟩
  cases l with
  | allowlist => exact absurd rfl differ
  | domains => exact domains s

theorem changes_allowlistBuf (p : Option Nat) :
    Changes .allowlist (fun s => { s with allowlistBuf := p }) fun s => { s with buf := p } :=
  changes_allowlist (fun _ => rfl) (fun _ => rfl) fun _ => rfl

theorem changes_allowlistEntries (p : Option Nat) :
    Changes .allowlist (fun s => { s with allowlistEntries := p }) fun s => { s with entries := p } :=
  changes_allowlist (fun _ => rfl) (fun _ => rfl) fun _ => rfl

theorem changes_allowlistCount (n : Nat) :
    Changes .allowlist (fun s => { s with allowlistCount := n }) fun s => { s with count := n } :=
  changes_allowlist (fun _ => rfl) (fun _ => rfl) fun _ => rfl

theorem keepsList_installAllowlist {buf : Nat} {junk : List Byte} (text : List Byte)
    (holding : Holding .allowlist ⟨none, none, 0⟩ [(buf, .chars junk)] w) :
    KeepsList short .allowlist (installAllowlist buf text) (fun _ v => ListRest .allowlist v) w := by
  unfold installAllowlist
  simp only [Prog.bind_eq, Prog.perform_bind]
  refine keepsList_storeChars holding rfl fun v₁ held₁ => ?_
  refine keepsList_mallocPtrs held₁ rfl (fun v₂ held₂ => ?_) fun entries v₂ held₂ => ?_
  · exact keepsList_free held₂ rfl fun v₃ held₃ => keepsList_rest ⟨_, _, held₃, .nothing⟩
  · refine keepsList_storeChars held₂.swap rfl fun v₃ held₃ => keepsList_storePtrs held₃.swap rfl fun v₄ held₄ => ?_
    refine keepsList_assign (changes_allowlistBuf _) held₄ rfl fun v₅ held₅ => ?_
    refine keepsList_assign (changes_allowlistEntries _) held₅ rfl fun v₆ held₆ => ?_
    refine keepsList_assign (changes_allowlistCount _) held₆ rfl fun v₇ held₇ => keepsList_rest ?_
    refine listRest_lines (fun start member => splitLines_inside ?_ member) held₇.swap
    rw [List.length_append, List.length_singleton]
    exact Nat.succ_le_succ (List.takeWhile_prefix _).length_le

/-- **A reload of the allowlist** that starts with no entry published. -/
theorem keepsList_reloadAllowlist (rest : ListRest .allowlist w) (idle : w.1.statics.allowlistCount = 0) :
    KeepsList short .allowlist dnsProxyReloadAllowlist (fun _ v => ListRest .allowlist v) w := by
  obtain ⟨s, blocks, holding, loaded⟩ := rest
  have none_counted : s.count = 0 := by
    rw [← holding.statics]
    exact idle
  unfold dnsProxyReloadAllowlist releaseAllowlist
  simp only [Prog.bind_eq, Prog.perform_bind, Prog.pure_eq]
  apply Tasks.keeps_bind (Undisturbed.refl _)
  refine keepsList_release (fun _ => rfl) (fun _ => rfl) (changes_allowlistBuf _) (changes_allowlistEntries _)
    (changes_allowlistCount _) loaded holding none_counted fun v₁ held₁ => ?_
  refine keepsList_mallocChars held₁ rfl (fun v₂ held₂ => ?_) fun buf junk v₂ held₂ => ?_
  · exact keepsList_rest ⟨_, _, held₂, .nothing⟩
  · refine keepsList_reads trivial held₂ rfl fun text v₃ held₃ => ?_
    cases text with
    | none => exact keepsList_free held₃ rfl fun v₄ held₄ => keepsList_rest ⟨_, _, held₄, .nothing⟩
    | some text =>
      dsimp only
      split
      · exact keepsList_free held₃ rfl fun v₄ held₄ => keepsList_rest ⟨_, _, held₄, .nothing⟩
      · exact keepsList_installAllowlist text held₃

end

/-! ## The exact list -/

section

variable {w : Device × Owners}

/-- The assignment changes only what the exact list refers to. -/
theorem changes_domains {change : Statics → Statics} {f : ListStatics → ListStatics}
    (own : ∀ s, (change s).list .domains = f (s.list .domains))
    (allowlist : ∀ s, (change s).list .allowlist = s.list .allowlist) (bloom : ∀ s, (change s).bloom = s.bloom) :
    Changes .domains change f := by
  refine ⟨own, fun s l differ => ?_, bloom⟩
  cases l with
  | allowlist => exact allowlist s
  | domains => exact absurd rfl differ

theorem changes_domainBuf (p : Option Nat) :
    Changes .domains (fun s => { s with domainBuf := p }) fun s => { s with buf := p } :=
  changes_domains (fun _ => rfl) (fun _ => rfl) fun _ => rfl

theorem changes_domainLines (p : Option Nat) :
    Changes .domains (fun s => { s with domainLines := p }) fun s => { s with entries := p } :=
  changes_domains (fun _ => rfl) (fun _ => rfl) fun _ => rfl

theorem changes_domainCount (n : Nat) :
    Changes .domains (fun s => { s with domainCount := n }) fun s => { s with count := n } :=
  changes_domains (fun _ => rfl) (fun _ => rfl) fun _ => rfl

/-- Giving the text up again. -/
theorem keepsList_discard {buf : Nat} {content : Block} {err : EspErr}
    (holding : Holding .domains ⟨some buf, none, 0⟩ [(buf, content)] w) :
    KeepsList short .domains (.call (.free buf) fun _ => .call (.assign fun s => { s with domainBuf := none }) fun _ =>
      .ret err) (fun _ v => ListRest .domains v) w :=
  keepsList_free holding rfl fun _ freed => keepsList_assign (changes_domainBuf none) freed rfl fun _ held =>
    keepsList_rest ⟨_, _, held, .nothing⟩

theorem keepsList_installDomainList {buf : Nat} {junk : List Byte} (read : List Byte)
    (holding : Holding .domains ⟨some buf, none, 0⟩ [(buf, .chars junk)] w) :
    KeepsList short .domains (installDomainList buf read) (fun _ v => ListRest .domains v) w := by
  unfold installDomainList
  simp only [Prog.bind_eq, Prog.perform_bind, Prog.pure_eq]
  refine keepsList_storeChars holding rfl fun v₁ held₁ => ?_
  split
  · exact keepsList_discard held₁
  refine keepsList_mallocPtrs held₁ rfl (fun v₂ held₂ => ?_) fun lines v₂ held₂ => ?_
  · exact keepsList_assign (changes_domainLines none) held₂ rfl fun v₃ held₃ => keepsList_discard held₃
  · refine keepsList_assign (changes_domainLines _) held₂ rfl fun v₃ held₃ => ?_
    refine keepsList_storeChars held₃.swap rfl fun v₄ held₄ => keepsList_storePtrs held₄.swap rfl fun v₅ held₅ => ?_
    refine keepsList_assign (changes_domainCount _) held₅ rfl fun v₆ held₆ => keepsList_rest ?_
    refine listRest_lines (fun start member => splitLines_inside ?_ member) held₆.swap
    rw [List.length_append]
    exact Nat.le_add_right _ _

theorem keepsList_readDomainList (f : DomainFile) (holding : Holding .domains ⟨none, none, 0⟩ [] w) :
    KeepsList short .domains (readDomainList f) (fun _ v => ListRest .domains v) w := by
  unfold readDomainList
  simp only [Prog.bind_eq, Prog.perform_bind, Prog.pure_eq]
  refine keepsList_reads trivial holding rfl fun size v₁ held₁ => ?_
  split
  · exact keepsList_rest ⟨_, _, held₁, .nothing⟩
  refine keepsList_mallocChars held₁ rfl (fun v₂ held₂ => ?_) fun buf junk v₂ held₂ => ?_
  · refine keepsList_assign (changes_domainBuf none) held₂ rfl fun v₃ held₃ => ?_
    exact keepsList_rest ⟨_, _, held₃, .nothing⟩
  · refine keepsList_assign (changes_domainBuf _) held₂ rfl fun v₃ held₃ => ?_
    exact keepsList_reads trivial held₃ rfl fun read v₄ held₄ => keepsList_installDomainList read held₄

theorem keepsList_openDomainList {h : Half} {s : ListStatics} {blocks : List (Nat × Block)}
    {Q : Option DomainFile → Device × Owners → Prop} (holding : Holding .domains s blocks w) (idle : s.count = 0)
    (next : ∀ f v, Holding .domains s blocks v → Q f v) : KeepsList short .domains (openDomainList h) Q w := by
  unfold openDomainList
  simp only [Prog.bind_eq, Prog.perform_bind, Prog.pure_eq]
  refine keepsList_reads trivial holding idle fun opened v₁ held₁ => ?_
  split
  · exact keepsList_ret held₁ idle (next _)
  refine keepsList_reads trivial held₁ idle fun opened v₂ held₂ => ?_
  split <;> exact keepsList_ret held₂ idle (next _)

/-- **A load of the exact list** that starts with no line published. -/
theorem keepsList_reloadDomains (rest : ListRest .domains w) (idle : w.1.statics.domainCount = 0) :
    KeepsList short .domains sdStorageLoadDomainList (fun _ v => ListRest .domains v) w := by
  obtain ⟨s, blocks, holding, loaded⟩ := rest
  have none_counted : s.count = 0 := by
    rw [← holding.statics]
    exact idle
  unfold sdStorageLoadDomainList releaseDomainList
  simp only [Prog.bind_eq, Prog.perform_bind, Prog.pure_eq]
  apply Tasks.keeps_bind (Undisturbed.refl _)
  refine keepsList_release (fun _ => rfl) (fun _ => rfl) (changes_domainBuf _) (changes_domainLines _)
    (changes_domainCount _) loaded holding none_counted fun v₁ held₁ => ?_
  refine keepsList_statics held₁ rfl fun r v₂ _ held₂ => ?_
  split
  · refine keepsList_reads trivial held₂ rfl fun slot v₃ held₃ => Tasks.keeps_bind (Undisturbed.refl _) ?_
    refine keepsList_openDomainList held₃ rfl fun f v₄ held₄ => ?_
    cases f with
    | none => exact keepsList_rest ⟨_, _, held₄, .nothing⟩
    | some f => exact keepsList_readDomainList f held₄
  · exact keepsList_rest ⟨_, _, held₂, .nothing⟩

end

/-! ## The filter -/

section

variable {b : BloomStatics} {maps : Nat → Option Half} {sizes : Half → Option (BitVec 32)} {seed : List Byte}
  {w v : Device × Owners}

/-- The filter's part of the device. -/
structure BloomAt (b : BloomStatics) (maps : Nat → Option Half) (sizes : Half → Option (BitVec 32)) (seed : List Byte)
    (w : Device × Owners) : Prop where
  statics : w.1.statics.bloom = b
  maps : w.1.maps = maps
  partSize : w.1.partSize = sizes
  seed : w.1.seed = seed

theorem BloomAt.undisturbed (at_ : BloomAt b maps sizes seed w) (moved : BloomUndisturbed w v) :
    BloomAt b maps sizes seed v :=
  ⟨moved.statics.trans at_.statics, moved.maps.trans at_.maps, moved.partSize.trans at_.partSize, moved.seed.trans at_.seed⟩

variable (short) in
/-- The program that reloads the filter keeps what `s_bloom_ready` guards, whatever the other stores do. -/
abbrev KeepsFilter (p : DeviceM α) (Q : α → Device × Owners → Prop) (w : Device × Owners) : Prop :=
  Tasks.Keeps (deviceSem short) ownersAfter Undisturbed (Sound .bloom) .bloom p Q w

theorem BloomAt.sound (at_ : BloomAt b maps sizes seed w) (sound : BloomSound b maps) : Sound .bloom w.1 := by
  change BloomSound w.1.statics.bloom w.1.maps
  rwa [at_.statics, at_.maps]

theorem keepsFilter_ret {a : α} {Q : α → Device × Owners → Prop} (at_ : BloomAt b maps sizes seed w)
    (sound : BloomSound b maps) (last : ∀ v, BloomAt b maps sizes seed v → Q a v) : KeepsFilter short (.ret a) Q w :=
  fun v moved => ⟨(at_.undisturbed moved).sound sound, last v (at_.undisturbed moved)⟩

theorem keepsFilter_call {op : Op} {k : Res op → DeviceM α} {Q : α → Device × Owners → Prop}
    (at_ : BloomAt b maps sizes seed w) (sound : BloomSound b maps) (here : ∀ owners, Local .bloom owners op)
    (next : ∀ v r d, BloomAt b maps sizes seed v → (deviceSem short).step v.1 op r d → KeepsFilter short (k r) Q (d, v.2)) :
    KeepsFilter short (.call op k) Q w := by
  intro v moved
  have still := at_.undisturbed moved
  exact ⟨still.sound sound, fun r d step => ⟨fun j differ => (here v.2).tolerated step differ, next v r d still step⟩⟩

theorem keepsFilter_assign {change : Statics → Statics} {f : BloomStatics → BloomStatics} {k : Unit → DeviceM α}
    {Q : α → Device × Owners → Prop} (own : ∀ s, (change s).bloom = f s.bloom) (lists : ∀ s, (change s).list = s.list)
    (at_ : BloomAt b maps sizes seed w) (sound : BloomSound b maps)
    (next : ∀ v, BloomAt (f b) maps sizes seed v → KeepsFilter short (k ()) Q v) :
    KeepsFilter short (.call (.assign change) k) Q w := by
  refine keepsFilter_call at_ sound (fun _ s => ⟨fun other => absurd rfl other, fun l _ => congrFun (lists s) l⟩)
    fun v r d still step => ?_
  obtain rfl : d = _ := step
  refine next _ ⟨?_, still.maps, still.partSize, still.seed⟩
  rw [← still.statics]
  exact own v.1.statics

theorem keepsFilter_munmap {handle : Nat} {k : Unit → DeviceM α} {Q : α → Device × Owners → Prop}
    (at_ : BloomAt b maps sizes seed w) (sound : BloomSound b maps)
    (next : ∀ v, BloomAt b (update maps handle none) sizes seed v → KeepsFilter short (k ()) Q v) :
    KeepsFilter short (.call (.munmap handle) k) Q w := by
  refine keepsFilter_call at_ sound (fun _ => rfl) fun v r d still step => ?_
  obtain rfl : d = _ := step
  refine next _ ⟨still.statics, ?_, still.partSize, still.seed⟩
  rw [← still.maps]
  rfl

theorem keepsFilter_mmap {h : Half} {k : Option Nat → DeviceM α} {Q : α → Device × Owners → Prop}
    (at_ : BloomAt b maps sizes seed w) (sound : BloomSound b maps)
    (failed : ∀ v, BloomAt b maps sizes seed v → KeepsFilter short (k none) Q v)
    (next : ∀ handle v, BloomAt b (update maps handle (some h)) sizes seed v → KeepsFilter short (k (some handle)) Q v) :
    KeepsFilter short (.call (.mmap h) k) Q w := by
  refine keepsFilter_call at_ sound (fun _ => rfl) fun v r d still step => ?_
  cases r with
  | none =>
    obtain rfl : d = v.1 := step
    exact failed _ still
  | some handle =>
    obtain ⟨-, rfl⟩ := step
    refine next handle _ ⟨still.statics, ?_, still.partSize, still.seed⟩
    rw [← still.maps]
    rfl

/-! ### Statics of the filter -/

/-- A filter over one live region. -/
theorem bloomSound_over {r : Region} (header : b.header = some r) (bits : b.bits = some r) (live : RegionLive maps r) :
    BloomSound b maps :=
  fun _ => ⟨r, header, bits, live⟩

/-- The filter that is ready, if any, is the seed. -/
def SeedShown (b : BloomStatics) : Prop :=
  b.ready = true → b.header = some .seed ∧ b.bits = some .seed

theorem SeedShown.sound (shown : SeedShown b) : BloomSound b maps := by
  intro ready
  obtain ⟨header, bits⟩ := shown ready
  exact ⟨.seed, header, bits, trivial⟩

/-- The region is the seed or what the statics keep mapped. -/
def Kept (b : BloomStatics) : Region → Prop
  | .seed => True
  | .mapped handle => b.mmapActive = true ∧ handle = b.mmapHandle

/-- The mapping in use is live, and no other one is. -/
structure MapsKept (b : BloomStatics) (maps : Nat → Option Half) : Prop where
  live : b.mmapActive = true → maps b.mmapHandle ≠ none
  only : ∀ handle, maps handle ≠ none → b.mmapActive = true ∧ handle = b.mmapHandle

theorem mapsKept_of_none (idle : b.mmapActive = false) (none_mapped : ∀ handle, maps handle = none) : MapsKept b maps where
  live active := absurd (idle.symm.trans active) Bool.false_ne_true
  only handle live := absurd (none_mapped handle) live

theorem MapsKept.none_of_idle (kept : MapsKept b maps) (idle : b.mmapActive = false) (handle : Nat) : maps handle = none := by
  by_contra mapped
  exact Bool.false_ne_true (idle.symm.trans (kept.only handle mapped).1)

/-- Without the mapping in use nothing is mapped. -/
theorem MapsKept.dropped (kept : MapsKept b maps) (handle : Nat) : update maps b.mmapHandle none handle = none := by
  by_contra mapped
  by_cases same : handle = b.mmapHandle
  · exact mapped (by rw [same, update_self])
  · rw [update_of_ne same] at mapped
    exact same (kept.only handle mapped).2

/-- One mapping is added to none. -/
theorem eq_of_mapped {handle other : Nat} {h : Half} (idle : ∀ handle, maps handle = none)
    (mapped : update maps handle (some h) other ≠ none) : other = handle := by
  by_contra differ
  rw [update_of_ne differ] at mapped
  exact mapped (idle other)

/-- Between two reloads the mapping in use is the only one, and a filter that is ready shows it or the seed. -/
structure BloomRest (b : BloomStatics) (maps : Nat → Option Half) : Prop where
  mapping : MapsKept b maps
  shown : b.ready = true → ∃ r, b.header = some r ∧ b.bits = some r ∧ Kept b r

theorem Kept.live {r : Region} (kept : Kept b r) (mapping : MapsKept b maps) : RegionLive maps r := by
  cases r with
  | seed => trivial
  | mapped handle =>
    obtain ⟨active, rfl⟩ := kept
    exact mapping.live active

theorem BloomRest.sound (rest : BloomRest b maps) : BloomSound b maps := by
  intro ready
  obtain ⟨r, header, bits, kept⟩ := rest.shown ready
  exact ⟨r, header, bits, kept.live rest.mapping⟩

theorem BloomRest.seedShown (rest : BloomRest b maps) (header : b.ready = true → b.header = some .seed) : SeedShown b := by
  intro ready
  obtain ⟨r, hasHeader, hasBits, -⟩ := rest.shown ready
  exact ⟨header ready, hasBits.trans (hasHeader.symm.trans (header ready))⟩

/-! ### Loading -/

/-- What reading a region returns: the seed's bytes, or any of a mapping's. -/
def ReadAs (seed : List Byte) : Region → List Byte → Prop
  | .seed, buf => buf = seed
  | .mapped _, _ => True

/-- An image is assigned over nothing that is ready but itself. -/
theorem keepsFilter_initBloom {r : Region} {len : BitVec 32} {Q : Bool → Device × Owners → Prop}
    (at_ : BloomAt b maps sizes seed w) (sound : BloomSound b maps) (live : RegionLive maps r)
    (covered : ∀ buf, ReadAs seed r buf → (bloomFilterInit buf len).isSome → b.ready = true → b.header = some r ∧ b.bits = some r)
    (rejected : ∀ v, BloomAt b maps sizes seed v → Q false v)
    (accepted : ∀ v, BloomAt { b with header := some r, bits := some r } maps sizes seed v → Q true v) :
    KeepsFilter short (initBloom r len) Q w := by
  unfold initBloom
  simp only [Prog.bind_eq, Prog.perform_bind, Prog.pure_eq]
  refine keepsFilter_call at_ sound (fun _ => trivial) fun v₁ buf d₁ at₁ done => ?_
  obtain ⟨read, rfl⟩ := done
  have read_as : ReadAs seed r buf := by
    cases r with
    | seed => exact (read _ rfl).trans at₁.seed
    | mapped => trivial
  split
  · exact keepsFilter_ret at₁ sound rejected
  rename_i image
  have same := covered buf read_as (by rw [image]; rfl)
  refine keepsFilter_assign (f := fun b => { b with header := some r }) (fun _ => rfl) (fun _ => rfl) at₁
    sound fun v₂ at₂ => ?_
  refine keepsFilter_assign (f := fun b => { b with bits := some r }) (fun _ => rfl) (fun _ => rfl) at₂
    (fun ready => ⟨r, rfl, (same ready).2, live⟩) fun v₃ at₃ => ?_
  exact keepsFilter_ret at₃ (bloomSound_over rfl rfl live) accepted

/-- The end of a reload. -/
theorem keepsFilter_rest {a : α} (at_ : BloomAt b maps sizes seed w) (rest : BloomRest b maps) :
    KeepsFilter short (.ret a) (fun _ v => BloomRest v.1.statics.bloom v.1.maps) w := by
  refine keepsFilter_ret at_ rest.sound fun v still => ?_
  rw [still.statics, still.maps]
  exact rest

/-- The seed would be assigned over itself, over nothing that is ready, or not at all. -/
def SeedCovers (seed : List Byte) (seedLen : BitVec 32) (b : BloomStatics) : Prop :=
  b.ready = true → b.header = some .seed ∨ bloomFilterInit seed seedLen = none

theorem SeedShown.covers {seedLen : BitVec 32} (shown : SeedShown b) : SeedCovers seed seedLen b :=
  fun ready => .inl (shown ready).1

/-- The seed is shown, or nothing. -/
theorem keepsFilter_loadBloomSeed {seedLen : BitVec 32} (at_ : BloomAt b maps sizes seed w) (sound : BloomSound b maps)
    (mapping : MapsKept b maps) (covers : SeedCovers seed seedLen b) :
    KeepsFilter short (loadBloomSeed seedLen) (fun _ v => BloomRest v.1.statics.bloom v.1.maps) w := by
  have covered (buf : List Byte) (read : ReadAs seed .seed buf) (accepted : (bloomFilterInit buf seedLen).isSome)
      (ready : b.ready = true) : b.header = some .seed ∧ b.bits = some .seed := by
    obtain rfl : buf = seed := read
    rcases covers ready with header | rejected
    · obtain ⟨r, header', bits, -⟩ := sound ready
      exact ⟨header, bits.trans (header'.symm.trans header)⟩
    · rw [rejected] at accepted
      cases accepted
  unfold loadBloomSeed
  simp only [Prog.bind_eq]
  apply Tasks.keeps_bind (Undisturbed.refl _)
  refine keepsFilter_initBloom at_ sound trivial covered (fun v₁ at₁ => ?_) fun v₁ at₁ => ?_
  · refine keepsFilter_assign (f := fun b => { b with ready := false }) (fun _ => rfl) (fun _ => rfl) at₁
      sound fun v₂ at₂ => keepsFilter_rest at₂ ⟨⟨mapping.live, mapping.only⟩, fun ready => absurd ready Bool.false_ne_true⟩
  · have shown {c : BloomStatics} (header : c.header = some .seed) (bits : c.bits = some .seed) : BloomSound c maps :=
      bloomSound_over header bits trivial
    refine keepsFilter_assign (f := fun b => { b with ready := true }) (fun _ => rfl) (fun _ => rfl) at₁
      (shown rfl rfl) fun v₂ at₂ => ?_
    refine keepsFilter_assign (f := fun b => { b with fromSeed := true }) (fun _ => rfl) (fun _ => rfl) at₂
      (shown rfl rfl) fun v₃ at₃ => ?_
    exact keepsFilter_rest at₃ ⟨⟨mapping.live, mapping.only⟩, fun _ => ⟨.seed, rfl, rfl, trivial⟩⟩

/-- Dropping the mapping in use while the seed or nothing is shown. -/
theorem keepsFilter_unmapBloom {Q : Unit → Device × Owners → Prop} (at_ : BloomAt b maps sizes seed w)
    (shown : SeedShown b) (mapping : MapsKept b maps)
    (next : ∀ maps' v, (∀ handle, maps' handle = none) → BloomAt { b with mmapActive := false } maps' sizes seed v → Q () v) :
    KeepsFilter short unmapBloom Q w := by
  unfold unmapBloom
  simp only [Prog.bind_eq, Prog.perform_bind, Prog.pure_eq]
  refine keepsFilter_call at_ shown.sound (fun _ => trivial) fun v r d still step => ?_
  obtain ⟨rfl, rfl⟩ := step
  have active : v.1.statics.bloomMmapActive = b.mmapActive := congrArg BloomStatics.mmapActive still.statics
  have handle : v.1.statics.bloomMmapHandle = b.mmapHandle := congrArg BloomStatics.mmapHandle still.statics
  split
  · refine keepsFilter_munmap still shown.sound fun v₁ at₁ => ?_
    refine keepsFilter_assign (f := fun b => { b with mmapActive := false }) (fun _ => rfl) (fun _ => rfl)
      at₁ shown.sound fun v₂ at₂ => keepsFilter_ret at₂ (SeedShown.sound shown) fun v last => next _ v (fun other => ?_) last
    rw [handle]
    exact mapping.dropped other
  · rename_i idle
    rw [active, Bool.not_eq_true] at idle
    have same : { b with mmapActive := false } = b := by rw [← idle]
    exact keepsFilter_ret still shown.sound fun v last => next maps v (mapping.none_of_idle idle) (by rwa [same])

/-- A reload may assign over what is ready: where the active partition is in the
table it is too small for any image and the seed is shown, else the seed covers itself. -/
def Replaceable (seed : List Byte) (seedLen : BitVec 32) (b : BloomStatics) : Option (BitVec 32) → Prop
  | some size => b.ready = true → size.toNat < bloomHeaderLen ∧ b.header = some .seed
  | none => SeedCovers seed seedLen b

/-- What `try_load_bloom_from_partition` leaves: a mapping that is kept and shown
on success, else a filter over which the seed may be assigned. -/
def TryLeaves (seed : List Byte) (seedLen : BitVec 32) (loaded : Bool) (b : BloomStatics) (maps : Nat → Option Half) : Prop :=
  BloomSound b maps ∧
    if loaded then BloomRest { b with ready := true } maps else MapsKept b maps ∧ SeedCovers seed seedLen b

/-- The partition is mapped once the seed or nothing is shown. -/
theorem keepsFilter_tryLoad {slot : BitVec 8} {seedLen : BitVec 32} {Q : Bool → Device × Owners → Prop}
    (at_ : BloomAt b maps sizes seed w) (rest : BloomRest b maps)
    (replaceable : Replaceable seed seedLen b (sizes (halfOf slot)))
    (next : ∀ loaded c maps' v, BloomAt c maps' sizes seed v → TryLeaves seed seedLen loaded c maps' → Q loaded v) :
    KeepsFilter short (tryLoadBloomFromPartition slot) Q w := by
  unfold tryLoadBloomFromPartition
  simp only [Prog.bind_eq, Prog.perform_bind, Prog.pure_eq]
  refine keepsFilter_call at_ rest.sound (fun _ => trivial) fun v r d still step => ?_
  obtain ⟨rfl, rfl⟩ := step
  rw [← congrFun still.partSize (halfOf slot)] at replaceable
  split
  · rename_i missing
    rw [missing] at replaceable
    exact keepsFilter_ret still rest.sound fun v' last => next false b _ v' last ⟨rest.sound, rest.mapping, replaceable⟩
  rename_i size found
  rw [found] at replaceable
  have shown : SeedShown b := rest.seedShown fun ready => (replaceable ready).2
  refine Tasks.keeps_bind (Undisturbed.refl _)
    (keepsFilter_unmapBloom still shown rest.mapping fun maps₁ v₁ idle at₁ => ?_)
  have shown₁ : SeedShown { b with mmapActive := false } := shown
  have failed {maps' : Nat → Option Half} (none_mapped : ∀ handle, maps' handle = none) :
      TryLeaves seed seedLen false { b with mmapActive := false } maps' :=
    ⟨shown₁.sound, mapsKept_of_none rfl none_mapped, shown₁.covers⟩
  refine keepsFilter_mmap at₁ shown₁.sound (fun v₂ at₂ => ?_) fun handle v₂ at₂ => ?_
  · exact keepsFilter_ret at₂ shown₁.sound fun v' last => next false _ _ v' last (failed idle)
  have live : RegionLive (update maps₁ handle (some (halfOf slot))) (.mapped handle) := by
    change update maps₁ handle (some (halfOf slot)) handle ≠ none
    rw [update_self]
    exact Option.some_ne_none _
  have shows_it {b : BloomStatics} (header : b.header = some (.mapped handle)) (bits : b.bits = some (.mapped handle)) :
      BloomSound b (update maps₁ handle (some (halfOf slot))) := bloomSound_over header bits live
  apply Tasks.keeps_bind (Undisturbed.refl _)
  refine keepsFilter_initBloom at₂ shown₁.sound live (fun buf _ accepted ready => ?_) (fun v₃ at₃ => ?_) fun v₃ at₃ => ?_
  · -- an image in a partition too small for a header is refused
    obtain ⟨f, image⟩ := Option.isSome_iff_exists.mp accepted
    exact absurd (bloomFilterInit_eq_some_iff.mp image).headerFits (Nat.not_le.mpr (replaceable ready).1)
  · refine keepsFilter_munmap at₃ shown₁.sound fun v₄ at₄ => ?_
    refine keepsFilter_ret at₄ shown₁.sound fun v' last => next false _ _ v' last (failed fun other => ?_)
    rw [update_idem, update_apply]
    split
    · rfl
    · exact idle other
  · refine keepsFilter_assign (f := fun b => { b with mmapHandle := handle }) (fun _ => rfl) (fun _ => rfl)
      at₃ (shows_it rfl rfl) fun v₄ at₄ => ?_
    refine keepsFilter_assign (f := fun b => { b with mmapActive := true }) (fun _ => rfl) (fun _ => rfl)
      at₄ (shows_it rfl rfl) fun v₅ at₅ => ?_
    refine keepsFilter_ret at₅ (shows_it rfl rfl) fun v' last => next true _ _ v' last ⟨shows_it rfl rfl, ?_, fun _ => ?_⟩
    · exact ⟨fun _ => live, fun other mapped => ⟨rfl, eq_of_mapped idle mapped⟩⟩
    · exact ⟨_, rfl, rfl, rfl, rfl⟩

/-- A reload after its first operation, which read the slot. -/
theorem keepsFilter_reload {slot : BitVec 8} {seedLen : BitVec 32} (at_ : BloomAt b maps sizes seed w)
    (rest : BloomRest b maps) (replaceable : Replaceable seed seedLen b (sizes (halfOf slot))) :
    KeepsFilter short ((tryLoadBloomFromPartition slot).bind fun loaded => match loaded with
      | true => .call (.assign fun s => { s with bloomReady := true }) fun _ =>
          .call (.assign fun s => { s with bloomFromSeed := false }) .ret
      | false => loadBloomSeed seedLen) (fun _ v => BloomRest v.1.statics.bloom v.1.maps) w := by
  apply Tasks.keeps_bind (Undisturbed.refl _)
  refine keepsFilter_tryLoad at_ rest replaceable fun loaded c maps' v at_' ⟨sound, leaves⟩ => ?_
  cases loaded with
  | true =>
    have rested : BloomRest { c with ready := true } maps' := leaves
    refine keepsFilter_assign (f := fun b => { b with ready := true }) (fun _ => rfl) (fun _ => rfl) at_'
      sound fun v₁ at₁ => ?_
    refine keepsFilter_assign (f := fun b => { b with fromSeed := false }) (fun _ => rfl) (fun _ => rfl) at₁
      rested.sound fun v₂ at₂ => ?_
    exact keepsFilter_rest at₂ ⟨⟨rested.mapping.live, rested.mapping.only⟩, rested.shown⟩
  | false =>
    obtain ⟨mapping, covers⟩ : MapsKept c maps' ∧ SeedCovers seed seedLen c := leaves
    exact keepsFilter_loadBloomSeed at_' sound mapping covers

end

/-! ## All reloads -/

/-- A reload of the store would replace nothing that is published: no line is
counted; no filter is ready that the reload assigns another image over. -/
def Unpublished (seedLen : BitVec 32) (d : Device) : Store → Prop
  | .bloom => Replaceable d.seed seedLen d.statics.bloom (d.partSize d.activePartition)
  | .list l => (d.statics.list l).count = 0

/-- No filter is ready, so none is replaced. -/
theorem unpublished_of_unready {seedLen : BitVec 32} {d : Device} (unready : d.statics.bloomReady = false) :
    Unpublished seedLen d .bloom := by
  have never (ready : d.statics.bloom.ready = true) : False := Bool.false_ne_true (unready.symm.trans ready)
  change Replaceable d.seed seedLen d.statics.bloom (d.partSize d.activePartition)
  cases d.partSize d.activePartition with
  | none => exact fun ready => (never ready).elim
  | some size => exact fun ready => (never ready).elim

/-- What holds of a store's part between two of its reloads. -/
def Rest (i : Store) (w : Device × Owners) : Prop :=
  match i with
  | .bloom => BloomRest w.1.statics.bloom w.1.maps
  | .list l => ListRest l w

/-- **A reload that starts with nothing published that it replaces** keeps what
the guard of its store guards, whatever the other reloads do. -/
theorem reload_begins (seedLen : BitVec 32) {i : Store} {w : Device × Owners} (rest : Rest i w)
    (unpublished : Unpublished seedLen w.1 i) : Tasks.Begins (deviceSem short) ownersAfter Undisturbed (Sound i) i
      (reload seedLen i) (fun _ v => Rest i v) w := by
  cases i with
  | bloom =>
    intro op k r d first step
    rw [reload, dnsProxyReloadBloomFilter] at first
    simp only [Prog.bind_eq, Prog.perform_bind] at first
    cases first
    obtain ⟨rfl, rfl⟩ := step
    exact ⟨fun j _ => .refl j w, keepsFilter_reload ⟨rfl, rfl, rfl, rfl⟩ rest unpublished⟩
  | list l =>
    cases l with
    | allowlist => exact (keepsList_reloadAllowlist rest unpublished).begins (Undisturbed.refl _)
    | domains =>
      have keeps : KeepsList short .domains (reload seedLen (.list .domains)) (fun _ v => ListRest .domains v) w := by
        rw [reload]
        simp only [Prog.bind_eq, Prog.pure_eq]
        exact Tasks.keeps_bind (Undisturbed.refl _)
          ((keepsList_reloadDomains rest unpublished).mono fun _ v rested => keepsList_rest rested)
      exact keeps.begins (Undisturbed.refl _)

/-! ## Runs -/

/-- The device and the reloads that tasks are at work on. -/
abbrev System := Tasks Store Op Res Device Unit

/-- What the rest of the firmware may change: NVS, flash and files. -/
structure Elsewhere (d d' : Device) : Prop where
  heap : d'.heap = d.heap
  maps : d'.maps = d.maps
  statics : d'.statics = d.statics
  partSize : d'.partSize = d.partSize
  seed : d'.seed = d.seed

/-- A device after a reset, no reload having started. -/
def booted (d : Device) (mounted : Bool) : System :=
  ⟨{ d with statics := { mounted }, maps := fun _ => none }, fun _ => none⟩

/-- The systems reached by reloads that start where `ok` admits them. -/
abbrev ReloadRun (short : Bool) (seedLen : BitVec 32) (ok : System → Store → Prop) : System → System → Prop :=
  Tasks.Run (deviceSem short) (reload seedLen) Elsewhere ok

/-- No other reload of the store is under way, and nothing is published that this one replaces. -/
def MayStart (seedLen : BitVec 32) (x : System) (i : Store) : Prop :=
  x.AtRest i ∧ Unpublished seedLen x.world i

theorem undisturbed_elsewhere (i : Store) (d d' : Device) (owners : Owners) (moved : Elsewhere d d') :
    Undisturbed i (d, owners) (d', owners) := by
  cases i with
  | bloom => exact ⟨congrArg Statics.bloom moved.statics, moved.maps, moved.partSize, moved.seed⟩
  | list l => exact ⟨congrArg (Statics.list · l) moved.statics, fun b owned _ => ⟨owned, congrFun moved.heap b⟩⟩

theorem Rest.undisturbed {i : Store} {w v : Device × Owners} (rest : Rest i w) (moved : Undisturbed i w v) : Rest i v := by
  cases i with
  | bloom =>
    change BloomRest v.1.statics.bloom v.1.maps
    rw [moved.statics, moved.maps]
    exact rest
  | list l => exact ListRest.undisturbed rest moved

theorem Rest.sound {i : Store} {w : Device × Owners} (rest : Rest i w) : Sound i w.1 := by
  cases i with
  | bloom => exact BloomRest.sound rest
  | list l => exact ListRest.sound rest

theorem reloads_agree (short : Bool) (seedLen : BitVec 32) :
    Tasks.Agreement (deviceSem short) (reload seedLen) Elsewhere (MayStart seedLen) ownersAfter Undisturbed Sound Rest where
  refl := .refl
  trans := .trans
  elsewhere i d d' owners moved := undisturbed_elsewhere i d d' owners moved
  rest_stable _ _ _ rest moved := rest.undisturbed moved
  rest_holds _ _ rest := rest.sound
  alone _ _ allowed := allowed.1
  begins _ _ _ allowed rest := reload_begins seedLen rest allowed.2

/-- After a reset every store is at rest. -/
theorem booted_orderly (short : Bool) (d : Device) (mounted : Bool) :
    Tasks.Orderly (deviceSem short) ownersAfter Undisturbed Sound Rest (booted d mounted) fun _ => none where
  one there := by cases there
  working there := by cases there
  resting {i} _ := by
    cases i with
    | bloom => exact ⟨mapsKept_of_none rfl fun _ => rfl, fun ready => absurd ready Bool.false_ne_true⟩
    | list l =>
      refine ⟨⟨none, none, 0⟩, [], ⟨?_, ?_, List.nodup_nil⟩, .nothing⟩
      · cases l <;> rfl
      · exact fun e member => absurd member List.not_mem_nil

/-- **Reloads that start where they may are orderly.** -/
theorem ReloadRun.orderly {short : Bool} {seedLen : BitVec 32} {d : Device} {mounted : Bool} {x : System}
    (run : ReloadRun short seedLen (MayStart seedLen) (booted d mounted) x) :
    ∃ owners, Tasks.Orderly (deviceSem short) ownersAfter Undisturbed Sound Rest x owners :=
  Tasks.Run.orderly (reloads_agree short seedLen) run (booted_orderly short d mounted)

/-- A task is free. -/
theorem ReloadRun.some_free {short : Bool} {seedLen : BitVec 32} {ok : System → Store → Prop} {d : Device}
    {mounted : Bool} {x : System} (run : ReloadRun short seedLen ok (booted d mounted) x) : ∃ t, x.running t = none := by
  obtain ⟨n, free⟩ := Tasks.Run.some_free run ⟨0, fun _ _ => rfl⟩
  exact ⟨n, free n (Nat.le_refl n)⟩

end EspAdblocker.Storage
