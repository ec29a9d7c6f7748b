import EspAdblocker.Storage.DomainList
import EspAdblocker.Storage.Ideal
import EspAdblocker.Storage.Serving

/-!
# Updates that fail

What an update leaves when it returns an error. `update_bloom` works on the
other partition until its last fallible step, so the filter that is loaded
answers as before unless it is read through that partition (`updateBloom_keeps_iff`),
which it is in no state that whole runs reach. `update_domain_list` stores the slot
byte and only then loads the list, after freeing the one that was loaded: it
keeps what was serving unless that load fails (`updateDomainList_ends`).
-/

namespace EspAdblocker.Storage

open EspAdblocker.Lib EspAdblocker.Bloom

variable {short : Bool}

/-! ## Work on the other partition -/

/-- The operation changes nothing the loaded filter depends on when that shows `h` or the seed. -/
def Spares (h : Half) (op : Op) : Prop :=
  KeepsBloom op ∨ RewritesOther h op

/-- Two devices agree on all a filter that shows `h` or the seed depends on. -/
structure SparesPartition (h : Half) (d d' : Device) : Prop where
  slot : d'.nvs.bloomSlot = d.nvs.bloomSlot
  flash : d'.flash h = d.flash h
  partSize : d'.partSize = d.partSize
  seed : d'.seed = d.seed
  maps : d'.maps = d.maps
  statics : d'.statics.bloom = d.statics.bloom

theorem SparesPartition.refl (h : Half) (d : Device) : SparesPartition h d d := ⟨rfl, rfl, rfl, rfl, rfl, rfl⟩

theorem SparesPartition.trans {h : Half} {d e f : Device} (first : SparesPartition h d e) (second : SparesPartition h e f) :
    SparesPartition h d f where
  slot := second.slot.trans first.slot
  flash := second.flash.trans first.flash
  partSize := second.partSize.trans first.partSize
  seed := second.seed.trans first.seed
  maps := second.maps.trans first.maps
  statics := second.statics.trans first.statics

theorem SameBloom.spares {d d' : Device} (same : SameBloom d d') (h : Half) : SparesPartition h d d' :=
  ⟨same.slot, congrFun same.flash h, same.partSize, same.seed, same.maps, same.statics⟩

theorem sparesPartition_withFlash {h k : Half} (differ : k ≠ h) (d : Device) (bytes : List Byte) :
    SparesPartition h d (d.withFlash k bytes) :=
  ⟨rfl, Function.update_of_ne differ.symm _ _, rfl, rfl, rfl, rfl⟩

theorem Spares.step {h : Half} {d d' : Device} {op : Op} {r : Res op} (spares : Spares h op)
    (stepped : Device.step short d op r d') : SparesPartition h d d' := by
  rcases spares with keeps | other
  · exact (keeps.step stepped).spares h
  · obtain ⟨k, bytes, differ, rfl⟩ := other.step stepped
    exact sparesPartition_withFlash differ d bytes

theorem ends_sparesPartition {h : Half} {α : Type} {p : DeviceM α} (only : p.Only (Spares h)) (d : Device) :
    (deviceSem short).Ends p (fun _ d' => SparesPartition h d d') d :=
  Sem.ends_of_only (.refl h) (fun _ _ _ => .trans) (fun _ _ _ _ spares step => spares.step step) only d

/-! ## What a filter is read through -/

/-- The region is a mapping of this partition. -/
def Device.RegionOf (d : Device) (h : Half) (r : Region) : Prop :=
  ∃ handle, r = .mapped handle ∧ d.maps handle = some h

/-- A lookup through these regions reads the other partition: the header is there, or the bits
are, under a header that has them read. -/
def Device.RegionsReadOther (d : Device) (r r' : Region) : Prop :=
  ∃ header bits, d.regionBytes r = some header ∧ d.regionBytes r' = some bits ∧
    (d.RegionOf d.activePartition.other r ∨ d.RegionOf d.activePartition.other r' ∧
      (BloomHeader.ofBytes header).kHashes ≠ 0#32 ∧ (BloomHeader.ofBytes header).mBits ≠ 0#64)

/-- The filter that is ready is read through the partition the active slot does not name. -/
structure ReadsOther (d : Device) : Prop where
  ready : d.statics.bloomReady = true
  reads : ∃ r r', d.statics.bloomHeader = some r ∧ d.statics.bloomBits = some r' ∧ d.RegionsReadOther r r'

/-- The seed, and the partition of the active slot, are not the other one. -/
theorem BloomServing.not_readsOther {d : Device} (serving : BloomServing d) : ¬ ReadsOther d := by
  rintro ⟨ready, r, r', h, b, header, bits, -, -, other⟩
  have impossible {r : Region} : r = .seed ∨ (∃ handle, r = .mapped handle ∧ d.maps handle = some d.activePartition) →
      ¬ d.RegionOf d.activePartition.other r := by
    rintro (rfl | ⟨handle, rfl, shown⟩) ⟨handle', same, mapped⟩
    · cases same
    · cases same
      rw [shown] at mapped
      exact Half.ne_other _ (Option.some.inj mapped)
  cases serving with
  | notReady idle =>
    rw [ready] at idle
    cases idle
  | seed _ h' b' =>
    obtain rfl : .seed = r := Option.some.inj (h'.symm.trans h)
    obtain rfl : .seed = r' := Option.some.inj (b'.symm.trans b)
    exact other.elim (impossible (.inl rfl)) fun read => impossible (.inl rfl) read.1
  | active _ shows =>
    obtain ⟨handle, h', b', live⟩ := shows.shown
    obtain rfl : .mapped handle = r := Option.some.inj (h'.symm.trans h)
    obtain rfl : .mapped handle = r' := Option.some.inj (b'.symm.trans b)
    exact other.elim (impossible (.inr ⟨handle, rfl, live⟩)) fun read => impossible (.inr ⟨handle, rfl, live⟩) read.1

section

variable {d d' : Device} (spared : SparesPartition d.activePartition d d')
include spared

theorem SparesPartition.activePartition : d'.activePartition = d.activePartition := by
  rw [Device.activePartition, Device.activePartition, Nvs.bloomActiveSlot, Nvs.bloomActiveSlot, spared.slot]

/-- The filter keeps showing what it showed. -/
theorem SparesPartition.serving (serving : BloomServing d) : BloomServing d' := by
  have header : d'.statics.bloomHeader = d.statics.bloomHeader := congrArg BloomStatics.header spared.statics
  have bits : d'.statics.bloomBits = d.statics.bloomBits := congrArg BloomStatics.bits spared.statics
  have fromSeed : d'.statics.bloomFromSeed = d.statics.bloomFromSeed := congrArg BloomStatics.fromSeed spared.statics
  cases serving with
  | notReady idle => exact .notReady ((congrArg BloomStatics.ready spared.statics).trans idle)
  | seed fs h b => exact .seed (fromSeed.trans fs) (header.trans h) (bits.trans b)
  | active fs shows =>
    obtain ⟨⟨handle, h, b, live⟩, size, table, accepted⟩ := shows
    refine .active (fromSeed.trans fs) ?_
    rw [spared.activePartition]
    refine ⟨⟨handle, header.trans h, bits.trans b, by rw [spared.maps, live]⟩, size, by rw [spared.partSize, table], ?_⟩
    rwa [spared.flash]

/-- A region that is no mapping of the other partition shows what it showed. -/
theorem SparesPartition.regionBytes_eq {r : Region} (elsewhere : ¬ d.RegionOf d.activePartition.other r) :
    d'.regionBytes r = d.regionBytes r := by
  cases r with
  | seed => rw [Device.regionBytes, Device.regionBytes, spared.seed]
  | mapped handle =>
    rw [Device.regionBytes, Device.regionBytes, spared.maps]
    cases shown : d.maps handle with
    | none => rfl
    | some h =>
      have active : h = d.activePartition :=
        Half.eq_of_ne_other fun other => elsewhere ⟨handle, rfl, shown.trans (congrArg some other)⟩
      rw [Option.map_some, Option.map_some, active, spared.flash]

/-- A region that is dead stays dead, one that is live stays live. -/
theorem SparesPartition.regionBytes_eq_none {r : Region} : d'.regionBytes r = none ↔ d.regionBytes r = none := by
  cases r with
  | seed => simp [Device.regionBytes]
  | mapped handle => simp [Device.regionBytes, spared.maps]

/-- A filter that is not read through the other partition keeps its answers. -/
theorem SparesPartition.bloomAnswer_eq (apart : ¬ ReadsOther d) (domain : List Byte) :
    d'.bloomAnswer domain = d.bloomAnswer domain := by
  have ready : d'.statics.bloomReady = d.statics.bloomReady := congrArg BloomStatics.ready spared.statics
  have header : d'.statics.bloomHeader = d.statics.bloomHeader := congrArg BloomStatics.header spared.statics
  have bits : d'.statics.bloomBits = d.statics.bloomBits := congrArg BloomStatics.bits spared.statics
  rw [Device.bloomAnswer, Device.bloomAnswer, ready]
  cases isReady : d.statics.bloomReady with
  | false => rfl
  | true =>
    refine congrArg some ?_
    rw [Device.bloomTest, Device.bloomTest, header, bits]
    cases h : d.statics.bloomHeader with
    | none => rfl
    | some r =>
    cases b : d.statics.bloomBits with
    | none => simp
    | some r' =>
    simp only [Option.bind_some]
    cases header_shown : d.regionBytes r with
    | none => simp [spared.regionBytes_eq_none.mpr header_shown]
    | some header =>
    cases bits_shown : d.regionBytes r' with
    | none => simp [spared.regionBytes_eq_none.mpr bits_shown]
    | some bits =>
    have unread (reads : d.RegionOf d.activePartition.other r ∨ d.RegionOf d.activePartition.other r' ∧
        (BloomHeader.ofBytes header).kHashes ≠ 0#32 ∧ (BloomHeader.ofBytes header).mBits ≠ 0#64) : False :=
      apart ⟨isReady, r, r', h, b, header, bits, header_shown, bits_shown, reads⟩
    rw [spared.regionBytes_eq fun other => unread (.inl other), header_shown]
    by_cases other : d.RegionOf d.activePartition.other r'
    · have live : d'.regionBytes r' ≠ none := fun dead => by
        rw [spared.regionBytes_eq_none.mp dead] at bits_shown
        cases bits_shown
      obtain ⟨now, shown⟩ := Option.ne_none_iff_exists'.mp live
      rw [shown]
      refine bloomFilterTest_congr_bits (Classical.byContradiction fun read => unread (.inr ⟨other, ?_⟩)) domain
      exact not_or.mp read
    · rw [spared.regionBytes_eq other, bits_shown]

end

/-! ## `update_bloom` -/

section

variable {h : Half} {α β : Type} {d₀ d : Device}

/-- A stretch of work that spares a partition. -/
theorem ends_spares_bind {p : DeviceM α} {f : α → DeviceM β} {Q : β → Device → Prop} (only : p.Only (Spares h))
    (spared : SparesPartition h d₀ d)
    (rest : ∀ a d', SparesPartition h d₀ d' → (deviceSem short).Ends (f a) Q d') :
    (deviceSem short).Ends (p.bind f) Q d :=
  Sem.ends_bind ((ends_sparesPartition only d).mono fun a d' more => rest a d' (spared.trans more))

theorem ends_spares_call {op : Op} {k : Res op → DeviceM β} {Q : β → Device → Prop} (one : Spares h op)
    (spared : SparesPartition h d₀ d)
    (rest : ∀ r d', SparesPartition h d₀ d' → (deviceSem short).Ends (k r) Q d') :
    (deviceSem short).Ends (.call op k) Q d :=
  Sem.ends_call fun r d' step => rest r d' (spared.trans (one.step step))

end

/-- What an update of the filter leaves: on error the partition that was active
and all that shows it, else a filter that serves the new state. -/
def BloomOutcome (d₀ : Device) (err : EspErr) (d : Device) : Prop :=
  if err = .ok then BloomServing d else SparesPartition d₀.activePartition d₀ d

theorem bloomOutcome_of_error {d₀ d : Device} {err : EspErr} (failed : err ≠ .ok)
    (spared : SparesPartition d₀.activePartition d₀ d) : BloomOutcome d₀ err d := by
  rwa [BloomOutcome, if_neg failed]

theorem httpGetToBuffer_only {P : Op → Prop} (url : List Byte) (cap : Nat) (get : P (.httpGet url)) :
    (httpGetToBuffer url cap).Only P := by
  simp only [httpGetToBuffer, Prog.bind_eq, Prog.perform_bind, Prog.pure_eq]
  refine .call get fun reply => ?_
  split
  · trivial
  · trivial
  · split <;> trivial

theorem computeCrc_only {P : Op → Prop} (filter : BloomFilter) (abort : P (.abort .outOfBounds)) :
    (computeCrc filter).Only P := by
  rw [computeCrc]
  split
  · trivial
  · exact .call abort fun impossible => nomatch impossible

theorem flashImage_only {P : Op → Prop} {h : Half} {image : List Byte} (erase : P (.eraseRange h))
    (write : P (.writePartition h image)) : (flashImage h image).Only P := by
  simp only [flashImage, Prog.bind_eq, Prog.perform_bind, Prog.pure_eq]
  refine .call erase fun err => ?_
  split
  · exact .call write fun _ => trivial
  · trivial

section

variable {d₀ d : Device} (seedLen : BitVec 32) (spared : SparesPartition d₀.activePartition d₀ d)
include spared

theorem activateBloom_ends (target : BitVec 8) :
    (deviceSem short).Ends (activateBloom seedLen target) (BloomOutcome d₀) d := by
  simp only [activateBloom, Prog.bind_eq, Prog.perform_bind, Prog.pure_eq]
  refine Sem.ends_call fun err d₁ stored => ?_
  split
  · refine Sem.ends_bind ((dnsProxyReloadBloomFilter_ends seedLen d₁).mono fun _ d₂ loaded => Sem.ends_ret ?_)
    exact loaded.2
  · rename_i failed
    obtain rfl : d₁ = d := by simpa [deviceSem, Device.step, failed] using stored
    exact Sem.ends_ret (bloomOutcome_of_error failed spared)

theorem installBloom_ends {target : BitVec 8} (other : halfOf target ≠ d₀.activePartition) (buf : Nat) (image : List Byte) :
    (deviceSem short).Ends (installBloom seedLen target buf image) (BloomOutcome d₀) d := by
  have keeps {op : Op} (h : KeepsBloom op) : Spares d₀.activePartition op := .inl h
  have flashes : (flashImage (halfOf target) image).Only (Spares d₀.activePartition) :=
    flashImage_only (.inr ⟨_, other, .inl rfl⟩) (.inr ⟨_, other, .inr ⟨image, rfl⟩⟩)
  simp only [installBloom, Prog.bind_eq, Prog.perform_bind, Prog.pure_eq]
  split
  · exact ends_spares_call (keeps trivial) spared fun _ _ spared => Sem.ends_ret (bloomOutcome_of_error nofun spared)
  · refine ends_spares_bind (computeCrc_only _ (keeps trivial)) spared fun crc d₁ spared => ?_
    split
    · refine ends_spares_bind flashes spared fun err d₂ spared => ?_
      refine ends_spares_call (keeps trivial) spared fun _ d₃ spared => ?_
      split
      · exact activateBloom_ends seedLen spared target
      · rename_i failed
        exact Sem.ends_ret (bloomOutcome_of_error failed spared)
    · exact ends_spares_call (keeps trivial) spared fun _ _ spared => Sem.ends_ret (bloomOutcome_of_error nofun spared)

end

/-- **An update of the filter that fails** spares the partition in use. -/
theorem updateBloom_ends (seedLen : BitVec 32) (baseUrl : List Byte) (d : Device) :
    (deviceSem short).Ends (updateBloom seedLen baseUrl) (BloomOutcome d) d := by
  have keeps {op : Op} (h : KeepsBloom op) : Spares d.activePartition op := .inl h
  have same := SparesPartition.refl d.activePartition d
  simp only [updateBloom, Prog.bind_eq, Prog.perform_bind, Prog.pure_eq]
  refine Sem.ends_call fun slot d₁ ⟨read, unchanged⟩ => ?_
  subst unchanged read
  refine ends_spares_call (keeps trivial) same fun size d₂ spared => ?_
  split
  · exact Sem.ends_ret (bloomOutcome_of_error nofun spared)
  refine ends_spares_call (keeps trivial) spared fun buf d₃ spared => ?_
  split
  · exact Sem.ends_ret (bloomOutcome_of_error nofun spared)
  refine ends_spares_bind (httpGetToBuffer_only _ _ (keeps trivial)) spared fun got d₄ spared => ?_
  split
  · exact ends_spares_call (keeps trivial) spared fun _ _ spared => Sem.ends_ret (bloomOutcome_of_error nofun spared)
  · exact installBloom_ends seedLen spared (by simp [Device.activePartition]) _ _

/-- Where the filter depends on nothing that changed, its answers are the same. -/
theorem SameBloom.bloomAnswer_eq {d d' : Device} (same : SameBloom d d') (domain : List Byte) :
    d'.bloomAnswer domain = d.bloomAnswer domain := by
  have ready : d'.statics.bloomReady = d.statics.bloomReady := congrArg BloomStatics.ready same.statics
  have header : d'.statics.bloomHeader = d.statics.bloomHeader := congrArg BloomStatics.header same.statics
  have bits : d'.statics.bloomBits = d.statics.bloomBits := congrArg BloomStatics.bits same.statics
  have regions : d'.regionBytes = d.regionBytes := by
    funext r
    cases r <;> simp only [Device.regionBytes, same.seed, same.maps, same.flash]
  simp only [Device.bloomAnswer, Device.bloomTest, ready, header, bits, regions]

/-! ### What an update that fails can reach -/

/-- An update can get as far as the flash: the table lists the other partition, with room
for a header, and memory for a download is free. -/
structure Rewritable (d : Device) : Prop where
  partition : ∃ size, d.partSize d.activePartition.other = some size ∧ bloomHeaderLen ≤ size.toNat
  memory : ∃ block, d.heap block = none

theorem length_readBody_le {cap : Nat} {written : List Byte} (fits : written.length ≤ cap) (chunks : List (List Byte)) :
    (readBody cap written chunks).length ≤ cap := by
  induction chunks generalizing written with
  | nil => exact fits
  | cons chunk chunks ih =>
    rw [readBody]
    split
    · dsimp only
      split
      · exact fits
      · refine ih ?_
        rw [List.length_append, List.length_take]
        omega
    · exact fits

theorem httpGetToBuffer_ends (url : List Byte) (cap : Nat) (d : Device) :
    (deviceSem short).Ends (httpGetToBuffer url cap) (fun got d' => d' = d ∧ got.2.length ≤ cap) d := by
  simp only [httpGetToBuffer, Prog.bind_eq, Prog.perform_bind, Prog.pure_eq]
  refine Sem.ends_call fun reply d₁ same => ?_
  obtain rfl : d₁ = d := same
  split
  · exact Sem.ends_ret ⟨rfl, Nat.zero_le _⟩
  · exact Sem.ends_ret ⟨rfl, Nat.zero_le _⟩
  · split
    · exact Sem.ends_ret ⟨rfl, length_readBody_le (Nat.zero_le _) _⟩
    · exact Sem.ends_ret ⟨rfl, Nat.zero_le _⟩

/-- **Without room or memory an update of the filter leaves all the filter depends on.** -/
theorem updateBloom_ends_of_not_rewritable (seedLen : BitVec 32) (baseUrl : List Byte) {d : Device}
    (kept : ¬ Rewritable d) : (deviceSem short).Ends (updateBloom seedLen baseUrl) (fun _ d' => SameBloom d d') d := by
  simp only [updateBloom, Prog.bind_eq, Prog.perform_bind, Prog.pure_eq]
  refine Sem.ends_call fun slot d₁ ⟨read, unchanged⟩ => Sem.ends_call fun size d₂ ⟨listed, unchanged'⟩ => ?_
  subst unchanged read unchanged'
  rw [halfOf_targetSlot] at listed
  cases size with
  | none => exact Sem.ends_ret (.refl d₂)
  | some size =>
  refine Sem.ends_call fun buf d₃ allocated => ?_
  have keeps : KeepsBloom (.mallocChars size.toNat) := trivial
  have same₃ : SameBloom d₂ d₃ := @KeepsBloom.step short d₂ d₃ _ buf keeps allocated
  cases buf with
  | none => exact Sem.ends_ret same₃
  | some buf =>
  have small : size.toNat < bloomHeaderLen :=
    Nat.lt_of_not_le fun room => kept ⟨⟨size, listed.symm, room⟩, buf, allocated.1⟩
  refine Sem.ends_bind ((httpGetToBuffer_ends _ _ d₃).mono ?_)
  rintro got d₄ ⟨rfl, fits⟩
  have frees : KeepsBloom (.free buf) := trivial
  split
  · exact Sem.ends_call fun _ d₅ freed => Sem.ends_ret (same₃.trans (@KeepsBloom.step short _ d₅ _ () frees freed))
  · have rejected : bloomFilterInit got.2 (BitVec.ofNat 32 got.2.length) = none := by
      have short : got.2.length < bloomHeaderLen := Nat.lt_of_le_of_lt fits small
      rw [bloomFilterInit, if_pos]
      rw [BitVec.lt_def, BitVec.toNat_ofNat, BitVec.toNat_ofNat]
      exact Nat.lt_of_le_of_lt (Nat.mod_le _ _) short
    simp only [installBloom, Prog.bind_eq, Prog.perform_bind, Prog.pure_eq, rejected]
    exact Sem.ends_call fun _ d₅ freed => Sem.ends_ret (same₃.trans (@KeepsBloom.step short _ d₅ _ () frees freed))

/-- Two devices that differ in memory, and in that the second's partition holds these bytes. -/
structure Rewrites (h : Half) (bytes : List Byte) (d d' : Device) : Prop where
  flash : d'.flash = Function.update d.flash h bytes
  nvs : d'.nvs = d.nvs
  seed : d'.seed = d.seed
  maps : d'.maps = d.maps
  statics : d'.statics = d.statics

section

variable {h : Half} {bytes : List Byte} {d d' : Device} (rewritten : Rewrites h bytes d d')
include rewritten

theorem Rewrites.regionBytes {r : Region} (here : d.RegionOf h r) : d'.regionBytes r = some bytes := by
  obtain ⟨handle, rfl, shown⟩ := here
  rw [Device.regionBytes, rewritten.maps, shown, rewritten.flash, Option.map_some, Function.update_self]

theorem Rewrites.regionBytes_of_not {r : Region} (elsewhere : ¬ d.RegionOf h r) : d'.regionBytes r = d.regionBytes r := by
  cases r with
  | seed => rw [Device.regionBytes, Device.regionBytes, rewritten.seed]
  | mapped handle =>
    rw [Device.regionBytes, Device.regionBytes, rewritten.maps, rewritten.flash]
    cases shown : d.maps handle with
    | none => rfl
    | some k =>
      have apart : k ≠ h := fun same => elsewhere ⟨handle, rfl, shown.trans (congrArg some same)⟩
      rw [Option.map_some, Option.map_some, Function.update_of_ne apart]

/-- A region that is live stays live. -/
theorem Rewrites.exists_regionBytes {r : Region} {shown : List Byte} (live : d.regionBytes r = some shown) :
    ∃ now, d'.regionBytes r = some now := by
  by_cases here : d.RegionOf h r
  · exact ⟨bytes, rewritten.regionBytes here⟩
  · exact ⟨shown, (rewritten.regionBytes_of_not here).trans live⟩

end

/-- **What can be left in the other partition changes the answers of a filter that is read through it.** -/
theorem ReadsOther.exists_differ {d : Device} (reads : ReadsOther d) : ∃ bytes bytes', ∀ e e',
    Rewrites d.activePartition.other bytes d e → Rewrites d.activePartition.other bytes' d e' →
      e.bloomAnswer [] ≠ e'.bloomAnswer [] := by
  obtain ⟨ready, r, r', h, b, header, bits, header_shown, bits_shown, other⟩ := reads
  have answer {e : Device} {bytes H B : List Byte} (rewritten : Rewrites d.activePartition.other bytes d e)
      (shows : e.regionBytes r = some H) (shows' : e.regionBytes r' = some B) :
      e.bloomAnswer [] = some (bloomFilterTest ⟨.ofBytes H, B.drop bloomHeaderLen⟩ []) := by
    simp [Device.bloomAnswer, Device.bloomTest, rewritten.statics, ready, h, b, shows, shows']
  by_cases in_header : d.RegionOf d.activePartition.other r
  · -- a header without hashes says yes, one without bits divides by zero
    have no_hashes : (BloomHeader.ofBytes []).kHashes = 0#32 := by decide +kernel
    have hashes : (BloomHeader.ofBytes (sampleImage 0 [])).kHashes ≠ 0#32 := by decide +kernel
    have no_bits : (BloomHeader.ofBytes (sampleImage 0 [])).mBits = 0#64 := by decide +kernel
    refine ⟨[], sampleImage 0 [], fun e e' first second same => ?_⟩
    obtain ⟨B, shown⟩ := first.exists_regionBytes bits_shown
    obtain ⟨B', shown'⟩ := second.exists_regionBytes bits_shown
    rw [answer first (first.regionBytes in_header) shown, answer second (second.regionBytes in_header) shown',
      bloomFilterTest_of_no_hashes no_hashes, bloomFilterTest_remainderByZero hashes no_bits] at same
    cases same
  · -- under a header that reads bits, no bits are out of bounds and enough bits are not
    obtain ⟨in_bits, hashes, nonzero⟩ := other.resolve_left in_header
    let mBits := (BloomHeader.ofBytes header).mBits
    refine ⟨[], List.replicate (bloomHeaderLen + (mBits.toNat + 7) / 8) 0#8, fun e e' first second same => ?_⟩
    have enough : Answers mBits ((List.replicate (bloomHeaderLen + (mBits.toNat + 7) / 8) 0#8).drop bloomHeaderLen) :=
      ⟨nonzero, by simp⟩
    rw [answer first ((first.regionBytes_of_not in_header).trans header_shown) (first.regionBytes in_bits),
      answer second ((second.regionBytes_of_not in_header).trans header_shown) (second.regionBytes in_bits),
      List.drop_nil, bloomFilterTest_outOfBounds hashes nonzero, bloomFilterTest_eq enough] at same
    cases same

/-- A download of one piece that fits. -/
theorem runs_httpGetToBuffer (url : List Byte) {cap : Nat} {body : List Byte} (some_byte : body ≠ [])
    (fits : body.length ≤ cap) (d : Device) :
    (deviceSem short).Runs (httpGetToBuffer url cap) d (toLong body.length, body) d := by
  have room : ([] : List Byte).length < cap := Nat.lt_of_lt_of_le (List.length_pos_iff.mpr some_byte) fits
  have read : readBody cap [] [body] = body := by
    rw [readBody, if_pos room]
    simp only [List.length_nil, Nat.sub_zero, List.take_of_length_le fits, if_neg some_byte, List.nil_append, readBody]
  simp only [httpGetToBuffer, Prog.bind_eq, Prog.perform_bind, Prog.pure_eq]
  refine ⟨.response 200 [body], d, rfl, ?_⟩
  simp only [if_true, read]
  exact ⟨rfl, rfl⟩

/-- An installation whose erase fails, having spoilt the partition. -/
theorem runs_installBloom_erase (seedLen : BitVec 32) (target : BitVec 8) (buf : Nat) (bytes : List Byte) (d : Device) :
    (deviceSem short).Runs (installBloom seedLen target buf (sampleImage 0 [])) d .fail
      ((d.withFlash (halfOf target) bytes).withBlock buf none) := by
  have accepted : bloomFilterInit (sampleImage 0 []) (BitVec.ofNat 32 (sampleImage 0 []).length) =
      some ⟨.ofBytes (sampleImage 0 []), []⟩ := by decide +kernel
  have checked : computeCrc ⟨.ofBytes (sampleImage 0 []), []⟩ = .ret (BloomHeader.ofBytes (sampleImage 0 [])).crc32 := by
    have none_read : (BloomHeader.ofBytes (sampleImage 0 [])).bitarrayBytes.toNat = 0 := by decide +kernel
    have empty : crc32Ieee [] = (BloomHeader.ofBytes (sampleImage 0 [])).crc32 := by decide +kernel
    rw [computeCrc, none_read, if_pos (Nat.zero_le _), List.take_zero, empty]
    rfl
  simp only [installBloom, Prog.bind_eq, Prog.perform_bind, Prog.pure_eq, accepted, checked, Prog.ret_bind, if_true,
    flashImage, Prog.call_bind]
  exact ⟨.fail, d.withFlash (halfOf target) bytes, ⟨bytes, rfl⟩, (), _, rfl, rfl, rfl⟩

/-- **With room and memory an update of the filter can fail and leave anything in the
other partition**: an erase that fails, after a download that passes every check. -/
theorem exists_failed_rewrite (seedLen : BitVec 32) (baseUrl : List Byte) {d : Device} (can : Rewritable d)
    (bytes : List Byte) : ∃ d', (deviceSem short).Runs (updateBloom seedLen baseUrl) d .fail d' ∧
      Rewrites d.activePartition.other bytes d d' := by
  obtain ⟨⟨size, listed, room⟩, block, unused⟩ := can
  let allocated := d.withBlock block (some (.chars (List.replicate size.toNat 0#8)))
  have fits : (sampleImage 0 []).length ≤ size.toNat := room
  have downloads : (deviceSem short).Runs (httpGetToBuffer (urlOf baseUrl "/bloom.bin") size.toNat) allocated _ allocated :=
    runs_httpGetToBuffer _ (by decide) fits allocated
  have positive : ¬ toLong (sampleImage 0 []).length ≤ 0 := by decide
  have installs : (deviceSem short).Runs (installBloom seedLen (targetSlot d.nvs.bloomActiveSlot) block _) allocated _ _ :=
    runs_installBloom_erase seedLen _ block bytes allocated
  refine ⟨(allocated.withFlash (halfOf (targetSlot d.nvs.bloomActiveSlot)) bytes).withBlock block none, ?_, ?_⟩
  · simp only [updateBloom, Prog.bind_eq, Prog.perform_bind, Prog.pure_eq]
    refine ⟨_, d, ⟨rfl, rfl⟩, some size, d, ⟨?_, rfl⟩, some block, allocated, ⟨unused, _, List.length_replicate, rfl⟩, ?_⟩
    · rw [halfOf_targetSlot]
      exact listed.symm
    · refine Sem.runs_bind.mpr ⟨_, _, downloads, ?_⟩
      rw [if_neg positive]
      exact installs
  · rw [halfOf_targetSlot]
    exact ⟨rfl, rfl, rfl, rfl, rfl⟩

/-! ## Work on the other file -/

/-- The operation changes no NVS key, no static and no heap block. -/
def FileWork : Op → Prop
  | .getListSlot | .readStatics | .httpGet _ => True
  | .fopenWrite _ | .fwrite _ _ | .fcloseWrite _ | .remove _ | .fopenRead _ | .readAll _ => True
  | _ => False

/-- Two devices agree on the NVS keys and on memory. -/
structure SameMemory (d d' : Device) : Prop where
  nvs : d'.nvs = d.nvs
  statics : d'.statics = d.statics
  heap : d'.heap = d.heap

theorem SameMemory.refl (d : Device) : SameMemory d d := ⟨rfl, rfl, rfl⟩

theorem SameMemory.trans {d e f : Device} (h : SameMemory d e) (k : SameMemory e f) : SameMemory d f :=
  ⟨k.nvs.trans h.nvs, k.statics.trans h.statics, k.heap.trans h.heap⟩

theorem FileWork.step {d d' : Device} {op : Op} {r : Res op} (h : FileWork op)
    (stepped : Device.step short d op r d') : SameMemory d d' := by
  cases op with
  | getListSlot | readStatics | fopenRead | readAll => obtain rfl := stepped.2; exact .refl d'
  | httpGet => obtain rfl := stepped; exact .refl d'
  | fopenWrite | fwrite | fcloseWrite | remove =>
    simp only [Device.step] at stepped
    split at stepped
    · subst stepped; exact ⟨rfl, rfl, rfl⟩
    · obtain ⟨content, rfl⟩ := stepped; exact ⟨rfl, rfl, rfl⟩
  | _ => exact h.elim

/-- What a list update that fails must leave: the slot byte, and the answer on every name. -/
structure ListServesAs (bs : Bsearch) (d d' : Device) : Prop where
  slot : d'.nvs.exactListActiveSlot = d.nvs.exactListActiveSlot
  confirm : ∀ domain, d'.sdStorageConfirm bs domain = d.sdStorageConfirm bs domain

theorem SameMemory.strings {d d' : Device} (same : SameMemory d d') : d'.strings = d.strings := by
  have one : d'.stringAt = d.stringAt := by
    funext pointer
    cases pointer with
    | none => rfl
    | some pointer => simp only [Device.stringAt, same.heap]
  funext array count
  simp only [Device.strings, same.heap, one]

theorem SameMemory.listServesAs {d d' : Device} (same : SameMemory d d') (bs : Bsearch) : ListServesAs bs d d' where
  slot := by rw [same.nvs]
  confirm domain := by simp only [Device.sdStorageConfirm, same.statics, same.strings]

theorem SameMemory.listServesAs_iff {d e : Device} (same : SameMemory d e) (bs : Bsearch) (d' : Device) :
    ListServesAs bs e d' ↔ ListServesAs bs d d' := by
  have back := same.listServesAs bs
  constructor
  · exact fun h => ⟨h.slot.trans back.slot, fun domain => (h.confirm domain).trans (back.confirm domain)⟩
  · exact fun h => ⟨h.slot.trans back.slot.symm, fun domain => (h.confirm domain).trans (back.confirm domain).symm⟩

/-! ## The load that follows an activation -/

/-- A recorded operation that makes a load fail: no file to open, a size that is
not positive, memory refused, or bytes without a newline. -/
def LoadFailure : Event → Prop
  | ⟨.fopenRead .legacy, opened⟩ => opened = false
  | ⟨.fileSize _, size⟩ => size ≤ 0
  | ⟨.mallocChars _, block⟩ => block = none
  | ⟨.mallocPtrs _, block⟩ => block = none
  | ⟨.fread _ _, read⟩ => read.count 10#8 = 0
  | _ => False

/-- A recorded activation of a list. -/
def Activates : Event → Prop
  | ⟨.setListSlot _, err⟩ => err = .ok
  | _ => False

/-- The slot byte was stored and a load failed after it. -/
def ActivationLost : List Event → Prop
  | [] => False
  | e :: rest => (Activates e ∧ ∃ f ∈ rest, LoadFailure f) ∨ ActivationLost rest

theorem activationLost_of_none {tr : List Event} (h : ∀ e ∈ tr, ¬ Activates e) : ¬ ActivationLost tr := by
  induction tr with
  | nil => exact id
  | cons e rest ih =>
    rintro (⟨activates, -⟩ | later)
    · exact h e List.mem_cons_self activates
    · exact ih (fun f member => h f (List.mem_cons_of_mem e member)) later

theorem activationLost_append {pre : List Event} (h : ∀ e ∈ pre, ¬ Activates e) (post : List Event) :
    ActivationLost (pre ++ post) ↔ ActivationLost post := by
  induction pre with
  | nil => rfl
  | cons e rest ih =>
    have first := h e List.mem_cons_self
    simp only [List.cons_append, ActivationLost, first, false_and, false_or]
    exact ih fun f member => h f (List.mem_cons_of_mem e member)

/-- The operations that free the loaded list. -/
def Releases : Op → Prop
  | .readStatics | .free _ => True
  | .assign update => ∀ s, (update s).mounted = s.mounted
  | _ => False

theorem Releases.mounted {d d' : Device} {op : Op} {r : Res op} (h : Releases op)
    (stepped : Device.step short d op r d') : d'.statics.mounted = d.statics.mounted := by
  cases op with
  | readStatics => obtain rfl := stepped.2; rfl
  | free => obtain rfl := stepped; rfl
  | assign update => obtain rfl := stepped; exact h d.statics
  | _ => exact h.elim

theorem releaseDomainList_releases : releaseDomainList.Only Releases :=
  releaseDomainList_only trivial (fun _ => trivial) fun _ kept s => (kept s).2

/-- Freeing the list leaves the card mounted, or not mounted. -/
theorem releaseDomainList_mounted (d : Device) :
    (deviceSem short).Ends releaseDomainList (fun _ d' => d'.statics.mounted = d.statics.mounted) d :=
  Sem.ends_of_only (R := fun d d' : Device => d'.statics.mounted = d.statics.mounted) (fun _ => rfl)
    (fun _ _ _ h k => k.trans h) (fun _ _ _ _ releases step => releases.mounted step) releaseDomainList_releases d

/-- The load returned an error if and only if it recorded a failure. -/
def FailsRecorded (err : EspErr) (v : Device × List Event) : Prop :=
  err ≠ .ok ↔ ∃ e ∈ v.2, LoadFailure e

theorem installDomainList_recorded (buf : Nat) {read : List Byte} (some_line : read.count 10#8 ≠ 0) (d : Device) :
    (deviceSem short).traced.Ends (installDomainList buf read) FailsRecorded (d, []) := by
  simp only [installDomainList, Prog.bind_eq, Prog.perform_bind, Prog.pure_eq, if_neg some_line]
  refine Sem.ends_traced_call fun _ d₁ _ => Sem.ends_traced_call fun lines d₂ _ => Sem.ends_traced_call fun _ d₃ _ => ?_
  cases lines with
  | none =>
    refine Sem.ends_traced_call fun _ d₄ _ => Sem.ends_traced_call fun _ d₅ _ => Sem.ends_ret ?_
    simp [FailsRecorded, LoadFailure]
  | some lines =>
    refine Sem.ends_traced_call fun _ d₄ _ => Sem.ends_traced_call fun _ d₅ _ => Sem.ends_traced_call fun _ d₆ _ =>
      Sem.ends_ret ?_
    simp [FailsRecorded, LoadFailure]

theorem readDomainList_recorded (f : DomainFile) (d : Device) :
    (deviceSem short).traced.Ends (readDomainList f) FailsRecorded (d, []) := by
  simp only [readDomainList, Prog.bind_eq, Prog.perform_bind, Prog.pure_eq]
  refine Sem.ends_traced_call fun size d₁ _ => ?_
  split
  · rename_i empty
    apply Sem.ends_ret
    simp [FailsRecorded, LoadFailure, empty]
  rename_i positive
  refine Sem.ends_traced_call fun buf d₂ _ => Sem.ends_traced_call fun _ d₃ _ => ?_
  cases buf with
  | none =>
    apply Sem.ends_ret
    simp [FailsRecorded, LoadFailure, positive]
  | some buf =>
    refine Sem.ends_traced_call fun read d₄ _ => ?_
    by_cases no_line : read.count 10#8 = 0
    · simp only [installDomainList, Prog.bind_eq, Prog.perform_bind, Prog.pure_eq, if_pos no_line]
      refine Sem.ends_traced_call fun _ d₅ _ => Sem.ends_traced_call fun _ d₆ _ => Sem.ends_traced_call fun _ d₇ _ =>
        Sem.ends_ret ?_
      simp [FailsRecorded, LoadFailure, positive, no_line]
    · refine (installDomainList_recorded buf no_line d₄).mono fun err v recorded => ?_
      simpa [FailsRecorded, LoadFailure, positive, no_line] using recorded

/-- **A load fails exactly when it records a failure**, on a card that is mounted. -/
theorem sdStorageLoadDomainList_recorded {d : Device} (mounted : d.statics.mounted = true) :
    (deviceSem short).traced.Ends sdStorageLoadDomainList FailsRecorded (d, []) := by
  simp only [sdStorageLoadDomainList, Prog.bind_eq, Prog.perform_bind, Prog.pure_eq]
  have kept : (deviceSem short).Ends releaseDomainList _ d := releaseDomainList_mounted d
  have released := (kept.traced []).and (Sem.ends_traced_only releaseDomainList_releases d)
  refine Sem.ends_traced_bind (released.mono ?_)
  rintro _ ⟨d₁, tr⟩ ⟨mounted₁, quiet⟩
  have silent : ¬ ∃ e ∈ tr, LoadFailure e := by
    rintro ⟨⟨op, r⟩, member, failure⟩
    have releases := quiet _ member
    cases op <;> first | exact failure | exact releases
  refine Sem.ends_traced_call fun s d₂ done => ?_
  obtain ⟨read, same⟩ := done
  subst same read
  rw [if_pos (mounted₁.trans mounted)]
  refine Sem.ends_traced_call fun slot d₃ done => ?_
  obtain ⟨read, same⟩ := done
  subst same read
  simp only [openDomainList, Prog.bind_eq, Prog.perform_bind, Prog.pure_eq, Prog.call_bind]
  refine Sem.ends_traced_call fun opened d₄ _ => ?_
  have recorded (pre : List Event) (quiet : ∀ e ∈ pre, ¬ LoadFailure e) (f : DomainFile) (e : Device) :
      (deviceSem short).traced.Ends (readDomainList f) (fun err v =>
        FailsRecorded err (v.1, tr ++ (pre ++ v.2))) (e, []) := by
    refine (readDomainList_recorded f e).mono fun err v recorded => ?_
    simp only [FailsRecorded, List.mem_append, or_and_right, exists_or] at recorded ⊢
    have none_before : ¬ ∃ e ∈ pre, LoadFailure e := by
      rintro ⟨e, member, failure⟩
      exact quiet e member failure
    simp only [silent, none_before, false_or]
    exact recorded
  cases opened with
  | true => exact recorded [_, _, _] (by simp [LoadFailure]) _ _
  | false =>
    refine Sem.ends_traced_call fun opened d₅ _ => ?_
    cases opened with
    | true => exact recorded [_, _, _, _] (by simp [LoadFailure]) _ _
    | false => exact Sem.ends_ret (iff_of_true (fun impossible => by cases impossible) ⟨⟨.fopenRead .legacy, false⟩, by simp, rfl⟩)

/-! ## `update_domain_list` -/

/-- An error leaves what was serving if and only if no activation was lost. -/
def ListOutcome (bs : Bsearch) (d : Device) (err : EspErr) (v : Device × List Event) : Prop :=
  (err ≠ .ok → ListServesAs bs d v.1) ↔ ¬ ActivationLost v.2

section

variable {α β : Type} {bs : Bsearch} {d : Device}

theorem ends_fileWork_ret {err : EspErr} : (deviceSem short).traced.Ends (.ret err) (ListOutcome bs d) (d, []) :=
  Sem.ends_ret (iff_of_true (fun _ => (SameMemory.refl d).listServesAs bs) id)

theorem FileWork.not_activates {e : Event} (work : FileWork e.1) : ¬ Activates e := by
  obtain ⟨op, r⟩ := e
  intro activates
  cases op <;> first | exact activates | exact work

/-- The outcome does not depend on what was done before to neither the NVS nor memory. -/
theorem ListOutcome.after {d' : Device} {tr : List Event} (same : SameMemory d d') (quiet : ∀ e ∈ tr, ¬ Activates e)
    {err : EspErr} {v : Device × List Event} (outcome : ListOutcome bs d' err v) :
    ListOutcome bs d err (v.1, tr ++ v.2) := by
  rw [ListOutcome, activationLost_append quiet]
  simpa only [ListOutcome, same.listServesAs_iff] using outcome

/-- A stretch of work that touches neither the NVS nor memory. -/
theorem ends_fileWork_bind {p : DeviceM α} {f : α → DeviceM EspErr} (only : p.Only FileWork)
    (rest : ∀ a d', SameMemory d d' → (deviceSem short).traced.Ends (f a) (ListOutcome bs d') (d', [])) :
    (deviceSem short).traced.Ends (p.bind f) (ListOutcome bs d) (d, []) := by
  have same : (deviceSem short).Ends p (fun _ d' => SameMemory d d') d :=
    Sem.ends_of_only .refl (fun _ _ _ => .trans) (fun _ _ _ _ work step => work.step step) only d
  refine Sem.ends_traced_bind (((same.traced []).and (Sem.ends_traced_only only d)).mono ?_)
  rintro a ⟨d', tr⟩ ⟨same, work⟩
  exact (rest a d' same).mono fun err v outcome => outcome.after same fun e member => (work e member).not_activates

theorem ends_fileWork_call {op : Op} {k : Res op → DeviceM EspErr} (work : FileWork op)
    (rest : ∀ r d', (deviceSem short).step d op r d' → SameMemory d d' →
      (deviceSem short).traced.Ends (k r) (ListOutcome bs d') (d', [])) :
    (deviceSem short).traced.Ends (.call op k) (ListOutcome bs d) (d, []) := by
  refine Sem.ends_traced_call fun r d' step => ?_
  have same : SameMemory d d' := work.step step
  refine (rest r d' step same).mono fun err v outcome => ?_
  have quiet : ∀ e ∈ [(⟨op, r⟩ : Event)], ¬ Activates e := by
    rintro e (_ | ⟨_, ⟨⟩⟩)
    exact FileWork.not_activates work
  exact outcome.after same quiet

theorem targetSlot_ne (active : BitVec 8) : targetSlot active ≠ active := by
  intro same
  have other := halfOf_targetSlot active
  rw [same] at other
  exact Half.ne_other _ other

theorem activateDomainList_ends {target : BitVec 8} (mounted : d.statics.mounted = true)
    (chosen : target = targetSlot d.nvs.exactListActiveSlot) :
    (deviceSem short).traced.Ends (activateDomainList target) (ListOutcome bs d) (d, []) := by
  simp only [activateDomainList, Prog.bind_eq, Prog.perform_bind, Prog.pure_eq]
  refine Sem.ends_traced_call fun err d₁ stored => ?_
  by_cases ok : err = .ok
  · subst ok
    obtain rfl : d₁ = { d with nvs := { d.nvs with listSlot := some target } } := by
      simpa [deviceSem, Device.step] using stored
    rw [if_pos rfl]
    generalize flipped : { d with nvs := { d.nvs with listSlot := some target } } = d₂ at stored ⊢
    have mounted₂ : d₂.statics.mounted = true := by rwa [← flipped]
    have volatile : (deviceSem short).Ends sdStorageLoadDomainList (fun _ d' => SamePersistent d₂ d') d₂ :=
      ends_samePersistent (sdStorageLoadDomainList_listLoads.mono fun _ h => h.1) d₂
    refine (((volatile.traced []).and (Sem.ends_traced_only sdStorageLoadDomainList_listLoads d₂)).and
      (sdStorageLoadDomainList_recorded mounted₂)).mono ?_
    rintro err ⟨d', post⟩ ⟨⟨kept, loads⟩, recorded⟩
    have moved : ¬ ListServesAs bs d d' := by
      intro serves
      have slot := serves.slot
      rw [kept.nvs, ← flipped] at slot
      exact targetSlot_ne _ (chosen.symm.trans slot)
    have quiet : ¬ ActivationLost post := by
      refine activationLost_of_none fun e member activates => ?_
      obtain ⟨op, r⟩ := e
      have volatile := (loads _ member).1
      cases op <;> first | exact activates | exact volatile
    simp only [ListOutcome, ActivationLost, moved, quiet, or_false, imp_false]
    exact not_congr (recorded.trans (and_iff_right rfl).symm)
  · obtain rfl : d₁ = d := by simpa [deviceSem, Device.step, ok] using stored
    rw [if_neg ok]
    refine Sem.ends_ret (iff_of_true (fun _ => (SameMemory.refl d₁).listServesAs bs) ?_)
    rintro (⟨activates, -⟩ | lost)
    · exact ok activates
    · exact lost

theorem checkDomainList_ends (sha : Sha256) {target : BitVec 8} (shaResp : List Byte) (mounted : d.statics.mounted = true)
    (chosen : target = targetSlot d.nvs.exactListActiveSlot) :
    (deviceSem short).traced.Ends (checkDomainList sha target shaResp) (ListOutcome bs d) (d, []) := by
  have hashes (f : DomainFile) : (sha256File sha f).Only FileWork := by
    simp only [sha256File, Prog.bind_eq, Prog.perform_bind, Prog.pure_eq]
    refine .call trivial fun opened => ?_
    split
    · trivial
    · exact .call trivial fun _ => trivial
  simp only [checkDomainList, Prog.bind_eq, Prog.perform_bind, Prog.pure_eq]
  refine ends_fileWork_bind (hashes _) fun digest d₁ same => ?_
  split
  · exact ends_fileWork_call trivial fun _ _ _ _ => ends_fileWork_ret
  split
  · exact ends_fileWork_call trivial fun _ _ _ _ => ends_fileWork_ret
  · exact activateDomainList_ends (by rwa [same.statics]) (by rwa [same.nvs])

theorem writeBody_only {P : Op → Prop} {f : DomainFile} (write : ∀ bytes, P (.fwrite f bytes)) (written : Nat)
    (chunks : List (List Byte)) : (writeBody f written chunks).Only P := by
  induction chunks generalizing written with
  | nil => trivial
  | cons chunk chunks ih =>
    simp only [writeBody, Prog.bind_eq, Prog.perform_bind, Prog.pure_eq]
    split
    · trivial
    · exact .call (write _) fun _ => ih _

theorem httpGetToFile_only {P : Op → Prop} {f : DomainFile} (url : List Byte) (get : P (.httpGet url))
    (opens : P (.fopenWrite f)) (write : ∀ bytes, P (.fwrite f bytes)) (close : P (.fcloseWrite f)) :
    (httpGetToFile url f).Only P := by
  simp only [httpGetToFile, Prog.bind_eq, Prog.perform_bind, Prog.pure_eq]
  refine .call get fun reply => ?_
  split
  · trivial
  · trivial
  split
  · refine .call opens fun opened => ?_
    split
    · trivial
    · exact (writeBody_only write _ _).bind fun _ => .call close fun _ => trivial
  · trivial

/-- **An update of the list that fails** keeps what was serving exactly when no
activation was lost to a failed load. -/
theorem updateDomainList_ends (sha : Sha256) (baseUrl : List Byte) (d : Device) :
    (deviceSem short).traced.Ends (updateDomainList sha baseUrl) (ListOutcome bs d) (d, []) := by
  simp only [updateDomainList, Prog.bind_eq, Prog.perform_bind, Prog.pure_eq]
  refine ends_fileWork_call trivial fun s d₁ ⟨read, _⟩ same₁ => ?_
  subst read
  split
  · rename_i mounted
    refine ends_fileWork_call trivial fun active d₂ ⟨read, _⟩ same₂ => ?_
    subst read
    have downloads := httpGetToFile_only (P := FileWork) (f := .half (halfOf (targetSlot d₁.nvs.exactListActiveSlot)))
      (urlOf baseUrl "/domains.idx") trivial trivial (fun _ => trivial) trivial
    refine ends_fileWork_bind downloads fun len d₃ same₃ => ?_
    split
    · exact ends_fileWork_ret
    refine ends_fileWork_bind (httpGetToBuffer_only _ _ trivial) fun got d₄ same₄ => ?_
    split
    · exact ends_fileWork_call trivial fun _ _ _ _ => ends_fileWork_ret
    · have same := same₂.trans (same₃.trans same₄)
      refine checkDomainList_ends sha got.2 ?_ ?_
      · rw [same.statics, same₁.statics, mounted]
      · rw [same.nvs]
  · exact ends_fileWork_ret

end

/-! ## Both updates, from any state the firmware reaches -/

theorem updateDomainList_keepsBloom (sha : Sha256) (baseUrl : List Byte) :
    (updateDomainList sha baseUrl).Only KeepsBloom := by
  have load : sdStorageLoadDomainList.Only KeepsBloom := sdStorageLoadDomainList_listLoads.mono fun _ h => h.2
  simp only [updateDomainList, checkDomainList, activateDomainList, sha256File, Prog.bind_eq, Prog.perform_bind,
    Prog.pure_eq, Prog.call_bind]
  refine .call trivial fun s => ?_
  split
  · refine .call trivial fun active => (httpGetToFile_only _ trivial trivial (fun _ => trivial) trivial).bind fun len => ?_
    split
    · trivial
    refine (httpGetToBuffer_only _ _ trivial).bind fun got => ?_
    split
    · exact .call trivial fun _ => trivial
    refine .call trivial fun opened => Prog.Only.bind ?_ fun digest => ?_
    · split
      · trivial
      · exact .call trivial fun _ => trivial
    split
    · exact .call trivial fun _ => trivial
    split
    · exact .call trivial fun _ => trivial
    refine .call trivial fun err => ?_
    split
    · exact load
    · trivial
  · trivial

/-- The devices the firmware reaches: from power-up, by whole runs of the
programs that work on the filter, and by changes elsewhere (the lists, the
settings, the card) that leave the filter alone. -/
inductive Reachable (short : Bool) (sha : Sha256) (seedLen : BitVec 32) : Device → Prop where
  | powerUp {d : Device} : d.statics = {} → Reachable short sha seedLen d
  | reloadBloom {d d' : Device} {u : Unit} : Reachable short sha seedLen d →
      (deviceSem short).Runs (dnsProxyReloadBloomFilter seedLen) d u d' → Reachable short sha seedLen d'
  | updateBloom {d d' : Device} {err : EspErr} (baseUrl : List Byte) : Reachable short sha seedLen d →
      (deviceSem short).Runs (updateBloom seedLen baseUrl) d err d' → Reachable short sha seedLen d'
  | updateDomainList {d d' : Device} {err : EspErr} (baseUrl : List Byte) : Reachable short sha seedLen d →
      (deviceSem short).Runs (updateDomainList sha baseUrl) d err d' → Reachable short sha seedLen d'
  | elsewhere {d d' : Device} : Reachable short sha seedLen d → SameBloom d d' → Reachable short sha seedLen d'

/-- The filter that is ready shows the active partition or the seed in every state reached. -/
theorem Reachable.serving {sha : Sha256} {seedLen : BitVec 32} {d : Device} (reached : Reachable short sha seedLen d) :
    BloomServing d := by
  induction reached with
  | powerUp zeroed => exact .notReady (by rw [zeroed])
  | reloadBloom _ run _ => exact (dnsProxyReloadBloomFilter_ends seedLen _ _ _ run).2
  | @updateBloom d d' err baseUrl _ run before =>
    have outcome := updateBloom_ends seedLen baseUrl _ _ _ run
    by_cases ok : err = .ok
    · rwa [BloomOutcome, if_pos ok] at outcome
    · rw [BloomOutcome, if_neg ok] at outcome
      exact outcome.serving before
  | updateDomainList baseUrl _ run before =>
    exact ((ends_sameBloom (updateDomainList_keepsBloom sha baseUrl) _ _ _ run).spares _).serving before
  | elsewhere _ same before => exact (same.spares _).serving before

/-- So in these states a failed update of the filter changes nothing that is answered. -/
theorem Reachable.not_readsOther {sha : Sha256} {seedLen : BitVec 32} {d : Device}
    (reached : Reachable short sha seedLen d) : ¬ ReadsOther d :=
  reached.serving.not_readsOther

/-- A failed update of the filter keeps what is answered, unless it can rewrite the
other partition and that is what the filter is read through. -/
theorem updateBloom_keeps_iff (seedLen : BitVec 32) (baseUrl : List Byte) (d : Device) :
    (∀ err d', (deviceSem short).Runs (updateBloom seedLen baseUrl) d err d' → err ≠ .ok →
      d'.nvs.bloomActiveSlot = d.nvs.bloomActiveSlot ∧ ∀ domain, d'.bloomAnswer domain = d.bloomAnswer domain) ↔
    ¬ (Rewritable d ∧ ReadsOther d) := by
  constructor
  · rintro kept ⟨can, reads⟩
    obtain ⟨bytes, bytes', differ⟩ := reads.exists_differ
    obtain ⟨e, run, first⟩ := exists_failed_rewrite seedLen baseUrl can bytes
    obtain ⟨e', run', second⟩ := exists_failed_rewrite seedLen baseUrl can bytes'
    have same := (kept _ e run nofun).2 []
    have same' := (kept _ e' run' nofun).2 []
    exact differ e e' first second (same.trans same'.symm)
  · intro apart err d' run failed
    have spared := updateBloom_ends seedLen baseUrl d err d' run
    rw [BloomOutcome, if_neg failed] at spared
    refine ⟨by rw [Nvs.bloomActiveSlot, spared.slot]; rfl, fun domain => ?_⟩
    by_cases can : Rewritable d
    · exact spared.bloomAnswer_eq (fun reads => apart ⟨can, reads⟩) domain
    · exact (updateBloom_ends_of_not_rewritable seedLen baseUrl can err d' run).bloomAnswer_eq domain

/-- **When a failed update leaves what is serving untouched**, from any state: an update of
the filter in every run unless it can rewrite the partition the filter is read through, an
update of the list in the runs that lose no activation. -/
theorem failed_update_keeps_serving_iff (bs : Bsearch) (sha : Sha256) (seedLen : BitVec 32) (baseUrl : List Byte)
    (d : Device) :
    ((∀ err d', (deviceSem short).Runs (updateBloom seedLen baseUrl) d err d' → err ≠ .ok →
      d'.nvs.bloomActiveSlot = d.nvs.bloomActiveSlot ∧ ∀ domain, d'.bloomAnswer domain = d.bloomAnswer domain) ↔
        ¬ (Rewritable d ∧ ReadsOther d)) ∧
    ∀ err d' tr, (deviceSem short).traced.Runs (updateDomainList sha baseUrl) (d, []) err (d', tr) →
      ((err ≠ .ok → ListServesAs bs d d') ↔ ¬ ActivationLost tr) :=
  ⟨updateBloom_keeps_iff seedLen baseUrl d, fun err d' tr run => updateDomainList_ends sha baseUrl d err (d', tr) run⟩

/-- A hash that agrees with SHA-256 on the text `a`. -/
def sampleSha : Sha256 where
  run bytes :=
    if bytes = textBytes "a" then
      [0xCA#8, 0x97#8, 0x81#8, 0x12#8, 0xCA#8, 0x1B#8, 0xBD#8, 0xCA#8, 0xFA#8, 0xC2#8, 0x31#8, 0xB3#8, 0x9A#8, 0x23#8,
        0xDC#8, 0x4D#8, 0xA7#8, 0x86#8, 0xEF#8, 0xF8#8, 0x14#8, 0x7C#8, 0x4E#8, 0x72#8, 0xB9#8, 0x80#8, 0x77#8, 0x85#8,
        0xAF#8, 0xEE#8, 0x48#8, 0xBB#8]
    else List.replicate 32 0#8
  length_run bytes := by split <;> rfl

/-- A device that serves the list of one name, `b`. -/
def servingDevice : Device where
  partSize _ := none
  flash _ := []
  files f := if f = .half .a then some (textBytes "b" ++ [10#8]) else none
  seed := []
  heap
    | 0 => some (.chars (textBytes "b" ++ [0#8, 0#8]))
    | 1 => some (.ptrs [some (0, 0)])
    | _ => none
  statics := { mounted := true, domainBuf := some 0, domainLines := some 1, domainCount := 1 }

/-- A server of a list without a newline, and of its digest. -/
def newlinelessServer (url : List Byte) : Reply :=
  if url = textBytes "/domains.idx" then .response 200 [textBytes "a"]
  else .response 200 [textBytes "ca978112ca1bbdcafac231b39a23dc4da786eff8147c4e72b9807785afee48bb"]

/-- The update from that server fails, with the slot byte moved and no list loaded. -/
theorem newlineless_list_not_kept : ¬ ∀ err d', (deviceSem false).Runs (updateDomainList sampleSha []) servingDevice err d' →
    err ≠ .ok → ListServesAs .binary servingDevice d' := by
  have outcome : ((updateDomainList sampleSha []).exec (Device.ideal newlinelessServer) servingDevice).map
      (fun done => (done.1, done.2.nvs.exactListActiveSlot, done.2.sdStorageConfirm .binary (textBytes "b"))) =
      some (.invalidSize, 1#8, .ok .unavailable) := by
    decide +kernel
  obtain ⟨⟨err, d'⟩, run, results⟩ := Option.map_eq_some_iff.mp outcome
  simp only [Prod.mk.injEq] at results
  obtain ⟨rfl, slot, -⟩ := results
  intro kept
  have serves := kept _ _ (Device.runs_ideal false run) nofun
  exact absurd (serves.slot.symm.trans slot) (by decide)

end EspAdblocker.Storage
