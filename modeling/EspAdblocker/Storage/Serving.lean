import EspAdblocker.Storage.Effects

/-!
# The filter that is loaded

What the DNS task reads through `s_bloom` (`Device.bloomTest`), and what a
reload leaves there: nothing ready, the seed, or the partition that the active
slot names (`BloomServing`).
-/

namespace EspAdblocker.Storage

open EspAdblocker.Lib EspAdblocker.Bloom

/-- `bloom_filter_test(&s_bloom, domain)`: both pointers are followed to what they show now. -/
def Device.bloomTest (d : Device) (domain : List Byte) : Except Fault Bool :=
  match d.statics.bloomHeader.bind d.regionBytes, d.statics.bloomBits.bind d.regionBytes with
  | some header, some bits => bloomFilterTest ⟨.ofBytes header, bits.drop bloomHeaderLen⟩ domain
  | _, _ => .error .deadStorage

/-- The answer of the loaded filter, if one is ready. -/
def Device.bloomAnswer (d : Device) (domain : List Byte) : Option (Except Fault Bool) :=
  if d.statics.bloomReady then some (d.bloomTest domain) else none

/-- The statics show the partition a half names, through a live mapping of an accepted image. -/
structure ShowsPartition (h : Half) (d : Device) : Prop where
  shown : ∃ handle, d.statics.bloomHeader = some (.mapped handle) ∧ d.statics.bloomBits = some (.mapped handle) ∧
    d.maps handle = some h
  accepted : ∃ size, d.partSize h = some size ∧ (bloomFilterInit (d.flash h) size).isSome

/-- What the filter that is ready, if any, shows. -/
inductive BloomServing (d : Device) : Prop where
  | notReady : d.statics.bloomReady = false → BloomServing d
  | seed : d.statics.bloomFromSeed = true → d.statics.bloomHeader = some .seed → d.statics.bloomBits = some .seed →
      BloomServing d
  | active : d.statics.bloomFromSeed = false → ShowsPartition d.activePartition d → BloomServing d

/-- The image that lookups use: the seed, or what the active partition holds. -/
def Device.servedImage (d : Device) : List Byte :=
  if d.statics.bloomFromSeed then d.seed else d.flash d.activePartition

/-- The two pointers of a filter that is ready show the image that is served. -/
theorem BloomServing.regionBytes {d : Device} (serving : BloomServing d) (ready : d.statics.bloomReady = true) :
    d.statics.bloomHeader.bind d.regionBytes = some d.servedImage ∧
      d.statics.bloomBits.bind d.regionBytes = some d.servedImage := by
  cases serving with
  | notReady idle =>
    rw [idle] at ready
    cases ready
  | seed fromSeed header bits => simp [header, bits, Device.servedImage, fromSeed, Device.regionBytes]
  | active fromFlash shows =>
    obtain ⟨handle, header, bits, live⟩ := shows.shown
    simp [header, bits, Device.servedImage, fromFlash, Device.regionBytes, live]

/-- A ready filter is the one over the image that is served. -/
theorem BloomServing.bloomTest_eq {d : Device} (serving : BloomServing d) (ready : d.statics.bloomReady = true)
    (domain : List Byte) :
    d.bloomTest domain = bloomFilterTest ⟨.ofBytes d.servedImage, d.servedImage.drop bloomHeaderLen⟩ domain := by
  obtain ⟨header, bits⟩ := serving.regionBytes ready
  rw [Device.bloomTest, header, bits]

/-- The filter shown through a partition is the one over its bytes. -/
theorem ShowsPartition.bloomTest_eq {h : Half} {d : Device} (shows : ShowsPartition h d) (domain : List Byte) :
    d.bloomTest domain = bloomFilterTest ⟨.ofBytes (d.flash h), (d.flash h).drop bloomHeaderLen⟩ domain := by
  obtain ⟨handle, header, bits, live⟩ := shows.shown
  simp [Device.bloomTest, header, bits, Device.regionBytes, live]

section

variable {short : Bool}

theorem initBloom_ends (r : Region) (len : BitVec 32) (d : Device) :
    (deviceSem short).Ends (initBloom r len) (fun loaded d' => d'.maps = d.maps ∧ (loaded = true →
      d'.statics.bloomHeader = some r ∧ d'.statics.bloomBits = some r ∧
        ∀ bytes, d.regionBytes r = some bytes → (bloomFilterInit bytes len).isSome)) d := by
  simp only [initBloom, Prog.bind_eq, Prog.perform_bind, Prog.pure_eq]
  refine Sem.ends_call fun buf d₁ done => ?_
  obtain ⟨read, same⟩ := done
  subst same
  split
  · exact Sem.ends_ret ⟨rfl, fun impossible => by cases impossible⟩
  · rename_i image
    refine Sem.ends_call fun _ d₂ stored => Sem.ends_call fun _ d₃ stored' => Sem.ends_ret ?_
    obtain rfl : d₂ = _ := stored
    obtain rfl : d₃ = _ := stored'
    exact ⟨rfl, fun _ => ⟨rfl, rfl, fun bytes shown => by rw [← read bytes shown, image]; rfl⟩⟩

theorem tryLoadBloomFromPartition_ends (slot : BitVec 8) (d : Device) :
    (deviceSem short).Ends (tryLoadBloomFromPartition slot) (fun loaded d' => SamePersistent d d' ∧
      (loaded = true → ShowsPartition (halfOf slot) d')) d := by
  apply (ends_samePersistent (tryLoadBloomFromPartition_volatile slot) d).and
  simp only [tryLoadBloomFromPartition, Prog.bind_eq, Prog.perform_bind, Prog.pure_eq]
  refine Sem.ends_call fun size d₁ done => ?_
  obtain ⟨table, same⟩ := done
  subst same
  split
  · exact Sem.ends_ret fun impossible => by cases impossible
  rename_i size
  refine Sem.ends_bind ((ends_samePersistent unmapBloom_volatile d₁).mono fun _ d₂ kept => ?_)
  refine Sem.ends_call fun handle d₃ mapped => ?_
  split
  · exact Sem.ends_ret fun impossible => by cases impossible
  rename_i handle
  obtain ⟨-, rfl⟩ := mapped
  apply Sem.ends_bind
  refine ((initBloom_ends (.mapped handle) size _).and (ends_samePersistent (initBloom_volatile _ _) _)).mono ?_
  rintro accepted d₄ ⟨⟨maps, stored⟩, kept'⟩
  split
  · exact Sem.ends_call fun _ d₅ _ => Sem.ends_ret fun impossible => by cases impossible
  · obtain ⟨header, bits, image⟩ := stored rfl
    refine Sem.ends_call fun _ d₅ set => Sem.ends_call fun _ d₆ set' => Sem.ends_ret fun _ => ?_
    obtain rfl : d₅ = _ := set
    obtain rfl : d₆ = _ := set'
    have live : d₄.maps handle = some (halfOf slot) := by rw [maps]; simp [Device.withMap]
    have flash : d₄.flash = d₂.flash := kept'.flash
    refine ⟨⟨handle, header, bits, live⟩, size, ?_, ?_⟩
    · change d₄.partSize _ = _
      rw [kept'.partSize]
      exact (congrFun kept.partSize _).trans table.symm
    · change (bloomFilterInit (d₄.flash _) size).isSome
      rw [flash]
      exact image _ (by simp [Device.regionBytes, Device.withMap])

/-- **A reload leaves a filter that shows the active partition or the seed**, or none ready. -/
theorem dnsProxyReloadBloomFilter_ends (seedLen : BitVec 32) (d : Device) :
    (deviceSem short).Ends (dnsProxyReloadBloomFilter seedLen) (fun _ d' => SamePersistent d d' ∧ BloomServing d') d := by
  apply (ends_samePersistent (dnsProxyReloadBloomFilter_volatile seedLen) d).and
  simp only [dnsProxyReloadBloomFilter, loadBloomSeed, Prog.bind_eq, Prog.perform_bind]
  refine Sem.ends_call fun slot d₁ done => ?_
  obtain ⟨read, same⟩ := done
  subst same read
  refine Sem.ends_bind ((tryLoadBloomFromPartition_ends _ d₁).mono ?_)
  rintro loaded d₂ ⟨kept, shows⟩
  split
  · obtain ⟨⟨handle, header, bits, live⟩, accepted⟩ := shows rfl
    refine Sem.ends_call fun _ d₃ set => Sem.ends_call fun _ d₄ set' => Sem.ends_ret ?_
    obtain rfl : d₃ = _ := set
    obtain rfl : d₄ = _ := set'
    refine .active rfl ?_
    change ShowsPartition d₂.activePartition _
    rw [kept.activePartition]
    exact ⟨⟨handle, header, bits, live⟩, accepted⟩
  · refine Sem.ends_bind ((initBloom_ends .seed seedLen d₂).mono ?_)
    rintro accepted d₃ ⟨-, stored⟩
    split
    · obtain ⟨header, bits, -⟩ := stored rfl
      refine Sem.ends_call fun _ d₄ set => Sem.ends_call fun _ d₅ set' => Sem.ends_ret ?_
      obtain rfl : d₄ = _ := set
      obtain rfl : d₅ = _ := set'
      exact .seed rfl header bits
    · refine Sem.ends_call fun _ d₄ set => Sem.ends_ret ?_
      obtain rfl : d₄ = _ := set
      exact .notReady rfl

end

end EspAdblocker.Storage
