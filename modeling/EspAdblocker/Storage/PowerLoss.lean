import EspAdblocker.Bloom.Corruption
import EspAdblocker.Storage.Failure

/-!
# Power loss during an update

One run of `blocklist_updater_check_and_apply`, cut off at any point: each slot
byte names what it named before the run, untouched, or the other place with
content that passed the checks of the run (`BloomPair`, `ListPair`). The run
never works on a place that a slot byte names (`SparesNamed`). Operations carry
a record of what was performed, so that the digest a list was checked against
is one the run fetched.
-/

namespace EspAdblocker.Storage

open EspAdblocker.Lib EspAdblocker.Bloom

variable {short : Bool}

/-! ## What the power may find -/

/-- The operation does not work on the partition or the file that a slot byte names. -/
def SparesNamed (d : Device) : Op → Prop
  | .eraseRange h | .writePartition h _ => h ≠ d.activePartition
  | .fopenWrite f | .fwrite f _ | .fcloseWrite f | .remove f => f ≠ d.activeFile
  | _ => True

/-- The bloom slot byte and the partition it names are those of before, or name
the other partition, which holds an image that passed the checks. -/
inductive BloomPair (d₀ d : Device) : Prop where
  | kept : d.nvs.bloomActiveSlot = d₀.nvs.bloomActiveSlot → d.flash d.activePartition = d₀.flash d₀.activePartition →
      BloomPair d₀ d
  | moved {image rest : List Byte} {f : BloomFilter} : d.activePartition = d₀.activePartition.other →
      d.flash d.activePartition = image ++ rest → PassesChecks image f → BloomPair d₀ d

/-- The run fetched `body` from `url` into `cap` bytes. -/
def Fetched (url : List Byte) (cap : Nat) (tr : List Event) (body : List Byte) : Prop :=
  ∃ chunks, (⟨.httpGet url, .response 200 chunks⟩ : Event) ∈ tr ∧ body = readBody cap [] chunks

/-- The list slot byte and the file it names are those of before, or name the
other file, whose digest, computed over what reading it returned, is the one fetched. -/
inductive ListPair (short : Bool) (sha : Sha256) (baseUrl : List Byte) (d₀ : Device) (w : Device × List Event) : Prop where
  | kept : w.1.nvs.exactListActiveSlot = d₀.nvs.exactListActiveSlot → w.1.files w.1.activeFile = d₀.files d₀.activeFile →
      ListPair short sha baseUrl d₀ w
  | moved {content read body : List Byte} : w.1.activeFile = .half (halfOf d₀.nvs.exactListActiveSlot).other →
      w.1.files w.1.activeFile = some content → Device.ReadOf short content read →
      Fetched (urlOf baseUrl "/domains.idx.sha256") 127 w.2 body →
      hexEncodeLower (sha.run read) = (body.take 64).map toLowerByte → ListPair short sha baseUrl d₀ w

theorem BloomPair.congr {d₀ d d' : Device} (h : BloomPair d₀ d)
    (slot : d'.nvs.bloomActiveSlot = d.nvs.bloomActiveSlot)
    (flash : d'.flash d.activePartition = d.flash d.activePartition) : BloomPair d₀ d' := by
  have same : d'.activePartition = d.activePartition := congrArg halfOf slot
  cases h with
  | kept slot₀ flash₀ => exact .kept (slot.trans slot₀) (by rw [same, flash, flash₀])
  | moved other image checks => exact .moved (same.trans other) (by rw [same, flash, image]) checks

theorem ListPair.congr {sha : Sha256} {baseUrl : List Byte} {d₀ : Device} {w w' : Device × List Event}
    (h : ListPair short sha baseUrl d₀ w) (slot : w'.1.nvs.exactListActiveSlot = w.1.nvs.exactListActiveSlot)
    (files : w'.1.files w.1.activeFile = w.1.files w.1.activeFile) (later : w.2 <+: w'.2) :
    ListPair short sha baseUrl d₀ w' := by
  have same : w'.1.activeFile = w.1.activeFile := congrArg (fun s => DomainFile.half (halfOf s)) slot
  cases h with
  | kept slot₀ files₀ => exact .kept (slot.trans slot₀) (by rw [same, files, files₀])
  | moved other content read fetched digest =>
    obtain ⟨chunks, member, body⟩ := fetched
    exact .moved (same.trans other) (by rw [same, files, content]) read ⟨chunks, later.subset member, body⟩ digest

/-! ## Phases of the run -/

/-- The rules of the run: `SparesNamed` at every operation. -/
abbrev Guard (w : Device × List Event) (op : Op) : Prop := SparesNamed w.1 op

theorem Volatile.sparesNamed {op : Op} (h : Volatile op) (d : Device) : SparesNamed d op := by
  cases op <;> first | exact h.elim | trivial

theorem prefix_of_traced {w w' : Device × List Event} {op : Op} {r : Res op}
    (step : (deviceSem short).traced.step w op r w') : w.2 <+: w'.2 := by
  rw [step.2]
  exact List.prefix_append _ _

/-- A phase that changes nothing persistent. -/
theorem volatilePhase (w₀ : Device × List Event) :
    (deviceSem short).traced.Phase Volatile (fun w => SamePersistent w₀.1 w.1 ∧ w₀.2 <+: w.2) Guard where
  keeps _ _ _ _ volatile same step := ⟨same.1.trans (volatile.step step.1), same.2.trans (prefix_of_traced step)⟩
  torn v op v' volatile same lost := by
    rw [volatile.torn lost.1, lost.2]
    exact same
  allowed v _ volatile _ := volatile.sparesNamed v.1

/-- What the bloom update keeps before its activation. -/
structure BeforeBloom (d₀ d : Device) : Prop where
  nvs : d.nvs = d₀.nvs
  flash : d.flash d₀.activePartition = d₀.flash d₀.activePartition
  files : d.files = d₀.files

theorem BeforeBloom.activePartition {d₀ d : Device} (h : BeforeBloom d₀ d) : d.activePartition = d₀.activePartition := by
  rw [Device.activePartition, Device.activePartition, h.nvs]

theorem BeforeBloom.of_withFlash {d₀ d : Device} (h : BeforeBloom d₀ d) {k : Half} (differ : k ≠ d₀.activePartition)
    (bytes : List Byte) : BeforeBloom d₀ (d.withFlash k bytes) :=
  ⟨h.nvs, (Function.update_of_ne differ.symm _ _).trans h.flash, h.files⟩

theorem BeforeBloom.of_same {d₀ d d' : Device} (h : BeforeBloom d₀ d) (same : SamePersistent d d') : BeforeBloom d₀ d' :=
  ⟨same.nvs.trans h.nvs, by rw [same.flash, h.flash], same.files.trans h.files⟩

/-- The phase before the activation of an image: volatile operations, and work on the other partition. -/
theorem bloomPhase (d₀ : Device) : (deviceSem short).traced.Phase
    (fun op => Volatile op ∨ RewritesOther d₀.activePartition op) (fun w => BeforeBloom d₀ w.1) Guard where
  keeps v op r v' work before step := by
    rcases work with volatile | other
    · exact before.of_same (volatile.step step.1)
    · obtain ⟨k, bytes, differ, written⟩ := other.step step.1
      rw [written]
      exact before.of_withFlash differ bytes
  torn v op v' work before lost := by
    rcases work with volatile | other
    · rwa [volatile.torn lost.1]
    · obtain ⟨k, bytes, differ, written⟩ := other.torn lost.1
      rw [written]
      exact before.of_withFlash differ bytes
  allowed v op work before := by
    rcases work with volatile | ⟨k, differ, rfl | ⟨bytes, rfl⟩⟩
    · exact volatile.sparesNamed v.1
    all_goals
      rw [← before.activePartition] at differ
      exact differ

/-- What the list update keeps before its activation. -/
structure BeforeList (w₀ w : Device × List Event) : Prop where
  nvs : w.1.nvs = w₀.1.nvs
  flash : w.1.flash = w₀.1.flash
  file : w.1.files w₀.1.activeFile = w₀.1.files w₀.1.activeFile
  later : w₀.2 <+: w.2

theorem BeforeList.activeFile {w₀ w : Device × List Event} (h : BeforeList w₀ w) : w.1.activeFile = w₀.1.activeFile := by
  rw [Device.activeFile, Device.activeFile, h.nvs]

/-- The phase before the activation of a list: volatile operations, and work on the other file. -/
theorem listPhase (w₀ : Device × List Event) : (deviceSem short).traced.Phase
    (fun op => Volatile op ∨ ReplacesOther w₀.1.activeFile op) (BeforeList w₀) Guard where
  keeps v op r v' work before step := by
    have later := before.later.trans (prefix_of_traced step)
    rcases work with volatile | other
    · have same := volatile.step step.1
      exact ⟨same.nvs.trans before.nvs, same.flash.trans before.flash, by rw [same.files, before.file], later⟩
    · rcases other.step step.1 with same | ⟨g, content, differ, written⟩
      · exact ⟨by rw [same, before.nvs], by rw [same, before.flash], by rw [same, before.file], later⟩
      · refine ⟨by rw [written]; exact before.nvs, by rw [written]; exact before.flash, ?_, later⟩
        rw [written]
        exact (Function.update_of_ne differ.symm _ _).trans before.file
  torn v op v' work before lost := by
    have later : w₀.2 <+: v'.2 := by rw [lost.2]; exact before.later
    rcases work with volatile | other
    · have same := volatile.torn lost.1
      exact ⟨by rw [same, before.nvs], by rw [same, before.flash], by rw [same, before.file], later⟩
    · obtain ⟨g, content, differ, written⟩ := other.torn lost.1
      refine ⟨by rw [written]; exact before.nvs, by rw [written]; exact before.flash, ?_, later⟩
      rw [written]
      exact (Function.update_of_ne differ.symm _ _).trans before.file
  allowed v op work before := by
    rcases work with volatile | ⟨g, differ, rfl | ⟨bytes, rfl⟩ | rfl | rfl⟩
    · exact volatile.sparesNamed v.1
    all_goals
      rw [← before.activeFile] at differ
      exact differ

/-! ## The bloom update -/

/-- What holds at every point of the bloom update. -/
structure DuringBloom (d₀ : Device) (w : Device × List Event) : Prop where
  pair : BloomPair d₀ w.1
  slot : w.1.nvs.exactListActiveSlot = d₀.nvs.exactListActiveSlot
  files : w.1.files = d₀.files

theorem BeforeBloom.during {d₀ : Device} {w : Device × List Event} (h : BeforeBloom d₀ w.1) : DuringBloom d₀ w where
  pair := .kept (by rw [h.nvs]) (by rw [h.activePartition, h.flash])
  slot := by rw [h.nvs]
  files := h.files

theorem DuringBloom.of_same {d₀ : Device} {w w' : Device × List Event} (h : DuringBloom d₀ w)
    (same : SamePersistent w.1 w'.1) : DuringBloom d₀ w' where
  pair := h.pair.congr (by rw [same.nvs]) (by rw [same.flash])
  slot := by rw [same.nvs, h.slot]
  files := same.files.trans h.files

section

variable {d₀ : Device} {w : Device × List Event} {target : BitVec 8} {image rest : List Byte} {f : BloomFilter}
  (seedLen : BitVec 32)

theorem flashImage_safe {h : Half} (other : h ≠ d₀.activePartition) (image : List Byte) (before : BeforeBloom d₀ w.1) :
    (deviceSem short).traced.Safe (DuringBloom d₀) Guard (flashImage h image)
      (fun err v => BeforeBloom d₀ v.1 ∧ (err = .ok → ∃ rest, v.1.flash h = image ++ rest)) w := by
  have phase : (deviceSem short).traced.Phase _ _ Guard := bloomPhase d₀
  simp only [flashImage, Prog.bind_eq, Prog.perform_bind, Prog.pure_eq]
  refine phase.call (fun _ => BeforeBloom.during) (.inr ⟨h, other, .inl rfl⟩) before fun err w₁ _ before₁ => ?_
  split
  · refine phase.call (fun _ => BeforeBloom.during) (.inr ⟨h, other, .inr ⟨image, rfl⟩⟩) before₁
      fun err w₂ step before₂ => ⟨before₂.during, before₂, ?_⟩
    rintro rfl
    have written := step.1
    simp only [deviceSem, Device.step, if_true] at written
    exact ⟨_, by rw [written]; exact Function.update_self ..⟩
  · rename_i failed
    exact ⟨before₁.during, before₁, fun ok => absurd ok failed⟩

theorem activateBloom_safe (before : BeforeBloom d₀ w.1) (chosen : halfOf target = d₀.activePartition.other)
    (written : w.1.flash (halfOf target) = image ++ rest) (checks : PassesChecks image f) :
    (deviceSem short).traced.Safe (DuringBloom d₀) Guard (activateBloom seedLen target) (fun _ _ => True) w := by
  have flipped (tr : List Event) :
      DuringBloom d₀ ({ w.1 with nvs := { w.1.nvs with bloomSlot := some target } }, tr) :=
    ⟨.moved chosen written checks, before.during.slot, before.files⟩
  simp only [activateBloom, Prog.bind_eq, Prog.perform_bind, Prog.pure_eq]
  refine Sem.safe_call before.during trivial ?_ ?_
  · rintro ⟨d', tr⟩ ⟨lost, rfl⟩
    rcases lost with same | stored
    · obtain rfl : d' = w.1 := same
      exact before.during
    · obtain rfl : d' = _ := stored
      exact flipped _
  · rintro err ⟨d', tr⟩ ⟨stored, rfl⟩
    by_cases ok : err = .ok
    · obtain rfl : d' = { w.1 with nvs := { w.1.nvs with bloomSlot := some target } } := by
        simpa [deviceSem, Device.step, ok] using stored
      rw [if_pos ok]
      refine (volatilePhase _).bind (fun v kept => (flipped _).of_same kept.1) (dnsProxyReloadBloomFilter_volatile seedLen)
        ⟨.refl _, List.prefix_refl _⟩ fun _ v kept => ⟨(flipped _).of_same kept.1, trivial⟩
    · obtain rfl : d' = w.1 := by simpa [deviceSem, Device.step, ok] using stored
      rw [if_neg ok]
      exact ⟨BeforeBloom.during (w := (w.1, _)) before, trivial⟩

theorem installBloom_safe (before : BeforeBloom d₀ w.1) (chosen : halfOf target = d₀.activePartition.other) (buf : Nat)
    (image : List Byte) :
    (deviceSem short).traced.Safe (DuringBloom d₀) Guard (installBloom seedLen target buf image) (fun _ _ => True) w := by
  have phase : (deviceSem short).traced.Phase _ _ Guard := bloomPhase d₀
  have other : halfOf target ≠ d₀.activePartition := by rw [chosen]; exact Half.other_ne _
  simp only [installBloom, computeCrc, Prog.bind_eq, Prog.perform_bind, Prog.pure_eq]
  split
  · exact phase.call (fun _ => BeforeBloom.during) (.inl trivial) before fun _ w₁ _ before₁ => ⟨before₁.during, trivial⟩
  rename_i filter accepted
  split
  · rename_i inside
    rw [Prog.ret_bind]
    split
    · rename_i crc
      refine Sem.safe_bind ((flashImage_safe other image before).mono ?_)
      rintro err w₁ - ⟨before₁, written⟩
      refine (volatilePhase w₁).call (fun v kept => (before₁.of_same kept.1).during) trivial ⟨.refl _, List.prefix_refl _⟩
        fun _ w₂ _ kept => ?_
      have before₂ := before₁.of_same kept.1
      split
      · rename_i ok
        obtain ⟨rest, stored⟩ := written ok
        exact activateBloom_safe seedLen before₂ chosen (by rw [kept.1.flash, stored]) ⟨accepted, inside, crc⟩
      · exact ⟨before₂.during, trivial⟩
    · exact phase.call (fun _ => BeforeBloom.during) (.inl trivial) before fun _ w₁ _ before₁ => ⟨before₁.during, trivial⟩
  · exact phase.call (fun _ => BeforeBloom.during) (.inl trivial) before fun impossible => by cases impossible

/-- **The bloom update** keeps the pair at every point, and the list's slot and files. -/
theorem updateBloom_safe (baseUrl : List Byte) (d₀ : Device) :
    (deviceSem short).traced.Safe (DuringBloom d₀) Guard (updateBloom seedLen baseUrl) (fun _ _ => True) (d₀, []) := by
  have phase : (deviceSem short).traced.Phase _ _ Guard := bloomPhase d₀
  have weaker (v : Device × List Event) : BeforeBloom d₀ v.1 → DuringBloom d₀ v := BeforeBloom.during
  simp only [updateBloom, Prog.bind_eq, Prog.perform_bind, Prog.pure_eq]
  refine phase.call weaker (.inl trivial) ⟨rfl, rfl, rfl⟩ fun slot w₁ done before₁ => ?_
  obtain ⟨⟨read, _⟩, _⟩ := done
  subst read
  refine phase.call weaker (.inl trivial) before₁ fun size w₂ _ before₂ => ?_
  split
  · exact ⟨before₂.during, trivial⟩
  refine phase.call weaker (.inl trivial) before₂ fun buf w₃ _ before₃ => ?_
  split
  · exact ⟨before₃.during, trivial⟩
  refine phase.bind weaker (httpGetToBuffer_only _ _ (.inl trivial)) before₃ fun got w₄ before₄ => ?_
  split
  · exact phase.call weaker (.inl trivial) before₄ fun _ w₅ _ before₅ => ⟨before₅.during, trivial⟩
  · exact installBloom_safe seedLen before₄ (halfOf_targetSlot _) _ _

end

/-! ## The list update -/

theorem hexDigit_ne_zero {n : Nat} (small : n < 16) : hexDigit n ≠ 0#8 := by
  have all : ∀ i : Fin 16, hexDigit i.val ≠ 0#8 := by decide
  exact all ⟨n, small⟩

theorem nulFree_hexEncodeLower (bytes : List Byte) : NulFree (hexEncodeLower bytes) := by
  intro c member
  simp only [hexEncodeLower, List.mem_flatMap, List.mem_cons, List.not_mem_nil, or_false] at member
  obtain ⟨b, -, rfl | rfl⟩ := member
  · exact hexDigit_ne_zero (by have := b.isLt; omega)
  · exact hexDigit_ne_zero (Nat.mod_lt _ (by decide))

theorem length_hexEncodeLower (bytes : List Byte) : (hexEncodeLower bytes).length = 2 * bytes.length := by
  rw [hexEncodeLower, List.length_flatMap]
  simp [Nat.mul_comm]

/-- A match of `strncmp` over all 64 digits is equality. -/
theorem eq_of_strncmp_hex {sha : Sha256} {bytes expected : List Byte} (short : expected.length ≤ 64)
    (equal : strncmp (hexEncodeLower (sha.run bytes)) expected 64 = 0) : hexEncodeLower (sha.run bytes) = expected := by
  have len : (hexEncodeLower (sha.run bytes)).length = 64 := by rw [length_hexEncodeLower, sha.length_run]
  have free := nulFree_hexEncodeLower (sha.run bytes)
  rw [strncmp, List.take_of_length_le (Nat.le_of_eq len), List.take_of_length_le short, cstr_eq_self free,
    strcmp_eq_zero_iff free (nulFree_cstr expected)] at equal
  rw [equal] at len ⊢
  have cut : cstr expected <+: expected := List.takeWhile_prefix _
  exact cut.eq_of_length_le (by omega)

section

variable {sha : Sha256} {baseUrl : List Byte} {d₀ : Device}

/-- Both pairs, at a point of the run. -/
def Pairs (short : Bool) (sha : Sha256) (baseUrl : List Byte) (d₀ : Device) (w : Device × List Event) : Prop :=
  BloomPair d₀ w.1 ∧ ListPair short sha baseUrl d₀ w

theorem DuringBloom.pairs {w : Device × List Event} (h : DuringBloom d₀ w) : Pairs short sha baseUrl d₀ w := by
  have file : w.1.activeFile = d₀.activeFile := congrArg (fun s => DomainFile.half (halfOf s)) h.slot
  exact ⟨h.pair, .kept h.slot (by rw [file, h.files])⟩

theorem BeforeList.pairs {w w' : Device × List Event} (during : DuringBloom d₀ w) (h : BeforeList w w') :
    Pairs short sha baseUrl d₀ w' := by
  refine ⟨during.pair.congr (by rw [h.nvs]) (by rw [h.flash]), ?_⟩
  exact during.pairs.2.congr (by rw [h.nvs]) h.file h.later

theorem Pairs.later {w w' : Device × List Event} (h : Pairs short sha baseUrl d₀ w)
    (same : SamePersistent w.1 w'.1 ∧ w.2 <+: w'.2) : Pairs short sha baseUrl d₀ w' :=
  ⟨h.1.congr (by rw [same.1.nvs]) (by rw [same.1.flash]), h.2.congr (by rw [same.1.nvs]) (by rw [same.1.files]) same.2⟩

variable {w w₀ : Device × List Event} (during : DuringBloom d₀ w₀)
include during

theorem activateDomainList_safe (before : BeforeList w₀ w) {content read body : List Byte}
    (stored : w.1.files (.half (halfOf (targetSlot w₀.1.nvs.exactListActiveSlot))) = some content)
    (readback : Device.ReadOf short content read) (fetched : Fetched (urlOf baseUrl "/domains.idx.sha256") 127 w.2 body)
    (digest : hexEncodeLower (sha.run read) = (body.take 64).map toLowerByte) :
    (deviceSem short).traced.Safe (Pairs short sha baseUrl d₀) Guard
      (activateDomainList (targetSlot w₀.1.nvs.exactListActiveSlot)) (fun _ _ => True) w := by
  have here : Pairs short sha baseUrl d₀ w := before.pairs during
  have flipped {tr : List Event} (later : w.2 <+: tr) : Pairs short sha baseUrl d₀
      ({ w.1 with nvs := { w.1.nvs with listSlot := some (targetSlot w₀.1.nvs.exactListActiveSlot) } }, tr) := by
    refine ⟨here.1.congr rfl rfl, ?_⟩
    obtain ⟨chunks, member, rfl⟩ := fetched
    refine .moved ?_ stored readback ⟨chunks, later.subset member, rfl⟩ digest
    change DomainFile.half (halfOf (targetSlot w₀.1.nvs.exactListActiveSlot)) = _
    rw [halfOf_targetSlot, during.slot]
  simp only [activateDomainList, Prog.bind_eq, Prog.perform_bind, Prog.pure_eq]
  refine Sem.safe_call here trivial ?_ ?_
  · rintro ⟨d', tr⟩ ⟨lost, rfl⟩
    rcases lost with same | stored
    · obtain rfl : d' = w.1 := same
      exact here
    · obtain rfl : d' = _ := stored
      exact flipped (List.prefix_refl _)
  · rintro err ⟨d', tr⟩ ⟨stored, rfl⟩
    by_cases ok : err = .ok
    · obtain rfl : d' = { w.1 with nvs := { w.1.nvs with listSlot := some (targetSlot w₀.1.nvs.exactListActiveSlot) } } := by
        simpa [deviceSem, Device.step, ok] using stored
      rw [if_pos ok]
      have loads : sdStorageLoadDomainList.Only Volatile := sdStorageLoadDomainList_listLoads.mono fun _ h => h.1
      rw [← Prog.bind_ret sdStorageLoadDomainList]
      refine (volatilePhase _).bind (fun v kept => (flipped (List.prefix_append _ _)).later kept) loads
        ⟨.refl _, List.prefix_refl _⟩ fun _ v kept => ⟨(flipped (List.prefix_append _ _)).later kept, trivial⟩
    · obtain rfl : d' = w.1 := by simpa [deviceSem, Device.step, ok] using stored
      rw [if_neg ok]
      have after : Pairs short sha baseUrl d₀ (w.1, w.2 ++ [⟨.setListSlot _, err⟩]) :=
        here.later ⟨.refl _, List.prefix_append _ _⟩
      exact ⟨after, trivial⟩

theorem checkDomainList_safe (before : BeforeList w₀ w) {body : List Byte}
    (fetched : Fetched (urlOf baseUrl "/domains.idx.sha256") 127 w.2 body) :
    (deviceSem short).traced.Safe (Pairs short sha baseUrl d₀) Guard
      (checkDomainList sha (targetSlot w₀.1.nvs.exactListActiveSlot) body) (fun _ _ => True) w := by
  have phase : (deviceSem short).traced.Phase _ _ Guard := listPhase w₀
  have weaker (v : Device × List Event) : BeforeList w₀ v → Pairs short sha baseUrl d₀ v := fun h => h.pairs during
  have other := w₀.1.targetFile_ne_activeFile
  simp only [checkDomainList, sha256File, Prog.bind_eq, Prog.perform_bind, Prog.pure_eq, Prog.call_bind]
  refine phase.call weaker (.inl trivial) before fun opened w₁ done before₁ => ?_
  obtain ⟨⟨present, same⟩, trace⟩ := done
  cases opened with
  | false =>
    rw [Prog.ret_bind]
    exact phase.call weaker (.inr ⟨_, other, .inr (.inr (.inr rfl))⟩) before₁ fun _ w₂ _ before₂ =>
      ⟨weaker _ before₂, trivial⟩
  | true =>
    rw [Prog.call_bind]
    refine phase.call weaker (.inl trivial) before₁ fun read w₂ done before₂ => ?_
    obtain ⟨⟨readback, same₂⟩, trace₂⟩ := done
    simp only [Prog.ret_bind]
    obtain ⟨content, stored⟩ := Option.isSome_iff_exists.mp (present rfl)
    have fetched₂ : Fetched (urlOf baseUrl "/domains.idx.sha256") 127 w₂.2 body := by
      obtain ⟨chunks, member, text⟩ := fetched
      exact ⟨chunks, by rw [trace₂, trace]; simp [member], text⟩
    split
    · exact phase.call weaker (.inr ⟨_, other, .inr (.inr (.inr rfl))⟩) before₂ fun _ w₃ _ before₃ =>
        ⟨weaker _ before₃, trivial⟩
    · rename_i matched
      have digest := eq_of_strncmp_hex (by simp) (not_not.mp matched)
      rw [same, Device.fileBytes, stored, Option.getD_some] at readback
      exact activateDomainList_safe during before₂ (by rw [same₂, same, stored]) readback fetched₂ digest

/-- **The list update** keeps both pairs at every point. -/
theorem updateDomainList_safe :
    (deviceSem short).traced.Safe (Pairs short sha baseUrl d₀) Guard (updateDomainList sha baseUrl) (fun _ _ => True) w₀ := by
  have phase : (deviceSem short).traced.Phase _ _ Guard := listPhase w₀
  have weaker (v : Device × List Event) : BeforeList w₀ v → Pairs short sha baseUrl d₀ v := fun h => h.pairs during
  have other := w₀.1.targetFile_ne_activeFile
  simp only [updateDomainList, Prog.bind_eq, Prog.perform_bind, Prog.pure_eq]
  refine phase.call weaker (.inl trivial) ⟨rfl, rfl, rfl, List.prefix_refl _⟩ fun s w₁ _ before₁ => ?_
  split
  · refine phase.call weaker (.inl trivial) before₁ fun active w₂ done before₂ => ?_
    obtain ⟨⟨read, _⟩, _⟩ := done
    rw [before₁.nvs] at read
    subst read
    have downloads := httpGetToFile_only (P := fun op => Volatile op ∨ ReplacesOther w₀.1.activeFile op)
      (f := .half (halfOf (targetSlot w₀.1.nvs.exactListActiveSlot))) (urlOf baseUrl "/domains.idx") (.inl trivial)
      (.inr ⟨_, other, .inl rfl⟩) (fun bytes => .inr ⟨_, other, .inr (.inl ⟨bytes, rfl⟩)⟩)
      (.inr ⟨_, other, .inr (.inr (.inl rfl))⟩)
    refine phase.bind weaker downloads before₂ fun len w₃ before₃ => ?_
    split
    · exact ⟨weaker _ before₃, trivial⟩
    simp only [httpGetToBuffer, Prog.bind_eq, Prog.perform_bind, Prog.pure_eq, Prog.call_bind]
    refine phase.call weaker (.inl trivial) before₃ fun reply w₄ done before₄ => ?_
    obtain ⟨_, trace⟩ := done
    have refuse {e : EspErr} : (deviceSem short).traced.Safe (Pairs short sha baseUrl d₀) Guard
        (.call (.remove (.half (halfOf (targetSlot w₀.1.nvs.exactListActiveSlot)))) fun _ => .ret e) (fun _ _ => True) w₄ :=
      phase.call weaker (.inr ⟨_, other, .inr (.inr (.inr rfl))⟩) before₄ fun _ w₅ _ before₅ => ⟨weaker _ before₅, trivial⟩
    cases reply with
    | noClient => exact refuse
    | openFailed => exact refuse
    | response status chunks =>
      by_cases found : status = 200
      · subst found
        simp only [if_true, Prog.ret_bind]
        split
        · exact refuse
        · exact checkDomainList_safe during before₄ ⟨chunks, by rw [trace]; simp, rfl⟩
      · simp only [if_neg found, Prog.ret_bind]
        exact refuse
  · exact ⟨weaker _ before₁, trivial⟩

end

/-- **One run of the updater survives a power loss at any point**, and never
works on a place a slot byte names. -/
theorem update_survives_power_loss (sha : Sha256) (seedLen : BitVec 32) (baseUrl : List Byte) (d₀ : Device) :
    (∀ w, (deviceSem short).traced.Crash (blocklistUpdaterCheckAndApply sha seedLen baseUrl) (d₀, []) w →
      BloomPair d₀ w.1 ∧ ListPair short sha baseUrl d₀ w) ∧
    ∀ w op, (deviceSem short).traced.Performs (blocklistUpdaterCheckAndApply sha seedLen baseUrl) (d₀, []) w op →
      SparesNamed w.1 op := by
  have safe : (deviceSem short).traced.Safe (Pairs short sha baseUrl d₀) Guard
      (blocklistUpdaterCheckAndApply sha seedLen baseUrl) (fun _ _ => True) (d₀, []) := by
    simp only [blocklistUpdaterCheckAndApply, Prog.bind_eq, Prog.pure_eq]
    apply Sem.safe_bind
    have first : (deviceSem short).traced.Safe (DuringBloom d₀) Guard (updateBloom seedLen baseUrl)
        (fun _ w => DuringBloom d₀ w) (d₀, []) :=
      (updateBloom_safe seedLen baseUrl d₀).mono fun _ _ during _ => during
    refine (first.weaken (fun _ => DuringBloom.pairs) fun _ _ _ allowed => allowed).mono fun bloomErr w _ during => ?_
    refine Sem.safe_bind ((updateDomainList_safe during).mono fun listErr w' here _ => ?_)
    split <;> exact ⟨here, trivial⟩
  exact ⟨fun w lost => safe.crash lost, fun w op does => safe.performs does⟩

end EspAdblocker.Storage
