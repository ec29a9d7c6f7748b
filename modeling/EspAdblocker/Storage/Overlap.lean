import EspAdblocker.Storage.PowerLoss

/-!
# Overlapping updates

Any number of runs of the updater over one device, interleaved operation by
operation. Each run works on the other half of the slot byte it read, so what it
works on is the named half only if another run stored a slot byte in between
(`overlapping_updates_spare_named`). Nothing prevents that
(`overlapping_updates_erase_named`).
-/

namespace EspAdblocker.Storage

open EspAdblocker.Lib EspAdblocker.Bloom

variable {short : Bool}

/-! ## One artifact at a time -/

/-- The two artifacts that have an active half. -/
inductive Artifact where
  | bloom
  | list
  deriving DecidableEq, Repr

namespace Artifact

/-- The half that the artifact's slot byte names. -/
def named (d : Device) : Artifact → Half
  | bloom => d.activePartition
  | list => halfOf d.nvs.exactListActiveSlot

/-- The operation reads the slot byte. -/
def Reads : Artifact → Op → Prop
  | bloom, .getBloomSlot => True
  | list, .getListSlot => True
  | _, _ => False

/-- The operation stores a slot byte that names `h`. -/
def Stores (h : Half) : Artifact → Op → Prop
  | bloom, .setBloomSlot slot => halfOf slot = h
  | list, .setListSlot slot => halfOf slot = h
  | _, _ => False

/-- The operation changes what half `h` holds. -/
def Hits (h : Half) : Artifact → Op → Prop
  | bloom, .eraseRange k | bloom, .writePartition k _ => k = h
  | list, .fopenWrite f | list, .fwrite f _ | list, .fcloseWrite f | list, .remove f => f = .half h
  | _, _ => False

/-- The half a run has chosen after an operation: the other one of the slot byte it
read, none once it has stored the slot byte. -/
def choice : Artifact → Option Half → (op : Op) → Res op → Option Half
  | bloom, _, .getBloomSlot, active => some (halfOf active).other
  | list, _, .getListSlot, active => some (halfOf active).other
  | bloom, _, .setBloomSlot _, _ => none
  | list, _, .setListSlot _, _ => none
  | _, chosen, _, _ => chosen

/-- A run watched for its choice alone. -/
def choices (A : Artifact) : Sem Op Res (Option Half) where
  step chosen op r next := next = A.choice chosen op r
  torn chosen _ next := next = chosen

/-- The operation changes only what the chosen half holds. -/
def Within (A : Artifact) (chosen : Option Half) (op : Op) : Prop :=
  ∀ h, A.Hits h op → chosen = some h

/-- From a choice, the program changes only what the half chosen at that moment holds. -/
def Keeps (A : Artifact) {α : Type} (p : DeviceM α) (chosen : Option Half) : Prop :=
  A.choices.Safe (fun _ => True) A.Within p (fun _ _ => True) chosen

/-- The operation leaves the choice and hits no half but `h`. -/
def Works (h : Half) (A : Artifact) (op : Op) : Prop :=
  (∀ chosen r, A.choice chosen op r = chosen) ∧ ∀ k, A.Hits k op → k = h

/-- The operation hits nothing. -/
def Idle (A : Artifact) (op : Op) : Prop := ∀ h, ¬ A.Hits h op

end Artifact

theorem Volatile.idle {op : Op} (h : Volatile op) (A : Artifact) : A.Idle op := by
  cases A <;> cases op <;> first | exact fun _ => id | exact h.elim

/-- What a program commits to is the half it has chosen. -/
theorem Artifact.Keeps.chosen {A : Artifact} {α : Type} {p : DeviceM α} {chosen : Option Half} {h : Half}
    (keeps : A.Keeps p chosen) (commits : p.Commits A.Reads (A.Hits h)) : chosen = some h := by
  induction p generalizing chosen with
  | ret a => exact commits.elim
  | call op k ih =>
    obtain ⟨-, within, -, next⟩ := keeps
    rcases commits with hit | ⟨unread, r, later⟩
    · exact within h hit
    · have after := ih r (next r _ rfl) later
      cases A <;> cases op <;> first | exact after | exact absurd trivial unread | cases after

/-! ## The updater keeps its choices -/

section

variable {A : Artifact} {α β : Type} {h : Half}

/-- A stretch of work on the chosen half. -/
theorem worksPhase : A.choices.Phase (A.Works h) (· = some h) A.Within where
  keeps _ op r _ works here step := by
    rw [step, works.1, here]
  torn _ _ _ _ here lost := by rw [lost, here]
  allowed _ op works here k hit := by rw [here, works.2 k hit]

/-- A program that hits nothing keeps any choice. -/
theorem keeps_of_idle {p : DeviceM α} (idle : p.Only A.Idle) (chosen : Option Half) : A.Keeps p chosen :=
  Sem.safe_of_only idle (fun _ _ _ _ _ _ _ => trivial) (fun _ _ _ _ _ _ => trivial)
    (fun _ _ idle _ h hit => absurd hit (idle h)) trivial

theorem works_of_idle {op : Op} (still : ∀ chosen r, A.choice chosen op r = chosen) (idle : A.Idle op) : A.Works h op :=
  ⟨still, fun k hit => absurd hit (idle k)⟩

end

open Artifact

theorem updateBloom_keeps_bloom (seedLen : BitVec 32) (baseUrl : List Byte) (chosen : Option Half) :
    bloom.Keeps (updateBloom seedLen baseUrl) chosen := by
  have idle {h : Half} {op : Op} (still : ∀ chosen r, bloom.choice chosen op r = chosen) (idle : bloom.Idle op) :
      bloom.Works h op := works_of_idle still idle
  have true_of {h : Half} : ∀ v : Option Half, v = some h → True := fun _ _ => trivial
  simp only [Keeps, updateBloom, installBloom, activateBloom, Prog.bind_eq, Prog.perform_bind, Prog.pure_eq]
  refine Sem.safe_call trivial (fun _ hit => hit.elim) (fun _ _ => trivial) fun active next read => ?_
  have phase : bloom.choices.Phase (bloom.Works (halfOf active).other) (· = some (halfOf active).other) bloom.Within :=
    worksPhase
  refine phase.call true_of (idle (fun _ _ => rfl) fun _ => id) read fun size v _ here => ?_
  split
  · exact ⟨trivial, trivial⟩
  refine phase.call true_of (idle (fun _ _ => rfl) fun _ => id) here fun buf v _ here => ?_
  split
  · exact ⟨trivial, trivial⟩
  refine phase.bind true_of (httpGetToBuffer_only _ _ (idle (fun _ _ => rfl) fun _ => id)) here fun got v here => ?_
  split
  · exact phase.call true_of (idle (fun _ _ => rfl) fun _ => id) here fun _ _ _ _ => ⟨trivial, trivial⟩
  split
  · exact phase.call true_of (idle (fun _ _ => rfl) fun _ => id) here fun _ _ _ _ => ⟨trivial, trivial⟩
  refine phase.bind true_of (computeCrc_only _ (idle (fun _ _ => rfl) fun _ => id)) here fun crc v here => ?_
  split
  · have flashes {image : List Byte} :
        (flashImage (halfOf (targetSlot active)) image).Only (bloom.Works (halfOf active).other) := by
      rw [halfOf_targetSlot]
      exact flashImage_only ⟨fun _ _ => rfl, fun _ => Eq.symm⟩ ⟨fun _ _ => rfl, fun _ => Eq.symm⟩
    refine phase.bind true_of flashes here fun err v here => ?_
    refine phase.call true_of (idle (fun _ _ => rfl) fun _ => id) here fun _ v _ here => ?_
    split
    · refine Sem.safe_call trivial (fun _ hit => hit.elim) (fun _ _ => trivial) fun err v _ => ?_
      split
      · have reload : (dnsProxyReloadBloomFilter seedLen).Only bloom.Idle :=
          (dnsProxyReloadBloomFilter_volatile seedLen).mono fun _ h => h.idle bloom
        exact Sem.safe_bind ((keeps_of_idle reload v).mono fun _ _ _ _ => ⟨trivial, trivial⟩)
      · exact ⟨trivial, trivial⟩
    · exact ⟨trivial, trivial⟩
  · exact phase.call true_of (idle (fun _ _ => rfl) fun _ => id) here fun _ _ _ _ => ⟨trivial, trivial⟩

theorem updateDomainList_keeps_list (sha : Sha256) (baseUrl : List Byte) (chosen : Option Half) :
    list.Keeps (updateDomainList sha baseUrl) chosen := by
  have idle {h : Half} {op : Op} (still : ∀ chosen r, list.choice chosen op r = chosen) (idle : list.Idle op) :
      list.Works h op := works_of_idle still idle
  have true_of {h : Half} : ∀ v : Option Half, v = some h → True := fun _ _ => trivial
  simp only [Keeps, updateDomainList, checkDomainList, activateDomainList, Prog.bind_eq, Prog.perform_bind, Prog.pure_eq]
  refine Sem.safe_call trivial (fun _ hit => hit.elim) (fun _ _ => trivial) fun s _ _ => ?_
  split
  · refine Sem.safe_call trivial (fun _ hit => hit.elim) (fun _ _ => trivial) fun active next read => ?_
    have phase : list.choices.Phase (list.Works (halfOf active).other) (· = some (halfOf active).other) list.Within :=
      worksPhase
    have target : halfOf (targetSlot active) = (halfOf active).other := halfOf_targetSlot active
    have works {op : Op} (still : ∀ chosen r, list.choice chosen op r = chosen)
        (hits : ∀ k, list.Hits k op → DomainFile.half (halfOf (targetSlot active)) = .half k) :
        list.Works (halfOf active).other op :=
      ⟨still, fun k hit => by rw [← target, DomainFile.half.inj (hits k hit)]⟩
    have remove {e : EspErr} {v : Option Half} (here : v = some (halfOf active).other) :
        list.choices.Safe (fun _ => True) list.Within
          (.call (.remove (.half (halfOf (targetSlot active)))) fun _ => .ret e) (fun _ _ => True) v :=
      phase.call true_of (works (fun _ _ => rfl) fun _ => id) here fun _ _ _ _ => ⟨trivial, trivial⟩
    have downloads := httpGetToFile_only (P := list.Works (halfOf active).other) (f := .half (halfOf (targetSlot active)))
      (urlOf baseUrl "/domains.idx") (idle (fun _ _ => rfl) fun _ => id) (works (fun _ _ => rfl) fun _ => id)
      (fun _ => works (fun _ _ => rfl) fun _ => id) (works (fun _ _ => rfl) fun _ => id)
    refine phase.bind true_of downloads read fun len v here => ?_
    split
    · exact ⟨trivial, trivial⟩
    refine phase.bind true_of (httpGetToBuffer_only _ _ (idle (fun _ _ => rfl) fun _ => id)) here fun got v here => ?_
    split
    · exact remove here
    have hashes : (sha256File sha (.half (halfOf (targetSlot active)))).Only (list.Works (halfOf active).other) := by
      simp only [sha256File, Prog.bind_eq, Prog.perform_bind, Prog.pure_eq]
      refine .call (idle (fun _ _ => rfl) fun _ => id) fun opened => ?_
      split
      · trivial
      · exact .call (idle (fun _ _ => rfl) fun _ => id) fun _ => trivial
    refine phase.bind true_of hashes here fun digest v here => ?_
    split
    · exact remove here
    split
    · exact remove here
    refine Sem.safe_call trivial (fun _ hit => hit.elim) (fun _ _ => trivial) fun err v _ => ?_
    split
    · exact keeps_of_idle (sdStorageLoadDomainList_listLoads.mono fun _ h => h.1.idle list) v
    · exact ⟨trivial, trivial⟩
  · exact ⟨trivial, trivial⟩

theorem updateDomainList_idle (sha : Sha256) (baseUrl : List Byte) : (updateDomainList sha baseUrl).Only bloom.Idle := by
  refine (updateDomainList_keepsBloom sha baseUrl).mono fun op keeps => ?_
  cases op <;> first | exact fun _ => id | exact keeps.elim

theorem updateBloom_idle (seedLen : BitVec 32) (baseUrl : List Byte) : (updateBloom seedLen baseUrl).Only list.Idle := by
  have reload : (dnsProxyReloadBloomFilter seedLen).Only list.Idle :=
    (dnsProxyReloadBloomFilter_volatile seedLen).mono fun _ h => h.idle list
  simp only [updateBloom, installBloom, activateBloom, Prog.bind_eq, Prog.perform_bind, Prog.pure_eq]
  refine .call (fun _ => id) fun active => .call (fun _ => id) fun size => ?_
  split
  · trivial
  refine .call (fun _ => id) fun buf => ?_
  split
  · trivial
  refine (httpGetToBuffer_only _ _ fun _ => id).bind fun got => ?_
  split
  · exact .call (fun _ => id) fun _ => trivial
  split
  · exact .call (fun _ => id) fun _ => trivial
  refine (computeCrc_only _ fun _ => id).bind fun crc => ?_
  split
  · refine (flashImage_only (fun _ => id) fun _ => id).bind fun err => .call (fun _ => id) fun _ => ?_
    split
    · refine .call (fun _ => id) fun err => ?_
      split
      · exact reload.bind fun _ => trivial
      · trivial
    · trivial
  · exact .call (fun _ => id) fun _ => trivial

/-- **A run works on the half it chose**, of either artifact. -/
theorem blocklistUpdaterCheckAndApply_keeps (A : Artifact) (sha : Sha256) (seedLen : BitVec 32) (baseUrl : List Byte) :
    A.Keeps (blocklistUpdaterCheckAndApply sha seedLen baseUrl) none := by
  simp only [Keeps, blocklistUpdaterCheckAndApply, Prog.bind_eq, Prog.pure_eq]
  have rest {bloomErr : EspErr} (chosen : Option Half) (keeps : A.Keeps (updateDomainList sha baseUrl) chosen) :
      A.choices.Safe (fun _ => True) A.Within ((updateDomainList sha baseUrl).bind fun listErr =>
        if bloomErr = .ok ∧ listErr = .ok then .ret EspErr.ok else .ret EspErr.fail) (fun _ _ => True) chosen := by
    refine Sem.safe_bind (keeps.mono fun listErr v _ _ => ?_)
    split <;> exact ⟨trivial, trivial⟩
  cases A with
  | bloom =>
    refine Sem.safe_bind ((updateBloom_keeps_bloom seedLen baseUrl none).mono fun bloomErr v _ _ => ?_)
    exact rest v (keeps_of_idle (updateDomainList_idle sha baseUrl) v)
  | list =>
    refine Sem.safe_bind ((keeps_of_idle (updateBloom_idle seedLen baseUrl) none).mono fun bloomErr v _ _ => ?_)
    exact rest v (updateDomainList_keeps_list sha baseUrl v)

/-! ## Interleaved runs -/

/-- An operation that leaves the slot bytes alone leaves what they name. -/
theorem named_of_step {d d' : Device} {op : Op} {r : Res op} (stepped : Device.step short d op r d') (A : Artifact) :
    A.named d' = A.named d ∨ A.Stores (A.named d') op := by
  by_cases volatile : Volatile op
  · left
    have nvs := (volatile.step stepped).nvs
    cases A <;> simp only [named, Device.activePartition, nvs]
  cases op with
  | setBloomSlot slot | setListSlot slot =>
    simp only [Device.step] at stepped
    split at stepped
    · subst stepped
      cases A <;> first | exact .inl rfl | exact .inr rfl
    · subst stepped
      exact .inl rfl
  | eraseRange | writePartition | fopenWrite | fwrite | fcloseWrite | remove =>
    simp only [Device.step] at stepped
    split at stepped
    · subst stepped
      cases A <;> exact .inl rfl
    · obtain ⟨content, rfl⟩ := stepped
      cases A <;> exact .inl rfl
  | _ => exact absurd trivial volatile

/-- The step stores no slot byte naming a half that another run may still change
without reading the slot byte again. -/
def LeavesTargets {α : Type} (x : Sem.Pool Op Res Device α) (i : Nat) (op : Op) : Prop :=
  ∀ (A : Artifact) (h : Half), A.Stores h op →
    ∀ j q, j ≠ i → x.2[j]? = some q → ¬ q.Commits A.Reads (A.Hits h)

/-- What each run keeps: its choice, and that the half it may change is not the named one. -/
def Apart (A : Artifact) {α : Type} (d : Device) (p : DeviceM α) : Prop :=
  (∃ chosen, A.Keeps p chosen) ∧ ∀ h, p.Commits A.Reads (A.Hits h) → h ≠ A.named d

/-- A run stays apart by its own steps. -/
theorem Apart.own {A : Artifact} {α : Type} {d d' : Device} {op : Op} {k : Res op → DeviceM α} {r : Res op}
    (apart : Apart A d (.call op k)) (stepped : Device.step short d op r d') : Apart A d' (k r) := by
  obtain ⟨⟨chosen, keeps⟩, away⟩ := apart
  have next : A.Keeps (k r) (A.choice chosen op r) := keeps.2.2.2 r _ rfl
  refine ⟨⟨_, next⟩, fun h commits => ?_⟩
  have choice := next.chosen commits
  by_cases reads : A.Reads op
  · cases A <;> cases op <;> first | exact reads.elim | skip
    all_goals
      obtain ⟨rfl, rfl⟩ := stepped
      rw [← Option.some.inj choice]
      exact Half.other_ne _
  · rcases named_of_step stepped A with same | stores
    · rw [same]
      exact away h (.inr ⟨reads, r, commits⟩)
    · cases A <;> cases op <;> first | exact stores.elim | cases choice

/-- A run stays apart by the steps of others that leave its target. -/
theorem Apart.other {A : Artifact} {α : Type} {d d' : Device} {op : Op} {r : Res op} {p : DeviceM α}
    (apart : Apart A d p) (stepped : Device.step short d op r d')
    (leaves : ∀ h, A.Stores h op → ¬ p.Commits A.Reads (A.Hits h)) : Apart A d' p := by
  refine ⟨apart.1, fun h commits => ?_⟩
  rcases named_of_step stepped A with same | stores
  · rw [same]
    exact apart.2 h commits
  · rintro rfl
    exact leaves _ stores commits

theorem sparesNamed_of_hits {d : Device} {op : Op} (away : ∀ (A : Artifact) (h : Half), A.Hits h op → h ≠ A.named d) :
    SparesNamed d op := by
  cases op with
  | eraseRange h | writePartition h => exact away bloom h rfl
  | fopenWrite f | fwrite f | fcloseWrite f | remove f =>
    rintro rfl
    exact away list _ rfl rfl
  | _ => trivial

/-- **Overlapping updates never destroy the serving slot** as long as no run
stores a slot byte naming a half that another run is about to change. -/
theorem overlapping_updates_spare_named (sha : Sha256) (seedLen : BitVec 32) (baseUrls : List (List Byte)) (d : Device)
    {x y : Sem.Pool Op Res Device EspErr} {i : Nat} {op : Op}
    (run : (deviceSem short).PoolRun LeavesTargets (d, baseUrls.map (blocklistUpdaterCheckAndApply sha seedLen)) x)
    (step : (deviceSem short).PoolStep x i op y) : SparesNamed x.1 op := by
  have apart (A : Artifact) : ∀ p ∈ x.2, Apart A x.1 p := by
    refine run.forall_programs (Apart A) ?_ ?_ ?_
    · intro p member
      obtain ⟨baseUrl, -, rfl⟩ := List.mem_map.mp member
      have keeps := blocklistUpdaterCheckAndApply_keeps A sha seedLen baseUrl
      exact ⟨⟨none, keeps⟩, fun h commits => nomatch keeps.chosen commits⟩
    · exact fun y i op k r d' _ _ _ stepped here => here.own stepped
    · exact fun y i op k r d' j q _ leaves _ stepped differ found here =>
        here.other stepped fun h stores => leaves A h stores j q differ found
  cases step with
  | step here stepped =>
    exact sparesNamed_of_hits fun A h hit => (apart A _ (List.mem_of_getElem? here)).2 h (.inl hit)

/-- A device with two bloom partitions and no card, the first active. -/
def twoPartitions : Device where
  partSize _ := some 64#32
  flash _ := []
  files _ := none
  seed := []

/-- A server of one small image. -/
def imageServer (_ : List Byte) : Reply := .response 200 [sampleTool 8]

/-- Two runs of the updater from that server, not started yet. -/
def twoUpdates : Sem.Pool Op Res Device EspErr :=
  (twoPartitions, [[], []].map (blocklistUpdaterCheckAndApply sampleSha 0#32))

/-- The operation stores a slot byte. -/
def storesSlot : Op → Bool
  | .setBloomSlot _ | .setListSlot _ => true
  | _ => false

/-- The partition a run erases next. -/
def erasesNext : DeviceM EspErr → Option Half
  | .call (.eraseRange h) _ => some h
  | _ => none

theorem step_of_erasesNext (short : Bool) {x : Sem.Pool Op Res Device EspErr} {i : Nat} {h : Half}
    (next : x.2[i]?.bind erasesNext = some h) : ∃ y, (deviceSem short).PoolStep x i (.eraseRange h) y := by
  obtain ⟨p, here, erases⟩ := Option.bind_eq_some_iff.mp next
  cases p with
  | ret a => cases erases
  | call op k =>
    cases op <;> cases erases
    have failed : (deviceSem short).step x.1 (.eraseRange h) EspErr.fail (x.1.withFlash h []) := ⟨[], rfl⟩
    exact ⟨_, .step here failed⟩

/-- Both runs have downloaded the image, and the first erases the other partition. -/
theorem two_downloads_spare_named : ∃ x y, (deviceSem false).PoolRun LeavesTargets twoUpdates x ∧
    (deviceSem false).PoolStep x 0 (.eraseRange .b) y ∧ SparesNamed x.1 (.eraseRange .b) := by
  have reached : ((List.replicate 4 0 ++ List.replicate 4 1).foldlM
      (Sem.advance (Device.ideal imageServer) fun op => !storesSlot op) twoUpdates).map
      (fun x : Sem.Pool Op Res Device EspErr => x.2[0]?.bind erasesNext) = some (some .b) := by
    decide +kernel
  obtain ⟨x, run, next⟩ := Option.map_eq_some_iff.mp reached
  obtain ⟨y, step⟩ := step_of_erasesNext false next
  have quiet := Sem.poolRun_schedule (fun _ _ _ _ => Device.ideal_step false imageServer) .start run
  have run' : (deviceSem false).PoolRun LeavesTargets twoUpdates x := by
    refine quiet.mono fun y i op allowed A h stores => ?_
    cases A <;> cases op <;> first | exact stores.elim | cases allowed
  exact ⟨x, y, run', step, overlapping_updates_spare_named sampleSha 0#32 [[], []] twoPartitions run' step⟩

/-- Nothing keeps the second run from activating its image while the first still
means to erase that partition. -/
theorem overlapping_updates_erase_named : ¬ ∀ x y i op, (deviceSem false).PoolRun (fun _ _ _ => True) twoUpdates x →
    (deviceSem false).PoolStep x i op y → SparesNamed x.1 op := by
  have reached : ((List.replicate 4 0 ++ List.replicate 8 1).foldlM
      (Sem.advance (Device.ideal imageServer) fun _ => true) twoUpdates).map
      (fun x : Sem.Pool Op Res Device EspErr => (x.1.activePartition, x.2[0]?.bind erasesNext)) =
        some (.b, some .b) := by
    decide +kernel
  obtain ⟨x, run, found⟩ := Option.map_eq_some_iff.mp reached
  obtain ⟨active, next⟩ := Prod.mk.inj found
  obtain ⟨y, step⟩ := step_of_erasesNext false next
  intro spares
  have any : (deviceSem false).PoolRun (fun _ _ _ => True) twoUpdates x :=
    (Sem.poolRun_schedule (fun _ _ _ _ => Device.ideal_step false imageServer) .start run).mono fun _ _ _ _ => trivial
  exact spares x y 0 _ any step active.symm

end EspAdblocker.Storage
