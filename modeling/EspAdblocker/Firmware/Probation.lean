import EspAdblocker.Firmware.Updates

/-!
# One boot to prove itself

Over any life of a board (updates from any server, in any number at once; requests,
power losses and restarts at any moment; any order of the tasks, the event loop and the
network) each boot runs the image confirmed last or one that was installed since the boot
before, and an image is confirmed only in its own boot and once the interface has an
address. An image that is on probation is followed by the one confirmed last, which the
other slot still holds (`images_prove_themselves`).
-/

namespace EspAdblocker.Firmware

open EspAdblocker.Lib EspAdblocker.Storage EspAdblocker.Web

variable {boot : Bootloader} {i₀ : Image} {b : Board}

/-! ## Restarts -/

theorem Half.other_other (h : Half) : h.other.other = h := by cases h <;> rfl

theorem Half.eq_or_other (h k : Half) : h = k ∨ h = k.other := by cases h <;> cases k <;> decide

/-- No copy is there, and no update is to begin. -/
theorem inCustody_empty (copies : b.copies = fun _ => none) (owners : b.owners = fun _ => none)
    (updates : ∀ u block, b.jobs (.update u block) = 0) : InCustody b := by
  constructor
  · intro block job mine
    rw [owners] at mine
    cases mine
  · intro block there
    rw [copies] at there
    exact absurd rfl there
  · intro u block some_left
    rw [updates] at some_left
    exact absurd some_left (Nat.lt_irrefl 0)

/-- A restart that boots `i`, justified and standing well, is sound. -/
theorem sound_restart {i : Image} (sound : Sound i₀ b) (image : (boot b.apps).2.image (boot b.apps).1 = some i)
    (justified : i = lastConfirmed i₀ b.log ∨ installedSince b.log = some i)
    (standing : Standing i₀ { apps := (boot b.apps).2, running := (boot b.apps).1, log := .booted i :: b.log }) :
    Sound i₀ (b.restart boot) := by
  have log : (b.restart boot).log = .booted i :: b.log := by
    show .booted (((boot b.apps).2.image (boot b.apps).1).getD []) :: b.log = _
    rw [image]
    rfl
  constructor
  · rw [log]
    exact ⟨justified, sound.lawful⟩
  · rw [log]
    exact image
  · refine standing.same rfl rfl ?_
    show SameImages i₀ (.booted i :: b.log) (b.restart boot).log
    rw [log]
    exact .refl ..
  · intro set
    cases set
  · intro posted
    exact absurd posted (Nat.lt_irrefl 0)
  · exact inCustody_empty rfl rfl fun _ _ => rfl

/-- After a restart every task is at rest, and the image that runs is again well standing. -/
theorem atRest_restart (documented : boot.Documented) (sound : Sound i₀ b) (job : Job) :
    AtRest i₀ job (b.restart boot) := by
  refine ⟨?_, fun _ mine => (by cases mine), fun _ => ⟨Nat.le_refl 1, fun _ => rfl⟩⟩
  have running := sound.running
  by_cases bootable : b.apps.Bootable b.apps.selected
  · have boots := documented.selected b.apps bootable
    have sure_of {h : Half} (sure : (b.apps.state h).Confirmed) :
        (Function.update b.apps.state b.apps.selected (b.apps.state b.apps.selected).started h).Confirmed := by
      by_cases same : h = b.apps.selected
      · subst same
        rw [Function.update_self]
        rcases sure with valid | undefined
        · rw [valid]
          exact .inl rfl
        · rw [undefined]
          exact .inr rfl
      · rwa [Function.update_of_ne same]
    cases sound.standing with
    | confirmed sure last waiting =>
      rcases waiting with same | ⟨there, unbootable | ⟨new, installed⟩⟩
      · -- the image that ran is booted again
        refine sound_restart (i := bootedImage i₀ b.log) sound ?_ (.inl last.symm) ?_
        · rw [boots]
          show b.apps.image b.apps.selected = _
          rw [same, running]
        · rw [boots]
          exact .confirmed (sure_of (same ▸ sure)) last (.inl rfl)
      · exact absurd bootable (there ▸ unbootable)
      · -- the image that waits is put on probation
        obtain ⟨i, image⟩ : ∃ i, b.apps.image b.apps.selected = some i := Option.ne_none_iff_exists'.mp bootable.1
        refine sound_restart (i := i) sound ?_ (.inr ?_) ?_
        · rw [boots]
          exact image
        · rw [← installed, ← there, image]
        · rw [boots]
          refine .probation ?_ rfl rfl ?_ ?_
          · show Function.update b.apps.state b.apps.selected _ b.apps.selected = _
            rw [Function.update_self, there, new]
            rfl
          · show b.apps.image b.apps.selected.other = some (lastConfirmed i₀ b.log)
            rw [there, Half.other_other, running, last]
          · refine sure_of ?_
            rw [there, Half.other_other]
            exact sure
    | probation pending same =>
      rw [same] at bootable
      rcases bootable.2 with new | sure
      · rw [pending] at new
        cases new
      · exact absurd pending sure.ne
  · cases sound.standing with
    | confirmed sure last waiting =>
      rcases waiting with same | ⟨there, -⟩
      · refine absurd ⟨?_, .inr ?_⟩ bootable
        · rw [same, running]
          exact Option.some_ne_none _
        · rwa [same]
      · -- the image that waited cannot be booted: the one that ran is booted again
        have back : b.apps.selected.other = b.running := by rw [there, Half.other_other]
        obtain ⟨booted, images, state, unbootable⟩ := documented.rollback b.apps bootable (by
          rw [back]
          exact ⟨by rw [running]; exact Option.some_ne_none _, sure⟩)
        rw [back] at booted state
        refine sound_restart (i := bootedImage i₀ b.log) sound ?_ (.inl last.symm) ?_
        · rw [booted, images, running]
        · rw [booted]
          refine .confirmed ?_ last ?_
          · show ((boot b.apps).2.state b.running).Confirmed
            rwa [state]
          · rcases Half.eq_or_other (boot b.apps).2.selected b.running with here | other
            · exact .inl here
            · exact .inr ⟨other, .inl (there ▸ unbootable)⟩
    | probation pending same installed image other =>
      -- nobody confirmed the image: the one confirmed last is booted
      obtain ⟨booted, images, state, unbootable⟩ := documented.rollback b.apps bootable (by
        rw [same]
        exact ⟨by rw [image]; exact Option.some_ne_none _, other⟩)
      rw [same] at booted state unbootable
      refine sound_restart (i := lastConfirmed i₀ b.log) sound ?_ (.inl rfl) ?_
      · rw [booted, images, image]
      · rw [booted]
        refine .confirmed ?_ rfl ?_
        · show ((boot b.apps).2.state b.running.other).Confirmed
          rwa [state]
        · rcases Half.eq_or_other (boot b.apps).2.selected b.running.other with here | back
          · exact .inl here
          · refine .inr ⟨back, .inl ?_⟩
            rwa [Half.other_other]

/-! ## Lives -/

/-- A board that was just switched on for the first time, with one image. -/
def Board.first (apps : Apps) (nvs : Nvs) : Board := { apps := apps, running := apps.selected, nvs := nvs }

/-- The lives of a board with a boot loader, at a tick rate. -/
abbrev BoardLives (boot : Bootloader) (hz : BitVec 32) (apps : Apps) (nvs : Nvs) : System → Prop :=
  Tasks.Lives boardSem (launch hz) Board.Other Tasks.AtRest (Board.restart boot) (Board.first apps nvs)

theorem sound_first {apps : Apps} (holds : apps.image apps.selected = some i₀) (sure : (apps.state apps.selected).Confirmed)
    (nvs : Nvs) : Sound i₀ (Board.first apps nvs) where
  lawful := trivial
  running := holds
  standing := .confirmed sure rfl (.inl rfl)
  bit set := by cases set
  posted some_posted := absurd some_posted (Nat.lt_irrefl 0)
  custody := inCustody_empty rfl rfl fun _ _ => rfl

theorem atRest_first {apps : Apps} (holds : apps.image apps.selected = some i₀) (sure : (apps.state apps.selected).Confirmed)
    (nvs : Nvs) (job : Job) : AtRest i₀ job (Board.first apps nvs) :=
  ⟨sound_first holds sure nvs, fun _ mine => (by cases mine), fun _ => ⟨Nat.le_refl 1, fun _ => rfl⟩⟩

instance : Nonempty Job := ⟨.main⟩

/-- What the tasks keep holds for life. -/
theorem sound_of_lives (documented : boot.Documented) {apps : Apps} (holds : apps.image apps.selected = some i₀)
    (sure : (apps.state apps.selected).Confirmed) {hz : BitVec 32} {nvs : Nvs} {x : System}
    (lives : BoardLives boot hz apps nvs x) : Sound i₀ x.world :=
  lives.invariant (shared hz i₀) (atRest_first holds sure nvs) fun _ sound job => atRest_restart documented sound job

/-- **Every image proves itself or is replaced.** At any moment of a life, all that has happened
was justified, the next boot included; the slot that runs still holds the image that was booted
from it; and if that is on probation, the next boot runs the image confirmed last. -/
theorem images_prove_themselves (documented : boot.Documented) {apps : Apps}
    (holds : apps.image apps.selected = some i₀) (sure : (apps.state apps.selected).Confirmed) {hz : BitVec 32}
    {nvs : Nvs} {x : System} (lives : BoardLives boot hz apps nvs x) :
    Lawful i₀ (x.world.restart boot).log ∧
      x.world.apps.image x.world.running = some (bootedImage i₀ x.world.log) ∧
      (x.world.apps.state x.world.running = .pendingVerify →
        bootedImage i₀ (x.world.restart boot).log = lastConfirmed i₀ x.world.log) := by
  have sound := sound_of_lives documented holds sure lives
  have next := (atRest_restart documented sound .main).1
  refine ⟨next.lawful, sound.running, fun pending => ?_⟩
  rcases next.lawful.1 with last | installed
  · exact last
  · cases sound.standing with
    | confirmed sure' => exact absurd pending sure'.ne
    | probation _ _ none =>
      rw [none] at installed
      cases installed

/-! ## Two lives -/

instance (s : ImgState) : Decidable s.Confirmed := inferInstanceAs (Decidable (_ ∨ _))

instance (a : Apps) (h : Half) : Decidable (a.Bootable h) := inferInstanceAs (Decidable (_ ∧ _))

/-- A boot loader as it is documented: an image whose probation is over is aborted. -/
def espBootloader : Bootloader := fun a =>
  if a.Bootable a.selected then
    (a.selected, { a with state := Function.update a.state a.selected (a.state a.selected).started })
  else
    (a.selected.other, { a with
      state := Function.update a.state a.selected
        (if a.state a.selected = .pendingVerify then .aborted else a.state a.selected) })

theorem espBootloader_documented : espBootloader.Documented where
  selected a bootable := if_pos bootable
  rollback a unbootable sure := by
    rw [espBootloader, if_neg unbootable]
    refine ⟨rfl, rfl, Function.update_of_ne (Half.other_ne _) .., fun bootable => ?_⟩
    obtain ⟨image, state⟩ := bootable
    dsimp only at state
    rw [Function.update_self] at state
    split at state
    · rcases state with new | valid | undefined
      · cases new
      · cases valid
      · cases undefined
    · exact unbootable ⟨image, state⟩

/-- The answers of a board on which the driver starts as `driver` says, the servers have
`download`, and nothing else goes wrong; a wait that is not over has none. -/
def Board.answer (driver : EspErr) (download : Image) (b : Board) : (op : BoardOp) → Option (BoardRes op × Board)
  | .begin job => if 0 < b.jobs job then some ((), b.withJobs job (b.jobs job - 1)) else none
  | .createConfirmBoot => some (true, b.withJobs .confirmBoot (b.jobs .confirmBoot + 1))
  | .createUpdate u block => some (true, b.handOver u block)
  | .readUrl u =>
    let r := u.post b.nvs (List.replicate maxUrlFieldLen 0#8)
    some (r, b.readUrl u r)
  | .strdup u url =>
    some (if b.copies 0 = none then (some 0, b.withCopy 0 (some url) (some (.post u))) else (none, b))
  | .free block => some ((), if b.copies block = none then b.record .misused else b.withCopy block none none)
  | .readEthHandle => some (b.sEthHandle, b)
  | .readEventGroup => some (b.sEventGroup.isSome, b)
  | .xEventGroupCreate => some (true, { b with sEventGroup := some false })
  | .bringUp _ => some (.ok, b)
  | .espEthMacNewW5500 => some (true, b)
  | .espEthPhyNewW5500 => some (true, b)
  | .espEthDriverInstall => some (.ok, { b with sEthHandle := true })
  | .registerGotIp => some (.ok, { b with listening := true })
  | .appConfigGetNetMode => some (b.nvs.netMode.getD 0#8, b)
  | .appConfigGetStaticIp => some (b.nvs.staticIp, b)
  | .appConfigGetUpstream slot => some (b.upstream slot, b)
  | .espNetifSetIpInfo _ => some (.ok, b.record .assigned)
  | .espNetifGetDnsInfo slot => some (some (b.servers slot), b)
  | .espNetifSetDnsInfo slot addr =>
    some (.ok, if addr ≠ 0#32 then { b with servers := Function.update b.servers slot addr }
      else { b with servers := Function.update b.servers slot addr, log := .left slot :: b.log })
  | .espEthStart => some (driver, if driver = .ok then { b with started := true } else b)
  | .xEventGroupSetBits => some ((), { b with sEventGroup := b.sEventGroup.map fun _ => true })
  | .deadline ticks => some (b.now + ticks, b)
  | .waitBits deadline =>
    if b.sEventGroup = some true then some (true, b) else if deadline ≤ b.now then some (false, b) else none
  | .espOtaGetStatePartition => some (some (b.apps.state b.running), b)
  | .espOtaMarkAppValid =>
    (b.apps.image b.running).map fun i => ((), { b with apps := b.apps.markValid b.running, log := .confirmed i :: b.log })
  | .otaBegin block =>
    some (if b.apps.state b.running = .pendingVerify then (.invalidState, b.useCopy .firmware block)
      else (.ok, { b.useCopy .firmware block with
        apps := { b.apps with image := Function.update b.apps.image b.running.other none } }))
  | .otaEnd => some (.ok, { b with apps := b.apps.install b.running download, log := .installed download :: b.log })
  | .espRestart | .abort _ => none
  | .blocklistUpdaterCheckAndApply block => some (.ok, b.useCopy .blocklist block)

/-- The semantics allows every such answer. -/
theorem answer_step {driver : EspErr} {download : Image} (b : Board) (op : BoardOp) (r : BoardRes op) (b' : Board)
    (answered : b.answer driver download op = some (r, b')) : boardSem.step b op r b' := by
  change Board.step b op r b'
  cases op with
  | begin job =>
    simp only [Board.answer] at answered
    split at answered
    · rename_i some_left
      cases answered
      exact ⟨some_left, rfl⟩
    · cases answered
  | waitBits deadline =>
    simp only [Board.answer] at answered
    split at answered
    · rename_i set
      cases answered
      exact ⟨iff_of_true rfl set, .inl rfl, rfl⟩
    split at answered
    · rename_i unset late
      cases answered
      exact ⟨iff_of_false Bool.false_ne_true unset, .inr late, rfl⟩
    · cases answered
  | espOtaMarkAppValid =>
    obtain ⟨i, image, same⟩ := Option.map_eq_some_iff.mp answered
    cases same
    exact .inr ⟨i, image, rfl⟩
  | otaBegin url =>
    simp only [Board.answer] at answered
    split at answered
    · cases answered
      exact .inl ⟨(fun accepted => by cases accepted), rfl⟩
    · rename_i proven
      cases answered
      refine .inr ⟨proven, _, ?_, rfl⟩
      exact ⟨Function.update_of_ne (Half.ne_other _) .., rfl, Function.update_self .., .inl rfl⟩
  | otaEnd =>
    cases answered
    exact ⟨download, rfl⟩
  | espNetifSetDnsInfo slot addr =>
    cases answered
    simp only [Board.step, true_and, if_true]
  | espEthStart =>
    cases answered
    simp only [Board.step]
  | readUrl u =>
    cases answered
    exact ⟨_, List.length_replicate, rfl, rfl⟩
  | strdup u url =>
    simp only [Board.answer] at answered
    split at answered
    · rename_i free
      cases answered
      exact ⟨free, rfl⟩
    · cases answered
      rfl
  | espRestart | abort => cases answered
  | readEthHandle | readEventGroup | appConfigGetNetMode | appConfigGetStaticIp | appConfigGetUpstream =>
    cases answered
    exact ⟨rfl, rfl⟩
  | deadline => cases answered; exact ⟨rfl, rfl⟩
  | espNetifGetDnsInfo | espOtaGetStatePartition => cases answered; exact ⟨.inr rfl, rfl⟩
  | xEventGroupCreate | bringUp | espEthMacNewW5500 | espEthPhyNewW5500 => cases answered; rfl
  | createConfirmBoot | createUpdate | free | espEthDriverInstall | registerGotIp | espNetifSetIpInfo => cases answered; rfl
  | xEventGroupSetBits | blocklistUpdaterCheckAndApply => cases answered; rfl

/-- A board that runs image 1 from its first slot, and has never been updated. -/
def oneImage : Apps where
  image h := if h = .a then some [1#8] else none
  state _ := .undefined
  selected := .a

/-- The web UI is asked for an update. -/
def requested (u : Update) (b : Board) : Board := b.withJobs (.post u) (b.jobs (.post u) + 1)

/-- A request for an update of the firmware is handled, and the update begins and takes some steps. -/
def updated (nvs : Nvs) (steps : Nat) : Option (BoardM Unit × Board) :=
  ((launch 100#32 (.post .firmware)).exec (Board.answer .ok [2#8]) (requested .firmware (Board.first oneImage nvs))).bind
    fun posted => (launch 100#32 (.update .firmware 0)).after (Board.answer .ok [2#8]) (steps + 1) posted.2

/-- Nothing is at work. -/
theorem atRest_idle (b : Board) (job : Job) : Tasks.AtRest (⟨b, fun _ => none⟩ : System) job := by
  intro t p there
  cases there

theorem lives_updated {nvs : Nvs} {steps : Nat} {q : BoardM Unit} {v : Board} (done : updated nvs steps = some (q, v)) :
    BoardLives espBootloader 100#32 oneImage nvs ⟨v, Function.update (fun _ => none) 0 (some (.update .firmware 0, q))⟩ := by
  obtain ⟨⟨_, b⟩, posted, begun⟩ := Option.bind_eq_some_iff.mp done
  have asked : Tasks.Run boardSem (launch 100#32) Board.Other Tasks.AtRest ⟨Board.first oneImage nvs, fun _ => none⟩
      ⟨requested .firmware (Board.first oneImage nvs), fun _ => none⟩ := .single (.other (.request .firmware))
  have handled : Tasks.Run boardSem (launch 100#32) Board.Other Tasks.AtRest
      ⟨requested .firmware (Board.first oneImage nvs), fun _ => none⟩ ⟨b, fun _ => none⟩ :=
    .alone (t := 0) rfl (atRest_idle _ _) (Sem.runs_exec answer_step posted)
  exact .powered ((asked.trans handled).trans (Tasks.Run.started answer_step rfl (atRest_idle b _) begun))

/-- The settings of a board that may be updated from somewhere. -/
def someUrl : Nvs where
  fwUrl := some [0x68#8]

/-- A board that is updated and loses its power before the new image is confirmed has its old image back. -/
theorem unproven_image_replaced : ∃ x, BoardLives espBootloader 100#32 oneImage someUrl x ∧
    x.world.apps.image x.world.running = some [2#8] ∧
    bootedImage [1#8] (x.world.restart espBootloader).log = [1#8] := by
  have computed : (updated someUrl 2).map (fun done =>
        let b := done.2.restart espBootloader
        (b.apps.state b.running, bootedImage [1#8] b.log, lastConfirmed [1#8] b.log)) =
      some (.pendingVerify, [2#8], [1#8]) := by decide +kernel
  obtain ⟨⟨q, v⟩, done, seen⟩ := Option.map_eq_some_iff.mp computed
  obtain ⟨pending, images⟩ := Prod.mk.inj seen
  obtain ⟨booted, confirmed⟩ := Prod.mk.inj images
  have lives : BoardLives espBootloader 100#32 oneImage someUrl ⟨v.restart espBootloader, fun _ => none⟩ :=
    .restarted (lives_updated done) .refl
  obtain ⟨-, running, next⟩ := images_prove_themselves espBootloader_documented rfl (.inr rfl) lives
  exact ⟨_, lives, running.trans (congrArg some booted), (next pending).trans confirmed⟩

end EspAdblocker.Firmware
