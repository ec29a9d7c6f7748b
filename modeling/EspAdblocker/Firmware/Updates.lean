import EspAdblocker.Firmware.Keeping

/-!
# Updates and their copies

The programs of the updates: an image is written and selected by one that is not on
probation, and the copy of a URL is handed over, used and freed by its owner. With
them every task is known to keep what all rely on, from where it rests to where it
rests again (`shared`).
-/

namespace EspAdblocker.Firmware

open EspAdblocker.Lib EspAdblocker.Storage EspAdblocker.Web

variable {i₀ : Image} {job : Job} {w : Board} {α : Type}

/-! ## Copies -/

/-- The task owns no copy, unless it is an update that is still to begin. -/
def Released (job : Job) (b : Board) : Prop :=
  ∀ block, b.owners block = some job → ∃ u, job = .update u block ∧ 0 < b.jobs job

/-- The task is at work and owns one copy. -/
structure HasCopy (job : Job) (block : Nat) (b : Board) : Prop where
  mine : b.owners block = some job
  only : ∀ {block'}, b.owners block' = some job → block' = block
  begun : ∀ u, job = .update u block → b.jobs job = 0

theorem Released.not_post {u : Update} {block : Nat} (released : Released (.post u) w)
    (mine : w.owners block = some (.post u)) : False := by
  obtain ⟨_, other, -⟩ := released block mine
  cases other

theorem Released.stable {v : Board} (released : Released job w) (still : Stable job w v) :
    Released job v := by
  intro block mine
  rcases still.copies.given mine with before | ⟨⟨u, update⟩, created⟩
  · obtain ⟨u, update, some_left⟩ := released block before
    refine ⟨u, update, ?_⟩
    rwa [still.copies.pends update before]
  · exact ⟨u, update, created⟩

theorem HasCopy.stable {block : Nat} {v : Board} (has : HasCopy job block w) (sound : Sound i₀ w) (still : Stable job w v) :
    HasCopy job block v := by
  refine ⟨(still.copies.owns has.mine).1, fun {block'} mine => ?_, fun u update => ?_⟩
  · rcases still.copies.given mine with before | ⟨⟨u, update⟩, -⟩
    · exact has.only before
    · obtain ⟨_, _, post | update', -⟩ := sound.custody.owned has.mine
      · rw [update] at post
        cases post
      · rw [update] at update'
        exact (Job.update.inj update').2
  · rw [still.copies.pends update has.mine]
    exact has.begun u update

/-- An update that has begun has its copy. -/
theorem hasCopy_update {u : Update} {block : Nat} (sound : Sound i₀ w) (mine : w.owners block = some (.update u block))
    (begun : w.jobs (.update u block) = 0) : HasCopy (.update u block) block w := by
  refine ⟨mine, fun {block'} mine' => ?_, fun _ _ => begun⟩
  obtain ⟨_, _, post | update, -⟩ := sound.custody.owned mine'
  · cases post
  · exact (Job.update.inj update).2.symm

/-! ## Programs -/

theorem ImgState.Confirmed.ne {s : ImgState} (sure : s.Confirmed) : s ≠ .pendingVerify := by
  rcases sure with rfl | rfl <;> decide

theorem useCopy_apps (b : Board) (u : Update) (block : Nat) : (b.useCopy u block).apps = b.apps := by
  unfold Board.useCopy
  split <;> rfl

theorem useCopy_running (b : Board) (u : Update) (block : Nat) : (b.useCopy u block).running = b.running := by
  unfold Board.useCopy
  split <;> rfl

/-- The update of the firmware that begins uses its own copy. -/
theorem keptForAll_otaBegin {block : Nat} {r : EspErr} {v u : Board} (sound : Sound i₀ v)
    (mine : v.owners block = some (.update .firmware block)) (step : v.step (.otaBegin block) r u) : KeptForAll i₀ v u := by
  have used := keptForAll_useCopy sound mine fun other => by cases other
  rcases step with ⟨-, rfl⟩ | ⟨state, a, writing, rfl⟩
  · exact used
  · rw [← useCopy_apps v .firmware block, ← useCopy_running v .firmware block] at state writing
    have written := keptForAll_writing used.1 state writing
    exact ⟨written.1, fun j => .trans j _ _ _ (used.2 j) (written.2 j)⟩

/-- An image that has begun to write an update is not on probation, and stays so. -/
theorem holds_espHttpsOta {block : Nat} {Q : EspErr → Board → Prop} (sound : Sound i₀ w)
    (mine : w.owners block = some (.update .firmware block))
    (next : ∀ r v, Sound i₀ v → Stable (.update .firmware block) w v → Q r v) :
    Holds i₀ (.update .firmware block) (espHttpsOta block) Q w := by
  unfold espHttpsOta
  simp only [Prog.bind_eq, Prog.perform_bind, Prog.pure_eq]
  have begins (v : Board) (r : EspErr) (u : Board) (here : Sound i₀ v) (still : Stable (.update .firmware block) w v)
      (step : v.step (.otaBegin block) r u) : KeptForAll i₀ v u :=
    keptForAll_otaBegin here (still.copies.owns mine).1 step
  refine holds_call sound (.refl _ w) begins fun v err u before step here still => ?_
  split
  · rename_i accepted
    have sure : (u.apps.state u.running).Confirmed := by
      rcases step with ⟨refused, -⟩ | ⟨state, a, writing, rfl⟩
      · exact absurd accepted refused
      · show (a.state (v.useCopy .firmware block).running).Confirmed
        rw [useCopy_running, writing.state]
        exact (before.standing.of_state state).1
    have ends (v : Board) (r : EspErr) (u' : Board) (here : Sound i₀ v) (later : Stable (.update .firmware block) u v)
        (step : v.step .otaEnd r u') : KeptForAll i₀ v u' := by
      have state : v.apps.state v.running ≠ .pendingVerify := by
        rw [later.running]
        exact (later.confirmed sure).ne
      simp only [Board.step] at step
      split at step
      · obtain ⟨i, rfl⟩ := step
        exact keptForAll_install here state
      · obtain ⟨a, writing, rfl⟩ := step
        exact keptForAll_writing here state writing
    refine holds_call here (.refl _ u) ends fun _ r u' _ _ here' still' => ?_
    exact holds_ret here' (.trans _ _ _ _ still still') (next r)
  · exact holds_ret here still (next _)

/-- The owner of one copy frees it. -/
theorem holds_free {block : Nat} {k : Unit → BoardM α} {Q : α → Board → Prop} (sound : Sound i₀ w) (has : HasCopy job block w)
    (next : ∀ v, Sound i₀ v → Released job v → Holds i₀ job (k ()) Q v) : Holds i₀ job (.call (.free block) k) Q w := by
  have frees {v u : Board} {r : Unit} (here : Sound i₀ v) (still : Stable job w v) (step : v.step (.free block) r u) :
      u = v.withCopy block none none := by
    obtain ⟨_, _, -, copy, -⟩ := here.custody.owned (has.stable sound still).mine
    obtain rfl : u = _ := step
    rw [if_neg (copy ▸ Option.some_ne_none _)]
  refine holds_call_kept sound (fun v _ u here still step => ?_) fun v _ u here still step here' => ?_
  · have has' := has.stable sound still
    rw [frees here still step]
    exact kept_free here has'.mine has'.begun
  · refine next u here' fun block' mine => ?_
    rw [frees here still step] at mine
    by_cases same : block' = block
    · subst same
      simp only [Board.withCopy, Function.update_self] at mine
      cases mine
    · simp only [Board.withCopy, Function.update_of_ne same] at mine
      exact absurd ((has.stable sound still).only mine) same

theorem holds_asyncUpdateTask {block : Nat} {Q : Unit → Board → Prop} (sound : Sound i₀ w)
    (has : HasCopy (.update .firmware block) block w)
    (next : ∀ v, Sound i₀ v → Released (.update .firmware block) v → Q () v) :
    Holds i₀ (.update .firmware block) (asyncUpdateTask block) Q w := by
  unfold asyncUpdateTask fwUpdaterCheckAndUpdate
  simp only [Prog.bind_eq, Prog.perform_bind, Prog.pure_eq]
  refine holds_bind (holds_bind (holds_espHttpsOta sound has.mine fun err v₁ here₁ still₁ => ?_))
  split
  · refine holds_ret here₁ still₁ fun v₂ here₂ still₂ => ?_
    refine holds_free here₂ (has.stable sound still₂) fun v₃ here₃ released => ?_
    exact holds_ret here₃ (.refl _ v₃) fun v₄ here₄ still₄ => next v₄ here₄ (released.stable still₄)
  · exact holds_harmless trivial here₁ still₁ fun impossible => impossible.elim

theorem holds_asyncTask {hz : BitVec 32} {block : Nat} {Q : Unit → Board → Prop} (sound : Sound i₀ w)
    (has : HasCopy (.update .blocklist block) block w)
    (next : ∀ v, Sound i₀ v → Released (.update .blocklist block) v → Q () v) :
    Holds i₀ (.update .blocklist block) (asyncTask hz block) Q w := by
  have frees (v : Board) (here : Sound i₀ v) (still : Stable (.update .blocklist block) w v) :
      Holds i₀ (.update .blocklist block) (perform (.free block)) Q v := by
    refine holds_free here (has.stable sound still) fun v' here' released => ?_
    exact holds_ret here' (.refl _ v') fun v'' here'' still' => next v'' here'' (released.stable still')
  unfold asyncTask
  simp only [Prog.bind_eq, Prog.perform_bind]
  refine holds_bind (holds_ethInitWaitForIp sound (.refl _ w) (by simp) fun through v₁ here₁ still₁ bit => ?_)
  split
  · rename_i let_through
    have updates (v : Board) (r : EspErr) (u : Board) (here : Sound i₀ v) (later : Stable (.update .blocklist block) v₁ v)
        (step : v.step (.blocklistUpdaterCheckAndApply block) r u) : KeptForAll i₀ v u := by
      obtain rfl : u = _ := step
      have mine := (later.copies.owns (still₁.copies.owns has.mine).1).1
      exact keptForAll_useCopy here mine fun _ => (here.bit (later.bit (by simp) (bit let_through))).1
    refine holds_call here₁ (.refl _ v₁) updates fun _ _ v₂ _ _ here₂ still₂ => ?_
    exact frees v₂ here₂ (.trans _ _ _ _ still₁ still₂)
  · exact frees v₁ here₁ still₁

/-- A handler that owns no copy makes one, which it hands over or frees. -/
theorem holds_startAsync {u : Update} {url : List Byte} {Q : Unit → Board → Prop} (sound : Sound i₀ w)
    (requested : Requested u url w.log) (released : Released (.post u) w)
    (next : ∀ v, Sound i₀ v → Released (.post u) v → Q () v) : Holds i₀ (.post u) (startAsync u url) Q w := by
  have last (v : Board) (here : Sound i₀ v) (released : Released (.post u) v) : Holds i₀ (.post u) (.ret ()) Q v :=
    holds_ret here (.refl _ v) fun v' here' still => next v' here' (released.stable still)
  unfold startAsync
  simp only [Prog.bind_eq, Prog.perform_bind, Prog.pure_eq]
  refine holds_call_kept sound (fun v r v' here still step => ?_) fun v r v' here still step here' => ?_
  · cases r with
    | none =>
      obtain rfl : v' = v := step
      exact .refl here _
    | some block =>
      obtain ⟨free, rfl⟩ := step
      exact kept_strdup here (still.log.requested requested) free
  have none_mine {block : Nat} : v.owners block ≠ some (.post u) := fun mine =>
    (released.stable still).not_post mine
  cases r with
  | none =>
    obtain rfl : v' = v := step
    exact last v' here' (released.stable still)
  | some block =>
    have has : HasCopy (.post u) block v' := by
      obtain ⟨-, rfl⟩ := step
      refine ⟨Function.update_self .., fun {block'} mine => ?_, fun _ other => by cases other⟩
      by_contra differ
      simp only [Board.withCopy, Function.update_of_ne differ] at mine
      exact none_mine mine
    refine holds_call_kept here' (fun v₁ created v₂ here₁ still₁ step₁ => ?_) fun v₁ created v₂ here₁ still₁ step₁ here₂ => ?_
    · obtain rfl : v₂ = _ := step₁
      split
      · exact kept_handOver here₁ (has.stable here' still₁).mine
      · exact .refl here₁ _
    · have has₁ := has.stable here' still₁
      obtain rfl : v₂ = _ := step₁
      cases created with
      | true =>
        refine last _ here₂ fun block' mine => ?_
        by_cases same : block' = block
        · subst same
          simp [Board.handOver] at mine
        · simp only [Board.handOver, if_true, Function.update_of_ne same] at mine
          exact absurd (has₁.only mine) same
      | false => exact holds_free here₂ has₁ fun v₃ here₃ released => last v₃ here₃ released

theorem holds_postHandler {u : Update} {Q : Unit → Board → Prop} (sound : Sound i₀ w) (released : Released (.post u) w)
    (next : ∀ v, Sound i₀ v → Released (.post u) v → Q () v) : Holds i₀ (.post u) (postHandler u) Q w := by
  unfold postHandler
  simp only [Prog.bind_eq, Prog.perform_bind, Prog.pure_eq]
  refine holds_harmless_step trivial sound (.refl _ w) fun v r v' step here still => ?_
  have released' := released.stable still
  split
  · exact holds_harmless trivial here still fun impossible => impossible.elim
  · exact holds_ret here (.refl _ v') fun v'' here' still' => next v'' here' (released'.stable still')
  · rename_i url
    have requested : Requested u url v'.log := by
      obtain ⟨_, -, -, rfl⟩ := step
      exact List.mem_cons_self ..
    have starts := holds_startAsync here requested released' next
    cases u with
    | blocklist => exact starts
    | firmware => exact starts

/-! ## Rest -/

/-- Between two programs of a task, which owns no copy but that of an update to begin; the first
task finds no event group, and begins once. -/
structure AtRest (i₀ : Image) (job : Job) (b : Board) : Prop where
  sound : Sound i₀ b
  released : Released job b
  first : job = .main → b.jobs .main ≤ 1 ∧ (0 < b.jobs .main → b.sEventGroup = none)

/-- Only handlers and updates own copies. -/
theorem released_of_not_owner (sound : Sound i₀ w) (never : ∀ u block, ¬ job.Owns u block) : Released job w := by
  intro block mine
  obtain ⟨u, _, owns, -⟩ := sound.custody.owned mine
  exact absurd owns (never u block)

/-- A task but the first begins where it rests. -/
theorem kept_launch {v u : Board} {r : Unit} (other : job ≠ .main) (others : ∀ u block, job ≠ .update u block)
    (sound : Sound i₀ v) (step : v.step (.begin job) r u) : KeptForAll i₀ v u := by
  obtain ⟨some_left, rfl⟩ := step
  exact keptForAll_jobs sound other others fun event _ => event ▸ some_left

/-- The first task begins, and nobody begins it again. -/
theorem kept_begin_main {v : Board} (sound : Sound i₀ v) : Kept i₀ .main v (v.withJobs .main (v.jobs .main - 1)) := by
  have others {j : Job} (differ : j ≠ .main) : (v.withJobs .main (v.jobs .main - 1)).jobs j = v.jobs j :=
    Function.update_of_ne differ ..
  have copies : SameCopies v (v.withJobs .main (v.jobs .main - 1)) := ⟨rfl, rfl, fun _ _ => others (by simp)⟩
  refine ⟨⟨sound.lawful, sound.running, sound.standing.same rfl rfl (.refl ..), sound.bit, ?_,
    sound.custody.same copies (.refl _)⟩, fun j differ => ?_⟩
  · rw [others (by decide)]
    exact sound.posted
  · exact ⟨rfl, .refl _, id, fun _ => id, fun _ => id, fun _ => id, fun main => absurd main differ, copies.keeps j⟩

/-- A task begins where it rests, and comes to rest. -/
theorem holds_launch (hz : BitVec 32) (rest : AtRest i₀ job w) :
    Holds i₀ job (launch hz job) (fun _ v => AtRest i₀ job v) w := by
  have idle (other : job ≠ .main) (never : ∀ u block, ¬ job.Owns u block) (v : Board) (here : Sound i₀ v) :
      AtRest i₀ job v := ⟨here, released_of_not_owner here never, fun main => absurd main other⟩
  unfold launch
  simp only [Prog.bind_eq, Prog.perform_bind]
  cases job with
  | main =>
    obtain ⟨once, fresh⟩ := rest.first rfl
    refine Tasks.holds_call rest.sound fun v here still _ u step => ?_
    obtain ⟨some_left, rfl⟩ := step
    have count : v.jobs .main = w.jobs .main := still.begun rfl
    have none : v.sEventGroup = none := still.group rfl (fresh (count ▸ some_left))
    have left : (v.withJobs .main (v.jobs .main - 1)).jobs .main = 0 := by
      show Function.update v.jobs .main (v.jobs .main - 1) .main = 0
      rw [Function.update_self]
      omega
    have kept := kept_begin_main here
    refine ⟨kept, holds_appMain kept.1 none fun v' here' begun => ?_⟩
    refine ⟨here', released_of_not_owner here' (by simp [Job.Owns]), fun _ => ?_⟩
    rw [begun, left]
    exact ⟨Nat.zero_le 1, fun impossible => absurd impossible (Nat.lt_irrefl 0)⟩
  | gotIp =>
    refine holds_call rest.sound (.refl _ w) (fun _ _ _ here _ step => kept_launch (by decide) (by simp) here step)
      fun v _ u before step here _ => ?_
    obtain ⟨some_left, rfl⟩ := step
    exact holds_gotIpEventHandler here (.refl _ _) (before.posted some_left) fun v here _ =>
      idle (by decide) (by simp [Job.Owns]) v here
  | confirmBoot =>
    refine holds_call rest.sound (.refl _ w) (fun _ _ _ here _ step => kept_launch (by decide) (by simp) here step)
      fun v _ u _ _ here still => ?_
    exact holds_confirmBootTask here still (by decide) fun v here _ => idle (by decide) (by simp [Job.Owns]) v here
  | post u =>
    refine holds_call rest.sound (.refl _ w) (fun _ _ _ here _ step => kept_launch (by simp) (by simp) here step)
      fun v _ v' _ _ here still => ?_
    exact holds_postHandler here (rest.released.stable still) fun v here released =>
      ⟨here, released, fun main => by cases main⟩
  | update u block =>
    refine holds_call_kept rest.sound (fun v _ v' here _ step => ?_) fun v _ v' here _ step here' => ?_
    · obtain ⟨some_left, rfl⟩ := step
      exact kept_begin here some_left
    · obtain ⟨some_left, rfl⟩ := step
      obtain ⟨one, mine⟩ := here.custody.pending some_left
      have begun : (v.withJobs (.update u block) (v.jobs (.update u block) - 1)).jobs (.update u block) = 0 := by
        show Function.update v.jobs (.update u block) (v.jobs (.update u block) - 1) (.update u block) = 0
        rw [Function.update_self, one]
      have has := hasCopy_update here' mine begun
      have ends (v : Board) (here : Sound i₀ v) (released : Released (.update u block) v) : AtRest i₀ (.update u block) v :=
        ⟨here, released, fun main => by cases main⟩
      cases u with
      | blocklist => exact holds_asyncTask here' has ends
      | firmware => exact holds_asyncUpdateTask here' has ends

/-- Each task is at work at most once. -/
theorem shared (hz : BitVec 32) (i₀ : Image) : Tasks.Shared boardSem (launch hz) Board.Other Tasks.AtRest (Sound i₀) Stable
    (AtRest i₀) where
  refl := Stable.refl
  trans := Stable.trans
  other _ _ sound moved := keptForAll_other sound moved
  rest_inv _ _ rest := rest.sound
  rest_stable job w v rest sound still := by
    refine ⟨sound, rest.released.stable still, fun main => ?_⟩
    obtain ⟨once, fresh⟩ := rest.first main
    rw [still.begun main]
    exact ⟨once, fun some_left => still.group main (fresh some_left)⟩
  alone _ _ allowed := allowed
  launches _ _ rest := holds_launch hz rest

end EspAdblocker.Firmware
