import EspAdblocker.Firmware.History

/-!
# What every task keeps

Each operation keeps `Sound` and leaves the others what they rely on (`Stable`), some
of them only because of what their task knows by then: that nobody else creates the
event group, that the interface has an address and its resolvers, that the image that
runs needs no further proof, that a copy of a URL is its own.
-/

namespace EspAdblocker.Firmware

open EspAdblocker.Lib EspAdblocker.Storage EspAdblocker.Web

variable {i₀ : Image} {b b' : Board} {job : Job}

/-! ## Operations -/

/-- What everybody may go on relying on. -/
def KeptForAll (i₀ : Image) (b b' : Board) : Prop := Sound i₀ b' ∧ ∀ j, Stable j b b'

theorem KeptForAll.kept (kept : KeptForAll i₀ b b') (job : Job) : Kept i₀ job b b' := ⟨kept.1, fun j _ => kept.2 j⟩

theorem Filled.longer {slot : DnsSlot} (filled : Filled slot b) (servers : b'.servers slot = b.servers slot)
    (longer : Longer b.log b'.log) : Filled slot b' := by
  rcases filled with there | left
  · exact .inl (by rwa [servers])
  · exact .inr (longer.mem_sinceBoot left)

theorem Standing.same (standing : Standing i₀ b) (apps : b'.apps = b.apps) (running : b'.running = b.running)
    (same : SameImages i₀ b.log b'.log) : Standing i₀ b' := by
  cases standing with
  | confirmed sure last waiting =>
    refine .confirmed ?_ ?_ ?_
    · rwa [apps, running]
    · rw [same.confirmed, same.booted, last]
    · rwa [apps, running, same.installed]
  | probation state selected installed image other =>
    refine .probation ?_ ?_ ?_ ?_ ?_
    · rwa [apps, running]
    · rwa [apps, running]
    · rwa [same.installed]
    · rwa [apps, running, same.confirmed]
    · rwa [apps, running]

/-- The copies, their owners and the updates to begin are the same. -/
structure SameCopies (b b' : Board) : Prop where
  owners : b'.owners = b.owners
  copies : b'.copies = b.copies
  updates : ∀ u block, b'.jobs (.update u block) = b.jobs (.update u block)

theorem SameCopies.refl (b : Board) : SameCopies b b := ⟨rfl, rfl, fun _ _ => rfl⟩

theorem SameCopies.keeps (same : SameCopies b b') (job : Job) : KeepsCopies job b b' where
  owns mine := ⟨same.owners ▸ mine, by rw [same.copies]⟩
  pends update _ := by
    subst update
    exact same.updates _ _
  given mine := .inl (same.owners ▸ mine)

theorem InCustody.same (custody : InCustody b) (same : SameCopies b b') (longer : Longer b.log b'.log) : InCustody b' where
  owned mine := by
    obtain ⟨u, url, owns, copy, requested⟩ := custody.owned (same.owners ▸ mine)
    exact ⟨u, url, owns, by rwa [same.copies], longer.requested requested⟩
  copied there := by
    rw [same.copies] at there
    rw [same.owners]
    exact custody.copied there
  pending some_left := by
    rw [same.updates] at some_left ⊢
    rw [same.owners]
    exact custody.pending some_left

/-- What leaves the slots and the copies alone, takes no resolver away and records nothing of the images. -/
theorem keptForAll_aside (more : List Happening) (sound : Sound i₀ b) (apps : b'.apps = b.apps)
    (running : b'.running = b.running) (group : b'.sEventGroup = b.sEventGroup) (main : b'.jobs .main = b.jobs .main)
    (copies : SameCopies b b') (log : b'.log = more ++ b.log) (aside : ∀ e ∈ more, e.NoImage)
    (lawful : Lawful i₀ (more ++ b.log))
    (filled : ∀ slot, Filled slot b → Filled slot b')
    (posted : 0 < b'.jobs .gotIp → 0 < b.jobs .gotIp ∨ Addressed b'.log) : KeptForAll i₀ b b' := by
  have same : SameImages i₀ b.log b'.log := by
    rw [log]
    exact sameImages_append aside
  have longer : Longer b.log b'.log := ⟨more, log, fun e member => (aside e member).isBoot⟩
  refine ⟨?_, fun j => ?_⟩
  · constructor
    · rwa [log]
    · rw [apps, running, same.booted]
      exact sound.running
    · exact sound.standing.same apps running same
    · intro set
      obtain ⟨addressed, resolvers⟩ := sound.bit (group ▸ set)
      exact ⟨longer.addressed addressed, fun slot => filled slot (resolvers slot)⟩
    · intro some_posted
      rcases posted some_posted with before | addressed
      · exact longer.addressed (sound.posted before)
      · exact addressed
    · exact sound.custody.same copies longer
  · constructor
    · exact running
    · exact longer
    · rw [apps]
      exact id
    · exact filled
    · rw [group]
      exact fun _ => id
    · rw [group]
      exact fun _ => id
    · exact fun _ => main
    · exact copies.keeps j

/-- What changes none of what the others look at. -/
theorem keptForAll_frame (sound : Sound i₀ b) (apps : b'.apps = b.apps) (running : b'.running = b.running)
    (group : b'.sEventGroup = b.sEventGroup) (main : b'.jobs .main = b.jobs .main) (copies : SameCopies b b')
    (log : b'.log = b.log) (servers : b'.servers = b.servers) (posted : 0 < b'.jobs .gotIp → 0 < b.jobs .gotIp) :
    KeptForAll i₀ b b' := by
  refine keptForAll_aside [] sound apps running group main copies log (fun _ member => by cases member)
    sound.lawful (fun slot filled => ?_) fun some_posted => .inl (posted some_posted)
  exact filled.longer (congrFun servers slot) (log ▸ .refl _)

/-- What records one happening that says nothing of the images. -/
theorem keptForAll_record {e : Happening} (sound : Sound i₀ b) (aside : e.NoImage) (justified : Justified i₀ b.log e) :
    KeptForAll i₀ b (b.record e) := by
  refine keptForAll_aside [e] sound rfl rfl rfl rfl ⟨rfl, rfl, fun _ _ => rfl⟩ rfl ?_ ⟨justified, sound.lawful⟩
    (fun slot filled => ?_) .inl
  · intro e' member
    rwa [List.mem_singleton.mp member]
  · exact filled.longer rfl (longer_cons aside.isBoot)

/-- One task more or less to begin, other than the first and the updates, or one event less. -/
theorem keptForAll_jobs {n : Nat} (sound : Sound i₀ b) (other : job ≠ .main) (others : ∀ u block, job ≠ .update u block)
    (fewer : job = .gotIp → 0 < n → 0 < b.jobs .gotIp) : KeptForAll i₀ b (b.withJobs job n) := by
  have updates (u : Update) (block : Nat) : (b.withJobs job n).jobs (.update u block) = b.jobs (.update u block) :=
    Function.update_of_ne (Ne.symm (others u block)) ..
  refine keptForAll_frame sound rfl rfl rfl (Function.update_of_ne (Ne.symm other) ..) ⟨rfl, rfl, updates⟩ rfl rfl
    fun posted => ?_
  by_cases event : job = .gotIp
  · subst event
    apply fewer rfl
    simpa only [Board.withJobs, Function.update_self] using posted
  · simpa only [Board.withJobs, Function.update_of_ne (Ne.symm event)] using posted

/-- A resolver is written, and recorded as missing if that fails or writes none. -/
theorem keptForAll_setDnsInfo {slot : DnsSlot} {addr : BitVec 32} {r : EspErr} (sound : Sound i₀ b)
    (step : b.step (.espNetifSetDnsInfo slot addr) r b') : KeptForAll i₀ b b' ∧ Filled slot b' := by
  have missing (servers : DnsSlot → BitVec 32) (others : ∀ s, s ≠ slot → servers s = b.servers s) :
      KeptForAll i₀ b { b with servers := servers, log := .left slot :: b.log } ∧
        Filled slot { b with servers := servers, log := .left slot :: b.log } := by
    have left : Filled slot { b with servers := servers, log := .left slot :: b.log } := .inr (List.mem_cons_self ..)
    refine ⟨?_, left⟩
    refine keptForAll_aside [.left slot] sound rfl rfl rfl rfl ⟨rfl, rfl, fun _ _ => rfl⟩ rfl ?_
      ⟨trivial, sound.lawful⟩ ?_ .inl
    · intro e member
      rw [List.mem_singleton.mp member]
      trivial
    · intro s filled
      by_cases same : s = slot
      · rwa [same]
      · exact filled.longer (others s same) (longer_cons rfl)
  simp only [Board.step] at step
  split at step
  · rename_i written
    subst step
    have here : Filled slot { b with servers := Function.update b.servers slot addr } := by
      left
      show Function.update b.servers slot addr slot ≠ 0#32
      rw [Function.update_self]
      exact written.2
    refine ⟨?_, here⟩
    refine keptForAll_aside [] sound rfl rfl rfl rfl ⟨rfl, rfl, fun _ _ => rfl⟩ rfl
      (fun _ member => by cases member) sound.lawful ?_ .inl
    intro s filled
    by_cases same : s = slot
    · rwa [same]
    · exact filled.longer (Function.update_of_ne same ..) (.refl _)
  split at step
  · subst step
    exact missing _ fun s differ => Function.update_of_ne differ ..
  · subst step
    exact missing b.servers fun _ _ => rfl

/-- The event bit is set once there is an address and each resolver slot is filled. -/
theorem keptForAll_setBits (sound : Sound i₀ b) (addressed : Addressed b.log) (resolvers : ∀ slot, Filled slot b) :
    KeptForAll i₀ b { b with sEventGroup := b.sEventGroup.map fun _ => true } := by
  have copies : SameCopies b { b with sEventGroup := b.sEventGroup.map fun _ => true } := ⟨rfl, rfl, fun _ _ => rfl⟩
  refine ⟨⟨sound.lawful, sound.running, sound.standing.same rfl rfl (.refl ..), fun _ => ⟨addressed, resolvers⟩,
    sound.posted, sound.custody.same copies (.refl _)⟩, fun j => ?_⟩
  refine ⟨rfl, .refl _, id, fun _ => id, fun _ set => ?_, fun _ none => ?_, fun _ => rfl, copies.keeps j⟩
  · show b.sEventGroup.map _ = _
    rw [set]
    rfl
  · show b.sEventGroup.map _ = _
    rw [none]
    rfl

/-- The event group is created, empty, by the one who knows that there is none. -/
theorem kept_eventGroupCreate {r : Bool} (sound : Sound i₀ b) (none : b.sEventGroup = none)
    (step : b.step .xEventGroupCreate r b') : Kept i₀ .main b b' := by
  obtain rfl : b' = _ := step
  have copies : SameCopies b { b with sEventGroup := if r = true then some false else .none } := ⟨rfl, rfl, fun _ _ => rfl⟩
  refine ⟨⟨sound.lawful, sound.running, sound.standing.same rfl rfl (.refl ..), fun set => ?_, sound.posted,
    sound.custody.same copies (.refl _)⟩, ?_⟩
  · cases r <;> cases set
  · intro j other
    refine ⟨rfl, .refl _, id, fun _ => id, fun _ set => ?_, fun main => absurd main other, fun _ => rfl, copies.keeps j⟩
    rw [none] at set
    cases set

/-! ## The slots -/

/-- What changes the slots and leaves the rest, with a record that knows of it. -/
theorem keptForAll_apps {a : Apps} {log : List Happening} (sound : Sound i₀ b) (longer : Longer b.log log)
    (lawful : Lawful i₀ log) (image : a.image b.running = b.apps.image b.running)
    (sure : (b.apps.state b.running).Confirmed → (a.state b.running).Confirmed)
    (standing : Standing i₀ { b with apps := a, log := log }) : KeptForAll i₀ b { b with apps := a, log := log } := by
  have still (slot : DnsSlot) (filled : Filled slot b) : Filled slot { b with apps := a, log := log } :=
    filled.longer rfl longer
  have copies : SameCopies b { b with apps := a, log := log } := ⟨rfl, rfl, fun _ _ => rfl⟩
  refine ⟨⟨lawful, ?_, standing, fun set => ?_, fun posted => longer.addressed (sound.posted posted),
    sound.custody.same copies longer⟩, fun j => ?_⟩
  · show a.image b.running = _
    rw [image, sound.running, bootedImage_longer longer]
  · obtain ⟨addressed, resolvers⟩ := sound.bit set
    exact ⟨longer.addressed addressed, fun slot => still slot (resolvers slot)⟩
  · exact ⟨rfl, longer, sure, still, fun _ => id, fun _ => id, fun _ => rfl, copies.keeps j⟩

/-- An image that is not on probation is the one confirmed last. -/
theorem Standing.of_state (standing : Standing i₀ b) (state : b.apps.state b.running ≠ .pendingVerify) :
    (b.apps.state b.running).Confirmed ∧ lastConfirmed i₀ b.log = bootedImage i₀ b.log := by
  cases standing with
  | confirmed sure last _ => exact ⟨sure, last⟩
  | probation pending => exact absurd pending state

/-- While an update is written, the image that runs stays what it is. -/
theorem keptForAll_writing {a : Apps} (sound : Sound i₀ b) (state : b.apps.state b.running ≠ .pendingVerify)
    (writing : b.apps.Writing b.running a) : KeptForAll i₀ b { b with apps := a } := by
  obtain ⟨sure, last⟩ := sound.standing.of_state state
  refine keptForAll_apps sound (.refl _) sound.lawful writing.image (by rw [writing.state]; exact id) ?_
  refine .confirmed (by show (a.state b.running).Confirmed; rwa [writing.state]) last ?_
  show a.selected = b.running ∨ a.selected = b.running.other ∧ _
  have unbootable : ¬ a.Bootable b.running.other := fun bootable => bootable.1 writing.gone
  cases sound.standing with
  | confirmed _ _ waiting =>
    rcases writing.selected with same | back
    · rcases waiting with here | ⟨there, -⟩
      · exact .inl (same.trans here)
      · exact .inr ⟨same.trans there, .inl unbootable⟩
    · exact .inl back
  | probation pending => exact absurd pending state

/-- An update is installed by an image that is not on probation. -/
theorem keptForAll_install {i : Image} (sound : Sound i₀ b) (state : b.apps.state b.running ≠ .pendingVerify) :
    KeptForAll i₀ b { b with apps := b.apps.install b.running i, log := .installed i :: b.log } := by
  obtain ⟨sure, last⟩ := sound.standing.of_state state
  have running : (b.apps.install b.running i).state b.running = b.apps.state b.running :=
    Function.update_of_ne (Half.ne_other _) ..
  refine keptForAll_apps sound (longer_cons rfl) ⟨last.symm, sound.lawful⟩ (Function.update_of_ne (Half.ne_other _) ..)
    (by rw [running]; exact id) ?_
  refine .confirmed (by show ((b.apps.install b.running i).state b.running).Confirmed; rwa [running]) last ?_
  refine .inr ⟨rfl, .inr ⟨?_, ?_⟩⟩
  · exact Function.update_self ..
  · exact Function.update_self ..

/-- An image is confirmed once the interface has an address. -/
theorem keptForAll_markAppValid (sound : Sound i₀ b) (addressed : Addressed b.log)
    (step : b.step .espOtaMarkAppValid () b') : KeptForAll i₀ b b' := by
  rcases step with rfl | ⟨i, here, rfl⟩
  · exact ⟨sound, fun j => .refl j _⟩
  · obtain rfl : bootedImage i₀ b.log = i := Option.some.inj (sound.running.symm.trans here)
    have valid : ((b.apps.markValid b.running).state b.running).Confirmed := .inl (Function.update_self ..)
    have other : (b.apps.markValid b.running).state b.running.other = b.apps.state b.running.other :=
      Function.update_of_ne (Half.other_ne _) ..
    refine keptForAll_apps sound (longer_cons rfl) ⟨⟨rfl, addressed⟩, sound.lawful⟩ rfl (fun _ => valid) ?_
    refine .confirmed valid rfl ?_
    cases sound.standing with
    | confirmed _ _ waiting =>
      rcases waiting with same | ⟨there, unbootable | ⟨fresh, image⟩⟩
      · exact .inl same
      · refine .inr ⟨there, .inl fun bootable => unbootable ⟨bootable.1, ?_⟩⟩
        rw [← other]
        exact bootable.2
      · exact .inr ⟨there, .inr ⟨other.trans fresh, image⟩⟩
    | probation _ same => exact .inl same

/-! ## What happens besides -/

theorem longer_left (slots : List DnsSlot) (log : List Happening) : Longer log (slots.map .left ++ log) := by
  refine ⟨slots.map .left, rfl, fun e member => ?_⟩
  obtain ⟨slot, -, rfl⟩ := List.mem_map.mp member
  rfl

theorem mem_sinceBoot_left {slot : DnsSlot} {slots : List DnsSlot} {log : List Happening} (member : slot ∈ slots) :
    .left slot ∈ sinceBoot (slots.map .left ++ log) := by
  induction slots with
  | nil => cases member
  | cons s slots ih =>
    rw [List.map_cons, List.cons_append, sinceBoot_cons rfl]
    rcases List.mem_cons.mp member with rfl | later
    · exact List.mem_cons_self ..
    · exact List.mem_cons_of_mem _ (ih later)

theorem keptForAll_other (sound : Sound i₀ b) (moved : Board.Other b b') : KeptForAll i₀ b b' := by
  cases moved with
  | tick n => exact keptForAll_frame sound rfl rfl rfl rfl ⟨rfl, rfl, fun _ _ => rfl⟩ rfl rfl id
  | saved nvs => exact keptForAll_frame sound rfl rfl rfl rfl ⟨rfl, rfl, fun _ _ => rfl⟩ rfl rfl id
  | lease servers posted started listening =>
    refine keptForAll_aside (.leased :: (b.lost servers).map .left) sound rfl rfl rfl ?_ ⟨rfl, rfl, fun u block => ?_⟩
      rfl ?_ ?_ ?_ ?_
    · dsimp only
      split
      · exact Function.update_of_ne (by decide) ..
      · rfl
    · dsimp only
      split
      · exact Function.update_of_ne (by simp) ..
      · rfl
    · rintro e (_ | ⟨_, member⟩)
      · trivial
      · obtain ⟨slot, -, rfl⟩ := List.mem_map.mp member
        trivial
    · refine ⟨trivial, ?_⟩
      induction b.lost servers with
      | nil => exact sound.lawful
      | cons slot slots ih => exact ⟨trivial, ih⟩
    · intro slot filled
      by_cases none : servers slot = 0#32
      · right
        dsimp only
        rw [sinceBoot_cons rfl]
        apply List.mem_cons_of_mem
        rcases filled with there | left
        · have listed : slot ∈ b.lost servers :=
            List.mem_filter.mpr ⟨by cases slot <;> decide, decide_eq_true ⟨none, there⟩⟩
          exact mem_sinceBoot_left listed
        · exact (longer_left _ _).mem_sinceBoot left
      · exact .inl none
    · intro _
      right
      exact addressed_cons_of_isAddress rfl
  | request u => exact keptForAll_jobs sound (by simp) (by simp) fun event => by cases event

/-! ## Copies of URLs -/

/-- An update is requested with a copy of the URL in a free block. -/
theorem kept_strdup {u : Update} {url : List Byte} {block : Nat} (sound : Sound i₀ b) (requested : Requested u url b.log)
    (free : b.copies block = none) : Kept i₀ (.post u) b (b.withCopy block (some url) (some (.post u))) := by
  have unowned (job : Job) : b.owners block ≠ some job := by
    intro mine
    obtain ⟨_, _, -, copy, -⟩ := sound.custody.owned mine
    rw [free] at copy
    cases copy
  have elsewhere {block' : Nat} {job : Job} (mine : b.owners block' = some job) : block' ≠ block := by
    rintro rfl
    exact unowned job mine
  refine ⟨⟨sound.lawful, sound.running, sound.standing.same rfl rfl (.refl ..), sound.bit, sound.posted, ?_⟩, ?_⟩
  · constructor
    · intro block' job mine
      by_cases here : block' = block
      · subst here
        simp only [Board.withCopy, Function.update_self, Option.some.injEq] at mine ⊢
        exact ⟨u, url, .inl mine.symm, rfl, requested⟩
      · simp only [Board.withCopy, Function.update_of_ne here] at mine ⊢
        exact sound.custody.owned mine
    · intro block' there
      by_cases here : block' = block
      · subst here
        simp only [Board.withCopy, Function.update_self]
        exact Option.some_ne_none _
      · simp only [Board.withCopy, Function.update_of_ne here] at there ⊢
        exact sound.custody.copied there
    · intro u' block' some_left
      obtain ⟨one, mine⟩ := sound.custody.pending some_left
      refine ⟨one, ?_⟩
      simp only [Board.withCopy, Function.update_of_ne (elsewhere mine)]
      exact mine
  · intro j differ
    refine ⟨rfl, .refl _, id, fun _ => id, fun _ => id, fun _ => id, fun _ => rfl, ⟨?_, fun _ _ => rfl, ?_⟩⟩
    · intro block' mine
      simp only [Board.withCopy, Function.update_of_ne (elsewhere mine)]
      exact ⟨mine, trivial⟩
    · intro block' mine
      by_cases here : block' = block
      · subst here
        simp only [Board.withCopy, Function.update_self, Option.some.injEq] at mine
        exact absurd mine.symm differ
      · simp only [Board.withCopy, Function.update_of_ne here] at mine
        exact .inl mine

/-- The handler hands its copy over to the task that it creates. -/
theorem kept_handOver {u : Update} {block : Nat} (sound : Sound i₀ b) (mine : b.owners block = some (.post u)) :
    Kept i₀ (.post u) b (b.handOver u block) := by
  have none_left : b.jobs (.update u block) = 0 := by
    by_contra some_left
    obtain ⟨-, other⟩ := sound.custody.pending (Nat.pos_of_ne_zero some_left)
    rw [mine] at other
    cases other
  have others {job : Job} (differ : job ≠ .update u block) : (b.handOver u block).jobs job = b.jobs job :=
    Function.update_of_ne differ ..
  have created : (b.handOver u block).jobs (.update u block) = 1 := by
    show Function.update b.jobs (.update u block) (b.jobs (.update u block) + 1) (.update u block) = 1
    rw [Function.update_self, none_left]
  have elsewhere {block' : Nat} (differ : block' ≠ block) : (b.handOver u block).owners block' = b.owners block' :=
    Function.update_of_ne differ ..
  have here : (b.handOver u block).owners block = some (.update u block) := Function.update_self ..
  refine ⟨⟨sound.lawful, sound.running, sound.standing.same rfl rfl (.refl ..), sound.bit, ?_, ?_⟩, ?_⟩
  · rw [others (by simp)]
    exact sound.posted
  · constructor
    · intro block' job owns
      by_cases same : block' = block
      · subst same
        obtain ⟨u', url, owns', copy, requested⟩ := sound.custody.owned mine
        obtain rfl : u' = u := by
          rcases owns' with post | update
          · exact (Job.post.inj post).symm
          · cases update
        rw [here, Option.some.injEq] at owns
        exact ⟨u', url, .inr owns.symm, copy, requested⟩
      · rw [elsewhere same] at owns
        exact sound.custody.owned owns
    · intro block' there
      by_cases same : block' = block
      · rw [same, here]
        exact Option.some_ne_none _
      · rw [elsewhere same]
        exact sound.custody.copied there
    · intro u' block' some_left
      by_cases same : Job.update u' block' = .update u block
      · cases same
        exact ⟨created, here⟩
      · rw [others same] at some_left ⊢
        obtain ⟨one, owns⟩ := sound.custody.pending some_left
        refine ⟨one, ?_⟩
        rw [elsewhere]
        · exact owns
        · rintro rfl
          rw [mine] at owns
          cases owns
  · intro j differ
    refine ⟨rfl, .refl _, id, fun _ => id, fun _ => id, fun _ => id, fun main => ?_, ⟨?_, ?_, ?_⟩⟩
    · exact others (by simp)
    · intro block' owns
      refine ⟨?_, rfl⟩
      rw [elsewhere]
      · exact owns
      · rintro rfl
        rw [mine] at owns
        exact differ (Option.some.inj owns).symm
    · rintro u' block' rfl owns
      refine others fun same => ?_
      cases same
      rw [mine] at owns
      cases owns
    · intro block' owns
      by_cases same : block' = block
      · rw [same, here, Option.some.injEq] at owns
        refine .inr ⟨⟨u, by rw [same, owns]⟩, ?_⟩
        rw [← owns, created]
        exact Nat.one_pos
      · rw [elsewhere same] at owns
        exact .inl owns

/-- The owner frees its copy. -/
theorem kept_free {block : Nat} (sound : Sound i₀ b) (mine : b.owners block = some job)
    (none_left : ∀ u, job = .update u block → b.jobs job = 0) : Kept i₀ job b (b.withCopy block none none) := by
  have elsewhere {block' : Nat} {j : Job} (differ : j ≠ job) (owns : b.owners block' = some j) : block' ≠ block := by
    rintro rfl
    rw [mine] at owns
    exact differ (Option.some.inj owns).symm
  refine ⟨⟨sound.lawful, sound.running, sound.standing.same rfl rfl (.refl ..), sound.bit, sound.posted, ?_⟩, ?_⟩
  · constructor
    · intro block' j owns
      by_cases here : block' = block
      · subst here
        simp only [Board.withCopy, Function.update_self] at owns
        cases owns
      · simp only [Board.withCopy, Function.update_of_ne here] at owns ⊢
        exact sound.custody.owned owns
    · intro block' there
      by_cases here : block' = block
      · subst here
        simp only [Board.withCopy, Function.update_self] at there
        exact absurd rfl there
      · simp only [Board.withCopy, Function.update_of_ne here] at there ⊢
        exact sound.custody.copied there
    · intro u block' some_left
      obtain ⟨one, owns⟩ := sound.custody.pending some_left
      refine ⟨one, ?_⟩
      have differ : block' ≠ block := by
        rintro rfl
        rw [mine, Option.some.injEq] at owns
        have begun := none_left u owns
        rw [owns] at begun
        change 0 < b.jobs (.update u block') at some_left
        omega
      simp only [Board.withCopy, Function.update_of_ne differ]
      exact owns
  · intro j differ
    refine ⟨rfl, .refl _, id, fun _ => id, fun _ => id, fun _ => id, fun _ => rfl, ⟨?_, fun _ _ => rfl, ?_⟩⟩
    · intro block' owns
      simp only [Board.withCopy, Function.update_of_ne (elsewhere differ owns)]
      exact ⟨owns, trivial⟩
    · intro block' owns
      by_cases here : block' = block
      · subst here
        simp only [Board.withCopy, Function.update_self] at owns
        cases owns
      · simp only [Board.withCopy, Function.update_of_ne here] at owns
        exact .inl owns

/-- An update that is created begins. -/
theorem kept_begin {u : Update} {block : Nat} (sound : Sound i₀ b) (some_left : 0 < b.jobs (.update u block)) :
    Kept i₀ (.update u block) b (b.withJobs (.update u block) (b.jobs (.update u block) - 1)) := by
  obtain ⟨one, -⟩ := sound.custody.pending some_left
  have others {job : Job} (differ : job ≠ .update u block) :
      (b.withJobs (.update u block) (b.jobs (.update u block) - 1)).jobs job = b.jobs job := Function.update_of_ne differ ..
  refine ⟨⟨sound.lawful, sound.running, sound.standing.same rfl rfl (.refl ..), sound.bit, ?_, ?_⟩, ?_⟩
  · rw [others (by simp)]
    exact sound.posted
  · refine ⟨sound.custody.owned, sound.custody.copied, fun {u' block'} left => ?_⟩
    by_cases same : Job.update u' block' = .update u block
    · rw [same] at left
      simp only [Board.withJobs, Function.update_self, one] at left
      exact absurd left (Nat.lt_irrefl 0)
    · rw [others same] at left ⊢
      exact sound.custody.pending left
  · intro j differ
    refine ⟨rfl, .refl _, id, fun _ => id, fun _ => id, fun _ => id, fun _ => others (by simp),
      ⟨fun owns => ⟨owns, rfl⟩, fun _ _ => others differ, .inl⟩⟩

/-- An update begins with the URL that it was requested with. -/
theorem keptForAll_useCopy {u : Update} {block : Nat} (sound : Sound i₀ b) (mine : b.owners block = some (.update u block))
    (addressed : u = .blocklist → Addressed b.log) : KeptForAll i₀ b (b.useCopy u block) := by
  obtain ⟨u', url, owns, copy, requested⟩ := sound.custody.owned mine
  obtain rfl : u' = u := by
    rcases owns with post | update
    · cases post
    · exact (Job.update.inj update).1.symm
  unfold Board.useCopy
  rw [copy]
  exact keptForAll_record sound trivial ⟨requested, addressed⟩

end EspAdblocker.Firmware
