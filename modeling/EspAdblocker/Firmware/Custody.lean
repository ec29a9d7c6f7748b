import EspAdblocker.Firmware.Probation

/-!
# The copies of URLs

A handler copies the URL for the task that it creates, and frees the copy if there is no
such task; the task frees it when it is done. In any order of the handlers and the
updates, no copy is used or freed after it was freed, each update works with a URL that it
was requested with, and no copy is left without a task that will free it
(`copies_in_custody`).
-/

namespace EspAdblocker.Firmware

open EspAdblocker.Lib EspAdblocker.Storage

/-- The operation updates from the copy in the block. -/
def BoardOp.UpdatesFrom (u : Update) (block : Nat) : BoardOp → Prop
  | .otaBegin b => u = .firmware ∧ b = block
  | .blocklistUpdaterCheckAndApply b => u = .blocklist ∧ b = block
  | _ => False

section

variable {i₀ : Image} {b : Board} {u : Update} {block : Nat}

/-- An update that may begin has a copy, of a URL that it was requested with. -/
theorem of_sound_useCopy (sound : Sound i₀ (b.useCopy u block)) :
    ∃ url, b.copies block = some url ∧ Requested u url b.log ∧ (u = .blocklist → Addressed b.log) := by
  unfold Board.useCopy at sound
  cases copy : b.copies block with
  | none =>
    rw [copy] at sound
    exact sound.lawful.1.elim
  | some url =>
    rw [copy] at sound
    exact ⟨url, rfl, sound.lawful.1⟩

/-- A copy that may be freed is there. -/
theorem of_sound_free (sound : Sound i₀ (if b.copies block = none then b.record .misused else b.withCopy block none none)) :
    b.copies block ≠ none := by
  intro gone
  rw [if_pos gone] at sound
  exact sound.lawful.1

end

/-- **Copies are in custody.** At any moment of a life, an update is about to begin only with a
copy that is there and holds a URL that it was requested with in this boot; a copy is about
to be freed only if it is there; and any copy is that of a handler or an update at work, or
of an update that will begin. -/
theorem copies_in_custody {boot : Bootloader} (documented : boot.Documented) {i₀ : Image} {apps : Apps}
    (holds : apps.image apps.selected = some i₀) (sure : (apps.state apps.selected).Confirmed) {hz : BitVec 32}
    {nvs : Nvs} {x : System} (lives : BoardLives boot hz apps nvs x) :
    (∀ t job op k u block, x.running t = some (job, .call op k) → op.UpdatesFrom u block →
        ∃ url, x.world.copies block = some url ∧ Requested u url x.world.log ∧ (u = .blocklist → Addressed x.world.log)) ∧
      (∀ t job block k, x.running t = some (job, .call (.free block) k) → x.world.copies block ≠ none) ∧
      ∀ block, x.world.copies block ≠ none →
        ∃ u, ¬ x.AtRest (.post u) ∨ ¬ x.AtRest (.update u block) ∨ 0 < x.world.jobs (.update u block) := by
  have later {t : Nat} {job : Job} {op : BoardOp} {k : BoardRes op → BoardM Unit} {r : BoardRes op} {b : Board}
      (here : x.running t = some (job, .call op k)) (step : x.world.step op r b) : Sound i₀ b :=
    sound_of_lives documented holds sure (lives.run (.single (.operation here step)))
  refine ⟨?_, ?_, ?_⟩
  · intro t job op k u block here updates
    cases op with
    | otaBegin b =>
      obtain ⟨rfl, rfl⟩ := updates
      exact of_sound_useCopy (later (r := EspErr.fail) here (.inl ⟨(fun accepted => by cases accepted), rfl⟩))
    | blocklistUpdaterCheckAndApply b =>
      obtain ⟨rfl, rfl⟩ := updates
      exact of_sound_useCopy (later (r := EspErr.ok) here rfl)
    | _ => exact updates.elim
  · intro t job block k here
    exact of_sound_free (later (r := ()) here rfl)
  · intro block there
    have sound := sound_of_lives documented holds sure lives
    obtain ⟨job, mine⟩ := Option.ne_none_iff_exists'.mp (sound.custody.copied there)
    have busy_or_begins : ¬ x.AtRest job ∨ ∃ u, job = .update u block ∧ 0 < x.world.jobs job := by
      by_cases rest : x.AtRest job
      · have released := (lives.resting (shared hz i₀) (atRest_first holds sure nvs)
          (fun _ sound job => atRest_restart documented sound job) rest).released
        exact .inr (released block mine)
      · exact .inl rest
    obtain ⟨u, _, owns, -⟩ := sound.custody.owned mine
    rcases busy_or_begins with busy | ⟨u', rfl, begins⟩
    · rcases owns with rfl | rfl
      · exact ⟨u, .inl busy⟩
      · exact ⟨u, .inr (.inl busy)⟩
    · exact ⟨u', .inr (.inr begins)⟩

/-- An update that was requested is about to begin, and has its copy. -/
theorem copy_of_update : ∃ x, BoardLives espBootloader 100#32 oneImage someUrl x ∧
    (∃ k, x.running 0 = some (.update .firmware 0, .call (.otaBegin 0) k)) ∧
    ∃ url, x.world.copies 0 = some url ∧ Requested .firmware url x.world.log := by
  have computed : (updated someUrl 0).isSome = true := by decide +kernel
  obtain ⟨⟨q, v⟩, done⟩ := Option.isSome_iff_exists.mp computed
  have lives := lives_updated done
  have body : q = asyncUpdateTask 0 := by
    obtain ⟨_, _, begun⟩ := Option.bind_eq_some_iff.mp done
    obtain ⟨_, _, _, rest⟩ := Prog.after_call_eq_some begun
    cases rest
    rfl
  have image : oneImage.image oneImage.selected = some [1#8] := rfl
  obtain ⟨copies, -, -⟩ := copies_in_custody espBootloader_documented image (.inr rfl) lives
  have here : Function.update (fun _ : Nat => none) 0 (some (Job.update .firmware 0, q)) 0 =
      some (Job.update .firmware 0, asyncUpdateTask 0) := by rw [Function.update_self, body]
  obtain ⟨url, copy, requested, -⟩ := copies 0 _ _ _ .firmware 0 here ⟨rfl, rfl⟩
  exact ⟨_, lives, ⟨_, here⟩, url, copy, requested⟩

end EspAdblocker.Firmware
