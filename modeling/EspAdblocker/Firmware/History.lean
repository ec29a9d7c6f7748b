import EspAdblocker.Firmware.Board

/-!
# What the board has been through

The record of a board, newest first, says what its last boot was, what happened
since, and which image was confirmed last. A record is lawful when every boot, every
installation, every confirmation and every update in it was justified by the record
before it. `Sound` is what the tasks keep between them, and `Stable` what each of them
may rely on while the others work.
-/

namespace EspAdblocker.Firmware

open EspAdblocker.Lib EspAdblocker.Storage

/-! ## Records -/

namespace Happening

/-- The board was booted. -/
def isBoot : Happening → Bool
  | booted _ => true
  | _ => false

/-- The interface has got an address. -/
def isAddress : Happening → Bool
  | leased | assigned => true
  | _ => false

end Happening

/-- What has happened since the last boot. -/
def sinceBoot (log : List Happening) : List Happening := log.takeWhile fun e => !e.isBoot

/-- The interface has got an address since the last boot. -/
def Addressed (log : List Happening) : Prop := ∃ e ∈ sinceBoot log, e.isAddress = true

/-- The image booted last; at first it is `i₀`. -/
def bootedImage (i₀ : Image) : List Happening → Image
  | [] => i₀
  | .booted i :: _ => i
  | _ :: past => bootedImage i₀ past

/-- The image confirmed last; at first it is `i₀`. -/
def lastConfirmed (i₀ : Image) : List Happening → Image
  | [] => i₀
  | .confirmed i :: _ => i
  | _ :: past => lastConfirmed i₀ past

/-- The image installed last, if one was since the last boot. -/
def installedSince : List Happening → Option Image
  | [] => none
  | .booted _ :: _ => none
  | .installed i :: _ => some i
  | _ :: past => installedSince past

/-- The web UI was asked for the update since the last boot, while that URL was stored. -/
def Requested (u : Update) (url : List Byte) (log : List Happening) : Prop := .requested u url ∈ sinceBoot log

/-- What justifies a happening after a record: a boot uses the image confirmed last or one
installed since the boot before, an image is confirmed in its own boot and once the
interface has an address, images are installed by the one confirmed last, an update
begins with a URL that it was requested with, that of the blocklist once there is an
address, and no copy of a URL is ever misused. -/
def Justified (i₀ : Image) (past : List Happening) : Happening → Prop
  | .booted i => i = lastConfirmed i₀ past ∨ installedSince past = some i
  | .installed _ => bootedImage i₀ past = lastConfirmed i₀ past
  | .confirmed i => i = bootedImage i₀ past ∧ Addressed past
  | .updating u url => Requested u url past ∧ (u = .blocklist → Addressed past)
  | .misused => False
  | .leased | .assigned | .left _ | .requested _ _ => True

/-- Every happening of the record was justified when it happened. -/
def Lawful (i₀ : Image) : List Happening → Prop
  | [] => True
  | e :: past => Justified i₀ past e ∧ Lawful i₀ past

/-- The happening says nothing of the images. -/
def Happening.NoImage : Happening → Prop
  | booted _ | installed _ | confirmed _ => False
  | _ => True

section

variable {i₀ : Image} {e : Happening} {log more : List Happening}

@[simp] theorem sinceBoot_booted (i : Image) (log : List Happening) : sinceBoot (.booted i :: log) = [] := rfl

theorem sinceBoot_cons (later : e.isBoot = false) : sinceBoot (e :: log) = e :: sinceBoot log := by
  simp [sinceBoot, later]

theorem Addressed.cons (addressed : Addressed log) (later : e.isBoot = false) : Addressed (e :: log) := by
  obtain ⟨e', member, address⟩ := addressed
  refine ⟨e', ?_, address⟩
  rw [sinceBoot_cons later]
  exact List.mem_cons_of_mem _ member

theorem addressed_cons_of_isAddress (address : e.isAddress = true) : Addressed (e :: log) := by
  have later : e.isBoot = false := by cases e <;> first | rfl | cases address
  refine ⟨e, ?_, address⟩
  rw [sinceBoot_cons later]
  exact List.mem_cons_self ..

theorem Happening.NoImage.isBoot (aside : e.NoImage) : e.isBoot = false := by
  cases e <;> first | rfl | exact aside.elim

@[simp] theorem bootedImage_booted (i : Image) : bootedImage i₀ (.booted i :: log) = i := rfl

theorem bootedImage_cons (later : e.isBoot = false) : bootedImage i₀ (e :: log) = bootedImage i₀ log := by
  cases e <;> first | rfl | cases later

theorem Happening.NoImage.lastConfirmed (aside : e.NoImage) : lastConfirmed i₀ (e :: log) = lastConfirmed i₀ log := by
  cases e <;> first | rfl | exact aside.elim

theorem Happening.NoImage.installedSince (aside : e.NoImage) : installedSince (e :: log) = installedSince log := by
  cases e <;> first | rfl | exact aside.elim

/-- Which images a record speaks of does not depend on the aside. -/
structure SameImages (i₀ : Image) (log log' : List Happening) : Prop where
  booted : bootedImage i₀ log' = bootedImage i₀ log
  confirmed : lastConfirmed i₀ log' = lastConfirmed i₀ log
  installed : installedSince log' = installedSince log

theorem SameImages.refl (i₀ : Image) (log : List Happening) : SameImages i₀ log log := ⟨rfl, rfl, rfl⟩

theorem sameImages_append (aside : ∀ e ∈ more, e.NoImage) : SameImages i₀ log (more ++ log) := by
  induction more with
  | nil => exact .refl i₀ log
  | cons e more ih =>
    have here := aside e (List.mem_cons_self ..)
    have before := ih fun e member => aside e (List.mem_cons_of_mem _ member)
    exact ⟨(bootedImage_cons here.isBoot).trans before.booted, here.lastConfirmed.trans before.confirmed,
      here.installedSince.trans before.installed⟩

/-- A record goes on within one boot. -/
def Longer (log log' : List Happening) : Prop := ∃ more, log' = more ++ log ∧ ∀ e ∈ more, e.isBoot = false

theorem Longer.refl (log : List Happening) : Longer log log := ⟨[], rfl, fun _ member => by cases member⟩

theorem longer_cons (later : e.isBoot = false) : Longer log (e :: log) :=
  ⟨[e], rfl, fun e' member => by rwa [List.mem_singleton.mp member]⟩

theorem Longer.trans {log' log'' : List Happening} (first : Longer log log') (second : Longer log' log'') :
    Longer log log'' := by
  obtain ⟨more, rfl, later⟩ := first
  obtain ⟨more', rfl, later'⟩ := second
  refine ⟨more' ++ more, (List.append_assoc ..).symm, fun e member => ?_⟩
  rcases List.mem_append.mp member with newer | older
  · exact later' e newer
  · exact later e older

theorem Longer.mem_sinceBoot {log' : List Happening} (longer : Longer log log') (member : e ∈ sinceBoot log) :
    e ∈ sinceBoot log' := by
  obtain ⟨more, rfl, later⟩ := longer
  induction more with
  | nil => exact member
  | cons e' more ih =>
    rw [List.cons_append, sinceBoot_cons (later e' (List.mem_cons_self ..))]
    exact List.mem_cons_of_mem _ (ih fun e member => later e (List.mem_cons_of_mem _ member))

theorem Longer.requested {log' : List Happening} (longer : Longer log log') {u : Update} {url : List Byte}
    (requested : Requested u url log) : Requested u url log' := longer.mem_sinceBoot requested

theorem Longer.addressed {log' : List Happening} (longer : Longer log log') (addressed : Addressed log) : Addressed log' := by
  obtain ⟨e, member, address⟩ := addressed
  exact ⟨e, longer.mem_sinceBoot member, address⟩

theorem bootedImage_longer {log' : List Happening} (longer : Longer log log') : bootedImage i₀ log' = bootedImage i₀ log := by
  obtain ⟨more, rfl, later⟩ := longer
  induction more with
  | nil => rfl
  | cons e more ih =>
    rw [List.cons_append, bootedImage_cons (later e (List.mem_cons_self ..))]
    exact ih fun e member => later e (List.mem_cons_of_mem _ member)

end

/-! ## What the tasks keep -/

/-- A resolver slot is filled, unless something left it empty in this boot. -/
def Filled (slot : DnsSlot) (b : Board) : Prop := b.servers slot ≠ 0#32 ∨ .left slot ∈ sinceBoot b.log

/-- Where the image that runs stands. -/
inductive Standing (i₀ : Image) (b : Board) : Prop where
  /-- It is the one confirmed last; an image that waits in the other slot was installed since the boot. -/
  | confirmed : (b.apps.state b.running).Confirmed → lastConfirmed i₀ b.log = bootedImage i₀ b.log →
      (b.apps.selected = b.running ∨ b.apps.selected = b.running.other ∧
        (¬ b.apps.Bootable b.running.other ∨ b.apps.state b.running.other = .new ∧
          b.apps.image b.running.other = installedSince b.log)) → Standing i₀ b
  /-- It is on probation, and the other slot holds the one confirmed last. -/
  | probation : b.apps.state b.running = .pendingVerify → b.apps.selected = b.running → installedSince b.log = none →
      b.apps.image b.running.other = some (lastConfirmed i₀ b.log) → (b.apps.state b.running.other).Confirmed → Standing i₀ b

/-- Only a handler, and then the task that it creates, own the copy of a URL. -/
def Job.Owns (u : Update) (block : Nat) (job : Job) : Prop := job = .post u ∨ job = .update u block

/-- Every copy of a URL has an owner, and holds a URL that the owner's update was requested with. -/
structure InCustody (b : Board) : Prop where
  owned : ∀ {block job}, b.owners block = some job → ∃ u url, job.Owns u block ∧ b.copies block = some url ∧
    Requested u url b.log
  copied : ∀ {block}, b.copies block ≠ none → b.owners block ≠ none
  pending : ∀ {u block}, 0 < b.jobs (.update u block) →
    b.jobs (.update u block) = 1 ∧ b.owners block = some (.update u block)

/-- What holds between any two operations; `i₀` is the image of the first boot. -/
structure Sound (i₀ : Image) (b : Board) : Prop where
  lawful : Lawful i₀ b.log
  running : b.apps.image b.running = some (bootedImage i₀ b.log)
  standing : Standing i₀ b
  bit : b.sEventGroup = some true → Addressed b.log ∧ ∀ slot, Filled slot b
  posted : 0 < b.jobs .gotIp → Addressed b.log
  custody : InCustody b

/-- What the owner of copies may rely on: its copies stay, and it gets others only when it is created. -/
structure KeepsCopies (job : Job) (b b' : Board) : Prop where
  owns : ∀ {block}, b.owners block = some job → b'.owners block = some job ∧ b'.copies block = b.copies block
  pends : ∀ {u block}, job = .update u block → b.owners block = some job → b'.jobs job = b.jobs job
  given : ∀ {block}, b'.owners block = some job → b.owners block = some job ∨ (∃ u, job = .update u block) ∧ 0 < b'.jobs job

/-- What the task may rely on while the others work. -/
structure Stable (job : Job) (b b' : Board) : Prop where
  running : b'.running = b.running
  log : Longer b.log b'.log
  confirmed : (b.apps.state b.running).Confirmed → (b'.apps.state b.running).Confirmed
  filled : ∀ slot, Filled slot b → Filled slot b'
  bit : job ≠ .main → b.sEventGroup = some true → b'.sEventGroup = some true
  group : job = .main → b.sEventGroup = none → b'.sEventGroup = none
  begun : job = .main → b'.jobs .main = b.jobs .main
  copies : KeepsCopies job b b'

theorem KeepsCopies.refl (job : Job) (b : Board) : KeepsCopies job b b :=
  ⟨fun mine => ⟨mine, rfl⟩, fun _ _ => rfl, .inl⟩

theorem KeepsCopies.trans {job : Job} {b₁ b₂ b₃ : Board} (first : KeepsCopies job b₁ b₂) (second : KeepsCopies job b₂ b₃) :
    KeepsCopies job b₁ b₃ where
  owns mine := by
    obtain ⟨still, same⟩ := first.owns mine
    obtain ⟨still', same'⟩ := second.owns still
    exact ⟨still', same'.trans same⟩
  pends update mine := (second.pends update (first.owns mine).1).trans (first.pends update mine)
  given mine := by
    rcases second.given mine with before | created
    · rcases first.given before with here | ⟨⟨u, update⟩, created⟩
      · exact .inl here
      · refine .inr ⟨⟨u, update⟩, ?_⟩
        rwa [second.pends update before]
    · exact .inr created

theorem Stable.refl (job : Job) (b : Board) : Stable job b b :=
  ⟨rfl, .refl _, id, fun _ => id, fun _ => id, fun _ => id, fun _ => rfl, .refl job b⟩

theorem Stable.trans (job : Job) (b₁ b₂ b₃ : Board) (first : Stable job b₁ b₂) (second : Stable job b₂ b₃) :
    Stable job b₁ b₃ where
  running := second.running.trans first.running
  log := first.log.trans second.log
  confirmed sure := by
    have still := second.confirmed
    rw [first.running] at still
    exact still (first.confirmed sure)
  filled slot filled := second.filled slot (first.filled slot filled)
  bit other set := second.bit other (first.bit other set)
  group main none := second.group main (first.group main none)
  begun main := (second.begun main).trans (first.begun main)
  copies := first.copies.trans second.copies

/-- What a task keeps, and leaves to the others. -/
def Kept (i₀ : Image) (job : Job) (b b' : Board) : Prop := Sound i₀ b' ∧ ∀ j, j ≠ job → Stable j b b'

theorem Kept.refl {i₀ : Image} {b : Board} (sound : Sound i₀ b) (job : Job) : Kept i₀ job b b :=
  ⟨sound, fun j _ => .refl j b⟩

end EspAdblocker.Firmware
