import EspAdblocker.Firmware.Running

/-!
# Every program keeps what all rely on

Rules for the programs of the tasks, and the programs of `eth_init.c` and of the first
boot. The only operations that need an argument are those that decide something: the
event group is created by the task that knows of none, its bit is set after an address
and its resolvers, and an image is confirmed after the bit.
-/

namespace EspAdblocker.Firmware

open EspAdblocker.Lib EspAdblocker.Storage EspAdblocker.Web

variable {i₀ : Image} {job : Job} {w : Board} {α β : Type}

variable (i₀ job) in
/-- The program keeps `Sound` and leaves the others what they rely on, whatever they do. -/
abbrev Holds (p : BoardM α) (Q : α → Board → Prop) (w : Board) : Prop :=
  Tasks.Holds boardSem (Sound i₀) Stable job p Q w

/-- The operation decides nothing. -/
def Harmless : BoardOp → Prop
  | .begin _ | .xEventGroupCreate | .xEventGroupSetBits | .espOtaMarkAppValid | .otaBegin _ | .otaEnd => False
  | .strdup _ _ | .createUpdate _ _ | .blocklistUpdaterCheckAndApply _ | .free _ => False
  | _ => True

theorem KeptForAll.refl {v : Board} (sound : Sound i₀ v) : KeptForAll i₀ v v := ⟨sound, fun j => .refl j v⟩

theorem Harmless.kept {op : BoardOp} {r : BoardRes op} {v u : Board} (harmless : Harmless op) (sound : Sound i₀ v)
    (step : v.step op r u) : KeptForAll i₀ v u := by
  cases op with
  | createConfirmBoot =>
    simp only [Board.step] at step
    split at step
    · subst step
      exact keptForAll_jobs sound (by decide) (by simp) fun event => by cases event
    · subst step
      exact .refl sound
  | readUrl u =>
    obtain ⟨junk, -, -, rfl⟩ := step
    unfold Board.readUrl
    split
    · exact keptForAll_record sound trivial trivial
    · exact .refl sound
  | espEthDriverInstall | registerGotIp | espEthStart =>
    simp only [Board.step] at step
    split at step
    · subst step
      exact keptForAll_frame sound rfl rfl rfl rfl ⟨rfl, rfl, fun _ _ => rfl⟩ rfl rfl id
    · subst step
      exact .refl sound
  | espNetifSetIpInfo info =>
    simp only [Board.step] at step
    split at step
    · subst step
      exact keptForAll_record sound trivial trivial
    · subst step
      exact .refl sound
  | espNetifSetDnsInfo slot addr => exact (keptForAll_setDnsInfo sound step).1
  | espRestart | abort => exact r.elim
  | waitBits deadline =>
    obtain ⟨-, -, rfl⟩ := step
    exact .refl sound
  | readEthHandle | readEventGroup | appConfigGetNetMode | appConfigGetStaticIp | appConfigGetUpstream slot =>
    obtain ⟨-, rfl⟩ := step
    exact .refl sound
  | espNetifGetDnsInfo slot | deadline ticks | espOtaGetStatePartition =>
    obtain ⟨-, rfl⟩ := step
    exact .refl sound
  | bringUp call | espEthMacNewW5500 | espEthPhyNewW5500 =>
    obtain rfl : u = v := step
    exact .refl sound
  | begin | xEventGroupCreate | xEventGroupSetBits | espOtaMarkAppValid => exact harmless.elim
  | otaBegin | otaEnd | blocklistUpdaterCheckAndApply => exact harmless.elim
  | strdup | createUpdate | free => exact harmless.elim

/-! ## Rules

What is known of the board is carried as `Stable` since some moment `b`. -/

section

variable {b : Board} {Q : α → Board → Prop}

theorem holds_ret {a : α} (sound : Sound i₀ w) (since : Stable job b w)
    (last : ∀ v, Sound i₀ v → Stable job b v → Q a v) : Holds i₀ job (.ret a) Q w :=
  Tasks.holds_ret sound fun v here still => last v here (.trans job _ _ _ since still)

theorem holds_bind {p : BoardM β} {f : β → BoardM α} (first : Holds i₀ job p (fun a v => Holds i₀ job (f a) Q v) w) :
    Holds i₀ job (p.bind f) Q w :=
  Tasks.keeps_bind (fun _ sound => ⟨sound, .refl job _⟩) first

/-- An operation that is kept for all. -/
theorem holds_call {op : BoardOp} {k : BoardRes op → BoardM α} (sound : Sound i₀ w) (since : Stable job b w)
    (kept : ∀ v r u, Sound i₀ v → Stable job b v → v.step op r u → KeptForAll i₀ v u)
    (next : ∀ v r u, Sound i₀ v → v.step op r u → Sound i₀ u → Stable job b u → Holds i₀ job (k r) Q u) :
    Holds i₀ job (.call op k) Q w := by
  refine Tasks.holds_call sound fun v here still r u step => ?_
  have before : Stable job b v := .trans job _ _ _ since still
  have after := kept v r u here before step
  exact ⟨after.kept job, next v r u here step after.1 (.trans job _ _ _ before (after.2 job))⟩

/-- An operation after which the task itself relies on nothing from before. -/
theorem holds_call_kept {op : BoardOp} {k : BoardRes op → BoardM α} (sound : Sound i₀ w)
    (kept : ∀ v r u, Sound i₀ v → Stable job w v → v.step op r u → Kept i₀ job v u)
    (next : ∀ v r u, Sound i₀ v → Stable job w v → v.step op r u → Sound i₀ u → Holds i₀ job (k r) Q u) :
    Holds i₀ job (.call op k) Q w := by
  refine Tasks.holds_call sound fun v here still r u step => ?_
  have after := kept v r u here still step
  exact ⟨after, next v r u here still step after.1⟩

/-- An operation that decides nothing, and what it does. -/
theorem holds_harmless_step {op : BoardOp} {k : BoardRes op → BoardM α} (harmless : Harmless op) (sound : Sound i₀ w)
    (since : Stable job b w)
    (next : ∀ (v : Board) r u, v.step op r u → Sound i₀ u → Stable job b u → Holds i₀ job (k r) Q u) :
    Holds i₀ job (.call op k) Q w :=
  holds_call sound since (fun _ _ _ here _ step => harmless.kept here step) fun v r u _ step here still =>
    next v r u step here still

/-- An operation that decides nothing, whatever it does. -/
theorem holds_harmless {op : BoardOp} {k : BoardRes op → BoardM α} (harmless : Harmless op) (sound : Sound i₀ w)
    (since : Stable job b w) (next : ∀ r u, Sound i₀ u → Stable job b u → Holds i₀ job (k r) Q u) :
    Holds i₀ job (.call op k) Q w :=
  holds_harmless_step harmless sound since fun _ r u _ here still => next r u here still

/-- A call that ends the program when it fails. -/
theorem holds_unless_failed {op : BoardOp} {p : BoardM EspErr} {err : BoardRes op → EspErr} {ok : BoardRes op → Prop}
    [DecidablePred ok] {Q : EspErr → Board → Prop} (harmless : Harmless op) (sound : Sound i₀ w) (since : Stable job b w)
    (last : ∀ r v, Sound i₀ v → Stable job b v → Q r v)
    (next : ∀ u, Sound i₀ u → Stable job b u → Holds i₀ job p Q u) :
    Holds i₀ job (.call op fun r => if ok r then .ret (err r) else p) Q w := by
  refine holds_harmless harmless sound since fun r u here still => ?_
  split
  · exact holds_ret here still (last _)
  · exact next u here still

end

/-! ## `eth_init.c` -/

section

variable {b : Board}

theorem holds_fallbackFor {slot : DnsSlot} {upstream : BitVec 32} {Q : Unit → Board → Prop} (sound : Sound i₀ w)
    (since : Stable job b w) (next : ∀ v, Sound i₀ v → Stable job b v → Filled slot v → Q () v) :
    Holds i₀ job (fallbackFor slot upstream) Q w := by
  have last (v : Board) (here : Sound i₀ v) (still : Stable job b v) (filled : Filled slot v) :
      Holds i₀ job (.ret ()) Q v :=
    Tasks.holds_ret here fun v' there later => next v' there (.trans job _ _ _ still later) (later.filled slot filled)
  unfold fallbackFor
  simp only [Prog.bind_eq, Prog.perform_bind, Prog.pure_eq]
  refine holds_harmless_step trivial sound since fun v info u step here still => ?_
  obtain ⟨read, rfl⟩ := step
  split
  · rename_i known
    refine last u here still (.inl ?_)
    rcases read with none | rfl
    · exact absurd none known.1
    · exact fun zero => known.2 (congrArg some zero)
  · refine holds_call here still (fun _ _ _ here _ step => (keptForAll_setDnsInfo here step).1)
      fun v _ u before step here still => ?_
    exact last u here still (keptForAll_setDnsInfo before step).2

theorem holds_applyDnsFallbackIfUnset {Q : Unit → Board → Prop} (sound : Sound i₀ w) (since : Stable job b w)
    (next : ∀ v, Sound i₀ v → Stable job b v → (∀ slot, Filled slot v) → Q () v) :
    Holds i₀ job applyDnsFallbackIfUnset Q w := by
  unfold applyDnsFallbackIfUnset
  simp only [Prog.bind_eq, Prog.perform_bind]
  refine holds_harmless trivial sound since fun upstream₁ v₁ here₁ still₁ => ?_
  refine holds_harmless trivial here₁ still₁ fun upstream₂ v₂ here₂ still₂ => ?_
  refine holds_bind (holds_fallbackFor here₂ (.refl job v₂) fun v₃ here₃ still₃ main => ?_)
  refine holds_fallbackFor here₃ (.refl job v₃) fun v₄ here₄ still₄ backup => ?_
  refine next v₄ here₄ (.trans job _ _ _ still₂ (.trans job _ _ _ still₃ still₄)) fun slot => ?_
  cases slot with
  | main => exact still₄.filled .main main
  | backup => exact backup

/-- Setting the event bit with an address and its resolvers. -/
theorem holds_setBits {Q : α → Board → Prop} {k : Unit → BoardM α} (sound : Sound i₀ w) (since : Stable job b w)
    (addressed : Addressed w.log) (resolvers : ∀ slot, Filled slot w)
    (next : ∀ v, Sound i₀ v → Stable job b v → Holds i₀ job (k ()) Q v) :
    Holds i₀ job (.call .xEventGroupSetBits k) Q w := by
  refine Tasks.holds_call sound fun v here still _ u step => ?_
  obtain rfl : u = _ := step
  have after := keptForAll_setBits here (still.log.addressed addressed) fun slot => still.filled slot (resolvers slot)
  have later : Stable job b { v with sEventGroup := v.sEventGroup.map fun _ => true } :=
    .trans job _ _ _ (.trans job _ _ _ since still) (after.2 job)
  exact ⟨after.kept job, next _ after.1 later⟩

theorem holds_gotIpEventHandler {Q : Unit → Board → Prop} (sound : Sound i₀ w) (since : Stable job b w)
    (addressed : Addressed w.log) (next : ∀ v, Sound i₀ v → Stable job b v → Q () v) :
    Holds i₀ job gotIpEventHandler Q w := by
  unfold gotIpEventHandler
  simp only [Prog.bind_eq, Prog.perform_bind, Prog.pure_eq]
  refine holds_bind (holds_applyDnsFallbackIfUnset sound (.refl job w) fun v₁ here₁ still₁ resolvers => ?_)
  refine holds_harmless trivial here₁ (.refl job v₁) fun created v₂ here₂ still₂ => ?_
  have since₂ : Stable job b v₂ := .trans job _ _ _ since (.trans job _ _ _ still₁ still₂)
  split
  · refine holds_setBits here₂ since₂ ?_ (fun slot => still₂.filled slot (resolvers slot))
      fun v₃ here₃ still₃ => holds_ret here₃ still₃ next
    exact still₂.log.addressed (still₁.log.addressed addressed)
  · exact holds_ret here₂ since₂ next

theorem holds_startDriver {Q : EspErr → Board → Prop} (sound : Sound i₀ w) (since : Stable job b w)
    (next : ∀ r v, Sound i₀ v → Stable job b v → Q r v) : Holds i₀ job startDriver Q w := by
  unfold startDriver
  simp only [Prog.bind_eq, Prog.perform_bind, Prog.pure_eq]
  refine holds_unless_failed trivial sound since next fun v₁ here₁ still₁ => ?_
  refine holds_harmless trivial here₁ still₁ fun _ v₂ here₂ still₂ => ?_
  exact holds_harmless trivial here₂ still₂ fun _ v₃ here₃ still₃ => holds_ret here₃ still₃ (next _)

theorem holds_chooseAddress {Q : EspErr → Board → Prop} (sound : Sound i₀ w) (since : Stable job b w)
    (next : ∀ r v, Sound i₀ v → Stable job b v → Q r v) : Holds i₀ job chooseAddress Q w := by
  unfold chooseAddress
  simp only [Prog.bind_eq, Prog.perform_bind, Prog.pure_eq]
  refine holds_harmless trivial sound since fun mode v₁ here₁ still₁ => ?_
  split
  · refine holds_harmless trivial here₁ still₁ fun info v₂ here₂ still₂ => ?_
    cases info with
    | none => exact holds_startDriver here₂ still₂ next
    | some info =>
      refine holds_unless_failed trivial here₂ still₂ next fun v₃ here₃ still₃ => ?_
      refine holds_harmless_step trivial here₃ still₃ fun v err v₄ step here₄ still₄ => ?_
      split
      · exact holds_ret here₄ still₄ (next _)
      · rename_i assigned
        have addressed : Addressed v₄.log := by
          obtain rfl : v₄ = _ := step
          rw [if_pos (not_not.mp assigned)]
          exact addressed_cons_of_isAddress rfl
        refine holds_bind (holds_applyDnsFallbackIfUnset here₄ (.refl job v₄) fun v₅ here₅ still₅ resolvers => ?_)
        refine holds_setBits here₅ (.trans job _ _ _ still₄ still₅) (still₅.log.addressed addressed) resolvers
          fun v₆ here₆ still₆ => holds_startDriver here₆ still₆ next
  · exact holds_startDriver here₁ still₁ next

theorem holds_attachInterface {Q : EspErr → Board → Prop} (sound : Sound i₀ w) (since : Stable job b w)
    (next : ∀ r v, Sound i₀ v → Stable job b v → Q r v) : Holds i₀ job attachInterface Q w := by
  unfold attachInterface
  simp only [Prog.bind_eq, Prog.perform_bind, Prog.pure_eq]
  refine holds_unless_failed trivial sound since next fun v₁ here₁ still₁ => ?_
  refine holds_unless_failed trivial here₁ still₁ next fun v₂ here₂ still₂ => ?_
  refine holds_unless_failed trivial here₂ still₂ next fun v₃ here₃ still₃ => ?_
  refine holds_unless_failed trivial here₃ still₃ next fun v₄ here₄ still₄ => ?_
  refine holds_unless_failed trivial here₄ still₄ next fun v₅ here₅ still₅ => ?_
  refine holds_unless_failed trivial here₅ still₅ next fun v₆ here₆ still₆ => ?_
  refine holds_unless_failed trivial here₆ still₆ next fun v₇ here₇ still₇ => ?_
  exact holds_chooseAddress here₇ still₇ next

theorem holds_installDriver {Q : EspErr → Board → Prop} (sound : Sound i₀ w) (since : Stable job b w)
    (next : ∀ r v, Sound i₀ v → Stable job b v → Q r v) : Holds i₀ job installDriver Q w := by
  unfold installDriver
  simp only [Prog.bind_eq, Prog.perform_bind, Prog.pure_eq]
  refine holds_unless_failed trivial sound since next fun v₁ here₁ still₁ => ?_
  refine holds_unless_failed trivial here₁ still₁ next fun v₂ here₂ still₂ => ?_
  refine holds_unless_failed trivial here₂ still₂ next fun v₃ here₃ still₃ => ?_
  refine holds_unless_failed trivial here₃ still₃ next fun v₄ here₄ still₄ => ?_
  exact holds_unless_failed trivial here₄ still₄ next fun v₅ here₅ still₅ => holds_attachInterface here₅ still₅ next

/-- Only the first task creates the event group. -/
theorem holds_ethInitStart {Q : EspErr → Board → Prop} (sound : Sound i₀ w) (fresh : w.sEventGroup = none)
    (next : ∀ r v, Sound i₀ v → v.jobs .main = w.jobs .main → Q r v) : Holds i₀ .main ethInitStart Q w := by
  unfold ethInitStart
  simp only [Prog.bind_eq, Prog.perform_bind, Prog.pure_eq]
  refine holds_harmless trivial sound (.refl .main w) fun installed v₁ here₁ still₁ => ?_
  split
  · exact holds_ret here₁ still₁ fun v here still => next _ v here (still.begun rfl)
  · refine Tasks.holds_call here₁ fun v₂ here₂ still₂ created v₃ step => ?_
    have begun : v₂.jobs .main = w.jobs .main := (still₂.begun rfl).trans (still₁.begun rfl)
    have kept := kept_eventGroupCreate here₂ (still₂.group rfl (still₁.group rfl fresh)) step
    have begun₃ : v₃.jobs .main = w.jobs .main := by
      obtain rfl : v₃ = _ := step
      exact begun
    refine ⟨kept, ?_⟩
    have last (r : EspErr) (v : Board) (here : Sound i₀ v) (still : Stable .main v₃ v) : Q r v :=
      next r v here ((still.begun rfl).trans begun₃)
    split
    · exact holds_installDriver kept.1 (.refl .main v₃) last
    · exact holds_ret kept.1 (.refl .main v₃) (last _)

/-- Whoever is let through by `eth_init_wait_for_ip` finds the event bit set. -/
theorem holds_ethInitWaitForIp {timeout : BitVec 32} {Q : Bool → Board → Prop} (sound : Sound i₀ w)
    (since : Stable job b w) (other : job ≠ .main)
    (next : ∀ r v, Sound i₀ v → Stable job b v → (r = true → v.sEventGroup = some true) → Q r v) :
    Holds i₀ job (ethInitWaitForIp timeout) Q w := by
  unfold ethInitWaitForIp
  simp only [Prog.bind_eq, Prog.perform_bind, Prog.pure_eq]
  refine holds_harmless trivial sound since fun created v₁ here₁ still₁ => ?_
  split
  · refine holds_harmless trivial here₁ still₁ fun deadline v₂ here₂ still₂ => ?_
    refine holds_harmless_step trivial here₂ still₂ fun v r v₃ step here₃ still₃ => ?_
    obtain ⟨bit, -, rfl⟩ := step
    exact Tasks.holds_ret here₃ fun v₄ here₄ still₄ =>
      next r v₄ here₄ (.trans job _ _ _ still₃ still₄) fun through => still₄.bit other (bit.mp through)
  · exact holds_ret here₁ still₁ fun v here still => next _ v here still fun through => by cases through

/-! ## The other programs -/

theorem holds_confirmBootTask {hz : BitVec 32} {Q : Unit → Board → Prop} (sound : Sound i₀ w) (since : Stable job b w)
    (other : job ≠ .main) (next : ∀ v, Sound i₀ v → Stable job b v → Q () v) :
    Holds i₀ job (confirmBootTask hz) Q w := by
  unfold confirmBootTask
  simp only [Prog.bind_eq, Prog.perform_bind, Prog.pure_eq]
  refine holds_harmless trivial sound since fun state v₁ here₁ still₁ => ?_
  split
  · refine holds_bind (holds_ethInitWaitForIp here₁ still₁ other fun through v₂ here₂ still₂ bit => ?_)
    split
    · rename_i let_through
      refine holds_call here₂ (.refl job v₂)
        (fun v _ u here still step => keptForAll_markAppValid here (here.bit (still.bit other (bit let_through))).1 step)
        fun v _ v₃ _ _ here₃ still₃ => ?_
      exact holds_ret here₃ (.trans job _ _ _ still₂ still₃) next
    · exact holds_ret here₂ still₂ next
  · exact holds_ret here₁ still₁ next

theorem holds_appMain {Q : Unit → Board → Prop} (sound : Sound i₀ w) (fresh : w.sEventGroup = none)
    (next : ∀ v, Sound i₀ v → v.jobs .main = w.jobs .main → Q () v) : Holds i₀ .main appMain Q w := by
  unfold appMain fwUpdaterConfirmBootIfHealthy
  simp only [Prog.bind_eq, Prog.perform_bind, Prog.pure_eq]
  refine holds_bind (holds_ethInitStart sound fresh fun _ v₁ here₁ begun => ?_)
  refine holds_harmless trivial here₁ (.refl .main v₁) fun _ v₂ here₂ still₂ => ?_
  exact holds_ret here₂ still₂ fun v here still => next v here ((still.begun rfl).trans begun)

end

end EspAdblocker.Firmware
