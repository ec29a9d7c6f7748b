import EspAdblocker.Firmware.Probation

/-!
# An address and its resolvers

`apply_dns_fallback_if_unset` runs before the event bit is set, in the handler and for
a static address, and nothing clears the bit, not even when the address is lost. So
whoever `eth_init_wait_for_ip` lets through, in any order of the tasks, comes after an
address was got in this boot and finds a resolver in each slot, unless in this boot the
network took one away or a fallback could not be stored or was 0 (`let_through_with_resolvers`).
-/

namespace EspAdblocker.Firmware

open EspAdblocker.Lib EspAdblocker.Storage EspAdblocker.Web

/-- **Whoever is let through comes after an address was got, and finds its resolvers.** -/
theorem let_through_with_resolvers {boot : Bootloader} (documented : boot.Documented) {i₀ : Image} {apps : Apps}
    (holds : apps.image apps.selected = some i₀) (sure : (apps.state apps.selected).Confirmed) {hz : BitVec 32}
    {nvs : Nvs} {x : System} (lives : BoardLives boot hz apps nvs x) {deadline : Nat} {b : Board}
    (through : boardSem.step x.world (.waitBits deadline) true b) :
    Addressed b.log ∧ ∀ slot, b.servers slot ≠ 0#32 ∨ .left slot ∈ sinceBoot b.log := by
  obtain ⟨bit, -, rfl⟩ := through
  exact (sound_of_lives documented holds sure lives).bit (bit.mp rfl)

/-- A network that gives an address and no resolver. -/
def addressOnly (b : Board) : Board := { b with
  servers := fun _ => 0#32
  jobs := Function.update b.jobs .gotIp (b.jobs .gotIp + 1)
  log := .leased :: b.log }

/-- On such a network the stored upstreams stand in. -/
theorem upstreams_stand_in : ∃ x b, BoardLives espBootloader 100#32 oneImage {} x ∧
    boardSem.step x.world (.waitBits 0) true b ∧ ∀ slot, b.servers slot ≠ 0#32 := by
  have computed : (((launch 100#32 .main).exec (Board.answer .ok []) (Board.first oneImage {})).bind fun begun =>
      ((launch 100#32 .gotIp).exec (Board.answer .ok []) (addressOnly begun.2)).map fun ended =>
        (begun.2.started, begun.2.listening, begun.2.lost fun _ => 0#32, ended.2.sEventGroup, ended.2.log)) =
      some (true, true, [], some true, [.leased]) := by decide +kernel
  obtain ⟨⟨_, v⟩, main, rest⟩ := Option.bind_eq_some_iff.mp computed
  obtain ⟨⟨_, b⟩, handled, seen⟩ := Option.map_eq_some_iff.mp rest
  simp only [Prod.mk.injEq] at seen
  obtain ⟨started, listening, kept, bit, log⟩ := seen
  have first : Tasks.Run boardSem (launch 100#32) Board.Other Tasks.AtRest ⟨Board.first oneImage {}, fun _ => none⟩
      ⟨v, fun _ => none⟩ := .alone (t := 0) rfl (atRest_idle _ .main) (Sem.runs_exec answer_step main)
  have moved : Board.Other v (addressOnly v) := by
    have lease := Board.Other.lease (b := v) (fun _ => 0#32) true started fun _ => listening
    rw [kept] at lease
    exact lease
  have second : Tasks.Run boardSem (launch 100#32) Board.Other Tasks.AtRest ⟨addressOnly v, fun _ => none⟩
      ⟨b, fun _ => none⟩ := .alone (t := 0) rfl (atRest_idle _ .gotIp) (Sem.runs_exec answer_step handled)
  have lives : BoardLives espBootloader 100#32 oneImage {} ⟨b, fun _ => none⟩ :=
    .powered ((first.tail (.other moved)).trans second)
  have through : boardSem.step b (.waitBits 0) true b := ⟨iff_of_true rfl bit, .inl rfl, rfl⟩
  refine ⟨_, b, lives, through, fun slot => ?_⟩
  rcases (let_through_with_resolvers espBootloader_documented rfl (.inr rfl) lives through).2 slot with there | left
  · exact there
  · rw [log] at left
    cases slot <;> exact absurd left (by decide)

end EspAdblocker.Firmware
