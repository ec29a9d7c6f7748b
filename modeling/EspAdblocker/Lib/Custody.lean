import Mathlib.Data.List.Count
import Mathlib.Logic.Function.Basic

/-!
# Custody of requests

Requests are numbered in order of arrival. Each is either settled at once, or
held at one free place and settled when that place is released. Whatever the
order of these operations, every request is at exactly one place or has been
settled exactly once.
-/

namespace EspAdblocker.Lib

/-- How many requests have arrived, which one each place holds, and which were settled, in order. -/
structure Custody (κ : Type) where
  arrived : Nat
  holder : κ → Option Nat
  settled : List Nat

namespace Custody

variable {κ : Type} [DecidableEq κ]

/-- Nothing has arrived. -/
def empty : Custody κ := ⟨0, fun _ => none, []⟩

/-- A request arrives and is held at a place. -/
def hold (c : Custody κ) (place : κ) : Custody κ :=
  ⟨c.arrived + 1, Function.update c.holder place (some c.arrived), c.settled⟩

/-- A request arrives and is settled at once. -/
def settle (c : Custody κ) : Custody κ :=
  ⟨c.arrived + 1, c.holder, c.settled ++ [c.arrived]⟩

/-- The request held at a place is settled. -/
def release (c : Custody κ) (place : κ) (id : Nat) : Custody κ :=
  ⟨c.arrived, Function.update c.holder place none, c.settled ++ [id]⟩

/-- Every request is at one place and not settled, or at no place and settled once. -/
structure Balanced (c : Custody κ) : Prop where
  /-- Only requests that have arrived are held. -/
  held_lt : ∀ {place id}, c.holder place = some id → id < c.arrived
  /-- Only requests that have arrived are settled. -/
  settled_lt : ∀ {id}, id ∈ c.settled → id < c.arrived
  /-- No request is held at two places. -/
  alone : ∀ {place place' id}, c.holder place = some id → c.holder place' = some id → place = place'
  /-- No held request is settled. -/
  open_ : ∀ {place id}, c.holder place = some id → id ∉ c.settled
  /-- Every request that is not held is settled exactly once. -/
  once : ∀ {id}, id < c.arrived → (∀ place, c.holder place ≠ some id) → c.settled.count id = 1

variable {c : Custody κ} {place : κ} {id : Nat}

omit [DecidableEq κ] in
theorem balanced_empty : Balanced (empty : Custody κ) where
  held_lt held := by cases held
  settled_lt member := by cases member
  alone held := by cases held
  open_ held := by cases held
  once early := absurd early (Nat.not_lt_zero _)

@[simp] theorem hold_self (c : Custody κ) (place : κ) : (c.hold place).holder place = some c.arrived :=
  Function.update_self _ _ _

theorem hold_other {other : κ} (there : other ≠ place) : (c.hold place).holder other = c.holder other :=
  Function.update_of_ne there _ _

@[simp] theorem release_self (c : Custody κ) (place : κ) (id : Nat) : (c.release place id).holder place = none :=
  Function.update_self _ _ _

theorem release_other {other : κ} (there : other ≠ place) : (c.release place id).holder other = c.holder other :=
  Function.update_of_ne there _ _

/-- A place holds the new request or what it held before. -/
theorem holder_hold {other : κ} (h : Balanced c) (held : (c.hold place).holder other = some id) :
    (other = place ∧ id = c.arrived) ∨ (c.holder other = some id ∧ id < c.arrived) := by
  by_cases here : other = place
  · subst here
    rw [hold_self] at held
    exact .inl ⟨rfl, (Option.some.inj held).symm⟩
  · rw [hold_other here] at held
    exact .inr ⟨held, h.held_lt held⟩

theorem Balanced.hold (h : Balanced c) (free : c.holder place = none) : Balanced (c.hold place) where
  held_lt held := by
    rcases holder_hold h held with ⟨-, rfl⟩ | ⟨-, early⟩
    · exact Nat.lt_succ_self _
    · exact Nat.lt_succ_of_lt early
  settled_lt member := Nat.lt_succ_of_lt (h.settled_lt member)
  alone held held' := by
    rcases holder_hold h held with ⟨here, rfl⟩ | ⟨there, early⟩
    · rcases holder_hold h held' with ⟨here', -⟩ | ⟨-, early'⟩
      · rw [here, here']
      · exact absurd early' (Nat.lt_irrefl _)
    · rcases holder_hold h held' with ⟨-, rfl⟩ | ⟨there', -⟩
      · exact absurd early (Nat.lt_irrefl _)
      · exact h.alone there there'
  open_ held := by
    rcases holder_hold h held with ⟨-, rfl⟩ | ⟨there, -⟩
    · exact fun member => Nat.lt_irrefl _ (h.settled_lt member)
    · exact h.open_ there
  once {id} early nowhere := by
    have elsewhere : id ≠ c.arrived := by
      rintro rfl
      exact nowhere place (hold_self c place)
    have before : id < c.arrived := Nat.lt_of_le_of_ne (Nat.le_of_lt_succ early) elsewhere
    refine h.once before fun other held => ?_
    have there : other ≠ place := by
      rintro rfl
      rw [free] at held
      cases held
    exact nowhere other ((hold_other there).trans held)

omit [DecidableEq κ] in
theorem Balanced.settle (h : Balanced c) : Balanced c.settle where
  held_lt held := Nat.lt_succ_of_lt (h.held_lt held)
  settled_lt member := by
    rcases List.mem_append.mp member with before | now
    · exact Nat.lt_succ_of_lt (h.settled_lt before)
    · rw [List.mem_singleton.mp now]
      exact Nat.lt_succ_self _
  alone := h.alone
  open_ held member := by
    rcases List.mem_append.mp member with before | now
    · exact h.open_ held before
    · rw [List.mem_singleton.mp now] at held
      exact Nat.lt_irrefl _ (h.held_lt held)
  once {id} early nowhere := by
    rw [Custody.settle, List.count_append, List.count_singleton]
    rcases Nat.lt_succ_iff_lt_or_eq.mp early with before | rfl
    · rw [h.once before nowhere, if_neg (by simpa using (Nat.ne_of_lt before).symm)]
    · have fresh : c.arrived ∉ c.settled := fun member => Nat.lt_irrefl _ (h.settled_lt member)
      rw [List.count_eq_zero_of_not_mem fresh, if_pos (beq_self_eq_true _)]

/-- What is still held was held before, at another place. -/
theorem holder_release {other : κ} {id' : Nat} (held : (c.release place id').holder other = some id) :
    other ≠ place ∧ c.holder other = some id := by
  by_cases here : other = place
  · subst here
    rw [release_self] at held
    cases held
  · rw [release_other here] at held
    exact ⟨here, held⟩

theorem Balanced.release (h : Balanced c) (held : c.holder place = some id) : Balanced (c.release place id) where
  held_lt still := h.held_lt (holder_release still).2
  settled_lt member := by
    rcases List.mem_append.mp member with before | now
    · exact h.settled_lt before
    · rw [List.mem_singleton.mp now]
      exact h.held_lt held
  alone still still' := h.alone (holder_release still).2 (holder_release still').2
  open_ still member := by
    obtain ⟨there, before⟩ := holder_release still
    rcases List.mem_append.mp member with settled | now
    · exact h.open_ before settled
    · rw [List.mem_singleton.mp now] at before
      exact there (h.alone before held)
  once {id'} early nowhere := by
    rw [Custody.release, List.count_append, List.count_singleton]
    by_cases same : id' = id
    · subst same
      rw [List.count_eq_zero_of_not_mem (h.open_ held), if_pos (beq_self_eq_true _)]
    · have before : ∀ other, c.holder other ≠ some id' := by
        intro other held'
        have there : other ≠ place := by
          rintro rfl
          exact same (Option.some.inj (held'.symm.trans held))
        exact nowhere other ((release_other there).trans held')
      rw [h.once early before, if_neg (by simpa using Ne.symm same)]

end Custody

end EspAdblocker.Lib
