import Mathlib.Algebra.BigOperators.Group.Finset.Basic
import Mathlib.Data.List.Count
import Mathlib.Data.Nat.ModEq

/-!
# Counting recent events in reused buckets

Events happen at numbered ticks and are counted in `n` buckets, an event of tick
`t` in bucket `t % n`. A bucket remembers the tick it counts and starts anew when
an event of another tick arrives. When ticks never decrease, the buckets whose
tick is one of the last `n` hold exactly the events of the last `n` ticks.
-/

namespace EspAdblocker.Lib

open Finset

/-- The tick of each bucket and the events counted for it. -/
structure Buckets where
  tick : Nat → Nat
  count : Nat → Nat

/-- The number of events that satisfy `p`, residue by residue. -/
theorem countP_eq_sum_mod {n : Nat} (pos : 0 < n) (p : Nat → Prop) [DecidablePred p] (log : List Nat) :
    log.countP (fun t => p t) = ∑ i ∈ range n, log.countP (fun t => t % n = i ∧ p t) := by
  induction log with
  | nil => simp
  | cons t log ih =>
    simp only [List.countP_cons, decide_eq_true_eq, sum_add_distrib, ← ih]
    congr 1
    rw [sum_eq_single_of_mem (t % n) (mem_range.mpr (Nat.mod_lt t pos))]
    · simp
    · intro i _ other
      rw [if_neg fun both => other both.1.symm]

namespace Buckets

/-- No event has been counted. -/
def empty : Buckets := ⟨fun _ => 0, fun _ => 0⟩

section

variable (n : Nat)

/-- Count an event. -/
def record (b : Buckets) (t : Nat) : Buckets where
  tick := Function.update b.tick (t % n) t
  count := Function.update b.count (t % n) (if b.tick (t % n) = t then b.count (t % n) + 1 else 1)

/-- The events of the buckets whose tick is one of the last `n`. -/
def total (b : Buckets) (now : Nat) : Nat :=
  ∑ i ∈ range n, if now < b.tick i + n then b.count i else 0

/-- The buckets count the events of the log: each bucket those of its own tick,
which is the last that had an event in the bucket. -/
structure Tracks (b : Buckets) (log : List Nat) : Prop where
  count : ∀ i < n, b.count i = log.countP fun t => t % n = i ∧ t = b.tick i
  latest : ∀ t ∈ log, t ≤ b.tick (t % n)
  reached : ∀ t ∈ log, b.tick (t % n) ∈ log ∧ b.tick (t % n) % n = t % n

variable {n} {b : Buckets} {log : List Nat}

@[simp] theorem tick_record_self (b : Buckets) (t : Nat) : (b.record n t).tick (t % n) = t :=
  Function.update_self _ _ _

theorem tick_record_of_ne {i t : Nat} (other : i ≠ t % n) (b : Buckets) : (b.record n t).tick i = b.tick i :=
  Function.update_of_ne other _ _

@[simp] theorem count_record_self (b : Buckets) (t : Nat) :
    (b.record n t).count (t % n) = if b.tick (t % n) = t then b.count (t % n) + 1 else 1 :=
  Function.update_self _ _ _

theorem count_record_of_ne {i t : Nat} (other : i ≠ t % n) (b : Buckets) : (b.record n t).count i = b.count i :=
  Function.update_of_ne other _ _

theorem tracks_empty : Tracks n empty [] where
  count _ _ := rfl
  latest _ member := by cases member
  reached _ member := by cases member

/-- An event that is not earlier than any before it. -/
theorem Tracks.record (h : Tracks n b log) {t : Nat} (last : ∀ s ∈ log, s ≤ t) : Tracks n (b.record n t) (log ++ [t]) where
  count i small := by
    rw [List.countP_append, List.countP_singleton]
    by_cases here : i = t % n
    · subst here
      simp only [tick_record_self, count_record_self]
      by_cases same : b.tick (t % n) = t
      · rw [if_pos same, h.count _ small]
        simp [same]
      · -- no earlier event has this tick, or the bucket would be at it
        have none : log.countP (fun s => s % n = t % n ∧ s = t) = 0 := by
          rw [List.countP_eq_zero]
          intro s member
          simp only [decide_eq_true_eq]
          rintro ⟨-, rfl⟩
          apply same
          exact Nat.le_antisymm (last _ (h.reached s member).1) (h.latest s member)
        rw [if_neg same, none]
        simp
    · simp only [tick_record_of_ne here, count_record_of_ne here]
      rw [h.count i small]
      simp [Ne.symm here]
  latest s member := by
    rcases List.mem_append.mp member with before | now
    · by_cases here : s % n = t % n
      · rw [here, tick_record_self]
        exact last s before
      · rw [tick_record_of_ne here]
        exact h.latest s before
    · rw [List.mem_singleton.mp now, tick_record_self]
  reached s member := by
    by_cases here : s % n = t % n
    · rw [here, tick_record_self]
      exact ⟨List.mem_append_right _ (List.mem_singleton_self t), rfl⟩
    · have before : s ∈ log := by
        rcases List.mem_append.mp member with before | now
        · exact before
        · exact absurd (congrArg (· % n) (List.mem_singleton.mp now)) here
      rw [tick_record_of_ne here]
      obtain ⟨logged, same⟩ := h.reached s before
      exact ⟨List.mem_append_left _ logged, same⟩

/-- **The buckets of the last `n` ticks hold the events of the last `n` ticks.** -/
theorem Tracks.total_eq (pos : 0 < n) (h : Tracks n b log) {now : Nat} (past : ∀ t ∈ log, t ≤ now) :
    b.total n now = log.countP fun t => now < t + n ∧ t ≤ now := by
  rw [countP_eq_sum_mod pos, total]
  apply sum_congr rfl
  intro i member
  split
  · rename_i recent
    rw [h.count i (mem_range.mp member)]
    apply List.countP_congr
    intro t logged
    simp only [decide_eq_true_eq]
    constructor
    · rintro ⟨here, rfl⟩
      exact ⟨here, recent, past _ logged⟩
    · rintro ⟨rfl, inside, -⟩
      obtain ⟨logged', same⟩ := h.reached t logged
      have bound := past _ logged'
      have before := h.latest t logged
      -- ticks of one bucket that are less than a round apart are the same
      have close : |(b.tick (t % n) : Int) - t| < n := by
        rw [abs_lt]
        omega
      exact ⟨rfl, Nat.ModEq.eq_of_abs_lt same.symm close⟩
  · rename_i old
    symm
    rw [List.countP_eq_zero]
    intro t logged
    simp only [decide_eq_true_eq]
    rintro ⟨rfl, inside, -⟩
    have := h.latest t logged
    omega

end

end Buckets

end EspAdblocker.Lib
