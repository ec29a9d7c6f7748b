import Mathlib.Data.Nat.ModEq
import Mathlib.Data.List.Basic

/-!
# A ring of the latest entries

An array of `n` cells is written round and round: the next entry goes into the
cell `next`, and `count` says how many cells have been written. Read backwards
from `next`, the cells are the latest entries of everything that was written.
-/

namespace EspAdblocker.Lib

/-- The cells with their two indices hold the latest entries of the log. -/
structure RingHolds {α : Type} (n : Nat) (cells : List α) (next count : Nat) (log : List α) : Prop where
  size : cells.length = n
  next : next = log.length % n
  count : count = min log.length n
  cell : ∀ i < log.length, log.length ≤ i + n → cells[i % n]? = log[i]?

section

variable {α : Type} {n : Nat} {cells log : List α} {next count : Nat}

/-- A ring that has not been written. -/
theorem ringHolds_nil (size : cells.length = n) : RingHolds n cells 0 0 ([] : List α) where
  size
  next := (Nat.zero_mod n).symm
  count := (Nat.zero_min n).symm
  cell i inside := absurd inside (Nat.not_lt_zero i)

/-- One more entry is written into the next cell. -/
theorem RingHolds.push (pos : 0 < n) (h : RingHolds n cells next count log) (entry : α) :
    RingHolds n (cells.set next entry) ((next + 1) % n) (if count < n then count + 1 else count) (log ++ [entry]) where
  size := by rw [List.length_set, h.size]
  next := by
    rw [h.next, List.length_append, List.length_singleton, Nat.mod_add_mod]
  count := by
    have written := h.count
    rw [List.length_append, List.length_singleton]
    split <;> omega
  cell := by
    intro i inside recent
    rw [List.length_append, List.length_singleton] at inside recent
    rw [h.next]
    by_cases last : i = log.length
    · have here : i % n < cells.length := by
        rw [h.size]
        exact Nat.mod_lt _ pos
      rw [← last, List.getElem?_set_self here, last, List.getElem?_concat_length]
    · have apart : log.length % n ≠ i % n := by
        intro same
        -- cells less than a round apart are different
        have close : |(i : Int) - log.length| < n := by
          rw [abs_lt]
          omega
        exact last (Nat.ModEq.eq_of_abs_lt same close).symm
      rw [List.getElem?_set_ne apart, List.getElem?_append_left (by omega)]
      exact h.cell i (by omega) (by omega)

/-- The cell `i` steps behind the one written last. -/
theorem backward_index {len i : Nat} (recent : i < n) (written : i < len) :
    (len % n + n - 1 - i) % n = (len - 1 - i) % n := by
  have steps : len % n + n - 1 - i = len % n + (n - 1 - i) := by omega
  have round : len + (n - 1 - i) = len - 1 - i + n := by omega
  rw [steps, Nat.mod_add_mod, round, Nat.add_mod_right]

/-- **Read backwards, the ring gives the latest entries, newest first.** -/
theorem RingHolds.latest (h : RingHolds n cells next count log) {m : Nat} (few : m ≤ count) (default : α) :
    (List.range m).map (fun i => cells.getD ((next + n - 1 - i) % n) default) = log.reverse.take m := by
  have written := h.count
  apply List.ext_getElem
  · rw [List.length_map, List.length_range, List.length_take, List.length_reverse]
    omega
  · intro i left right
    rw [List.length_map, List.length_range] at left
    rw [List.getElem_map, List.getElem_range, h.next, backward_index (by omega) (by omega), List.getD_eq_getElem?_getD,
      h.cell _ (by omega) (by omega), List.getElem_take, List.getElem_reverse, List.getElem?_eq_getElem (by omega),
      Option.getD_some]

end

end EspAdblocker.Lib
