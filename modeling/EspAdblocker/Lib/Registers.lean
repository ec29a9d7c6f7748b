import Mathlib.Logic.Function.Basic

/-!
# Registers whose writes may fail

A write that is reported to have failed may or may not have happened, and if it
happened it may or may not survive a restart. What remains true is that a read
returns the value of a write after which no write of the same register was
reported to have succeeded (`Readable`), before and after restarts (`Tracks`).
-/

namespace EspAdblocker.Lib

variable {ι : Type} {V : ι → Type}

/-- A write to a register, and whether it was reported to have succeeded. -/
structure RegisterWrite (V : ι → Type) where
  register : ι
  value : V register
  reported : Bool

/-- A register may hold the value of a write, or the initial one, if no later write of it
was reported to have succeeded. -/
inductive Readable (initial : ∀ i, V i) (history : List (RegisterWrite V)) (i : ι) (v : V i) : Prop where
  | initial : v = initial i → (∀ w ∈ history, w.register = i → w.reported = false) → Readable initial history i v
  | written {before after : List (RegisterWrite V)} {reported : Bool} : history = before ++ ⟨i, v, reported⟩ :: after →
      (∀ w ∈ after, w.register = i → w.reported = false) → Readable initial history i v

section

variable {initial : ∀ i, V i} {history : List (RegisterWrite V)} {i : ι} {v : V i}

theorem readable_start (initial : ∀ i, V i) (i : ι) : Readable initial [] i (initial i) :=
  .initial rfl fun _ impossible => by cases impossible

theorem readable_last (reported : Bool) : Readable initial (history ++ [⟨i, v, reported⟩]) i v :=
  .written rfl fun _ impossible => by cases impossible

/-- A value stays readable until a write of its register is reported to have succeeded. -/
theorem Readable.later (read : Readable initial history i v) {w : RegisterWrite V} (spared : w.register = i → w.reported = false) :
    Readable initial (history ++ [w]) i v := by
  cases read with
  | initial same none_reported =>
    refine .initial same fun u member => ?_
    rcases List.mem_append.mp member with old | new
    · exact none_reported u old
    · exact List.mem_singleton.mp new ▸ spared
  | @written before after reported split none_reported =>
    have longer : history ++ [w] = before ++ ⟨i, v, reported⟩ :: (after ++ [w]) := by
      rw [split, List.append_assoc, List.cons_append]
    refine .written longer fun u member => ?_
    rcases List.mem_append.mp member with old | new
    · exact none_reported u old
    · exact List.mem_singleton.mp new ▸ spared

/-- **A write that was reported to have succeeded is what is read** until the next write of its register. -/
theorem Readable.unique {u : V i} (read : Readable initial history i u) {before after : List (RegisterWrite V)}
    (last : history = before ++ ⟨i, v, true⟩ :: after) (none_later : ∀ w ∈ after, w.register ≠ i) : u = v := by
  cases read with
  | initial _ none_reported =>
    have member : (⟨i, v, true⟩ : RegisterWrite V) ∈ history := last ▸ List.mem_append_right _ (List.mem_cons_self ..)
    cases none_reported _ member rfl
  | @written before' after' reported split none_reported =>
    rw [last] at split
    obtain ⟨middle, rfl, behind⟩ | ⟨middle, rfl, behind⟩ := List.append_eq_append_iff.mp split
    · cases middle with
      | nil =>
        rw [List.nil_append, List.cons.injEq] at behind
        cases behind.1
        rfl
      | cons w middle =>
        -- the write that is read would be a later one
        rw [List.cons_append, List.cons.injEq] at behind
        exact absurd rfl (none_later ⟨i, u, reported⟩ (behind.2 ▸ List.mem_append_right _ (List.mem_cons_self ..)))
    · cases middle with
      | nil =>
        rw [List.nil_append, List.cons.injEq] at behind
        cases behind.1
        rfl
      | cons w middle =>
        -- the reported write would follow the one that is read
        rw [List.cons_append, List.cons.injEq] at behind
        cases none_reported ⟨i, v, true⟩ (behind.2 ▸ List.mem_append_right _ (List.mem_cons_self ..)) rfl

end

/-! ## A copy to read from, and one that lasts -/

/-- What reads see, and what has been made to last. -/
@[ext]
structure Cached (V : ι → Type) where
  seen : ∀ i, V i
  durable : ∀ i, V i

namespace Cached

def write [DecidableEq ι] (c : Cached V) (i : ι) (v : V i) : Cached V := { c with seen := Function.update c.seen i v }

def flush (c : Cached V) : Cached V := { c with durable := c.seen }

theorem seen_write_self [DecidableEq ι] (c : Cached V) (i : ι) (v : V i) : (c.write i v).seen i = v :=
  Function.update_self ..

theorem seen_write_of_ne [DecidableEq ι] (c : Cached V) {i j : ι} (v : V i) (other : j ≠ i) :
    (c.write i v).seen j = c.seen j :=
  Function.update_of_ne other ..

/-- After a restart each register has one of its two values. -/
def restart (c : Cached V) (survives : ι → Bool) : Cached V where
  seen i := if survives i then c.seen i else c.durable i
  durable i := if survives i then c.seen i else c.durable i

end Cached

/-- Both copies hold readable values. -/
structure Tracks (initial : ∀ i, V i) (history : List (RegisterWrite V)) (c : Cached V) : Prop where
  seen : ∀ i, Readable initial history i (c.seen i)
  durable : ∀ i, Readable initial history i (c.durable i)

namespace Tracks

variable {initial : ∀ i, V i} {history : List (RegisterWrite V)} {c : Cached V}

theorem start (initial : ∀ i, V i) : Tracks initial [] ⟨initial, initial⟩ := ⟨readable_start initial, readable_start initial⟩

/-- A write that fails and changes nothing. -/
theorem lost (tracks : Tracks initial history c) (i : ι) (v : V i) : Tracks initial (history ++ [⟨i, v, false⟩]) c :=
  ⟨fun j => (tracks.seen j).later fun _ => rfl, fun j => (tracks.durable j).later fun _ => rfl⟩

theorem restart (tracks : Tracks initial history c) (survives : ι → Bool) : Tracks initial history (c.restart survives) := by
  have found (i : ι) : Readable initial history i (if survives i then c.seen i else c.durable i) := by
    split
    · exact tracks.seen i
    · exact tracks.durable i
  exact ⟨found, found⟩

variable [DecidableEq ι]

theorem seen_write {reported : Bool} (tracks : Tracks initial history c) (i : ι) (v : V i) (j : ι) :
    Readable initial (history ++ [⟨i, v, reported⟩]) j ((c.write i v).seen j) := by
  by_cases same : j = i
  · subst same
    rw [c.seen_write_self]
    exact readable_last reported
  · rw [c.seen_write_of_ne v same]
    exact (tracks.seen j).later fun written => absurd written.symm same

/-- A write that is seen, but was not reported to last. -/
theorem write (tracks : Tracks initial history c) (i : ι) (v : V i) :
    Tracks initial (history ++ [⟨i, v, false⟩]) (c.write i v) :=
  ⟨tracks.seen_write i v, fun j => (tracks.durable j).later fun _ => rfl⟩

/-- A write that lasts, and with it all that was seen. -/
theorem write_flush (tracks : Tracks initial history c) (i : ι) (v : V i) :
    Tracks initial (history ++ [⟨i, v, true⟩]) (c.write i v).flush :=
  ⟨tracks.seen_write i v, tracks.seen_write i v⟩

end Tracks

end EspAdblocker.Lib
