import EspAdblocker.Lib.Prog

/-!
# The life of a machine

A machine runs programs one after the other, each to its end or cut off by a
power loss, after which it starts again with what lasts (`Sem.Life`). What every
program keeps at every point of its run, a power loss included, is kept for
life (`Life.invariant`), and the operations it allows are the only ones
performed (`Life.allowed`).
-/

namespace EspAdblocker.Lib.Sem

variable {Op : Type} {Res : Op → Type} {W α : Type}

/-- What a machine does: the programs it runs, what a power cycle makes of a world,
and what else may change between two programs. -/
structure Machine (Op : Type) (Res : Op → Type) (W α : Type) where
  runs : Prog Op Res α → Prop
  powerCycle : W → W
  other : W → W → Prop

/-- The worlds between the programs of a life that starts in `w₀`. -/
inductive Life (S : Sem Op Res W) (M : Machine Op Res W α) (w₀ : W) : W → Prop where
  | start : Life S M w₀ w₀
  | run {p : Prog Op Res α} {w w' : W} {a : α} : Life S M w₀ w → M.runs p → S.Runs p w a w' → Life S M w₀ w'
  | cut {p : Prog Op Res α} {w w' : W} : Life S M w₀ w → M.runs p → S.Crash p w w' → Life S M w₀ (M.powerCycle w')
  | other {w w' : W} : Life S M w₀ w → M.other w w' → Life S M w₀ w'

variable {S : Sem Op Res W} {M : Machine Op Res W α} {I : W → Prop} {G : W → Op → Prop} {w₀ w : W}

/-- The power may be lost at the end of a run. -/
theorem Runs.crash {p : Prog Op Res α} {w w' : W} {a : α} (run : S.Runs p w a w') : S.Crash p w w' := by
  induction p generalizing w with
  | ret b => exact run.2
  | call op k ih =>
    obtain ⟨r, v, step, rest⟩ := run
    exact .inr (.inr ⟨r, v, step, ih r rest⟩)

/-- The power may be lost after any number of operations that an environment answers. -/
theorem crash_after {env : W → (op : Op) → Option (Res op × W)}
    (answers : ∀ w op r v, env w op = some (r, v) → S.step w op r v) {n : Nat} {p q : Prog Op Res α} {w v : W}
    (done : p.after env n w = some (q, v)) : S.Crash p w v := by
  induction n generalizing p w with
  | zero =>
    cases done
    cases q with
    | ret a => exact rfl
    | call op k => exact .inl rfl
  | succ n ih =>
    cases p with
    | ret a => cases done
    | call op k =>
      obtain ⟨r, w', answered, rest⟩ := Prog.after_call_eq_some done
      exact .inr (.inr ⟨r, w', answers w op r w' answered, ih rest⟩)

/-- A recorded run may start with a record: what it keeps of its own part of the record, it keeps. -/
theorem Safe.after_record {I : W × List (Done Op Res) → Prop} {G : W × List (Done Op Res) → Op → Prop}
    {p : Prog Op Res α} {Q : α → W × List (Done Op Res) → Prop} {w : W} {own : List (Done Op Res)}
    (h : S.traced.Safe I G p Q (w, own)) (before : List (Done Op Res)) :
    S.traced.Safe (fun v => ∃ part, v.2 = before ++ part ∧ I (v.1, part))
      (fun v op => ∃ part, v.2 = before ++ part ∧ G (v.1, part) op) p (fun _ _ => True) (w, before ++ own) := by
  induction p generalizing w own with
  | ret a => exact ⟨⟨own, rfl, h.1⟩, trivial⟩
  | call op k ih =>
    obtain ⟨here, allowed, torn, next⟩ := h
    refine safe_call ⟨own, rfl, here⟩ ⟨own, rfl, allowed⟩ ?_ ?_
    · rintro ⟨v, _⟩ ⟨lost, rfl⟩
      exact ⟨own, rfl, torn (v, own) ⟨lost, rfl⟩⟩
    · rintro r ⟨v, _⟩ ⟨step, rfl⟩
      rw [List.append_assoc]
      exact ih r (next r (v, own ++ [⟨op, r⟩]) ⟨step, rfl⟩)

/-- The rule for lives: programs, power cycles and other changes all keep the invariant. -/
structure Kept (S : Sem Op Res W) (M : Machine Op Res W α) (I : W → Prop) (G : W → Op → Prop) : Prop where
  safe : ∀ p w, M.runs p → I w → S.Safe I G p (fun _ _ => True) w
  powerCycle : ∀ w, I w → I (M.powerCycle w)
  other : ∀ w w', M.other w w' → I w → I w'

/-- **What is kept at every point of every program is kept for life.** -/
theorem Life.invariant (kept : Kept S M I G) (start : I w₀) (life : S.Life M w₀ w) : I w := by
  induction life with
  | start => exact start
  | run _ runs done here => exact (kept.safe _ _ runs here).crash (Runs.crash done)
  | cut _ runs lost here => exact kept.powerCycle _ ((kept.safe _ _ runs here).crash lost)
  | other _ changed here => exact kept.other _ _ changed here

/-- A life performs allowed operations only. -/
theorem Life.allowed (kept : Kept S M I G) (start : I w₀) (life : S.Life M w₀ w) {p : Prog Op Res α} (runs : M.runs p)
    {v : W} {op : Op} (does : S.Performs p w v op) : G v op :=
  (kept.safe _ _ runs (life.invariant kept start)).performs does

end EspAdblocker.Lib.Sem
