import Mathlib.Data.List.Basic

/-!
# Programs over operations

A program is a tree of calls to operations whose results the environment
chooses (`Prog`). A semantics says what an operation may return and leave
behind, and what a power loss inside it may leave (`Sem`). The same program is
then run to completion (`Sem.Runs`), cut off at any point (`Sem.Crash`), watched
operation by operation (`Sem.Performs`), or interleaved with other programs
(`Sem.PoolRun`). `Sem.Safe` is the proof rule for all but the last: it walks a
program once, composes over `bind`, and its adequacy lemmas give the others.
-/

namespace EspAdblocker.Lib

/-- A program that calls operations of `Op`, each answered by a `Res op`. -/
inductive Prog (Op : Type) (Res : Op → Type) (α : Type) where
  | ret (a : α)
  | call (op : Op) (k : Res op → Prog Op Res α)

namespace Prog

variable {Op : Type} {Res : Op → Type} {α β : Type}

/-- Run `p`, then `f` on its result. -/
def bind (p : Prog Op Res α) (f : α → Prog Op Res β) : Prog Op Res β :=
  match p with
  | .ret a => f a
  | .call op k => .call op fun r => (k r).bind f

instance : Monad (Prog Op Res) where
  pure := .ret
  bind := bind

@[simp] theorem pure_eq (a : α) : (pure a : Prog Op Res α) = .ret a := rfl

@[simp] theorem bind_eq (p : Prog Op Res α) (f : α → Prog Op Res β) : p >>= f = p.bind f := rfl

@[simp] theorem ret_bind (a : α) (f : α → Prog Op Res β) : (Prog.ret a).bind f = f a := rfl

@[simp] theorem call_bind (op : Op) (k : Res op → Prog Op Res α) (f : α → Prog Op Res β) :
    (Prog.call op k).bind f = .call op fun r => (k r).bind f := rfl

@[simp] theorem bind_ret (p : Prog Op Res α) : p.bind .ret = p := by
  induction p with
  | ret a => rfl
  | call op k ih => exact congrArg (Prog.call op) (funext ih)

/-- Call one operation and return its result. -/
def perform (op : Op) : Prog Op Res (Res op) := .call op .ret

@[simp] theorem perform_bind (op : Op) (f : Res op → Prog Op Res β) :
    (perform op).bind f = .call op f := rfl

/-- Every operation the program may perform satisfies `P`. -/
def Only (P : Op → Prop) : Prog Op Res α → Prop
  | .ret _ => True
  | .call op k => P op ∧ ∀ r, Only P (k r)

@[simp] theorem only_ret (P : Op → Prop) (a : α) : (Prog.ret a : Prog Op Res α).Only P ↔ True := Iff.rfl

@[simp] theorem only_call (P : Op → Prop) (op : Op) (k : Res op → Prog Op Res α) :
    (Prog.call op k).Only P ↔ P op ∧ ∀ r, (k r).Only P := Iff.rfl

@[simp] theorem only_perform (P : Op → Prop) (op : Op) : (perform op : Prog Op Res (Res op)).Only P ↔ P op :=
  ⟨fun h => h.1, fun h => ⟨h, fun _ => trivial⟩⟩

theorem Only.call {P : Op → Prop} {op : Op} {k : Res op → Prog Op Res α} (first : P op) (rest : ∀ r, (k r).Only P) :
    (Prog.call op k).Only P :=
  ⟨first, rest⟩

theorem Only.bind {P : Op → Prop} {p : Prog Op Res α} {f : α → Prog Op Res β} (first : p.Only P)
    (second : ∀ a, (f a).Only P) : (p.bind f).Only P := by
  induction p with
  | ret a => exact second a
  | call op k ih => exact ⟨first.1, fun r => ih r (first.2 r)⟩

theorem Only.mono {P Q : Op → Prop} {p : Prog Op Res α} (h : p.Only P) (implies : ∀ op, P op → Q op) : p.Only Q := by
  induction p with
  | ret a => trivial
  | call op k ih => exact ⟨implies op h.1, fun r => ih r (h.2 r)⟩

/-- Some branch of the program reaches a `hit` operation without performing a
`stop` operation first. -/
def Commits (stop hit : Op → Prop) : Prog Op Res α → Prop
  | .ret _ => False
  | .call op k => hit op ∨ (¬ stop op ∧ ∃ r, Commits stop hit (k r))

/-- Run a program in an environment that answers each operation, or refuses to. -/
def exec {W : Type} (env : W → (op : Op) → Option (Res op × W)) : Prog Op Res α → W → Option (α × W)
  | .ret a, w => some (a, w)
  | .call op k, w =>
    match env w op with
    | none => none
    | some (r, w') => (k r).exec env w'

/-- The first `n` operations of a program in such an environment, and what is left of it. -/
def after {W : Type} (env : W → (op : Op) → Option (Res op × W)) : Nat → Prog Op Res α → W → Option (Prog Op Res α × W)
  | 0, p, w => some (p, w)
  | _ + 1, .ret _, _ => none
  | n + 1, .call op k, w =>
    match env w op with
    | none => none
    | some (r, w') => (k r).after env n w'

/-- The first of those operations was answered, and the others follow it. -/
theorem after_call_eq_some {W : Type} {env : W → (op : Op) → Option (Res op × W)} {n : Nat} {op : Op}
    {k : Res op → Prog Op Res α} {w v : W} {q : Prog Op Res α} (done : (Prog.call op k).after env (n + 1) w = some (q, v)) :
    ∃ r w', env w op = some (r, w') ∧ (k r).after env n w' = some (q, v) := by
  rw [after] at done
  split at done
  · cases done
  · rename_i r w' answered
    exact ⟨r, w', answered, done⟩

end Prog

/-- What operations do to a world `W`. -/
structure Sem (Op : Type) (Res : Op → Type) (W : Type) where
  /-- `step w op r w'`: in `w` the operation may return `r` and leave `w'`. -/
  step : W → (op : Op) → Res op → W → Prop
  /-- `torn w op w'`: a power loss inside the operation may leave `w'`. -/
  torn : W → Op → W → Prop

namespace Sem

variable {Op : Type} {Res : Op → Type} {W α β : Type} (S : Sem Op Res W)

/-- A complete run of a program. -/
def Runs : Prog Op Res α → W → α → W → Prop
  | .ret a, w, b, w' => b = a ∧ w' = w
  | .call op k, w, b, w' => ∃ r v, S.step w op r v ∧ Runs (k r) v b w'

/-- The worlds a power loss may leave: between two operations or inside one. -/
def Crash : Prog Op Res α → W → W → Prop
  | .ret _, w, w' => w' = w
  | .call op k, w, w' => w' = w ∨ S.torn w op w' ∨ ∃ r v, S.step w op r v ∧ Crash (k r) v w'

/-- The worlds between two operations of a run, and at its ends. -/
def Passes : Prog Op Res α → W → W → Prop
  | .ret _, w, v => v = w
  | .call op k, w, v => v = w ∨ ∃ r u, S.step w op r u ∧ Passes (k r) u v

/-- The program performs operation `o` in world `v`. -/
def Performs : Prog Op Res α → W → W → Op → Prop
  | .ret _, _, _, _ => False
  | .call op k, w, v, o => (v = w ∧ o = op) ∨ ∃ r w', S.step w op r w' ∧ Performs (k r) w' v o

/-- From `w` the program keeps `I` at every point, a power loss included,
performs only operations that `G` allows, and ends in `Q`. -/
def Safe (I : W → Prop) (G : W → Op → Prop) : Prog Op Res α → (α → W → Prop) → W → Prop
  | .ret a, Q, w => I w ∧ Q a w
  | .call op k, Q, w =>
    I w ∧ G w op ∧ (∀ w', S.torn w op w' → I w') ∧ ∀ r w', S.step w op r w' → Safe I G (k r) Q w'

variable {S} {I : W → Prop} {G : W → Op → Prop}

/-- Sequencing: the result of the first program feeds the second. -/
theorem safe_bind {p : Prog Op Res α} {f : α → Prog Op Res β} {Q : β → W → Prop} {w : W} :
    S.Safe I G p (fun a v => S.Safe I G (f a) Q v) w → S.Safe I G (p.bind f) Q w := by
  induction p generalizing w with
  | ret a => exact fun h => h.2
  | call op k ih => exact fun ⟨here, allowed, torn, next⟩ => ⟨here, allowed, torn, fun r w' s => ih r (next r w' s)⟩

/-- One operation, then the rest from whatever it returns and leaves. -/
theorem safe_call {op : Op} {k : Res op → Prog Op Res α} {Q : α → W → Prop} {w : W} (here : I w) (allowed : G w op)
    (torn : ∀ w', S.torn w op w' → I w') (next : ∀ r w', S.step w op r w' → S.Safe I G (k r) Q w') :
    S.Safe I G (.call op k) Q w :=
  ⟨here, allowed, torn, next⟩

/-- A program whose operations all keep the invariant is safe. -/
theorem safe_of_only {P : Op → Prop} {p : Prog Op Res α} {w : W} (only : p.Only P)
    (keeps : ∀ v op r v', P op → I v → S.step v op r v' → I v') (torn : ∀ v op v', P op → I v → S.torn v op v' → I v')
    (allowed : ∀ v op, P op → I v → G v op) (here : I w) : S.Safe I G p (fun _ _ => True) w := by
  induction p generalizing w with
  | ret a => exact ⟨here, trivial⟩
  | call op k ih =>
    exact ⟨here, allowed w op only.1 here, fun w' lost => torn w op w' only.1 here lost,
      fun r w' step => ih r (only.2 r) (keeps w op r w' only.1 here step)⟩

/-- A phase of a program: its operations keep an invariant `J`, a power loss
inside one included, and are allowed while it holds. -/
structure Phase (S : Sem Op Res W) (P : Op → Prop) (J : W → Prop) (G : W → Op → Prop) : Prop where
  keeps : ∀ v op r v', P op → J v → S.step v op r v' → J v'
  torn : ∀ v op v', P op → J v → S.torn v op v' → J v'
  allowed : ∀ v op, P op → J v → G v op

/-- Weakening the invariant and the allowed operations. -/
theorem Safe.weaken {I' : W → Prop} {G' : W → Op → Prop} {p : Prog Op Res α} {Q : α → W → Prop} {w : W}
    (h : S.Safe I G p Q w) (inv : ∀ v, I v → I' v) (allowed : ∀ v op, I v → G v op → G' v op) :
    S.Safe I' G' p Q w := by
  induction p generalizing w with
  | ret a => exact ⟨inv w h.1, h.2⟩
  | call op k ih =>
    obtain ⟨here, ok, torn, next⟩ := h
    exact ⟨inv w here, allowed w op here ok, fun w' lost => inv w' (torn w' lost), fun r w' step => ih r (next r w' step)⟩

/-- Weakening the postcondition. -/
theorem Safe.mono {p : Prog Op Res α} {Q Q' : α → W → Prop} {w : W} (h : S.Safe I G p Q w)
    (implies : ∀ a v, I v → Q a v → Q' a v) : S.Safe I G p Q' w := by
  induction p generalizing w with
  | ret a => exact ⟨h.1, implies a w h.1 h.2⟩
  | call op k ih =>
    obtain ⟨here, allowed, torn, next⟩ := h
    exact ⟨here, allowed, torn, fun r w' s => ih r (next r w' s)⟩

/-- One operation of a phase, then the rest. -/
theorem Phase.call {P : Op → Prop} {J : W → Prop} (phase : Phase S P J G) (weaker : ∀ v, J v → I v) {op : Op}
    {k : Res op → Prog Op Res α} {Q : α → W → Prop} {w : W} (one : P op) (here : J w)
    (rest : ∀ r v, S.step w op r v → J v → S.Safe I G (k r) Q v) : S.Safe I G (.call op k) Q w :=
  safe_call (weaker w here) (phase.allowed w op one here) (fun w' lost => weaker w' (phase.torn w op w' one here lost))
    fun r v step => rest r v step (phase.keeps w op r v one here step)

/-- A program inside a phase, then the rest. -/
theorem Phase.bind {P : Op → Prop} {J : W → Prop} (phase : Phase S P J G) (weaker : ∀ v, J v → I v)
    {p : Prog Op Res α} {f : α → Prog Op Res β} {Q : β → W → Prop} {w : W} (only : p.Only P) (here : J w)
    (rest : ∀ a v, J v → S.Safe I G (f a) Q v) : S.Safe I G (p.bind f) Q w := by
  induction p generalizing w with
  | ret a => exact rest a w here
  | call op k ih => exact phase.call weaker only.1 here fun r v _ there => ih r (only.2 r) there

/-- A safe program leaves its invariant wherever the power is lost. -/
theorem Safe.crash {p : Prog Op Res α} {Q : α → W → Prop} {w w' : W} (h : S.Safe I G p Q w)
    (lost : S.Crash p w w') : I w' := by
  induction p generalizing w with
  | ret b => subst lost; exact h.1
  | call op k ih =>
    rcases lost with rfl | torn | ⟨r, v, step, rest⟩
    · exact h.1
    · exact h.2.2.1 _ torn
    · exact ih r (h.2.2.2 r v step) rest

/-- A safe program performs only allowed operations. -/
theorem Safe.performs {p : Prog Op Res α} {Q : α → W → Prop} {w v : W} {o : Op} (h : S.Safe I G p Q w)
    (does : S.Performs p w v o) : G v o := by
  induction p generalizing w with
  | ret b => exact does.elim
  | call op k ih =>
    rcases does with ⟨rfl, rfl⟩ | ⟨r, w', step, rest⟩
    · exact h.2.1
    · exact ih r (h.2.2.2 r w' step) rest

theorem runs_bind {p : Prog Op Res α} {f : α → Prog Op Res β} {w w' : W} {b : β} :
    S.Runs (p.bind f) w b w' ↔ ∃ a v, S.Runs p w a v ∧ S.Runs (f a) v b w' := by
  induction p generalizing w with
  | ret a => simp [Runs]
  | call op k ih =>
    simp only [Prog.call_bind, Runs, ih]
    constructor
    · rintro ⟨r, v, step, a, u, first, second⟩
      exact ⟨a, u, ⟨r, v, step, first⟩, second⟩
    · rintro ⟨a, u, ⟨r, v, step, first⟩, second⟩
      exact ⟨r, v, step, a, u, first, second⟩

theorem passes_start (p : Prog Op Res α) (w : W) : S.Passes p w w := by
  cases p with
  | ret a => exact rfl
  | call op k => exact .inl rfl

theorem Passes.bind {p : Prog Op Res α} {w v : W} (passes : S.Passes p w v) (f : α → Prog Op Res β) :
    S.Passes (p.bind f) w v := by
  induction p generalizing w with
  | ret a =>
    obtain rfl : v = w := passes
    exact passes_start (f a) v
  | call op k ih =>
    rcases passes with rfl | ⟨r, u, step, rest⟩
    · exact .inl rfl
    · exact .inr ⟨r, u, step, ih r rest⟩

theorem Runs.passes_bind {p : Prog Op Res α} {f : α → Prog Op Res β} {w v u : W} {a : α} (run : S.Runs p w a v)
    (passes : S.Passes (f a) v u) : S.Passes (p.bind f) w u := by
  induction p generalizing w with
  | ret b =>
    obtain ⟨rfl, rfl⟩ := run
    exact passes
  | call op k ih =>
    obtain ⟨r, w', step, rest⟩ := run
    exact .inr ⟨r, w', step, ih r rest⟩

/-! ## Complete runs alone -/

variable (S) in
/-- Every complete run of the program from `w` ends in `Q`. -/
def Ends (p : Prog Op Res α) (Q : α → W → Prop) (w : W) : Prop :=
  ∀ a w', S.Runs p w a w' → Q a w'

theorem ends_ret {a : α} {Q : α → W → Prop} {w : W} (h : Q a w) : S.Ends (.ret a) Q w := by
  rintro b w' ⟨rfl, rfl⟩
  exact h

theorem ends_call {op : Op} {k : Res op → Prog Op Res α} {Q : α → W → Prop} {w : W}
    (next : ∀ r w', S.step w op r w' → S.Ends (k r) Q w') : S.Ends (.call op k) Q w := by
  rintro a w' ⟨r, v, step, rest⟩
  exact next r v step a w' rest

theorem ends_bind {p : Prog Op Res α} {f : α → Prog Op Res β} {Q : β → W → Prop} {w : W}
    (h : S.Ends p (fun a v => S.Ends (f a) Q v) w) : S.Ends (p.bind f) Q w := by
  intro b w' run
  obtain ⟨a, v, first, second⟩ := runs_bind.mp run
  exact h a v first b w' second

/-- A safe program ends as promised. -/
theorem Safe.ends {p : Prog Op Res α} {Q : α → W → Prop} {w : W} (h : S.Safe I G p Q w) : S.Ends p Q w := by
  induction p generalizing w with
  | ret a => exact ends_ret h.2
  | call op k ih => exact ends_call fun r w' step => ih r (h.2.2.2 r w' step)

/-- A program with nothing to keep on its way is safe up to its end. -/
theorem Ends.safe {p : Prog Op Res α} {Q : α → W → Prop} {w : W} (h : S.Ends p Q w) :
    S.Safe (fun _ => True) (fun _ _ => True) p Q w := by
  induction p generalizing w with
  | ret a => exact ⟨trivial, h a w ⟨rfl, rfl⟩⟩
  | call op k ih =>
    exact safe_call trivial trivial (fun _ _ => trivial) fun r v step => ih r fun a w' rest => h a w' ⟨r, v, step, rest⟩

theorem Ends.mono {p : Prog Op Res α} {Q Q' : α → W → Prop} {w : W} (h : S.Ends p Q w)
    (implies : ∀ a v, Q a v → Q' a v) : S.Ends p Q' w :=
  fun a w' run => implies a w' (h a w' run)

theorem Ends.and {p : Prog Op Res α} {Q Q' : α → W → Prop} {w : W} (h : S.Ends p Q w) (h' : S.Ends p Q' w) :
    S.Ends p (fun a v => Q a v ∧ Q' a v) w :=
  fun a w' run => ⟨h a w' run, h' a w' run⟩

/-- A program whose operations all relate the worlds before and after them by a
reflexive and transitive relation relates its own ends by it. -/
theorem ends_of_only {P : Op → Prop} {R : W → W → Prop} (refl : ∀ w, R w w) (trans : ∀ u v w, R u v → R v w → R u w)
    (relates : ∀ v op r v', P op → S.step v op r v' → R v v') {p : Prog Op Res α} (only : p.Only P) (w : W) :
    S.Ends p (fun _ w' => R w w') w := by
  induction p generalizing w with
  | ret a => exact ends_ret (refl w)
  | call op k ih =>
    exact ends_call fun r v step => (ih r (only.2 r) v).mono fun _ _ later => trans _ _ _ (relates w op r v only.1 step) later

/-! ## A program in a loop -/

variable (S) in
/-- That many rounds of a program, each from where the round before ended. -/
inductive Rounds (p : Prog Op Res α) : Nat → W → W → Prop where
  | none {w : W} : Rounds p 0 w w
  | more {n : Nat} {w v u : W} {a : α} : Rounds p n w v → S.Runs p v a u → Rounds p (n + 1) w u

/-- What holds at first, and of one round more whenever it held before, holds of any number of rounds. -/
theorem Rounds.invariant {p : Prog Op Res α} {J : Nat → W → Prop} {n : Nat} {w v : W} (rounds : S.Rounds p n w v)
    (start : J 0 w) (round : ∀ n v, J n v → S.Ends p (fun _ u => J (n + 1) u) v) : J n v := by
  induction rounds with
  | none => exact start
  | more _ last ih => exact round _ _ (ih start) _ _ last

/-! ## Recording the operations of a run -/

/-- One operation and its result. -/
abbrev Done (Op : Type) (Res : Op → Type) := (op : Op) × Res op

/-- The same semantics over worlds that also record the operations performed. -/
def traced (S : Sem Op Res W) : Sem Op Res (W × List (Done Op Res)) where
  step w op r w' := S.step w.1 op r w'.1 ∧ w'.2 = w.2 ++ [⟨op, r⟩]
  torn w op w' := S.torn w.1 op w'.1 ∧ w'.2 = w.2

theorem runs_traced_append {p : Prog Op Res α} {w w' : W} {tr tr' : List (Done Op Res)} {a : α} :
    S.traced.Runs p (w, tr) a (w', tr') ↔ ∃ post, tr' = tr ++ post ∧ S.traced.Runs p (w, []) a (w', post) := by
  induction p generalizing w tr tr' with
  | ret b => simp [Runs, and_comm, and_left_comm]
  | call op k ih =>
    constructor
    · rintro ⟨r, ⟨v, _⟩, ⟨step, rfl⟩, rest⟩
      obtain ⟨post, rfl, later⟩ := (ih r).mp rest
      exact ⟨⟨op, r⟩ :: post, by simp, r, (v, [⟨op, r⟩]), ⟨step, rfl⟩, (ih r).mpr ⟨post, rfl, later⟩⟩
    · rintro ⟨_, rfl, r, ⟨v, _⟩, ⟨step, rfl⟩, rest⟩
      obtain ⟨post, rfl, later⟩ := (ih r).mp rest
      exact ⟨r, (v, tr ++ [⟨op, r⟩]), ⟨step, rfl⟩, (ih r).mpr ⟨post, by simp, later⟩⟩

/-- Every run can be recorded. -/
theorem exists_traced {p : Prog Op Res α} {w w' : W} {a : α} (run : S.Runs p w a w') (tr : List (Done Op Res)) :
    ∃ tr', S.traced.Runs p (w, tr) a (w', tr') := by
  induction p generalizing w tr with
  | ret b =>
    obtain ⟨rfl, rfl⟩ := run
    exact ⟨tr, rfl, rfl⟩
  | call op k ih =>
    obtain ⟨r, v, step, rest⟩ := run
    obtain ⟨tr', later⟩ := ih r rest (tr ++ [⟨op, r⟩])
    exact ⟨tr', r, (v, tr ++ [⟨op, r⟩]), ⟨step, rfl⟩, later⟩

/-- Recorded runs in sequence. -/
theorem runs_traced_bind {p : Prog Op Res α} {f : α → Prog Op Res β} {w v u : W} {pre post : List (Done Op Res)} {a : α}
    {b : β} (first : S.traced.Runs p (w, []) a (v, pre)) (second : S.traced.Runs (f a) (v, []) b (u, post)) :
    S.traced.Runs (p.bind f) (w, []) b (u, pre ++ post) :=
  runs_bind.mpr ⟨a, (v, pre), first, runs_traced_append.mpr ⟨post, rfl, second⟩⟩

/-- One operation before a recorded run. -/
theorem runs_traced_call {op : Op} {k : Res op → Prog Op Res α} {w v u : W} {r : Res op} {post : List (Done Op Res)}
    {a : α} (step : S.step w op r v) (rest : S.traced.Runs (k r) (v, []) a (u, post)) :
    S.traced.Runs (.call op k) (w, []) a (u, ⟨op, r⟩ :: post) :=
  ⟨r, (v, [⟨op, r⟩]), ⟨step, rfl⟩, runs_traced_append.mpr ⟨post, rfl, rest⟩⟩

/-- **Progress**: a safe program whose operations can all be answered, each by an event
of `E` and so that the next can be answered too, has a run of such events. -/
theorem Safe.exists_run {J : W → Prop} {E : Done Op Res → Prop}
    (answers : ∀ w op, G w op → J w → ∃ r w', S.step w op r w' ∧ J w' ∧ E ⟨op, r⟩) {p : Prog Op Res α}
    {Q : α → W → Prop} {w : W} (h : S.Safe I G p Q w) (here : J w) :
    ∃ a w' tr, S.traced.Runs p (w, []) a (w', tr) ∧ J w' ∧ ∀ e ∈ tr, E e := by
  induction p generalizing w with
  | ret a => exact ⟨a, w, [], ⟨rfl, rfl⟩, here, by simp⟩
  | call op k ih =>
    obtain ⟨r, v, step, there, event⟩ := answers w op h.2.1 here
    obtain ⟨a, w', tr, rest, last, events⟩ := ih r (h.2.2.2 r v step) there
    exact ⟨a, w', ⟨op, r⟩ :: tr, runs_traced_call step rest, last, List.forall_mem_cons.mpr ⟨event, events⟩⟩

theorem ends_traced_call {op : Op} {k : Res op → Prog Op Res α} {Q : α → W × List (Done Op Res) → Prop} {w : W}
    (next : ∀ r w', S.step w op r w' → S.traced.Ends (k r) (fun a v => Q a (v.1, ⟨op, r⟩ :: v.2)) (w', [])) :
    S.traced.Ends (.call op k) Q (w, []) := by
  rintro a ⟨w', _⟩ ⟨r, ⟨v, _⟩, ⟨step, rfl⟩, rest⟩
  obtain ⟨post, rfl, later⟩ := runs_traced_append.mp rest
  exact next r v step a (w', post) later

theorem ends_traced_bind {p : Prog Op Res α} {f : α → Prog Op Res β} {Q : β → W × List (Done Op Res) → Prop} {w : W}
    (h : S.traced.Ends p (fun a v => S.traced.Ends (f a) (fun b u => Q b (u.1, v.2 ++ u.2)) (v.1, [])) (w, [])) :
    S.traced.Ends (p.bind f) Q (w, []) := by
  rintro b ⟨w', _⟩ run
  obtain ⟨a, ⟨v, tr⟩, first, second⟩ := runs_bind.mp run
  obtain ⟨post, rfl, later⟩ := runs_traced_append.mp second
  exact h a (v, tr) first b (w', post) later

/-- Recording changes nothing about the worlds. -/
theorem Ends.traced {p : Prog Op Res α} {Q : α → W → Prop} {w : W} (h : S.Ends p Q w) (tr : List (Done Op Res)) :
    S.traced.Ends p (fun a v => Q a v.1) (w, tr) := by
  induction p generalizing w tr with
  | ret a => exact ends_ret (h a w ⟨rfl, rfl⟩)
  | call op k ih =>
    rintro a v ⟨r, u, step, rest⟩
    exact ih r (fun b w' run => h b w' ⟨r, u.1, step.1, run⟩) u.2 a v rest

/-- What every operation of the program satisfies, every recorded one does. -/
theorem ends_traced_only {P : Op → Prop} {p : Prog Op Res α} (only : p.Only P) (w : W) :
    S.traced.Ends p (fun _ v => ∀ e ∈ v.2, P e.1) (w, []) := by
  induction p generalizing w with
  | ret a => exact ends_ret nofun
  | call op k ih =>
    refine ends_traced_call fun r w' _ => (ih r (only.2 r) w').mono fun _ v rest => ?_
    rintro e (_ | ⟨_, member⟩)
    · exact only.1
    · exact rest e member

/-! ## Runs that an environment computes -/

section

variable {env : W → (op : Op) → Option (Res op × W)}

/-- An environment that answers by the semantics computes a run. -/
theorem runs_exec (answers : ∀ w op r v, env w op = some (r, v) → S.step w op r v) {p : Prog Op Res α} {w w' : W}
    {a : α} (run : p.exec env w = some (a, w')) : S.Runs p w a w' := by
  induction p generalizing w with
  | ret b =>
    obtain ⟨rfl, rfl⟩ : b = a ∧ w = w' := by simpa [Prog.exec] using run
    exact ⟨rfl, rfl⟩
  | call op k ih =>
    rw [Prog.exec] at run
    split at run
    · cases run
    · rename_i r v answered
      exact ⟨r, v, answers w op r v answered, ih r run⟩

end

section

variable {env : W → (op : Op) → Option (Res op × W)}

/-- The same environment over worlds that record the operations it answers. -/
def recorded (env : W → (op : Op) → Option (Res op × W)) (w : W × List (Done Op Res)) (op : Op) :
    Option (Res op × (W × List (Done Op Res))) :=
  (env w.1 op).map fun answer => (answer.1, (answer.2, w.2 ++ [⟨op, answer.1⟩]))

theorem recorded_step (answers : ∀ w op r v, env w op = some (r, v) → S.step w op r v) {w v : W × List (Done Op Res)}
    {op : Op} {r : Res op} (answered : recorded env w op = some (r, v)) : S.traced.step w op r v := by
  obtain ⟨⟨r', v'⟩, here, same⟩ := Option.map_eq_some_iff.mp answered
  cases same
  exact ⟨answers _ _ _ _ here, rfl⟩

end

/-! ## Interleaved runs -/

/-- A world shared by a list of programs, each at some point of its run. -/
abbrev Pool (Op : Type) (Res : Op → Type) (W α : Type) := W × List (Prog Op Res α)

variable (S)

/-- Program `i` of the pool performs its next operation. -/
inductive PoolStep : Pool Op Res W α → Nat → Op → Pool Op Res W α → Prop where
  | step {w w' : W} {ps : List (Prog Op Res α)} {i : Nat} {op : Op} {k : Res op → Prog Op Res α} {r : Res op} :
      ps[i]? = some (.call op k) → S.step w op r w' → PoolStep (w, ps) i op (w', ps.set i (k r))

/-- The pools reached from a start by steps that all satisfy `ok`. -/
inductive PoolRun (ok : Pool Op Res W α → Nat → Op → Prop) (start : Pool Op Res W α) : Pool Op Res W α → Prop where
  | start : PoolRun ok start start
  | step {x y : Pool Op Res W α} {i : Nat} {op : Op} :
      PoolRun ok start x → ok x i op → S.PoolStep x i op y → PoolRun ok start y

variable {S}

/-- Let program `i` perform its next operation, if `allow` admits it and `env` answers it. -/
def advance (env : W → (op : Op) → Option (Res op × W)) (allow : Op → Bool) (x : Pool Op Res W α) (i : Nat) :
    Option (Pool Op Res W α) :=
  match x.2[i]? with
  | some (.call op k) =>
    if allow op then (env x.1 op).map fun answer => (answer.2, x.2.set i (k answer.1)) else none
  | _ => none

/-- A schedule that an environment answers by the semantics reaches a pool. -/
theorem poolRun_schedule {env : W → (op : Op) → Option (Res op × W)} {allow : Op → Bool}
    (answers : ∀ w op r v, env w op = some (r, v) → S.step w op r v) {schedule : List Nat} {start x y : Pool Op Res W α}
    (before : S.PoolRun (fun _ _ op => allow op = true) start x)
    (run : schedule.foldlM (advance env allow) x = some y) : S.PoolRun (fun _ _ op => allow op = true) start y := by
  induction schedule generalizing x with
  | nil =>
    cases run
    exact before
  | cons i schedule ih =>
    rw [List.foldlM_cons] at run
    obtain ⟨z, moved, rest⟩ := Option.bind_eq_some_iff.mp run
    refine ih ?_ rest
    rw [advance] at moved
    split at moved
    · rename_i op k here
      split at moved
      · rename_i admitted
        obtain ⟨⟨r, w'⟩, answered, rfl⟩ := Option.map_eq_some_iff.mp moved
        exact .step before admitted (.step here (answers _ _ _ _ answered))
      · cases moved
    · cases moved

theorem PoolRun.mono {ok ok' : Pool Op Res W α → Nat → Op → Prop} {start x : Pool Op Res W α}
    (run : S.PoolRun ok start x) (implies : ∀ y i op, ok y i op → ok' y i op) : S.PoolRun ok' start x := by
  induction run with
  | start => exact .start
  | step _ allowed taken ih => exact .step ih (implies _ _ _ allowed) taken

/-- **Thread-modular invariant**: what each program keeps by its own steps and
tolerates from the others' holds of every program of every reachable pool. -/
theorem PoolRun.forall_programs {ok : Pool Op Res W α → Nat → Op → Prop} {start x : Pool Op Res W α}
    (J : W → Prog Op Res α → Prop) (run : S.PoolRun ok start x) (init : ∀ p ∈ start.2, J start.1 p)
    (own : ∀ y i op k r w', S.PoolRun ok start y → ok y i op → y.2[i]? = some (.call op k) →
      S.step y.1 op r w' → J y.1 (.call op k) → J w' (k r))
    (other : ∀ y i op k r w' j q, S.PoolRun ok start y → ok y i op → y.2[i]? = some (.call op k) →
      S.step y.1 op r w' → j ≠ i → y.2[j]? = some q → J y.1 q → J w' q) :
    ∀ p ∈ x.2, J x.1 p := by
  induction run with
  | start => exact init
  | @step y z i op before allowed taken ih =>
    cases taken with
    | @step w w' ps _ _ k r here stepped =>
      intro p member
      obtain ⟨j, bound, rfl⟩ := List.mem_iff_getElem.mp member
      simp only [List.length_set] at bound
      rw [List.getElem_set]
      split
      · exact own _ i op k r w' before allowed here stepped (ih _ (List.mem_of_getElem? here))
      · rename_i differ
        exact other _ i op k r w' j _ before allowed here stepped (Ne.symm differ)
          (List.getElem?_eq_getElem bound) (ih _ (List.getElem_mem bound))

end Sem

end EspAdblocker.Lib
