import EspAdblocker.Lib.Prog
import Mathlib.Logic.Function.Basic
import Mathlib.Logic.Relation

/-!
# Tasks that share a world

Owners start their programs in tasks, at any time and in any number, and the
tasks take turns operation by operation (`Tasks.Run`). What an owner relies on
between two operations of its program is a relation on worlds that everything
else keeps to. It may mention auxiliary state, which records who did what and
which no program reads. A program that keeps an invariant whatever the others do
within that relation (`Keeps`), and that the others can rely on, keeps it in
every run that starts it at most once at a time (`Run.orderly`). Where all owners
keep one invariant, it holds for life, restarts included (`Lives.invariant`).
-/

namespace EspAdblocker.Lib

open Function

/-- A world and the tasks at work in it, each at some point of the program of its owner. -/
structure Tasks (ι Op : Type) (Res : Op → Type) (W α : Type) where
  world : W
  running : Nat → Option (ι × Prog Op Res α)

namespace Tasks

variable {ι Op : Type} {Res : Op → Type} {W Γ α β : Type}

/-- No task is in the program of the owner. -/
def AtRest (x : Tasks ι Op Res W α) (i : ι) : Prop := ∀ t p, x.running t ≠ some (i, p)

/-- No task is in any program. -/
def Quiet (x : Tasks ι Op Res W α) : Prop := ∀ t, x.running t = none

section

variable (S : Sem Op Res W) (launch : ι → Prog Op Res α) (other : W → W → Prop) (ok : Tasks ι Op Res W α → ι → Prop)

/-- A free task starts a program with its first operation, a task performs its
next operation or comes to its end, or something else happens to the world. -/
inductive Step : Tasks ι Op Res W α → Tasks ι Op Res W α → Prop where
  | start {x : Tasks ι Op Res W α} {t : Nat} {i : ι} {op : Op} {k : Res op → Prog Op Res α} {r : Res op} {w : W} :
      x.running t = none → ok x i → launch i = .call op k → S.step x.world op r w →
      Step x ⟨w, update x.running t (some (i, k r))⟩
  | operation {x : Tasks ι Op Res W α} {t : Nat} {i : ι} {op : Op} {k : Res op → Prog Op Res α} {r : Res op} {w : W} :
      x.running t = some (i, .call op k) → S.step x.world op r w → Step x ⟨w, update x.running t (some (i, k r))⟩
  | finish {x : Tasks ι Op Res W α} {t : Nat} {i : ι} {a : α} :
      x.running t = some (i, .ret a) → Step x ⟨x.world, update x.running t none⟩
  | other {x : Tasks ι Op Res W α} {w : W} : other x.world w → Step x ⟨w, x.running⟩

/-- The systems reached. -/
abbrev Run : Tasks ι Op Res W α → Tasks ι Op Res W α → Prop := Relation.ReflTransGen (Step S launch other ok)

end

variable {S : Sem Op Res W} {launch : ι → Prog Op Res α} {other : W → W → Prop} {ok : Tasks ι Op Res W α → ι → Prop}

/-- A program started in a free task, the other tasks waiting, passes through its worlds. -/
theorem Run.passing {x : Tasks ι Op Res W α} {t : Nat} {i : ι} {v : W} (free : x.running t = none) (allowed : ok x i)
    (passes : S.Passes (launch i) x.world v) : ∃ y, Run S launch other ok x y ∧ y.world = v := by
  have later (p : Prog Op Res α) (w : W) (passes : S.Passes p w v) :
      ∃ y, Run S launch other ok ⟨w, update x.running t (some (i, p))⟩ y ∧ y.world = v := by
    induction p generalizing w with
    | ret a => exact ⟨_, .refl, passes.symm⟩
    | call op k ih =>
      rcases passes with rfl | ⟨r, u, step, rest⟩
      · exact ⟨_, .refl, rfl⟩
      · obtain ⟨y, run, there⟩ := ih r u rest
        refine ⟨y, .head (.operation (update_self ..) step) ?_, there⟩
        rwa [update_idem]
  cases first : launch i with
  | ret a =>
    rw [first] at passes
    exact ⟨x, .refl, passes.symm⟩
  | call op k =>
    rw [first] at passes
    rcases passes with rfl | ⟨r, u, step, rest⟩
    · exact ⟨x, .refl, rfl⟩
    · obtain ⟨y, run, there⟩ := later (k r) u rest
      exact ⟨y, .head (.start free allowed first step) run, there⟩

/-- A task comes to the end of its program, the other tasks waiting. -/
theorem Run.completes {x : Tasks ι Op Res W α} {t : Nat} {i : ι} {p : Prog Op Res α} {a : α} {v : W}
    (here : x.running t = some (i, p)) (runs : S.Runs p x.world a v) :
    Run S launch other ok x ⟨v, update x.running t none⟩ := by
  induction p generalizing x with
  | ret b =>
    obtain ⟨rfl, rfl⟩ := runs
    exact .single (.finish here)
  | call op k ih =>
    obtain ⟨r, u, step, rest⟩ := runs
    have later := ih r (x := ⟨u, update x.running t (some (i, k r))⟩) (update_self ..) rest
    rw [update_idem] at later
    exact .head (.operation here step) later

/-- A program started in a free task, the other tasks waiting, comes to its end. -/
theorem Run.alone {x : Tasks ι Op Res W α} {t : Nat} {i : ι} {a : α} {v : W} (free : x.running t = none)
    (allowed : ok x i) (runs : S.Runs (launch i) x.world a v) : Run S launch other ok x ⟨v, x.running⟩ := by
  cases first : launch i with
  | ret b =>
    rw [first] at runs
    obtain ⟨rfl, rfl⟩ := runs
    exact .refl
  | call op k =>
    rw [first] at runs
    obtain ⟨r, u, step, rest⟩ := runs
    have back : update (update x.running t (some (i, k r))) t none = x.running := by
      rw [update_idem, update_eq_self_iff.mpr free.symm]
    have later : Run S launch other ok ⟨u, update x.running t (some (i, k r))⟩
        ⟨v, update (update x.running t (some (i, k r))) t none⟩ := .completes (update_self ..) rest
    rw [back] at later
    exact .head (.start free allowed first step) later

/-- Fewer demands on the starts leave more runs. -/
theorem Run.mono {ok' : Tasks ι Op Res W α → ι → Prop} {x y : Tasks ι Op Res W α} (run : Run S launch other ok x y)
    (weaker : ∀ x i, ok x i → ok' x i) : Run S launch other ok' x y := by
  refine Relation.ReflTransGen.mono ?_ x y run
  intro x y step
  cases step with
  | start free allowed first taken => exact .start free (weaker _ _ allowed) first taken
  | operation here taken => exact .operation here taken
  | finish here => exact .finish here
  | other moved => exact .other moved

/-- A task performs the operations of its program that an environment answers. -/
theorem Run.after {env : W → (op : Op) → Option (Res op × W)} (answers : ∀ w op r v, env w op = some (r, v) → S.step w op r v)
    {x : Tasks ι Op Res W α} {t : Nat} {i : ι} {n : Nat} {p q : Prog Op Res α} {v : W} (here : x.running t = some (i, p))
    (done : p.after env n x.world = some (q, v)) : Run S launch other ok x ⟨v, update x.running t (some (i, q))⟩ := by
  induction n generalizing x p with
  | zero =>
    obtain ⟨rfl, rfl⟩ : p = q ∧ x.world = v := by simpa [Prog.after] using done
    have same : update x.running t (some (i, p)) = x.running := by
      rw [← here, update_eq_self]
    rw [same]
  | succ n ih =>
    cases p with
    | ret a => cases done
    | call op k =>
      obtain ⟨r, w, answered, rest⟩ := Prog.after_call_eq_some done
      have moved : Step S launch other ok x ⟨w, update x.running t (some (i, k r))⟩ :=
        .operation here (answers _ _ _ _ answered)
      have later := ih (x := ⟨w, update x.running t (some (i, k r))⟩) (update_self ..) rest
      rw [update_idem] at later
      exact .head moved later

/-- A free task starts a program and performs the operations that an environment answers. -/
theorem Run.started {env : W → (op : Op) → Option (Res op × W)} (answers : ∀ w op r v, env w op = some (r, v) → S.step w op r v)
    {x : Tasks ι Op Res W α} {t : Nat} {i : ι} {n : Nat} {q : Prog Op Res α} {v : W} (free : x.running t = none)
    (allowed : ok x i) (done : (launch i).after env (n + 1) x.world = some (q, v)) :
    Run S launch other ok x ⟨v, update x.running t (some (i, q))⟩ := by
  cases first : launch i with
  | ret a =>
    rw [first] at done
    cases done
  | call op k =>
    rw [first] at done
    obtain ⟨r, w, answered, rest⟩ := Prog.after_call_eq_some done
    have moved : Step S launch other ok x ⟨w, update x.running t (some (i, k r))⟩ :=
      .start free allowed first (answers _ _ _ _ answered)
    have later : Run S launch other ok ⟨w, update x.running t (some (i, k r))⟩
        ⟨v, update (update x.running t (some (i, k r))) t (some (i, q))⟩ := .after answers (update_self ..) rest
    rw [update_idem] at later
    exact .head moved later

/-- Finitely many tasks are at work. -/
theorem Run.some_free {x y : Tasks ι Op Res W α} (run : Run S launch other ok x y)
    (start : ∃ n, ∀ t, n ≤ t → x.running t = none) : ∃ n, ∀ t, n ≤ t → y.running t = none := by
  induction run with
  | refl => exact start
  | @tail y z _ step ih =>
    obtain ⟨n, free⟩ := ih
    have beyond (t : Nat) (p : Option (ι × Prog Op Res α)) (t' : Nat) (past : max n (t + 1) ≤ t') :
        update y.running t p t' = none := by
      rw [update_of_ne (by omega)]
      exact free t' (by omega)
    cases step with
    | start => exact ⟨_, beyond _ _⟩
    | operation => exact ⟨_, beyond _ _⟩
    | finish => exact ⟨_, beyond _ _⟩
    | other => exact ⟨n, free⟩

/-! ## Programs among others -/

section

variable (S) (tag : ι → Γ → (op : Op) → Res op → Γ) (rely : ι → W × Γ → W × Γ → Prop) (I : W → Prop)

/-- Whatever the others do within what owner `i` relies on, the program keeps `I`,
does nothing the other owners do not tolerate, and ends in `Q`. -/
def Keeps (i : ι) : Prog Op Res α → (α → W × Γ → Prop) → W × Γ → Prop
  | .ret a, Q, w => ∀ w', rely i w w' → I w'.1 ∧ Q a w'
  | .call op k, Q, w => ∀ w', rely i w w' → I w'.1 ∧ ∀ r v, S.step w'.1 op r v →
      (∀ j, j ≠ i → rely j w' (v, tag i w'.2 op r)) ∧ Keeps i (k r) Q (v, tag i w'.2 op r)

/-- The same of a program whose first operation is performed in `w` itself. -/
def Begins (i : ι) (p : Prog Op Res α) (Q : α → W × Γ → Prop) (w : W × Γ) : Prop :=
  ∀ op k r v, p = .call op k → S.step w.1 op r v →
    (∀ j, j ≠ i → rely j w (v, tag i w.2 op r)) ∧ Keeps S tag rely I i (k r) Q (v, tag i w.2 op r)

end

section

variable {tag : ι → Γ → (op : Op) → Res op → Γ} {rely : ι → W × Γ → W × Γ → Prop} {I : W → Prop} {i : ι} {w v : W × Γ}

theorem Keeps.tolerates (trans : ∀ u v w, rely i u v → rely i v w → rely i u w) {p : Prog Op Res α}
    {Q : α → W × Γ → Prop} (keeps : Keeps S tag rely I i p Q w) (moved : rely i w v) : Keeps S tag rely I i p Q v := by
  cases p with
  | ret a => exact fun u later => keeps u (trans _ _ _ moved later)
  | call op k => exact fun u later => keeps u (trans _ _ _ moved later)

theorem Keeps.here (refl : ∀ w, rely i w w) {p : Prog Op Res α} {Q : α → W × Γ → Prop}
    (keeps : Keeps S tag rely I i p Q w) : I w.1 := by
  cases p with
  | ret a => exact (keeps w (refl w)).1
  | call op k => exact (keeps w (refl w)).1

theorem Keeps.begins (refl : ∀ w, rely i w w) {p : Prog Op Res α} {Q : α → W × Γ → Prop}
    (keeps : Keeps S tag rely I i p Q w) : Begins S tag rely I i p Q w := by
  rintro op k r v rfl step
  exact (keeps w (refl w)).2 r v step

/-- Weakening the postcondition. -/
theorem Keeps.mono {p : Prog Op Res α} {Q Q' : α → W × Γ → Prop} (keeps : Keeps S tag rely I i p Q w)
    (implies : ∀ a v, Q a v → Q' a v) : Keeps S tag rely I i p Q' w := by
  induction p generalizing w with
  | ret a =>
    intro w' moved
    obtain ⟨here, post⟩ := keeps w' moved
    exact ⟨here, implies a w' post⟩
  | call op k ih =>
    intro w' moved
    obtain ⟨here, next⟩ := keeps w' moved
    refine ⟨here, fun r v step => ?_⟩
    obtain ⟨tolerated, rest⟩ := next r v step
    exact ⟨tolerated, ih r rest⟩

/-- Sequencing: the result of the first program feeds the second. -/
theorem keeps_bind (refl : ∀ w, rely i w w) {p : Prog Op Res α} {f : α → Prog Op Res β} {Q : β → W × Γ → Prop}
    (keeps : Keeps S tag rely I i p (fun a v => Keeps S tag rely I i (f a) Q v) w) :
    Keeps S tag rely I i (p.bind f) Q w := by
  induction p generalizing w with
  | ret a => exact (keeps w (refl w)).2
  | call op k ih =>
    intro w' moved
    obtain ⟨here, next⟩ := keeps w' moved
    refine ⟨here, fun r v step => ?_⟩
    obtain ⟨tolerated, rest⟩ := next r v step
    exact ⟨tolerated, ih r rest⟩

/-- A program that is left alone ends as it promises, and the other owners tolerate all that it did. -/
theorem Keeps.alone (refl : ∀ i w, rely i w w) (trans : ∀ i u v w, rely i u v → rely i v w → rely i u w)
    {p : Prog Op Res α} {Q : α → W × Γ → Prop} (keeps : Keeps S tag rely I i p Q w) :
    S.Ends p (fun a v => ∃ γ, Q a (v, γ) ∧ ∀ j, j ≠ i → rely j w (v, γ)) w.1 := by
  induction p generalizing w with
  | ret a => exact Sem.ends_ret ⟨w.2, (keeps w (refl i w)).2, fun j _ => refl j w⟩
  | call op k ih =>
    refine Sem.ends_call fun r v step => ?_
    obtain ⟨tolerated, rest⟩ := (keeps w (refl i w)).2 r v step
    refine (ih r rest).mono fun a u done => ?_
    obtain ⟨γ, post, others⟩ := done
    exact ⟨γ, post, fun j differ => trans j _ _ _ (tolerated j differ) (others j differ)⟩

/-- The same of a program whose first operation is performed at once. -/
theorem Begins.alone (refl : ∀ i w, rely i w w) (trans : ∀ i u v w, rely i u v → rely i v w → rely i u w)
    {p : Prog Op Res α} {Q : α → W × Γ → Prop} (begins : Begins S tag rely I i p Q w)
    (works : ∀ a, p ≠ .ret a) : S.Ends p (fun a v => ∃ γ, Q a (v, γ) ∧ ∀ j, j ≠ i → rely j w (v, γ)) w.1 := by
  cases p with
  | ret a => exact absurd rfl (works a)
  | call op k =>
    refine Sem.ends_call fun r v step => ?_
    obtain ⟨tolerated, rest⟩ := begins op k r v rfl step
    refine (rest.alone refl trans).mono fun a u done => ?_
    obtain ⟨γ, post, others⟩ := done
    exact ⟨γ, post, fun j differ => trans j _ _ _ (tolerated j differ) (others j differ)⟩

end

/-! ## Runs -/

section

variable (S launch other ok) (tag : ι → Γ → (op : Op) → Res op → Γ) (rely : ι → W × Γ → W × Γ → Prop) (I : ι → W → Prop)
  (Rest : ι → W × Γ → Prop)

/-- What the owners agree on: `rely` is kept by time passing and by what happens
elsewhere, `Rest` holds between two programs of an owner, and a program that may
start at rest keeps `I` and comes to rest. -/
structure Agreement : Prop where
  refl : ∀ i w, rely i w w
  trans : ∀ i u v w, rely i u v → rely i v w → rely i u w
  elsewhere : ∀ i w v γ, other w v → rely i (w, γ) (v, γ)
  rest_stable : ∀ i w v, Rest i w → rely i w v → Rest i v
  rest_holds : ∀ i w, Rest i w → I i w.1
  alone : ∀ x i, ok x i → x.AtRest i
  begins : ∀ x i γ, ok x i → Rest i (x.world, γ) →
    Begins S tag rely (I i) i (launch i) (fun _ w => Rest i w) (x.world, γ)

/-- Each owner has at most one program at work, which keeps its invariant, or is at rest. -/
structure Orderly (x : Tasks ι Op Res W α) (γ : Γ) : Prop where
  one : ∀ {t t' i p p'}, x.running t = some (i, p) → x.running t' = some (i, p') → t = t'
  working : ∀ {t i p}, x.running t = some (i, p) →
    Keeps S tag rely (I i) i p (fun _ w => Rest i w) (x.world, γ)
  resting : ∀ {i}, x.AtRest i → Rest i (x.world, γ)

end

section

variable {tag : ι → Γ → (op : Op) → Res op → Γ} {rely : ι → W × Γ → W × Γ → Prop} {I : ι → W → Prop}
  {Rest : ι → W × Γ → Prop} (agreed : Agreement S launch other ok tag rely I Rest)
include agreed

theorem Orderly.holds {x : Tasks ι Op Res W α} {γ : Γ} (orderly : Orderly S tag rely I Rest x γ) (i : ι) :
    I i x.world := by
  by_cases rest : x.AtRest i
  · exact agreed.rest_holds i _ (orderly.resting rest)
  · obtain ⟨t, p, here⟩ : ∃ t p, x.running t = some (i, p) := by simpa [AtRest] using rest
    exact (orderly.working here).here (agreed.refl i)

/-- A task of owner `i` moves on, by a step the other owners tolerate. -/
theorem Orderly.advance {x : Tasks ι Op Res W α} {γ γ' : Γ} {t : Nat} {i : ι} {w : W} {q : Prog Op Res α}
    (orderly : Orderly S tag rely I Rest x γ) (mine : ∀ t' p, x.running t' = some (i, p) → t' = t)
    (free : ∀ j p, x.running t = some (j, p) → j = i) (tolerated : ∀ j, j ≠ i → rely j (x.world, γ) (w, γ'))
    (rest : Keeps S tag rely (I i) i q (fun _ w => Rest i w) (w, γ')) :
    Orderly S tag rely I Rest ⟨w, update x.running t (some (i, q))⟩ γ' := by
  -- any other task is of another owner
  have others {t' : Nat} {j : ι} {p : Prog Op Res α} (elsewhere : t' ≠ t) (there : x.running t' = some (j, p)) : j ≠ i := by
    rintro rfl
    exact elsewhere (mine t' p there)
  constructor
  · intro t₁ t₂ j p₁ p₂ there₁ there₂
    by_cases here₁ : t₁ = t
    · by_cases here₂ : t₂ = t
      · rw [here₁, here₂]
      · simp only [here₁, update_self, Option.some.injEq, Prod.mk.injEq] at there₁
        simp only [update_of_ne here₂] at there₂
        exact absurd there₁.1.symm (others here₂ there₂)
    · simp only [update_of_ne here₁] at there₁
      by_cases here₂ : t₂ = t
      · simp only [here₂, update_self, Option.some.injEq, Prod.mk.injEq] at there₂
        exact absurd there₂.1.symm (others here₁ there₁)
      · simp only [update_of_ne here₂] at there₂
        exact orderly.one there₁ there₂
  · intro t' j p there
    by_cases here : t' = t
    · simp only [here, update_self, Option.some.injEq, Prod.mk.injEq] at there
      obtain ⟨rfl, rfl⟩ := there
      exact rest
    · simp only [update_of_ne here] at there
      exact (orderly.working there).tolerates (agreed.trans j) (tolerated j (others here there))
  · intro j quiet
    have differ : j ≠ i := by
      rintro rfl
      exact quiet t q (update_self ..)
    have quiet' : x.AtRest j := by
      intro t' p there
      by_cases here : t' = t
      · exact differ (free j p (here ▸ there))
      · exact quiet t' p ((update_of_ne here _ _).trans there)
    exact agreed.rest_stable j _ _ (orderly.resting quiet') (tolerated j differ)

/-- Something else happens to the world. -/
theorem Orderly.elsewhere {x : Tasks ι Op Res W α} {γ : Γ} {w : W} (orderly : Orderly S tag rely I Rest x γ)
    (moved : other x.world w) : Orderly S tag rely I Rest ⟨w, x.running⟩ γ where
  one := orderly.one
  working there := (orderly.working there).tolerates (agreed.trans _) (agreed.elsewhere _ _ _ _ moved)
  resting quiet := agreed.rest_stable _ _ _ (orderly.resting quiet) (agreed.elsewhere _ _ _ _ moved)

/-- A task comes to its end. -/
theorem Orderly.finish {x : Tasks ι Op Res W α} {γ : Γ} {t : Nat} {i : ι} {a : α}
    (orderly : Orderly S tag rely I Rest x γ) (here : x.running t = some (i, .ret a)) :
    Orderly S tag rely I Rest ⟨x.world, update x.running t none⟩ γ := by
  have before {t' : Nat} {j : ι} {p : Prog Op Res α} (there : update x.running t none t' = some (j, p)) :
      t' ≠ t ∧ x.running t' = some (j, p) := by
    by_cases same : t' = t
    · rw [same, update_self] at there
      cases there
    · rw [update_of_ne same] at there
      exact ⟨same, there⟩
  constructor
  · intro t₁ t₂ j p₁ p₂ there₁ there₂
    exact orderly.one (before there₁).2 (before there₂).2
  · intro t' j p there
    exact orderly.working (before there).2
  · intro j quiet
    by_cases same : j = i
    · rw [same]
      exact ((orderly.working here) _ (agreed.refl i _)).2
    · refine orderly.resting fun t' p there => ?_
      by_cases again : t' = t
      · rw [again, here, Option.some.injEq, Prod.mk.injEq] at there
        exact same there.1.symm
      · exact quiet t' p ((update_of_ne again _ _).trans there)

/-- **Every run is orderly**: the invariant of each owner holds in every system reached. -/
theorem Run.orderly {x y : Tasks ι Op Res W α} (run : Run S launch other ok x y) {γ : Γ}
    (start : Orderly S tag rely I Rest x γ) : ∃ γ', Orderly S tag rely I Rest y γ' := by
  induction run with
  | refl => exact ⟨γ, start⟩
  | @tail y z _ step ih =>
    obtain ⟨γ, orderly⟩ := ih
    cases step with
    | @start t i op k r w free allowed first taken =>
      have rest := agreed.alone _ _ allowed
      obtain ⟨tolerated, next⟩ := agreed.begins _ _ γ allowed (orderly.resting rest) op k r w first taken
      refine ⟨_, orderly.advance agreed (fun t' p there => absurd there (rest t' p)) ?_ tolerated next⟩
      intro j p there
      rw [free] at there
      cases there
    | @operation t i op k r w here taken =>
      obtain ⟨tolerated, next⟩ := (orderly.working here _ (agreed.refl i _)).2 r w taken
      refine ⟨_, orderly.advance agreed (fun t' p there => orderly.one there here) ?_ tolerated next⟩
      intro j p there
      rw [here, Option.some.injEq, Prod.mk.injEq] at there
      exact there.1.symm
    | finish here => exact ⟨γ, orderly.finish agreed here⟩
    | other moved => exact ⟨γ, orderly.elsewhere agreed moved⟩

end

/-! ## An invariant shared by all owners -/

section

variable (S) (Inv : W → Prop) (Stable : ι → W → W → Prop)

/-- What an owner relies on: the invariant of all, and what the others leave to it. -/
def Relies (i : ι) (w v : W × Unit) : Prop := Inv w.1 → Inv v.1 ∧ Stable i w.1 v.1

/-- Whatever the others do within what owner `i` relies on, the program keeps the invariant,
leaves to the others what they rely on, and ends in `Q`. -/
abbrev Holds (i : ι) (p : Prog Op Res α) (Q : α → W → Prop) (w : W) : Prop :=
  Keeps S (fun _ _ _ _ => ()) (Relies Inv Stable) Inv i p (fun a v => Q a v.1) (w, ())

variable (launch other ok) (Rest : ι → W → Prop)

/-- What the owners agree on: `Stable i` is kept by time passing and by what happens
elsewhere, `Rest i` holds between two programs of owner `i`, and its program comes to rest. -/
structure Shared : Prop where
  refl : ∀ i w, Stable i w w
  trans : ∀ i u v w, Stable i u v → Stable i v w → Stable i u w
  other : ∀ w v, Inv w → other w v → Inv v ∧ ∀ i, Stable i w v
  rest_inv : ∀ i w, Rest i w → Inv w
  rest_stable : ∀ i w v, Rest i w → Inv v → Stable i w v → Rest i v
  alone : ∀ x i, ok x i → x.AtRest i
  launches : ∀ i w, Rest i w → Holds S Inv Stable i (launch i) (fun _ v => Rest i v) w

end

section

variable {Inv : W → Prop} {Stable : ι → W → W → Prop} {Rest : ι → W → Prop} {i : ι} {w : W}

theorem holds_ret {a : α} {Q : α → W → Prop} (inv : Inv w) (last : ∀ v, Inv v → Stable i w v → Q a v) :
    Holds S Inv Stable i (.ret a) Q w :=
  fun v moved => ⟨(moved inv).1, last v.1 (moved inv).1 (moved inv).2⟩

/-- One operation, in any world the others may leave. -/
theorem holds_call {op : Op} {k : Res op → Prog Op Res α} {Q : α → W → Prop} (inv : Inv w)
    (next : ∀ v, Inv v → Stable i w v → ∀ r u, S.step v op r u →
      (Inv u ∧ ∀ j, j ≠ i → Stable j v u) ∧ Holds S Inv Stable i (k r) Q u) : Holds S Inv Stable i (.call op k) Q w := by
  intro v moved
  obtain ⟨here, still⟩ := moved inv
  refine ⟨here, fun r u step => ?_⟩
  obtain ⟨⟨there, others⟩, rest⟩ := next v.1 here still r u step
  exact ⟨fun j differ _ => ⟨there, others j differ⟩, rest⟩

variable (shared : Shared S launch other ok Inv Stable Rest)
include shared

theorem Shared.relies_refl (i : ι) (w : W × Unit) : Relies Inv Stable i w w := fun inv => ⟨inv, shared.refl i w.1⟩

theorem Shared.relies_trans (i : ι) (u v w : W × Unit) (first : Relies Inv Stable i u v) (second : Relies Inv Stable i v w) :
    Relies Inv Stable i u w := by
  intro inv
  obtain ⟨inv', stable⟩ := first inv
  obtain ⟨inv'', stable'⟩ := second inv'
  exact ⟨inv'', shared.trans i _ _ _ stable stable'⟩

theorem Shared.agreement : Agreement S launch other ok (fun _ _ _ _ => ()) (Relies Inv Stable) (fun _ => Inv)
    (fun i w => Rest i w.1) where
  refl := shared.relies_refl
  trans := shared.relies_trans
  elsewhere i w v _ moved inv := by
    obtain ⟨inv', stable⟩ := shared.other w v inv moved
    exact ⟨inv', stable i⟩
  rest_stable i w v rest moved := by
    obtain ⟨inv, stable⟩ := moved (shared.rest_inv i w.1 rest)
    exact shared.rest_stable i w.1 v.1 rest inv stable
  rest_holds i w rest := shared.rest_inv i w.1 rest
  alone := shared.alone
  begins x i _ _ rest := Keeps.begins (shared.relies_refl i) (shared.launches i x.world rest)

/-- Every system reached from a world in which every owner is at rest is orderly. -/
theorem Shared.run {x y : Tasks ι Op Res W α} (quiet : x.Quiet) (rest : ∀ i, Rest i x.world)
    (run : Run S launch other ok x y) :
    Orderly S (fun _ _ _ _ => ()) (Relies Inv Stable) (fun _ => Inv) (fun i w => Rest i w.1) y () := by
  have start : Orderly S (fun _ _ _ _ => ()) (Relies Inv Stable) (fun _ => Inv) (fun i w => Rest i w.1) x () := by
    constructor
    · intro t _ _ _ _ there
      rw [quiet t] at there
      cases there
    · intro t _ _ there
      rw [quiet t] at there
      cases there
    · intro i _
      exact rest i
  exact (run.orderly shared.agreement start).choose_spec

end

/-! ## Restarts -/

section

variable (S launch other ok) (restart : W → W)

/-- The systems of a machine that may be restarted at any moment: its tasks are gone, and
of the world there is what a restart leaves. -/
inductive Lives (w₀ : W) : Tasks ι Op Res W α → Prop where
  | powered {y : Tasks ι Op Res W α} : Run S launch other ok ⟨w₀, fun _ => none⟩ y → Lives w₀ y
  | restarted {x y : Tasks ι Op Res W α} : Lives w₀ x → Run S launch other ok ⟨restart x.world, fun _ => none⟩ y → Lives w₀ y

end

section

variable {restart : W → W} {w₀ : W}

/-- A life goes on. -/
theorem Lives.run {x y : Tasks ι Op Res W α} (lives : Lives S launch other ok restart w₀ x)
    (later : Run S launch other ok x y) : Lives S launch other ok restart w₀ y := by
  cases lives with
  | powered run => exact .powered (run.trans later)
  | restarted before run => exact .restarted before (run.trans later)

variable {Inv : W → Prop} {Stable : ι → W → W → Prop} {Rest : ι → W → Prop}
  (shared : Shared S launch other ok Inv Stable Rest) (start : ∀ i, Rest i w₀)
  (restarts : ∀ w, Inv w → ∀ i, Rest i (restart w))
include shared start restarts

theorem Lives.orderly {x : Tasks ι Op Res W α} [Nonempty ι] (lives : Lives S launch other ok restart w₀ x) :
    Orderly S (fun _ _ _ _ => ()) (Relies Inv Stable) (fun _ => Inv) (fun i w => Rest i w.1) x () := by
  induction lives with
  | powered run => exact shared.run (fun _ => rfl) start run
  | restarted _ run ih =>
    have inv := ih.holds shared.agreement (Classical.arbitrary ι)
    exact shared.run (fun _ => rfl) (restarts _ inv) run

/-- **The invariant holds for life** if every owner finds its rest after a restart. -/
theorem Lives.invariant {x : Tasks ι Op Res W α} [Nonempty ι] (lives : Lives S launch other ok restart w₀ x) : Inv x.world :=
  (lives.orderly shared start restarts).holds shared.agreement (Classical.arbitrary ι)

/-- An owner that is at no work is at rest. -/
theorem Lives.resting {x : Tasks ι Op Res W α} [Nonempty ι] (lives : Lives S launch other ok restart w₀ x) {i : ι}
    (rest : x.AtRest i) : Rest i x.world :=
  (lives.orderly shared start restarts).resting rest

end

/-! ## One program at a time -/

section

variable {G : W → Op → Prop} {Rest : W → Prop}

variable (S G Rest) in
/-- At most one task is at work, in a program that performs only what `G` allows
and ends in `Rest`, which holds between two programs. -/
structure Serial (x : Tasks ι Op Res W α) : Prop where
  one : ∀ {t t' : Nat}, x.running t ≠ none → x.running t' ≠ none → t = t'
  working : ∀ {t i p}, x.running t = some (i, p) → S.Safe (fun _ => True) G p (fun _ w => Rest w) x.world
  resting : x.Quiet → Rest x.world

theorem Serial.performs {x : Tasks ι Op Res W α} {t : Nat} {i : ι} {op : Op} {k : Res op → Prog Op Res α}
    (serial : Serial S G Rest x) (here : x.running t = some (i, .call op k)) : G x.world op :=
  (serial.working here).2.1

/-- The one task at work moves on. -/
theorem Serial.advance {x : Tasks ι Op Res W α} {t : Nat} {i : ι} {w : W} {q : Prog Op Res α}
    (mine : ∀ t', x.running t' ≠ none → t' = t) (rest : S.Safe (fun _ => True) G q (fun _ w => Rest w) w) :
    Serial S G Rest ⟨w, update x.running t (some (i, q))⟩ := by
  have only {t' : Nat} (busy : update x.running t (some (i, q)) t' ≠ none) : t' = t := by
    by_contra elsewhere
    rw [update_of_ne elsewhere] at busy
    exact elsewhere (mine t' busy)
  constructor
  · intro t₁ t₂ busy₁ busy₂
    rw [only busy₁, only busy₂]
  · intro t' j p there
    obtain rfl : t' = t := only (by dsimp only at there; rw [there]; exact Option.some_ne_none _)
    dsimp only at there
    rw [update_self, Option.some.injEq, Prod.mk.injEq] at there
    obtain ⟨-, rfl⟩ := there
    exact rest
  · intro quiet
    have busy := quiet t
    dsimp only at busy
    rw [update_self] at busy
    cases busy

/-- **Programs that start only when no task is at work** perform only what `G` allows. -/
theorem Run.serial {x y : Tasks ι Op Res W α} (run : Run S launch other ok x y) (alone : ∀ w v, ¬ other w v)
    (quiet : ∀ x i, ok x i → x.Quiet)
    (safe : ∀ i w, Rest w → S.Safe (fun _ => True) G (launch i) (fun _ w => Rest w) w) (start : Serial S G Rest x) :
    Serial S G Rest y := by
  induction run with
  | refl => exact start
  | @tail y z _ step ih =>
    cases step with
    | @start t i op k r w free allowed first taken =>
      have still := quiet _ _ allowed
      have begun := safe i y.world (ih.resting still)
      rw [first] at begun
      apply Serial.advance _ (begun.2.2.2 r w taken)
      intro t' busy
      exact absurd (still t') busy
    | @operation t i op k r w here taken =>
      apply Serial.advance _ ((ih.working here).2.2.2 r w taken)
      intro t' busy
      apply ih.one busy
      rw [here]
      exact Option.some_ne_none _
    | @finish t i a here =>
      have mine {t' : Nat} (elsewhere : t' ≠ t) : y.running t' = none := by
        by_contra busy
        exact elsewhere (ih.one busy (by rw [here]; exact Option.some_ne_none _))
      have still (t' : Nat) : update y.running t none t' = none := by
        by_cases same : t' = t
        · rw [same, update_self]
        · rw [update_of_ne same, mine same]
      constructor
      · intro t₁ _ busy _
        exact absurd (still t₁) busy
      · intro t' j p there
        dsimp only at there
        rw [still] at there
        cases there
      · exact fun _ => (ih.working here).2
    | other moved => exact absurd moved (alone _ _)

end

end Tasks

end EspAdblocker.Lib
