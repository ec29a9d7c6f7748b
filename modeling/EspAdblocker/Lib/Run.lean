import Mathlib.Data.List.Basic

/-!
# Runs of a handler

A handler takes a state and an input to a next state and a list of actions, or
fails. Its runs are recorded turn by turn, so that what a run has done is a
function of its record; a rule proves an invariant between record and state.
-/

namespace EspAdblocker.Lib

/-- A handler of inputs. -/
abbrev Handler (σ ι ε α : Type) := σ → ι → Except ε (σ × List α)

/-- An input and the actions it led to. -/
abbrev Turn (ι α : Type) := ι × List α

namespace Handler

variable {σ ι ε α : Type}

/-- The runs from `start` whose turns all satisfy `ok`, with their records, oldest turn first. -/
inductive Run (next : Handler σ ι ε α) (ok : List (Turn ι α) → σ → ι → Prop) (start : σ) : List (Turn ι α) → σ → Prop where
  | start : Run next ok start [] start
  | turn {past : List (Turn ι α)} {s s' : σ} {input : ι} {acts : List α} :
      Run next ok start past s → ok past s input → next s input = .ok (s', acts) →
      Run next ok start (past ++ [(input, acts)]) s'

variable {next : Handler σ ι ε α} {ok : List (Turn ι α) → σ → ι → Prop} {start s : σ} {past : List (Turn ι α)}

/-- What holds at the start and is kept by every turn holds after every run. -/
theorem Run.invariant (J : List (Turn ι α) → σ → Prop) (run : Run next ok start past s) (init : J [] start)
    (keeps : ∀ past s input s' acts, Run next ok start past s → J past s → ok past s input →
      next s input = .ok (s', acts) → J (past ++ [(input, acts)]) s') : J past s := by
  induction run with
  | start => exact init
  | turn before allowed taken ih => exact keeps _ _ _ _ _ before ih allowed taken

/-- Fewer demands on the turns leave more runs. -/
theorem Run.mono {ok' : List (Turn ι α) → σ → ι → Prop} (run : Run next ok start past s)
    (weaker : ∀ past s input, ok past s input → ok' past s input) : Run next ok' start past s := by
  induction run with
  | start => exact .start
  | turn before allowed taken ih => exact .turn ih (weaker _ _ _ allowed) taken

/-- A run goes on from where another ended. -/
theorem Run.trans {s' : σ} {past' : List (Turn ι α)} (run : Run next (fun _ _ _ => True) start past s)
    (later : Run next (fun _ _ _ => True) s past' s') : Run next (fun _ _ _ => True) start (past ++ past') s' := by
  induction later with
  | start => rwa [List.append_nil]
  | turn _ allowed taken ih =>
    rw [← List.append_assoc]
    exact .turn ih allowed taken

/-- The last turn of a run, and the run before it. -/
theorem Run.of_append {t : Turn ι α} {s' : σ} (run : Run next ok start (past ++ [t]) s') :
    ∃ s, Run next ok start past s ∧ ok past s t.1 ∧ next s t.1 = .ok (s', t.2) := by
  generalize whole : past ++ [t] = record at run
  cases run with
  | start => exact absurd whole (List.append_ne_nil_of_right_ne_nil _ (List.cons_ne_nil _ _))
  | turn before allowed taken =>
    obtain ⟨rfl, last⟩ := List.append_inj' whole rfl
    obtain rfl := List.singleton_inj.mp last
    exact ⟨_, before, allowed, taken⟩

/-- Every turn of the record was taken in some state. -/
theorem Run.taken_of_mem {t : Turn ι α} (run : Run next ok start past s) (member : t ∈ past) :
    ∃ before after, next before t.1 = .ok (after, t.2) := by
  induction run with
  | start => cases member
  | turn _ _ taken ih =>
    rcases List.mem_append.mp member with earlier | last
    · exact ih earlier
    · obtain rfl := List.mem_singleton.mp last
      exact ⟨_, _, taken⟩

/-- A record leads to one state, whatever is demanded of its turns. -/
theorem Run.unique {ok' : List (Turn ι α) → σ → ι → Prop} {s' : σ} (run : Run next ok start past s)
    (run' : Run next ok' start past s') : s = s' := by
  induction run generalizing s' with
  | start =>
    generalize whole : [] = record at run'
    cases run' with
    | start => rfl
    | turn => exact absurd whole.symm (List.append_ne_nil_of_right_ne_nil _ (List.cons_ne_nil _ _))
  | turn before allowed taken ih =>
    obtain ⟨_, before', -, taken'⟩ := run'.of_append
    obtain rfl := ih before'
    exact congrArg Prod.fst (Except.ok.inj (taken.symm.trans taken'))

/-- Every turn of the record, with the record before it, is as `Q` says. -/
def EachTurn (Q : List (Turn ι α) → Turn ι α → Prop) (past : List (Turn ι α)) : Prop :=
  ∀ before t after, past = before ++ t :: after → Q before t

theorem eachTurn_append {Q : List (Turn ι α) → Turn ι α → Prop} {t : Turn ι α} :
    EachTurn Q (past ++ [t]) ↔ EachTurn Q past ∧ Q past t := by
  constructor
  · intro each
    refine ⟨fun before u after whole => ?_, each past t [] rfl⟩
    apply each before u (after ++ [t])
    rw [whole, List.append_assoc, List.cons_append]
  · rintro ⟨each, last⟩ before u after whole
    rcases List.eq_nil_or_concat after with rfl | ⟨rest, v, rfl⟩
    · obtain ⟨rfl, same⟩ := List.append_inj' whole rfl
      obtain rfl := List.singleton_inj.mp same
      exact last
    · rw [List.concat_eq_append, ← List.cons_append, ← List.append_assoc] at whole
      exact each before u rest (List.append_inj' whole rfl).1

/-- What holds of one turn exactly when the turn meets a condition holds of all
turns of a run exactly when the run is one whose turns all meet it. -/
theorem Run.each_turn_iff {ok' : List (Turn ι α) → σ → ι → Prop} (Q : List (Turn ι α) → Turn ι α → Prop)
    (run : Run next ok start past s)
    (exactly : ∀ past s input s' acts, Run next ok start past s → next s input = .ok (s', acts) →
      (Q past (input, acts) ↔ ok' past s input)) :
    EachTurn Q past ↔ Run next ok' start past s := by
  induction run with
  | start =>
    apply iff_of_true
    · intro before t after whole
      exact absurd whole.symm (List.append_ne_nil_of_right_ne_nil _ (List.cons_ne_nil _ _))
    · exact .start
  | turn before allowed taken ih =>
    rw [eachTurn_append, ih, exactly _ _ _ _ _ before taken]
    constructor
    · rintro ⟨meets, last⟩
      exact .turn meets last taken
    · intro longer
      obtain ⟨_, shorter, last, -⟩ := longer.of_append
      obtain rfl := before.unique shorter
      exact ⟨shorter, last⟩

/-- A run that a handler computes from a list of inputs. -/
def exec (next : Handler σ ι ε α) : σ → List ι → Except ε (σ × List (Turn ι α))
  | s, [] => .ok (s, [])
  | s, input :: inputs =>
    match next s input with
    | .error e => .error e
    | .ok (s', acts) =>
      match exec next s' inputs with
      | .error e => .error e
      | .ok (t, rest) => .ok (t, (input, acts) :: rest)

/-- A computed run is a run whose turns are allowed, when its inputs are allowed anywhere. -/
theorem run_exec {t : σ} {inputs : List ι} {rest : List (Turn ι α)} (before : Run next ok start past s)
    (allowed : ∀ input ∈ inputs, ∀ past s, ok past s input) (computed : exec next s inputs = .ok (t, rest)) :
    Run next ok start (past ++ rest) t := by
  induction inputs generalizing past s rest with
  | nil =>
    cases computed
    rwa [List.append_nil]
  | cons input inputs ih =>
    rw [exec] at computed
    split at computed
    · cases computed
    · rename_i s' acts taken
      split at computed
      · cases computed
      · rename_i t' rest' later
        cases computed
        have longer := ih (.turn before (allowed input (List.mem_cons_self ..) past s) taken)
          (fun i member => allowed i (List.mem_cons_of_mem _ member)) later
        rwa [List.append_assoc] at longer

end Handler

/-- What is known of a computed result, of the result itself. -/
theorem exists_of_map_eq_ok {ε α β : Type} {computed : Except ε α} {f : α → β} {b : β} (known : computed.map f = .ok b) :
    ∃ a, computed = .ok a ∧ f a = b := by
  cases computed with
  | error e => cases known
  | ok a => exact ⟨a, rfl, Except.ok.inj known⟩

end EspAdblocker.Lib
