import Mathlib.Data.List.Forall2
import Mathlib.Data.List.Pairwise
import Mathlib.Tactic.Common

/-!
# Runs of labelled machines

A `Machine` is a partial step: what an event does to a state when it can happen
there, and what the step answers.  `Machine.Runs` collects the answers of a run
in the order in which they were given, under a condition on every step (the
state before it and its event), so that one relation serves the unconditional
statements (`Machine.Always`) and the conditional ones.

* `Runs.invariant` carries a statement about the answers so far and the state
  reached through a run; `Runs.state_invariant` is its form for states alone.
* `Runs.pairwise` relates any two answers of a run: the first one leaves a mark
  on the state, no step removes the mark, and no step from a marked state gives
  an answer the relation forbids.
* `Runs.simulate` follows a run of one machine with a run of another over the same
  events.
* `exec` runs a list of events and `runs_of_exec` turns a computed run into a
  derivation; `exists_run_of_exec` does so where the states have no decidable
  equality. `exec_simulate` carries the answers of one computed run over to another.
-/

namespace Transition

/-- What an event does to a state, if it can happen there, and what it answers. -/
abbrev Machine (σ ε ω : Type*) := σ → ε → Option (σ × ω)

namespace Machine

variable {σ ε ω : Type*}

/-- The condition every step meets. -/
def Always : σ → ε → Prop := fun _ _ => True

instance (s : σ) (e : ε) : Decidable (Always s e) := inferInstanceAs (Decidable True)

/-- The runs whose every step meets `ok`, with the answers given so far. -/
inductive Runs (m : Machine σ ε ω) (ok : σ → ε → Prop) (start : σ) :
    List (ε × ω) → σ → Prop
  | refl : Runs m ok start [] start
  | tail {log : List (ε × ω)} {s t : σ} {e : ε} {o : ω} :
      Runs m ok start log s → ok s e → m s e = some (t, o) →
      Runs m ok start (log ++ [(e, o)]) t

/-- The states some run of the machine comes to. -/
def Reachable (m : Machine σ ε ω) (ok : σ → ε → Prop) (start s : σ) : Prop :=
  ∃ log, Runs m ok start log s

variable {m : Machine σ ε ω} {ok ok' : σ → ε → Prop} {start s : σ} {log : List (ε × ω)}

/-- What one step preserves, a whole run preserves. -/
theorem Runs.invariant {I : List (ε × ω) → σ → Prop} (run : Runs m ok start log s)
    (init : I [] start)
    (step : ∀ log s e t o, I log s → ok s e → m s e = some (t, o) → I (log ++ [(e, o)]) t) :
    I log s := by
  induction run with
  | refl => exact init
  | tail _ cond eq ih => exact step _ _ _ _ _ ih cond eq

theorem Runs.state_invariant {I : σ → Prop} (run : Runs m ok start log s) (init : I start)
    (step : ∀ s e t o, I s → ok s e → m s e = some (t, o) → I t) : I s :=
  run.invariant (I := fun _ s => I s) init fun _ => step

theorem Runs.mono (weaken : ∀ s e, ok s e → ok' s e) (run : Runs m ok start log s) :
    Runs m ok' start log s := by
  induction run with
  | refl => exact .refl
  | tail _ cond eq ih => exact .tail ih (weaken _ _ cond) eq

theorem Runs.trans {s t : σ} {log log' : List (ε × ω)} (run : Runs m ok start log s)
    (rest : Runs m ok s log' t) : Runs m ok start (log ++ log') t := by
  induction rest with
  | refl => simpa using run
  | tail _ cond eq ih =>
      rw [← List.append_assoc]
      exact .tail ih cond eq

theorem Runs.of_nil {t : σ} (run : Runs m ok start log t) (empty : log = []) : t = start := by
  cases run with
  | refl => rfl
  | tail => simp at empty

theorem Runs.of_singleton {t : σ} {e : ε} {o : ω} (run : Runs m ok start [(e, o)] t) :
    ok start e ∧ m start e = some (t, o) := by
  generalize single : [(e, o)] = log at run
  cases run with
  | refl => cases single
  | @tail log u _ e' o' before cond eq =>
      obtain ⟨rfl, same⟩ : log = [] ∧ [(e, o)] = [(e', o')] := by
        rcases log with _ | ⟨x, log⟩ <;> simp_all
      obtain ⟨rfl, rfl⟩ := Prod.mk.inj (List.singleton_inj.mp same)
      obtain rfl := before.of_nil rfl
      exact ⟨cond, eq⟩

/-- Two answers of one run.  `F x` is the mark the answer `x` leaves: every step
sets its own mark, no step removes one, and under a mark `F x` only answers that
`R x` allows are given. -/
theorem Runs.pairwise {I : σ → Prop} {F : ε × ω → σ → Prop} {R : ε × ω → ε × ω → Prop}
    (run : Runs m ok start log s) (init : I start)
    (step : ∀ s e t o, I s → ok s e → m s e = some (t, o) → I t)
    (mark : ∀ s e t o, I s → ok s e → m s e = some (t, o) → F (e, o) t)
    (keep : ∀ x s e t o, I s → F x s → ok s e → m s e = some (t, o) → F x t)
    (use : ∀ x s e t o, I s → F x s → ok s e → m s e = some (t, o) → R x (e, o)) :
    log.Pairwise R := by
  have all : I s ∧ log.Pairwise R ∧ ∀ x ∈ log, F x s := by
    induction run with
    | refl => exact ⟨init, .nil, by simp⟩
    | @tail log s t e o _ cond eq ih =>
        obtain ⟨inv, pairs, marks⟩ := ih
        refine ⟨step _ _ _ _ inv cond eq, ?_, ?_⟩
        · refine List.pairwise_append.mpr ⟨pairs, List.pairwise_singleton .., ?_⟩
          intro x hx y hy
          rw [List.mem_singleton.mp hy]
          exact use x _ _ _ _ inv (marks x hx) cond eq
        · intro x hx
          rcases List.mem_append.mp hx with old | new
          · exact keep x _ _ _ _ inv (marks x old) cond eq
          · rw [List.mem_singleton.mp new]
            exact mark _ _ _ _ inv cond eq
  exact all.2.1

/-- Two machines in step: what relates the states before an event relates them after
it, and the two answers agree.  A run of the one is then a run of the other over the
same events, with answers that agree. -/
theorem Runs.simulate {σ' ω' : Type*} {m' : Machine σ' ε ω'} {ok' : σ' → ε → Prop} {start' : σ'}
    {R : σ → σ' → Prop} {agree : ω → ω' → Prop} (run : Runs m ok start log s)
    (init : R start start')
    (step : ∀ s s' e t o, R s s' → ok s e → m s e = some (t, o) →
      ∃ t' o', ok' s' e ∧ m' s' e = some (t', o') ∧ R t t' ∧ agree o o') :
    ∃ log' s', Runs m' ok' start' log' s' ∧ R s s' ∧
      List.Forall₂ (fun x y => x.1 = y.1 ∧ agree x.2 y.2) log log' := by
  induction run with
  | refl => exact ⟨[], start', .refl, init, .nil⟩
  | tail _ cond eq ih =>
      obtain ⟨log', s', run', related, answers⟩ := ih
      obtain ⟨t', o', cond', eq', related', same⟩ := step _ _ _ _ _ related cond eq
      exact ⟨_, t', .tail run' cond' eq', related',
        List.rel_append answers (.cons ⟨rfl, same⟩ .nil)⟩

/-- Run a list of events whose steps meet `ok`, collecting the answers. -/
def exec (m : Machine σ ε ω) (ok : σ → ε → Prop) [∀ s e, Decidable (ok s e)] :
    σ → List ε → Option (List ω × σ)
  | s, [] => some ([], s)
  | s, e :: es =>
      if ok s e then
        match m s e with
        | none => none
        | some (t, o) => (exec m ok t es).map fun (os, u) => (o :: os, u)
      else none

theorem exec_cons {m : Machine σ ε ω} {ok : σ → ε → Prop} [∀ s e, Decidable (ok s e)]
    {s t u : σ} {e : ε} {o : ω} {es : List ε} {os : List ω} (cond : ok s e)
    (head : m s e = some (t, o)) (rest : exec m ok t es = some (os, u)) :
    exec m ok s (e :: es) = some (o :: os, u) := by
  simp [exec, cond, head, rest]

/-- A computed run is a run. -/
theorem runs_of_exec (m : Machine σ ε ω) (ok : σ → ε → Prop) [∀ s e, Decidable (ok s e)] (s : σ)
    (es : List ε) {os : List ω} {t : σ} (eq : exec m ok s es = some (os, t)) :
    Runs m ok s (es.zip os) t := by
  induction es generalizing s os with
  | nil =>
      obtain ⟨rfl, rfl⟩ : [] = os ∧ s = t := by simpa [exec] using eq
      exact .refl
  | cons e es ih =>
      unfold exec at eq
      split at eq
      · next cond =>
          split at eq
          · cases eq
          · next u o head =>
              simp only [Option.map_eq_some_iff, Prod.mk.injEq, Prod.exists] at eq
              obtain ⟨os', t', rest, rfl, rfl⟩ := eq
              exact Runs.trans (.tail .refl cond head) (ih _ rest)
      · cases eq

/-- Two machines in step over a list of events give the same answers. -/
theorem exec_simulate {σ' : Type*} {m' : Machine σ' ε ω} {ok' : σ' → ε → Prop}
    [∀ s e, Decidable (ok s e)] [∀ s e, Decidable (ok' s e)] {R : σ → σ' → Prop}
    (step : ∀ s s' e t o, R s s' → ok s e → m s e = some (t, o) →
      ∃ t', ok' s' e ∧ m' s' e = some (t', o) ∧ R t t')
    {s : σ} {s' : σ'} (related : R s s') {es : List ε} {os : List ω} {t : σ}
    (eq : exec m ok s es = some (os, t)) : ∃ t', exec m' ok' s' es = some (os, t') ∧ R t t' := by
  induction es generalizing s s' os with
  | nil =>
      obtain ⟨rfl, rfl⟩ : [] = os ∧ s = t := by simpa [exec] using eq
      exact ⟨s', rfl, related⟩
  | cons e es ih =>
      unfold exec at eq
      split at eq
      · next cond =>
          split at eq
          · cases eq
          · next u o head =>
              simp only [Option.map_eq_some_iff, Prod.mk.injEq, Prod.exists] at eq
              obtain ⟨os', t', rest, rfl, rfl⟩ := eq
              obtain ⟨u', cond', head', related'⟩ := step _ _ _ _ _ related cond head
              obtain ⟨v', rest', final⟩ := ih related' rest
              refine ⟨v', ?_, final⟩
              simp [exec, cond', head', rest']
      · cases eq

/-- A computed run that passes a test on its answers and its last state. -/
theorem exists_of_exec (m : Machine σ ε ω) (ok : σ → ε → Prop) [∀ s e, Decidable (ok s e)]
    (s : σ) (es : List ε) (P : List (ε × ω) → σ → Bool)
    (found : (exec m ok s es).any (fun r => P (es.zip r.1) r.2) = true) :
    ∃ log t, Runs m ok s log t ∧ P log t = true := by
  rcases eq : exec m ok s es with _ | ⟨os, t⟩
  · rw [eq] at found
    cases found
  · rw [eq] at found
    exact ⟨_, t, runs_of_exec m ok s es eq, found⟩

theorem exists_run_of_exec (m : Machine σ ε ω) (ok : σ → ε → Prop) [∀ s e, Decidable (ok s e)]
    (s : σ) (es : List ε) (P : σ → Bool)
    (found : (exec m ok s es).any (fun r => P r.2) = true) :
    ∃ log t, Runs m ok s log t ∧ P t = true :=
  exists_of_exec m ok s es (fun _ => P) found

theorem exists_log_of_exec (m : Machine σ ε ω) (ok : σ → ε → Prop) [∀ s e, Decidable (ok s e)]
    (s : σ) (es : List ε) (P : List (ε × ω) → Bool)
    (found : (exec m ok s es).any (fun r => P (es.zip r.1)) = true) :
    ∃ log t, Runs m ok s log t ∧ P log = true :=
  exists_of_exec m ok s es (fun log _ => P log) found

/-- A computed run in two parts, with the answers of the second. -/
theorem exists_runs_of_exec (m : Machine σ ε ω) (ok : σ → ε → Prop) [∀ s e, Decidable (ok s e)]
    (s : σ) (es es' : List ε) (P : σ → List ω → σ → Bool)
    (found : ((exec m ok s es).any fun r =>
      (exec m ok r.2 es').any fun r' => P r.2 r'.1 r'.2) = true) :
    ∃ t os u, Reachable m ok s t ∧ Runs m ok t (es'.zip os) u ∧ P t os u = true := by
  rcases eq : exec m ok s es with _ | ⟨os, t⟩
  · rw [eq] at found
    cases found
  · rw [eq] at found
    rcases eq' : exec m ok t es' with _ | ⟨os', u⟩
    · simp [eq'] at found
    · simp only [Option.any_some, eq'] at found
      exact ⟨t, os', u, ⟨_, runs_of_exec m ok s es eq⟩, runs_of_exec m ok t es' eq', found⟩

end Machine

end Transition
