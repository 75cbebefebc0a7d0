import Mathlib.Tactic.Common

/-!
# Computations that may fail on a state

A computation keeps a property of states when it leaves states that have it in states that
have it, whether it returns or fails.  The rules follow the way a computation is put together.
-/

namespace Effects

/-- A computation on a state that may fail; what it did to the state stays when it fails. -/
abbrev Effect (ε σ α : Type) := ExceptT ε (StateM σ) α

variable {ε σ α β : Type} {I : σ → Prop}

def Keeps (I : σ → Prop) (m : Effect ε σ α) : Prop := ∀ s, I s → I (m.run.run s).2

theorem keeps_pure (a : α) : Keeps I (pure a : Effect ε σ α) := fun _ holds => holds

theorem keeps_throw (e : ε) : Keeps I (throw e : Effect ε σ α) := fun _ holds => holds

theorem keeps_modify {f : σ → σ} (keeps : ∀ s, I s → I (f s)) :
    Keeps I (modify f : Effect ε σ PUnit) := keeps

theorem keeps_get : Keeps I (get : Effect ε σ σ) := fun _ holds => holds

/-- What the computation returns has the property. -/
def Returns (Q : α → Prop) (m : Effect ε σ α) : Prop := ∀ s a, (m.run.run s).1 = .ok a → Q a

theorem run_bind (m : Effect ε σ α) (f : α → Effect ε σ β) (s : σ) :
    (m >>= f).run.run s =
      match m.run.run s with
      | (.ok a, s') => (f a).run.run s'
      | (.error e, s') => (.error e, s') := by
  simp only [ExceptT.run_bind, StateT.run_bind]
  rcases m.run.run s with ⟨_ | a, s'⟩ <;> rfl

/-- What a chain returns comes from what its first part returns. -/
theorem returns_bind {m : Effect ε σ α} {f : α → Effect ε σ β} {s : σ} {b : β}
    (returned : ((m >>= f).run.run s).1 = .ok b) :
    ∃ a s', ((f a).run.run s').1 = .ok b := by
  rw [run_bind] at returned
  rcases eq : m.run.run s with ⟨e | a, s'⟩ <;> rw [eq] at returned
  · cases returned
  · exact ⟨a, s', returned⟩

theorem keeps_bind_of {Q : α → Prop} {m : Effect ε σ α} {f : α → Effect ε σ β} (first : Keeps I m)
    (returns : Returns Q m) (then_ : ∀ a, Q a → Keeps I (f a)) : Keeps I (m >>= f) := by
  intro s holds
  have kept := first s holds
  have known := returns s
  rw [run_bind]
  rcases eq : m.run.run s with ⟨e | a, s'⟩ <;> rw [eq] at kept known
  · exact kept
  · exact then_ a (known a rfl) s' kept

theorem keeps_bind {m : Effect ε σ α} {f : α → Effect ε σ β} (first : Keeps I m)
    (then_ : ∀ a, Keeps I (f a)) : Keeps I (m >>= f) :=
  keeps_bind_of (Q := fun _ => True) first (fun _ _ _ => trivial) fun a _ => then_ a

/-- A computation for each element of a list, one after the other. -/
def each (f : α → Effect ε σ PUnit) : List α → Effect ε σ PUnit
  | [] => pure ()
  | a :: l => do
      f a
      each f l

theorem keeps_each {f : α → Effect ε σ PUnit} {l : List α} (keeps : ∀ a ∈ l, Keeps I (f a)) :
    Keeps I (each f l) := by
  induction l with
  | nil => exact keeps_pure _
  | cons a l ih =>
      rw [List.forall_mem_cons] at keeps
      exact keeps_bind keeps.1 fun _ => ih keeps.2

end Effects
