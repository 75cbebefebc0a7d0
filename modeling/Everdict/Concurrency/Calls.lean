import Mathlib.Data.List.Count
import Mathlib.Tactic.Common

/-!
# Calls before, inside and behind a gate

A call that comes to a gate goes in or waits; a waiting one is woken, and continues in a later
step, in which it goes in or waits again; one inside leaves.  `Move` is one such step, whatever
the gate decides by.  Along moves every call stays in one place, and it went in once exactly
when it is inside or has left (`Ledger.move`).
-/

namespace Gates

variable {ι : Type*} [DecidableEq ι]

/-- Where the calls are. -/
structure Calls (ι : Type*) where
  waiting : List ι := []
  woken : List ι := []
  running : List ι := []
  finished : List ι := []

def Calls.all (calls : Calls ι) : List ι :=
  calls.waiting ++ calls.woken ++ calls.running ++ calls.finished

def Calls.enter (calls : Calls ι) (id : ι) : Calls ι :=
  { calls with running := calls.running ++ [id] }

def Calls.wait (calls : Calls ι) (id : ι) : Calls ι :=
  { calls with waiting := calls.waiting ++ [id] }

/-- A woken call is up. -/
def Calls.rise (calls : Calls ι) (id : ι) : Calls ι :=
  { calls with woken := calls.woken.erase id }

/-- A call leaves, and the first of those that wait are woken. -/
def Calls.leave (calls : Calls ι) (id : ι) (wakes : Nat) : Calls ι :=
  { waiting := calls.waiting.drop wakes
    woken := calls.woken ++ calls.waiting.take wakes
    running := calls.running.erase id
    finished := calls.finished ++ [id] }

/-- A step, with the call that comes and the call that goes in. -/
inductive Move (calls : Calls ι) : Calls ι → Option ι → Option ι → Prop
  | enter {id : ι} (new : id ∉ calls.all) : Move calls (calls.enter id) (some id) (some id)
  | wait {id : ι} (new : id ∉ calls.all) : Move calls (calls.wait id) (some id) none
  | resume {id : ι} (isWoken : id ∈ calls.woken) :
      Move calls ((calls.rise id).enter id) none (some id)
  | repark {id : ι} (isWoken : id ∈ calls.woken) : Move calls ((calls.rise id).wait id) none none
  | leave {id : ι} (wakes : Nat) (runs : id ∈ calls.running) :
      Move calls (calls.leave id wakes) none none

/-- The calls that came are the calls of all places, each once, and those that went in are
inside or have left. -/
def Ledger (came admitted : List ι) (calls : Calls ι) : Prop :=
  ∀ id, came.count id ≤ 1 ∧ came.count id = calls.all.count id ∧
    admitted.count id = calls.running.count id + calls.finished.count id

theorem ledger_nil : Ledger [] [] ({} : Calls ι) := fun _ => ⟨Nat.zero_le _, rfl, rfl⟩

variable {calls after : Calls ι} {came admitted : List ι}

theorem count_all (calls : Calls ι) (id : ι) :
    calls.all.count id = calls.waiting.count id + calls.woken.count id + calls.running.count id +
      calls.finished.count id := by
  rw [Calls.all, List.count_append, List.count_append, List.count_append]

theorem count_rise {id : ι} (isWoken : id ∈ calls.woken) (other : ι) :
    calls.woken.count other = (calls.woken.erase id).count other + [id].count other := by
  rw [(List.perm_cons_erase isWoken).count_eq, ← List.singleton_append, List.count_append,
    Nat.add_comm]

theorem count_leave {id : ι} (runs : id ∈ calls.running) (other : ι) :
    calls.running.count other = (calls.running.erase id).count other + [id].count other := by
  rw [(List.perm_cons_erase runs).count_eq, ← List.singleton_append, List.count_append,
    Nat.add_comm]

theorem count_fresh {id : ι} (new : id ∉ calls.all) (other : ι) :
    calls.all.count other + [id].count other ≤ 1 ∨ [id].count other = 0 := by
  by_cases same : other = id
  · subst same
    rw [List.count_eq_zero.mpr new, List.count_singleton_self]
    exact Or.inl (Nat.le_refl _)
  · exact Or.inr (List.count_eq_zero.mpr fun isIn => same (List.mem_singleton.mp isIn))

/-- What one move preserves. -/
theorem Ledger.move {comes goes : Option ι} (ledger : Ledger came admitted calls)
    (move : Move calls after comes goes) :
    Ledger (came ++ comes.toList) (admitted ++ goes.toList) after := by
  intro other
  obtain ⟨once, places, entered⟩ := ledger other
  rw [count_all] at places
  rw [count_all, List.count_append, List.count_append]
  cases move with
  | @enter id new =>
      have fresh := count_fresh new other
      rw [count_all] at fresh
      simp only [Calls.enter, List.count_append, Option.toList_some]
      omega
  | @wait id new =>
      have fresh := count_fresh new other
      rw [count_all] at fresh
      simp only [Calls.wait, List.count_append, Option.toList_some, Option.toList_none,
        List.count_nil]
      omega
  | resume isWoken =>
      have split := count_rise isWoken other
      simp only [Calls.enter, Calls.rise, List.count_append, Option.toList_some,
        Option.toList_none, List.count_nil]
      omega
  | repark isWoken =>
      have split := count_rise isWoken other
      simp only [Calls.wait, Calls.rise, List.count_append, Option.toList_none, List.count_nil]
      omega
  | leave wakes runs =>
      have split := count_leave runs other
      have cut := congrArg (List.count other) (List.take_append_drop wakes calls.waiting)
      rw [List.count_append] at cut
      simp only [Calls.leave, List.count_append, Option.toList_none, List.count_nil]
      omega

/-- A call went in once if it is inside or has left, and not otherwise. -/
theorem Ledger.admitted_once (ledger : Ledger came admitted calls) (id : ι) :
    admitted.count id = if id ∈ calls.running ++ calls.finished then 1 else 0 := by
  obtain ⟨once, places, entered⟩ := ledger id
  rw [count_all] at places
  split_ifs with inside
  · have one := List.count_pos_iff.mpr inside
    rw [List.count_append] at one
    omega
  · have none := List.count_eq_zero.mpr inside
    rw [List.count_append] at none
    omega

/-- Where none waits and none is woken, every call that came went in. -/
theorem Ledger.all_admitted (ledger : Ledger came admitted calls) (waiting : calls.waiting = [])
    (woken : calls.woken = []) {id : ι} (isIn : id ∈ came) : admitted.count id = 1 := by
  obtain ⟨once, places, entered⟩ := ledger id
  have one := List.count_pos_iff.mpr isIn
  rw [count_all, waiting, woken, List.count_nil] at places
  omega

end Gates
