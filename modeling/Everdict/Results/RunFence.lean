import Everdict.Results.RunStores
import Everdict.Transition

/-!
# The first terminal write wins

Any number of guarded writes and settlements of runs, in any order, with the scorecards
moving in between.  A settlement carries the terminal fence, there is no way to leave it
out; a write that is `Fenced` carries it too, or sets no status.  Over such writes a
terminal status stays, in either store.
-/

namespace Everdict.Results

open Transition Transition.Machine
open Attempt (RunStatus)

/-- The options of `settleRun`, less the riders of its atomic path. -/
structure SettleOptions where
  expectOwnerReplica : Option (Option String) := none
  epoch : Option Nat := none
  parentDriver : Option ParentDriver := none
  requestCancellation : Bool := false
  deriving DecidableEq

/-- The guard of `settleRun` -/
def SettleOptions.guard (opts : SettleOptions) : RunUpdateGuard where
  expectNonTerminal := true
  requestCancellation := opts.requestCancellation
  expectOwnerReplica := opts.expectOwnerReplica
  expectOwnerEpoch := opts.epoch
  parentDriver := opts.parentDriver

inductive RunWrite where
  | update (id : String) (patch : RunPatch) (events : List String) (guard : RunUpdateGuard)
  | settleRun (id : String) (patch : RunPatch) (events : List String) (opts : SettleOptions)
  /-- What others do to the scorecards. -/
  | scorecards (next : Scorecards)

/-- The writes of runs as a machine over the store in memory. -/
def memoryStep : Machine InMemoryRunStore RunWrite (Option RunRecord)
  | s, .update id patch events guard => some (s.update id patch events guard)
  | s, .settleRun id patch events opts => some (s.update id patch events opts.guard)
  | s, .scorecards next => some ({ s with scorecards := s.scorecards.map fun _ => next }, none)

/-- The writes of runs as a machine over the database. -/
def pgStep : Machine PgRunStore RunWrite (Option RunRecord)
  | db, .update id patch events guard => some (db.updateOn id patch events guard)
  | db, .settleRun id patch events opts => some (db.updateOn id patch events opts.guard)
  | db, .scorecards next => some ({ db with scorecards := next }, none)

/-- A write that sets a status carries the terminal fence. -/
def Fenced {σ : Type} : σ → RunWrite → Prop
  | _, .update _ patch _ guard => patch.status = none ∨ guard.expectNonTerminal = true
  | _, .settleRun .. => True
  | _, .scorecards _ => True

/-- The patch of a write is one the SQL store settles. -/
def Settles {σ : Type} : σ → RunWrite → Prop
  | _, .update _ patch _ guard => Settling patch guard
  | _, .settleRun _ patch _ opts => Settling patch opts.guard
  | _, .scorecards _ => True

def InMemoryRunStore.status (s : InMemoryRunStore) (id : String) : Option RunStatus :=
  (s.runs.get id).map (·.status)

def PgRunStore.status (db : PgRunStore) (id : String) : Option RunStatus :=
  (db.runs.get id).map (·.status)

variable {s : InMemoryRunStore} {db : PgRunStore} {patch : RunPatch} {guard : RunUpdateGuard}
  {id : String} {status : RunStatus}

theorem update_status (settled : s.status id = some status)
    (terminal : status ∈ TERMINAL_RUN_STATUSES)
    (fenced : patch.status = none ∨ guard.expectNonTerminal = true) (other : String)
    (events : List String) : (s.update other patch events guard).1.status id = some status := by
  unfold InMemoryRunStore.update
  rcases found : s.runs.get other with _ | cur
  · exact settled
  dsimp only
  split
  · next allowed =>
      show ((s.runs.set other (patch.spread guard.claimOwnership cur)).get id).map (·.status) = _
      rw [Table.get_set]
      split
      · next hit =>
          rw [InMemoryRunStore.status, hit, found, Option.map_some, Option.some.injEq] at settled
          rcases fenced with keeps | fence
          · simp [RunPatch.spread, keeps, settled]
          · simp [RunUpdateGuard.allows, fence, settled, terminal] at allowed
      · exact settled
  · exact settled

theorem updateOn_status (settled : db.status id = some status)
    (terminal : status ∈ TERMINAL_RUN_STATUSES)
    (fenced : patch.status = none ∨ guard.expectNonTerminal = true) (other : String)
    (events : List String) : (db.updateOn other patch events guard).1.status id = some status := by
  unfold PgRunStore.updateOn
  split
  · rcases found : db.runs.get other with _ | row
    · exact settled
    dsimp only
    split
    · next allowed =>
        show ((db.runs.set other (patch.assign guard.claimOwnership row)).get id).map
          (·.status) = _
        rw [Table.get_set]
        split
        · next hit =>
            rw [PgRunStore.status, hit, found, Option.map_some, Option.some.injEq] at settled
            rcases fenced with keeps | fence
            · simp [RunPatch.assign, keeps, settled]
            · simp [RunUpdateGuard.fenceSql, fence, settled, terminal] at allowed
        · exact settled
    · exact settled
  · exact settled

/-- In memory a terminal status stays, over any run of fenced writes. -/
theorem memory_final {t : InMemoryRunStore} {log : List (RunWrite × Option RunRecord)}
    (run : Runs memoryStep Fenced s log t) (settled : s.status id = some status)
    (terminal : status ∈ TERMINAL_RUN_STATUSES) : t.status id = some status := by
  refine run.state_invariant (I := fun t => t.status id = some status) settled ?_
  intro s e t o settled fenced eq
  cases e with
  | update other patch events guard =>
      obtain rfl := congrArg Prod.fst (Option.some.inj eq)
      exact update_status settled terminal fenced other events
  | settleRun other patch events opts =>
      obtain rfl := congrArg Prod.fst (Option.some.inj eq)
      exact update_status settled terminal (.inr rfl) other events
  | scorecards next =>
      obtain ⟨rfl, -⟩ := Prod.mk.inj (Option.some.inj eq)
      exact settled

/-- In the database a terminal status stays, over any run of fenced writes. -/
theorem pg_final {t : PgRunStore} {log : List (RunWrite × Option RunRecord)}
    (run : Runs pgStep Fenced db log t) (settled : db.status id = some status)
    (terminal : status ∈ TERMINAL_RUN_STATUSES) : t.status id = some status := by
  refine run.state_invariant (I := fun t => t.status id = some status) settled ?_
  intro s e t o settled fenced eq
  cases e with
  | update other patch events guard =>
      obtain rfl := congrArg Prod.fst (Option.some.inj eq)
      exact updateOn_status settled terminal fenced other events
  | settleRun other patch events opts =>
      obtain rfl := congrArg Prod.fst (Option.some.inj eq)
      exact updateOn_status settled terminal (.inr rfl) other events
  | scorecards next =>
      obtain ⟨rfl, -⟩ := Prod.mk.inj (Option.some.inj eq)
      exact settled

/-- The same answer, as the columns keep it. -/
def SameAnswer (answer stored : Option RunRecord) : Prop :=
  stored = answer.map RunRecord.stored

/-- The two stores answer a run of writes alike. -/
theorem runs_same {log : List (RunWrite × Option RunRecord)} {t : InMemoryRunStore}
    (same : Same s db) (run : Runs memoryStep Settles s log t) :
    ∃ log' t', Runs pgStep Settles db log' t' ∧ Same t t' ∧
      List.Forall₂ (fun x y => x.1 = y.1 ∧ SameAnswer x.2 y.2) log log' := by
  apply run.simulate same
  intro s db e t o same settles eq
  cases e with
  | update id patch events guard =>
      obtain ⟨same', answer⟩ := update_same same settles id events
      obtain ⟨rfl, rfl⟩ := Prod.mk.inj (Option.some.inj eq)
      exact ⟨_, _, settles, rfl, same', answer⟩
  | settleRun id patch events opts =>
      obtain ⟨same', answer⟩ := update_same same settles id events
      obtain ⟨rfl, rfl⟩ := Prod.mk.inj (Option.some.inj eq)
      exact ⟨_, _, settles, rfl, same', answer⟩
  | scorecards next =>
      obtain ⟨rfl, rfl⟩ := Prod.mk.inj (Option.some.inj eq)
      refine ⟨_, _, trivial, rfl, ⟨?_, same.runs, same.events, same.cancellations⟩, rfl⟩
      rw [same.scorecards]
      rfl

/-- The two stores with the same content and the same scorecards agree on whether a write lands,
whatever column it sets, and on patches the SQL store settles on every column of the row, and keep
the same content; and over any order of writes that are fenced or set no status, and of settlements, a
terminal status stays. -/
theorem run_writes_agree_and_first_terminal_wins :
    (∀ s db patch guard id events, Same s db → patch.setsColumn guard = true →
      (db.updateOn id patch events guard).2.isSome = (s.update id patch events guard).2.isSome ∧
      (db.updateOn id patch events guard).1.events = (s.update id patch events guard).1.events ∧
      (db.updateOn id patch events guard).1.cancellations =
        (s.update id patch events guard).1.cancellations) ∧
    (∀ s db patch guard id events, Same s db → Settling patch guard →
      Same (s.update id patch events guard).1 (db.updateOn id patch events guard).1 ∧
        SameAnswer (s.update id patch events guard).2 (db.updateOn id patch events guard).2) ∧
    (∀ (s t : InMemoryRunStore) log id status, Runs memoryStep Fenced s log t →
      s.status id = some status → status ∈ TERMINAL_RUN_STATUSES → t.status id = some status) ∧
    (∀ (db t : PgRunStore) log id status, Runs pgStep Fenced db log t →
      db.status id = some status → status ∈ TERMINAL_RUN_STATUSES →
      t.status id = some status) := by
  refine ⟨?_, ?_, ?_, ?_⟩
  · intro s db patch guard id events same sets
    exact update_lands same sets id events
  · intro s db patch guard id events same settling
    exact update_same same settling id events
  · intro s t log id status run settled terminal
    exact memory_final run settled terminal
  · intro db t log id status run settled terminal
    exact pg_final run settled terminal

/-- A run that succeeded. -/
def settledRun : RunRecord where
  tenant := "acme"
  harnessId := "h"
  harnessVersion := "1"
  caseId := "c"
  createdAt := "t0"
  id := "run-1"
  status := .succeeded
  updatedAt := "t1"

def settledMemory : InMemoryRunStore where
  runs := Table.empty.set "run-1" settledRun
  scorecards := some Table.empty

def settledDatabase : PgRunStore where
  runs := Table.empty.set "run-1" settledRun.row

theorem settled_same : Same settledMemory settledDatabase := by
  refine ⟨rfl, ?_, rfl, rfl⟩
  intro id
  simp only [settledMemory, settledDatabase, Table.get_set, Table.get_empty]
  split <;> rfl

def lateFailure : RunPatch where
  status := some .failed
  updatedAt := some "t2"

theorem lateFailure_settling (guard : RunUpdateGuard) : Settling lateFailure guard := by
  refine ⟨rfl, rfl, ?_, ?_, ?_, ?_, ?_, ?_, ?_, rfl⟩ <;> decide +kernel

theorem run_writes_agree_and_first_terminal_wins_late :
    SameAnswer (settledMemory.update "run-1" lateFailure [] { expectNonTerminal := true }).2
        (settledDatabase.updateOn "run-1" lateFailure [] { expectNonTerminal := true }).2 ∧
      (settledMemory.update "run-1" lateFailure [] { expectNonTerminal := true }).1.status
        "run-1" = some .succeeded := by
  obtain ⟨-, agree, final, -⟩ := run_writes_agree_and_first_terminal_wins
  have fenced : Fenced settledMemory
      (.update "run-1" lateFailure [] { expectNonTerminal := true }) := Or.inr rfl
  refine ⟨(agree _ _ _ _ "run-1" [] settled_same (lateFailure_settling _)).2, ?_⟩
  exact final settledMemory _ _ "run-1" .succeeded (.tail .refl fenced rfl)
    (by decide +kernel) (by decide)

/-- As the claim has it, over every patch and every guard: the SQL store answers a patch of no
column without its guards and never sets what a run was created with, and a write without the
terminal fence sets the status of a settled run. -/
theorem unfenced_and_unsettled_writes_differ :
    (¬ ∀ s db patch guard id events, Same s db →
      ((s.update id patch events guard).2 = none ↔ (db.updateOn id patch events guard).2 = none)) ∧
    (¬ ∀ s db patch guard id events, Same s db → patch.setsColumn guard = true →
      SameAnswer (s.update id patch events guard).2 (db.updateOn id patch events guard).2) ∧
    (¬ ∀ (s t : InMemoryRunStore) log id status, Runs memoryStep Always s log t →
      s.status id = some status → status ∈ TERMINAL_RUN_STATUSES →
      t.status id = some status) := by
  refine ⟨?_, ?_, ?_⟩
  · intro all
    have alike := all settledMemory settledDatabase {} { expectNonTerminal := true } "run-1" []
      settled_same
    have refused : (settledMemory.update "run-1" {} [] { expectNonTerminal := true }).2 = none := by
      decide +kernel
    have answered :
        (settledDatabase.updateOn "run-1" {} [] { expectNonTerminal := true }).2 ≠ none := by
      decide +kernel
    exact answered (alike.mp refused)
  · intro all
    have alike := all settledMemory settledDatabase
      { creation := { createdBy := some (some "u") }, updatedAt := some "t2" } {} "run-1" []
      settled_same rfl
    revert alike
    unfold SameAnswer
    decide +kernel
  · intro all
    have changed : (settledMemory.update "run-1" lateFailure [] {}).1.status "run-1" ≠
        some .succeeded := by
      decide +kernel
    exact changed (all settledMemory _ _ "run-1" .succeeded
      (.tail .refl (e := .update "run-1" lateFailure [] {}) trivial rfl)
      (by decide +kernel) (by decide))

end Everdict.Results
