import Everdict.Attempt.Operations

/-!
# Who may still authorize work

An attempt belongs to a batch (its scorecard) or, without one, to the run its
execution id names.  `attemptParentAuthority` is the question as the in-process
ledger asks it, `parentAuthorizes` and `parentAdopts` are the SQL predicates, read
as relations on the rows of the three tables.

They agree when the run a standalone attempt names has a row (`ParentNamed`).
Without one the in-process ledger keeps its other guards and lets the attempt
through, and the SQL predicate refuses.
-/

namespace Everdict.Attempt

inductive RunStatus where
  | queued
  | running
  | suspended
  | succeeded
  | failed
  deriving DecidableEq

inductive ScorecardStatus where
  | queued
  | running
  | succeeded
  | failed
  | superseded
  | cancelled
  deriving DecidableEq

def OPEN_RUN_STATUSES : List RunStatus := [.queued, .running]

def OPEN_SCORECARD_STATUSES : List ScorecardStatus := [.queued, .running]

structure RunRow where
  status : RunStatus
  ownerEpoch : Option Nat

structure ScorecardRow where
  status : ScorecardStatus
  ownerEpoch : Option Nat

/-- The two parent tables as they stand when an operation asks. -/
structure Parents where
  runs : Table String RunRow
  scorecards : Table String ScorecardRow

/-- The column is `NOT NULL DEFAULT 0`. -/
def ownerEpochColumn (ownerEpoch : Option Nat) : Nat := ownerEpoch.getD 0

def attemptParentAuthority (parents : Parents) (attempt : ExecutionAttempt) : Authority :=
  match attempt.scorecardId with
  | some scorecardId =>
      match parents.scorecards.get scorecardId with
      | none => .closed
      | some parent =>
          if parent.status ∉ OPEN_SCORECARD_STATUSES then .closed
          else .owned (parent.ownerEpoch.getD 0)
  | none =>
      let runId := runIdOf attempt.executionId
      match if runId = "" then none else parents.runs.get runId with
      | none => .owned (attempt.driverEpoch.getD 0)
      | some run =>
          if run.status ∉ OPEN_RUN_STATUSES then .closed else .owned (run.ownerEpoch.getD 0)

/-- The two `EXISTS` branches, over an open parent row whose epoch column meets `fence`. -/
def parentExists (parents : Parents) (a : ExecutionAttempt) (fence : Nat → Bool) : Bool :=
  match a.scorecardId with
  | some scorecardId =>
      parents.scorecards.entries.any fun (id, s) =>
        id = scorecardId ∧ s.status ∈ OPEN_SCORECARD_STATUSES ∧ fence (ownerEpochColumn s.ownerEpoch)
  | none =>
      parents.runs.entries.any fun (id, r) =>
        "evd-run-" ++ id = a.executionId ∧ r.status ∈ OPEN_RUN_STATUSES ∧
          fence (ownerEpochColumn r.ownerEpoch)

/-- `PARENT_AUTHORIZES`: `a.driver_epoch IS NULL OR owner_epoch = a.driver_epoch`. -/
def parentAuthorizes (parents : Parents) (a : ExecutionAttempt) : Bool :=
  parentExists parents a fun epoch => a.driverEpoch = none ∨ a.driverEpoch = some epoch

def namesParent (a : ExecutionAttempt) (adoption : AttemptAdoption) : Bool :=
  match a.scorecardId with
  | some scorecardId => adoption.parent.kind = .scorecard ∧ scorecardId = adoption.parent.id
  | none => adoption.parent.kind = .run ∧ "evd-run-" ++ adoption.parent.id = a.executionId

/-- The parent clause of the adoption: the parent it names is the row's, open, and
owned at the adopting epoch. -/
def parentAdopts (parents : Parents) (a : ExecutionAttempt) (adoption : AttemptAdoption) : Bool :=
  namesParent a adoption ∧ parentExists parents a fun epoch => epoch = adoption.parent.adoptingEpoch

/-! ## Where the two agree -/

/-- A standalone attempt names a run, and the run has a row. -/
def ParentNamed (parents : Parents) (a : ExecutionAttempt) : Bool :=
  a.scorecardId.isSome ∨
    runIdOf a.executionId ≠ "" ∧ (parents.runs.get (runIdOf a.executionId)).isSome

variable {parents : Parents} {a : ExecutionAttempt}

/-- The run an execution names is the one whose prefixed id is the execution. -/
theorem runIdOf_eq_iff {executionId id : String} (named : runIdOf executionId ≠ "") :
    "evd-run-" ++ id = executionId ↔ runIdOf executionId = id := by
  unfold runIdOf at named ⊢
  split_ifs at named ⊢ with lane
  · obtain ⟨rest, parts⟩ := lane
    have drop : executionId.toList.drop "evd-run-".length = rest := by
      rw [← parts]
      exact List.drop_left
    have whole : executionId = "evd-run-" ++ String.ofList rest := by
      have tail : (String.ofList rest).toList = rest := String.toList_ofList
      rw [← String.toList_inj, String.toList_append, tail, parts]
    rw [drop, whole, eq_comm, ← String.toList_inj, String.toList_append, String.toList_append,
      List.append_cancel_left_eq, String.toList_inj]
  · exact absurd rfl named

/-- What the authority says of a named parent, and what the `EXISTS` finds. -/
theorem parentExists_iff (named : ParentNamed parents a = true) (fence : Nat → Bool) :
    parentExists parents a fence = true ↔
      ∃ epoch, attemptParentAuthority parents a = .owned epoch ∧ fence epoch = true := by
  cases batch : a.scorecardId with
  | some scorecardId =>
      have found_iff : parentExists parents a fence = true ↔
          ∃ row, parents.scorecards.get scorecardId = some row ∧
            row.status ∈ OPEN_SCORECARD_STATUSES ∧ fence (ownerEpochColumn row.ownerEpoch) := by
        simp [parentExists, batch, Table.get_eq_some]
      rw [found_iff]
      simp only [attemptParentAuthority, batch]
      cases parents.scorecards.get scorecardId with
      | none => simp
      | some row =>
          by_cases isOpen : row.status ∈ OPEN_SCORECARD_STATUSES <;>
            simp [isOpen, ownerEpochColumn]
  | none =>
      obtain ⟨name, row, found⟩ : runIdOf a.executionId ≠ "" ∧
          ∃ row, parents.runs.get (runIdOf a.executionId) = some row := by
        simpa [ParentNamed, batch, Option.isSome_iff_exists] using named
      have found_iff : parentExists parents a fence = true ↔
          ∃ row, parents.runs.get (runIdOf a.executionId) = some row ∧
            row.status ∈ OPEN_RUN_STATUSES ∧ fence (ownerEpochColumn row.ownerEpoch) := by
        simp [parentExists, batch, Table.get_eq_some, runIdOf_eq_iff name]
      rw [found_iff]
      simp only [attemptParentAuthority, batch, name, if_false, found]
      by_cases isOpen : row.status ∈ OPEN_RUN_STATUSES <;> simp [isOpen, ownerEpochColumn]

theorem attemptParentAuthority_cases (parents : Parents) (a : ExecutionAttempt) :
    attemptParentAuthority parents a = .closed ∨
      ∃ epoch, attemptParentAuthority parents a = .owned epoch := by
  unfold attemptParentAuthority
  split
  · split
    · simp
    · split_ifs <;> simp
  · dsimp only
    split
    · simp
    · split_ifs <;> simp

/-- The question before a reservation, an activation or a commit has one answer. -/
theorem authorizes_iff (named : ParentNamed parents a = true) (attemptId : String) :
    (assertParentStillAuthorizes attemptId a (attemptParentAuthority parents a)).isNone =
      parentAuthorizes parents a := by
  rw [Bool.eq_iff_iff, parentAuthorizes, parentExists_iff named]
  rcases attemptParentAuthority_cases parents a with closed | ⟨epoch, owned⟩
  · simp [closed, assertParentStillAuthorizes]
  · cases held : a.driverEpoch with
    | none => simp [owned, assertParentStillAuthorizes, held]
    | some epoch' =>
        by_cases same : epoch = epoch' <;>
          simp [owned, assertParentStillAuthorizes, held, same, eq_comm]

end Everdict.Attempt
