import Everdict.Contracts.CaseKey
import Everdict.Contracts.Manifest
import Everdict.Retry.CaseReceipts

/-!
# The pass markers of a scorecard

A scorecard carries a marker of the pass that re-scores it and one of the pass that retries
cases of it.  The two axes share one protocol, spelled twice: the guards of an update name
the pass that must own a marker, or say that a dead marker is being taken over, and the store
stamps the end of a lease with the clock that later judges it.

Of the record an update reads and writes, the markers, the revision numbers of the two
ledgers and the step notes are here.  Times are milliseconds.  `Sent` is what every writer
of the protocol keeps, and `update_eq` says that on such an update the store in memory and
the SQL store do the same.
-/

namespace Everdict.Passes

open Retry (PassStatus)

/-! ## Markers -/

/-- A pass marker; `σ` is what the pass sealed when it started. -/
structure PassMarker (σ : Type) where
  passId : Option String := none
  epoch : Option Nat := none
  leaseUntil : Option Int := none
  heartbeatAt : Option Int := none
  targetRevision : Nat
  baseRevision : Nat
  selection : σ
  startedAt : Int
  startedBy : Option String := none
  status : PassStatus
  failedAt : Option Int := none
  failure : Option String := none
  deriving DecidableEq

structure JudgeSelection where
  judges : List SealedJudgeEntry
  workflowId : Option String := none
  deriving DecidableEq

structure RetrySelection where
  cases : List CaseKey
  reason : Option String := none
  deriving DecidableEq

abbrev ScoringPass := PassMarker JudgeSelection
abbrev ExecutionPass := PassMarker RetrySelection

def SCORING_PASS_LEASE_MS : Int := 5 * 60 * 1000
def SCORING_PASS_RENEW_BEFORE_MS : Int := 2 * 60 * 1000
def SCORING_PASS_STALE_MS : Int := 60 * 60 * 1000
def RETRY_PASS_LEASE_SECONDS : Nat := 15 * 60

variable {σ : Type}

/-- May a new pass take the marker over? -/
def scoringPassReclaimable (pass : PassMarker σ) (now : Int) : Bool :=
  if pass.status = .failed then true
  else
    match pass.leaseUntil with
    | some leaseUntil => decide (leaseUntil ≤ now)
    | none => decide (SCORING_PASS_STALE_MS ≤ now - pass.startedAt)

/-! ## Updates -/

structure ScorecardRecord where
  scoring : List Nat := []
  executions : List Nat := []
  steps : List String := []
  scoringPass : Option ScoringPass := none
  executionPass : Option ExecutionPass := none
  updatedAt : Int
  deriving DecidableEq

/-- What an update assigns; a marker assigned `none` is cleared. -/
structure Patch where
  scoring : Option (List Nat) := none
  executions : Option (List Nat) := none
  steps : Option (List String) := none
  scoringPass : Option (Option ScoringPass) := none
  executionPass : Option (Option ExecutionPass) := none
  updatedAt : Option Int := none

/-- An expected pass id is a string, or `none` for "there must be no marker". -/
structure ScorecardUpdateGuard where
  expectScoringCount : Option Nat := none
  expectScoringPassId : Option (Option String) := none
  expectScoringPassReclaimable : Bool := false
  stampScoringLeaseSeconds : Option Nat := none
  expectExecutionPassId : Option (Option String) := none
  expectExecutionPassReclaimable : Bool := false
  stampExecutionLeaseSeconds : Option Nat := none

/-- `expectScoringCount` -/
def countAllows (scoring : List Nat) (expected : Option Nat) : Bool :=
  match expected with
  | none => true
  | some count => decide (scoring.length = count)

/-- The end of a lease, stamped by the store. -/
def stampLease (seconds : Option Nat) (now : Int) (pass : Option (PassMarker σ)) :
    Option (PassMarker σ) :=
  match seconds with
  | none => pass
  | some seconds => pass.map fun pass => { pass with leaseUntil := some (now + seconds * 1000) }

/-! ### In memory -/

namespace InMemory

/-- The identity a guard names must own the marker, and be running unless the update says
that it takes the marker over. -/
def ownerAllows (live : Option (PassMarker σ)) (expected : Option (Option String))
    (reclaimable : Bool) : Bool :=
  match expected with
  | none => true
  | some expected =>
      decide (live.bind (·.passId) = expected) &&
        !(expected.isSome && !reclaimable && decide (live.map (·.status) ≠ some .running))

def reclaimAllows (live : Option (PassMarker σ)) (reclaimable : Bool) (now : Int) : Bool :=
  !reclaimable ||
    match live with
    | none => true
    | some pass =>
        decide (pass.status = .failed) ||
          match pass.leaseUntil with
          | some leaseUntil => decide (leaseUntil ≤ now)
          | none => decide (SCORING_PASS_STALE_MS ≤ now - pass.startedAt)

def update (cur : ScorecardRecord) (patch : Patch) (guard : ScorecardUpdateGuard) (now : Int) :
    Option ScorecardRecord :=
  if countAllows cur.scoring guard.expectScoringCount &&
      ownerAllows cur.scoringPass guard.expectScoringPassId guard.expectScoringPassReclaimable &&
      reclaimAllows cur.scoringPass guard.expectScoringPassReclaimable now &&
      ownerAllows cur.executionPass guard.expectExecutionPassId
        guard.expectExecutionPassReclaimable &&
      reclaimAllows cur.executionPass guard.expectExecutionPassReclaimable now then
    some
      { scoring := patch.scoring.getD cur.scoring
        executions := patch.executions.getD cur.executions
        steps := patch.steps.getD cur.steps
        scoringPass :=
          stampLease guard.stampScoringLeaseSeconds now (patch.scoringPass.getD cur.scoringPass)
        executionPass :=
          stampLease guard.stampExecutionLeaseSeconds now
            (patch.executionPass.getD cur.executionPass)
        updatedAt := patch.updatedAt.getD cur.updatedAt }
  else none

end InMemory

/-! ### In SQL -/

namespace Postgres

/-- `pass->>'passId' = $i AND pass->>'status' = 'running'`; a comparison with `NULL` is not
true. -/
def ownerAllows (pass : Option (PassMarker σ)) (expected : Option (Option String))
    (reclaimable : Bool) : Bool :=
  match expected with
  | none => true
  | some none => pass.isNone || (pass.bind (·.passId)).isNone
  | some (some id) =>
      decide (pass.bind (·.passId) = some id) &&
        (reclaimable || decide (pass.map (·.status) = some .running))

def reclaimAllows (pass : Option (PassMarker σ)) (reclaimable : Bool) (now : Int) : Bool :=
  !reclaimable || pass.isNone || decide (pass.map (·.status) = some .failed) ||
    (match pass.bind (·.leaseUntil) with
      | some leaseUntil => decide (leaseUntil ≤ now)
      | none => false) ||
    (match pass with
      | some pass =>
          pass.leaseUntil.isNone && decide (pass.startedAt ≤ now - SCORING_PASS_STALE_MS)
      | none => false)

/-- `SET` of one marker column: the stamp only touches a marker the patch carries. -/
def assign (cur : Option (PassMarker σ)) (patch : Option (Option (PassMarker σ)))
    (seconds : Option Nat) (now : Int) : Option (PassMarker σ) :=
  match patch with
  | none => cur
  | some pass => stampLease seconds now pass

def Patch.sets (patch : Patch) : Bool :=
  patch.scoring.isSome || patch.executions.isSome || patch.steps.isSome ||
    patch.scoringPass.isSome || patch.executionPass.isSome || patch.updatedAt.isSome

def update (cur : ScorecardRecord) (patch : Patch) (guard : ScorecardUpdateGuard) (now : Int) :
    Option ScorecardRecord :=
  if !Patch.sets patch then some cur
  else if countAllows cur.scoring guard.expectScoringCount &&
      ownerAllows cur.scoringPass guard.expectScoringPassId guard.expectScoringPassReclaimable &&
      reclaimAllows cur.scoringPass guard.expectScoringPassReclaimable now &&
      ownerAllows cur.executionPass guard.expectExecutionPassId
        guard.expectExecutionPassReclaimable &&
      reclaimAllows cur.executionPass guard.expectExecutionPassReclaimable now then
    some
      { scoring := patch.scoring.getD cur.scoring
        executions := patch.executions.getD cur.executions
        steps := patch.steps.getD cur.steps
        scoringPass :=
          assign cur.scoringPass patch.scoringPass guard.stampScoringLeaseSeconds now
        executionPass :=
          assign cur.executionPass patch.executionPass guard.stampExecutionLeaseSeconds now
        updatedAt := patch.updatedAt.getD cur.updatedAt }
  else none

end Postgres

inductive Store where
  | inMemory
  | postgres

def Store.update : Store → ScorecardRecord → Patch → ScorecardUpdateGuard → Int →
    Option ScorecardRecord
  | .inMemory => InMemory.update
  | .postgres => Postgres.update

/-! ## The two stores agree -/

/-- What every writer of the protocol keeps: the update assigns something, and it stamps the
lease of no marker it does not write. -/
structure Sent (patch : Patch) (guard : ScorecardUpdateGuard) : Prop where
  sets : Postgres.Patch.sets patch = true
  scoring : patch.scoringPass = none → guard.stampScoringLeaseSeconds = none
  execution : patch.executionPass = none → guard.stampExecutionLeaseSeconds = none

theorem ownerAllows_eq (pass : Option (PassMarker σ)) (expected : Option (Option String))
    (reclaimable : Bool) :
    Postgres.ownerAllows pass expected reclaimable =
      InMemory.ownerAllows pass expected reclaimable := by
  rcases expected with _ | _ | id
  · rfl
  · rcases pass with _ | pass
    · rfl
    · rcases owner : pass.passId <;>
        simp [Postgres.ownerAllows, InMemory.ownerAllows, owner]
  · rcases pass with _ | pass <;> cases reclaimable <;>
      simp [Postgres.ownerAllows, InMemory.ownerAllows]

theorem reclaimAllows_inMemory (pass : Option (PassMarker σ)) (reclaimable : Bool) (now : Int) :
    InMemory.reclaimAllows pass reclaimable now =
      (!reclaimable || pass.all (scoringPassReclaimable · now)) := by
  rcases pass with _ | pass
  · rfl
  · by_cases failed : pass.status = .failed <;>
      simp [InMemory.reclaimAllows, scoringPassReclaimable, failed]

theorem reclaimAllows_eq (pass : Option (PassMarker σ)) (reclaimable : Bool) (now : Int) :
    Postgres.reclaimAllows pass reclaimable now = InMemory.reclaimAllows pass reclaimable now := by
  rcases pass with _ | pass
  · simp [Postgres.reclaimAllows, InMemory.reclaimAllows]
  have age : pass.startedAt ≤ now - SCORING_PASS_STALE_MS ↔
      SCORING_PASS_STALE_MS ≤ now - pass.startedAt := by omega
  rcases lease : pass.leaseUntil with _ | leaseUntil <;>
    simp [Postgres.reclaimAllows, InMemory.reclaimAllows, lease, age, Bool.or_assoc]

theorem assign_eq (cur : Option (PassMarker σ)) (patch : Option (Option (PassMarker σ)))
    {seconds : Option Nat} (now : Int) (own : patch = none → seconds = none) :
    Postgres.assign cur patch seconds now = stampLease seconds now (patch.getD cur) := by
  rcases patch with _ | pass
  · rw [own rfl]
    rfl
  · rfl

theorem update_eq {patch : Patch} {guard : ScorecardUpdateGuard} (sent : Sent patch guard)
    (store : Store) (cur : ScorecardRecord) (now : Int) :
    store.update cur patch guard now = InMemory.update cur patch guard now := by
  cases store
  · rfl
  · simp only [Store.update, Postgres.update, InMemory.update, sent.sets, ownerAllows_eq,
      reclaimAllows_eq, assign_eq _ _ now sent.scoring, assign_eq _ _ now sent.execution,
      Bool.not_true, Bool.false_eq_true, if_false]

end Everdict.Passes
