import Everdict.Sorting
import Everdict.Table
import Everdict.Transition

/-!
# The two cancellation ledgers

One row for each cancellation whose teardown is owed.  The store in memory keeps whole
records under the kind and the id of their target and rewrites them; the SQL store keeps
columns under the id alone and upserts them.  Timestamps are the milliseconds that
`toISOString` writes, so their order as texts is their order as numbers.
-/

namespace Everdict.Cancellation

open Transition Transition.Machine Sorting

/-! ## Records -/

inductive CancellationOperationState where
  | requested
  | verifying
  | completed
  | unverifiable
  deriving DecidableEq

inductive CancellationTargetKind where
  | scorecard
  | run
  deriving DecidableEq

structure CancellationTarget where
  kind : CancellationTargetKind
  id : String
  deriving DecidableEq

structure Kills where
  stopped : Nat
  absent : Nat
  deriving DecidableEq

structure CancellationCertificate where
  «at» : Nat
  childrenTerminal : Option Nat := none
  kills : Option Kills := none
  activeManagedWork : Option Nat := none
  activeRunnerLeases : Option Nat := none
  queuedDispatchIntents : Option Nat := none
  activeWorkflows : Option Nat := none
  liveChildren : Option Nat := none
  unverifiable : Option Nat := none
  leasesSignalled : Option Nat := none
  cascadeCancelled : Option Nat := none
  deriving DecidableEq

/-- `{ kind: "unverifiable", requiresOperator: true }` with what varies. -/
structure Escalation where
  attempts : Nat
  alertedAt : Nat
  deriving DecidableEq

structure CancellationOperation where
  target : CancellationTarget
  state : CancellationOperationState
  lastError : Option String := none
  requestedAt : Nat
  completedAt : Option Nat := none
  certificate : Option CancellationCertificate := none
  verificationAttempts : Option Nat := none
  escalation : Option Escalation := none
  nextAttemptAt : Option Nat := none
  deriving DecidableEq

/-- How far a failed teardown came. -/
inductive Reached where
  | requested
  | verifying
  deriving DecidableEq

def Reached.state : Reached → CancellationOperationState
  | .requested => .requested
  | .verifying => .verifying

/-- What a failure adds to the count of verification attempts. -/
def Reached.attempt : Reached → Nat
  | .requested => 0
  | .verifying => 1

inductive CancellationCall where
  | request (target : CancellationTarget) (now : Nat)
  | complete (target : CancellationTarget) (now : Nat)
      (certificate : Option CancellationCertificate)
  | fail (target : CancellationTarget) (error : String) (now : Nat) (state : Reached)
  | escalate (target : CancellationTarget) (reason : String) (now nextAttemptAt attempts : Nat)
  | get (target : CancellationTarget)
  /-- With the time of the database's clock. -/
  | listIncomplete (limit clock : Nat)
  deriving DecidableEq

inductive Answer where
  | done
  | operation (found : Option CancellationOperation)
  | operations (found : List CancellationOperation)
  deriving DecidableEq

/-- A count written only where it is positive. -/
def counted (n : Nat) : Option Nat := if n > 0 then some n else none

@[simp]
theorem counted_eq_none {n : Nat} : counted n = none ↔ n = 0 := by
  unfold counted
  split <;> simp <;> omega

@[simp]
theorem none_eq_counted {n : Nat} : none = counted n ↔ n = 0 := by
  rw [eq_comm, counted_eq_none]

theorem counted_eq_some {n m : Nat} : counted n = some m ↔ n = m ∧ n ≠ 0 := by
  unfold counted
  split <;> simp <;> omega

@[simp]
theorem getD_counted (n : Nat) : (counted n).getD 0 = n := by
  unfold counted
  split
  · rfl
  · simp only [Option.getD_none]
    omega

/-! ## In memory -/

namespace InMemory

def request (prior : Option CancellationOperation) (target : CancellationTarget) (now : Nat) :
    CancellationOperation :=
  match prior with
  | none => { target, state := .requested, requestedAt := now }
  | some prior => { prior with target, state := .requested }

def complete (prior : Option CancellationOperation) (target : CancellationTarget) (now : Nat)
    (certificate : Option CancellationCertificate) : CancellationOperation where
  target
  state := .completed
  requestedAt := (prior.map CancellationOperation.requestedAt).getD now
  completedAt := some now
  certificate

def fail (prior : Option CancellationOperation) (target : CancellationTarget) (error : String)
    (now : Nat) (state : Reached) : CancellationOperation :=
  let attempts := (prior.bind CancellationOperation.verificationAttempts).getD 0 + state.attempt
  { target
    state := state.state
    lastError := some error
    requestedAt := (prior.map CancellationOperation.requestedAt).getD now
    verificationAttempts := counted attempts }

def escalate (prior : Option CancellationOperation) (target : CancellationTarget)
    (reason : String) (now nextAttemptAt attempts : Nat) : CancellationOperation :=
  let base : CancellationOperation :=
    match prior with
    | none => { target, state := .verifying, requestedAt := now }
    | some prior => prior
  { base with
    target
    state := .verifying
    lastError := some reason
    verificationAttempts := some attempts
    escalation := some ⟨attempts, now⟩
    nextAttemptAt := some nextAttemptAt }

end InMemory

abbrev OperationMap := Table CancellationTarget CancellationOperation

/-- The operations still owed, oldest first. -/
def OperationMap.listIncomplete (operations : OperationMap) (limit : Nat) :
    List CancellationOperation :=
  (sortBy CancellationOperation.requestedAt
    (operations.values.filter fun op => op.state ≠ .completed)).take limit

def inMemory : Machine OperationMap CancellationCall Answer
  | m, .request target now =>
      some (m.set target (InMemory.request (m.get target) target now), .done)
  | m, .complete target now certificate =>
      some (m.set target (InMemory.complete (m.get target) target now certificate), .done)
  | m, .fail target error now state =>
      some (m.set target (InMemory.fail (m.get target) target error now state), .done)
  | m, .escalate target reason now nextAttemptAt attempts =>
      some (m.set target
        (InMemory.escalate (m.get target) target reason now nextAttemptAt attempts), .done)
  | m, .get target => some (m, .operation (m.get target))
  | m, .listIncomplete limit _ => some (m, .operations (m.listIncomplete limit))

/-! ## In SQL -/

/-- The columns beside `scorecard_id`. -/
structure CancellationRow where
  targetKind : CancellationTargetKind
  state : CancellationOperationState
  lastError : Option String := none
  requestedAt : Nat
  completedAt : Option Nat := none
  certificate : Option CancellationCertificate := none
  verificationAttempts : Nat := 0
  escalatedAt : Option Nat := none
  nextAttemptAt : Option Nat := none
  deriving DecidableEq

def toOperation (id : String) (row : CancellationRow) : CancellationOperation where
  target := ⟨row.targetKind, id⟩
  state := row.state
  lastError := row.lastError
  requestedAt := row.requestedAt
  completedAt := row.completedAt
  certificate := row.certificate
  verificationAttempts := counted row.verificationAttempts
  escalation := row.escalatedAt.map fun escalatedAt => ⟨row.verificationAttempts, escalatedAt⟩
  nextAttemptAt := row.nextAttemptAt

/-! Each write is an `INSERT … ON CONFLICT (scorecard_id) DO UPDATE`: the row written
where none was, and the row rewritten. -/

namespace Postgres

def request (prior : Option CancellationRow) (target : CancellationTarget) (now : Nat) :
    CancellationRow :=
  match prior with
  | none => { targetKind := target.kind, state := .requested, requestedAt := now }
  | some row =>
      { row with
        state := .requested
        targetKind := target.kind
        lastError := none
        completedAt := none
        certificate := none }

def complete (prior : Option CancellationRow) (target : CancellationTarget) (now : Nat)
    (certificate : Option CancellationCertificate) : CancellationRow :=
  match prior with
  | none =>
      { targetKind := target.kind
        state := .completed
        requestedAt := now
        completedAt := some now
        certificate }
  | some row =>
      { row with
        state := .completed
        targetKind := target.kind
        lastError := none
        completedAt := some now
        certificate }

def fail (prior : Option CancellationRow) (target : CancellationTarget) (error : String)
    (now : Nat) (state : Reached) : CancellationRow :=
  match prior with
  | none =>
      -- the inserted row takes the column's default of zero attempts, whatever the state
      { targetKind := target.kind
        state := state.state
        lastError := some error
        requestedAt := now }
  | some row =>
      { row with
        state := state.state
        targetKind := target.kind
        lastError := some error
        completedAt := none
        certificate := none
        verificationAttempts := row.verificationAttempts + state.attempt }

def escalate (prior : Option CancellationRow) (target : CancellationTarget) (reason : String)
    (now nextAttemptAt attempts : Nat) : CancellationRow :=
  match prior with
  | none =>
      { targetKind := target.kind
        state := .verifying
        lastError := some reason
        requestedAt := now
        escalatedAt := some now
        nextAttemptAt := some nextAttemptAt
        verificationAttempts := attempts }
  | some row =>
      { row with
        state := .verifying
        targetKind := target.kind
        lastError := some reason
        escalatedAt := row.escalatedAt.or (some now)
        nextAttemptAt := some nextAttemptAt
        verificationAttempts := attempts
        completedAt := none }

end Postgres

abbrev OperationTable := Table String CancellationRow

abbrev Keyed := String × CancellationRow

def owed (e : Keyed) : Bool := e.2.state ≠ .completed

/-- Is the row not backed off? -/
def due (clock : Nat) (e : Keyed) : Bool := e.2.nextAttemptAt.all (· ≤ clock)

def age (e : Keyed) : Nat := e.2.requestedAt

/-- The rows still owed and due, oldest first. `scan` is the order in which the database
comes upon the rows, and so the order of rows of one age. -/
def OperationTable.listIncomplete (scan : List Keyed → List Keyed) (operations : OperationTable)
    (limit clock : Nat) : List CancellationOperation :=
  ((sortBy age ((scan operations.entries).filter fun e => owed e && due clock e)).take limit).map
    fun e => toOperation e.1 e.2

def postgres (scan : List Keyed → List Keyed) : Machine OperationTable CancellationCall Answer
  | t, .request target now =>
      some (t.set target.id (Postgres.request (t.get target.id) target now), .done)
  | t, .complete target now certificate =>
      some (t.set target.id (Postgres.complete (t.get target.id) target now certificate), .done)
  | t, .fail target error now state =>
      some (t.set target.id (Postgres.fail (t.get target.id) target error now state), .done)
  | t, .escalate target reason now nextAttemptAt attempts =>
      some (t.set target.id
        (Postgres.escalate (t.get target.id) target reason now nextAttemptAt attempts), .done)
  | t, .get target =>
      some (t, .operation (((t.get target.id).filter fun row => row.targetKind = target.kind).map
        (toOperation target.id)))
  | t, .listIncomplete limit clock => some (t, .operations (t.listIncomplete scan limit clock))

end Everdict.Cancellation
