import Everdict.Text

/-!
# The physical attempts of an execution

The record of one physical execution, the state machine it goes through, and the
pure decision on which an activation rests.  The state sets are the ones both
ledgers arbitrate on.

`attemptIdOf` joins an execution and a generation into the name of an attempt;
`attemptIdOf_inj` says that the name determines both.
-/

namespace Everdict

/-- The handle of an external object.  The ledgers compare `externalJobId` only. -/
structure RuntimeWorkRef where
  tenant : String
  runId : String
  externalJobId : String
  runtimeId : Option String := none
  attemptId : Option String := none
  namespace_ : Option String := none
  deriving DecidableEq

structure PersistedWorkIntent where
  attemptId : String
  work : RuntimeWorkRef
  persistedAt : String
  deriving DecidableEq

inductive AttemptState where
  | created
  | reserved
  | active
  | revoked
  | executing
  | verdictProduced
  | committed
  | superseded
  | failed
  deriving DecidableEq

def AttemptState.name : AttemptState → String
  | created => "created"
  | reserved => "reserved"
  | active => "active"
  | revoked => "revoked"
  | executing => "executing"
  | verdictProduced => "verdict_produced"
  | committed => "committed"
  | superseded => "superseded"
  | failed => "failed"

def TERMINAL_ATTEMPT_STATES : List AttemptState := [.committed, .superseded, .failed, .revoked]

def isTerminalAttemptState (state : AttemptState) : Bool := state ∈ TERMINAL_ATTEMPT_STATES

def EXECUTING_PREDECESSOR_STATES : List AttemptState := [.created, .reserved, .active]

def VERDICT_PREDECESSOR_STATES : List AttemptState := [.reserved, .active, .executing]

def COMMIT_PREDECESSOR_STATES : List AttemptState :=
  [.created, .reserved, .active, .executing, .verdictProduced]

/-- What may become `committed` is exactly what is not over. -/
theorem mem_commit_iff (state : AttemptState) :
    state ∈ COMMIT_PREDECESSOR_STATES ↔ isTerminalAttemptState state = false := by
  cases state <;> decide

structure AttemptError where
  code : String
  message : String
  deriving DecidableEq

/-- One physical execution, as the ledger holds it. -/
structure ExecutionAttempt where
  attemptId : String
  executionId : String
  generation : Nat
  tenant : String
  scorecardId : Option String
  caseId : Option String
  trial : Option Nat
  childRunId : Option String
  driverEpoch : Option Nat
  leaseEpoch : Option Nat
  state : AttemptState
  unisolated : Bool
  error : Option AttemptError
  runtimeWork : Option RuntimeWorkRef
  openedAt : String
  updatedAt : String
  deriving DecidableEq

/-! ## The name of an attempt -/

def attemptIdOf (executionId : String) (generation : Nat) : String :=
  executionId ++ "#g" ++ toString generation

theorem attemptIdOf_inj {e e' : String} {g g' : Nat} (eq : attemptIdOf e g = attemptIdOf e' g') :
    e = e' ∧ g = g' := by
  have unmarked : ∀ n, '#' ∉ 'g' :: Nat.toDigits 10 n := fun n mem => by
    rcases List.mem_cons.mp mem with mark | mem
    · exact absurd mark (by decide)
    · exact Text.not_mem_digits (by decide) n mem
  simp only [attemptIdOf, ← String.toList_inj, String.toList_append, Text.toList_toString_nat,
    List.append_assoc] at eq
  obtain ⟨names, same⟩ := Text.append_mark_inj (unmarked g) (unmarked g') eq
  exact ⟨String.toList_inj.mp names, Text.toDigits_inj (List.cons.inj same).2⟩

/-! ## May this dispatch create external work now? -/

inductive ActivationDecision where
  | activate
  | alreadyActive
  | refuse (reason : String)
  deriving DecidableEq

structure ActivationRequest where
  state : AttemptState
  recordedWork : Option String
  work : String
  parentOpen : Bool

def decideActivation (request : ActivationRequest) : ActivationDecision :=
  if ¬ request.parentOpen then
    .refuse "the run this attempt belongs to may no longer author external work"
  else if request.state = .revoked then
    .refuse "this reservation was revoked — a cancellation already took it back"
  else if isTerminalAttemptState request.state then
    .refuse ("this attempt is settled (" ++ request.state.name ++ ") and cannot create new work")
  else if request.state = .verdictProduced then
    .refuse "this attempt already produced its verdict and may not create new work"
  else match request.recordedWork with
    | none =>
        .refuse "this attempt reserved no work, so there is nothing it is authorized to create"
    | some recorded =>
        if recorded ≠ request.work then
          .refuse ("this attempt reserved '" ++ recorded ++ "', not '" ++ request.work ++
            "' — a reservation authorizes one object")
        else if request.state = .active ∨ request.state = .executing then .alreadyActive
        else .activate

/-- Work is authorized only for an attempt that is not over, under an open parent,
on the object it reserved. -/
theorem decideActivation_authorizes {request : ActivationRequest}
    (authorized : decideActivation request = .activate ∨ decideActivation request = .alreadyActive) :
    request.parentOpen = true ∧ isTerminalAttemptState request.state = false ∧
      request.recordedWork = some request.work := by
  obtain ⟨state, recorded, work, parentOpen⟩ := request
  cases parentOpen with
  | false => simp [decideActivation] at authorized
  | true =>
      refine ⟨rfl, ?_⟩
      cases recorded with
      | none =>
          cases state <;>
            simp [decideActivation, isTerminalAttemptState, TERMINAL_ATTEMPT_STATES] at authorized
      | some recorded =>
          by_cases same : recorded = work
          · subst same
            refine ⟨?_, rfl⟩
            cases state <;> first
              | rfl
              | simp [decideActivation, isTerminalAttemptState, TERMINAL_ATTEMPT_STATES]
                  at authorized
          · cases state <;>
              simp [decideActivation, isTerminalAttemptState, TERMINAL_ATTEMPT_STATES, same]
                at authorized

/-- The transition `reserved → active` is the decision `activate`. -/
theorem decideActivation_eq_activate_iff (request : ActivationRequest) :
    decideActivation request = .activate ↔
      request.parentOpen = true ∧ request.recordedWork = some request.work ∧
        (request.state = .created ∨ request.state = .reserved) := by
  obtain ⟨state, recorded, work, parentOpen⟩ := request
  cases parentOpen with
  | false => simp [decideActivation]
  | true =>
      cases recorded with
      | none =>
          cases state <;> simp [decideActivation, isTerminalAttemptState, TERMINAL_ATTEMPT_STATES]
      | some recorded =>
          by_cases same : recorded = work <;> cases state <;>
            simp [decideActivation, isTerminalAttemptState, TERMINAL_ATTEMPT_STATES, same]

end Everdict
