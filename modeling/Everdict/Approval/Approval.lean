import Everdict.Table

/-!
# Agent approvals

A parked ask is decided through the `Approval` aggregate: a transition is a patch of the
decision fields and the fact that announces it.  Two stores keep the records.  Both merge a
patch into the row; the SQL one asks in the same statement that the row is still pending.
-/

namespace Everdict.Approval

inductive ApprovalStatus where
  | pending
  | approved
  | denied
  | expired
  deriving DecidableEq

def ApprovalStatus.text : ApprovalStatus → String
  | .pending => "pending"
  | .approved => "approved"
  | .denied => "denied"
  | .expired => "expired"

inductive Decision where
  | approve
  | deny
  deriving DecidableEq

def Decision.text : Decision → String
  | .approve => "approve"
  | .deny => "deny"

/-- The tool the agent asked to run, and its input as JSON text. -/
structure ApprovalRequest where
  name : String
  input : Option String := none
  deriving DecidableEq

structure ApprovalRecord where
  id : String
  tenant : String
  sessionId : String
  agentId : Option String := none
  requestId : String
  request : ApprovalRequest
  status : ApprovalStatus
  decidedBy : Option String := none
  decidedAt : Option String := none
  expiresAt : String
  createdAt : String
  updatedAt : String
  deriving DecidableEq

/-- The part of a record a transition writes. -/
structure ApprovalPatch where
  status : ApprovalStatus
  decidedBy : Option String := none
  decidedAt : String
  updatedAt : String
  deriving DecidableEq

/-- `{ ...current, ...patch, id: current.id }`; a decider the patch lacks is kept. -/
def ApprovalPatch.apply (patch : ApprovalPatch) (current : ApprovalRecord) : ApprovalRecord :=
  { current with
    status := patch.status
    decidedBy := patch.decidedBy <|> current.decidedBy
    decidedAt := some patch.decidedAt
    updatedAt := patch.updatedAt }

@[simp] theorem ApprovalPatch.apply_status (patch : ApprovalPatch) (current : ApprovalRecord) :
    (patch.apply current).status = patch.status := rfl

/-! ## Transitions -/

structure DecisionPayload where
  decision : ApprovalStatus
  tool : String
  sessionId : String
  deriving DecidableEq

/-- The fact of a decision: its kind is `approval.decided`, its subject the approval `subject`. -/
structure DomainFact where
  subject : String
  actor : Option String := none
  payload : DecisionPayload
  deriving DecidableEq

structure ApprovalTransition where
  patch : ApprovalPatch
  facts : List DomainFact
  deriving DecidableEq

structure ServiceError where
  code : String
  approval : String
  status : Option ApprovalStatus := none
  message : String
  deriving DecidableEq

def ApprovalRecord.isPending (record : ApprovalRecord) : Bool := record.status = .pending

def assertPending (record : ApprovalRecord) (transition : String) : Except ServiceError Unit :=
  if record.isPending then .ok ()
  else
    .error
      { code := "CONFLICT", approval := record.id, status := some record.status
        message :=
          "approval already settled (" ++ record.status.text ++ ") — " ++ transition ++
            " rejected" }

def statusOf : Decision → ApprovalStatus
  | .approve => .approved
  | .deny => .denied

def decide (record : ApprovalRecord) (decision : Decision) (actor : Option String) (now : String) :
    Except ServiceError ApprovalTransition := do
  assertPending record decision.text
  let status := statusOf decision
  return {
    patch := { status, decidedBy := actor, decidedAt := now, updatedAt := now }
    facts := [{ subject := record.id, actor
                payload := { decision := status, tool := record.request.name
                             sessionId := record.sessionId } }] }

def expire (record : ApprovalRecord) (now : String) : Except ServiceError ApprovalTransition := do
  assertPending record "expire"
  return {
    patch := { status := .expired, decidedAt := now, updatedAt := now }
    facts := [{ subject := record.id
                payload := { decision := .expired, tool := record.request.name
                             sessionId := record.sessionId } }] }

/-! ## Stamped facts -/

/-- The identity and the times a service gives to what it writes. -/
structure Stamp where
  now : String
  newId : String
  createdAt : String
  deriving DecidableEq

structure OutboxEvent where
  id : String
  tenant : String
  fact : DomainFact
  message : String
  createdAt : String
  deriving DecidableEq

def renderFactMessage (fact : DomainFact) : String :=
  let decision := fact.payload.decision.text
  let tool := fact.payload.tool
  let sessionId := fact.payload.sessionId
  if decision = "expired" then s!"Agent approval expired — {tool} (session {sessionId})"
  else s!"Agent approval {decision} — {tool} (session {sessionId})"

def stampFacts (tenant : String) (facts : List DomainFact) (stamp : Stamp) : List OutboxEvent :=
  facts.map fun fact =>
    { id := stamp.newId, tenant, fact, message := renderFactMessage fact
      createdAt := stamp.createdAt }

/-! ## Stores -/

abbrev Ledger := Table String ApprovalRecord

inductive Backend where
  | inMemory
  | postgres
  deriving DecidableEq

namespace InMemory

def update (ledger : Ledger) (id : String) (patch : ApprovalPatch) :
    Option ApprovalRecord × Ledger :=
  match ledger.get id with
  | none => (none, ledger)
  | some current => (some (patch.apply current), ledger.set id (patch.apply current))

end InMemory

namespace Postgres

/-- `UPDATE … WHERE id = $1 AND status = 'pending' RETURNING *`. -/
def update (ledger : Ledger) (id : String) (patch : ApprovalPatch) :
    Option ApprovalRecord × Ledger :=
  match ledger.get id with
  | none => (none, ledger)
  | some current =>
      if current.status = .pending then
        (some (patch.apply current), ledger.set id (patch.apply current))
      else (none, ledger)

end Postgres

def Backend.update : Backend → Ledger → String → ApprovalPatch → Option ApprovalRecord × Ledger
  | .inMemory => InMemory.update
  | .postgres => Postgres.update

variable {store : Backend} {ledger : Ledger} {id : String} {patch : ApprovalPatch}

/-- A write that finds its row pending lands in either store. -/
theorem update_of_pending {current : ApprovalRecord} (found : ledger.get id = some current)
    (pending : current.status = .pending) :
    store.update ledger id patch =
      (some (patch.apply current), ledger.set id (patch.apply current)) := by
  cases store with
  | inMemory => simp only [Backend.update, InMemory.update, found]
  | postgres => simp only [Backend.update, Postgres.update, found, pending, if_true]

/-- The fence of the SQL store: a settled row is left as it is. -/
theorem postgres_update_cases :
    (∃ current, ledger.get id = some current ∧ current.status = .pending) ∨
      Postgres.update ledger id patch = (none, ledger) := by
  unfold Postgres.update
  split
  · exact Or.inr rfl
  · next current found =>
      split
      · next pending => exact Or.inl ⟨current, found, pending⟩
      · exact Or.inr rfl

end Everdict.Approval
