import Everdict.Rights
import Everdict.Table
import Everdict.Transition

/-!
# Envelope admissions in two stores

An envelope counts the runs that were admitted under it, and each admission is a row under
its request id.  The Postgres store claims the row in one statement and decides it in the
next; between the two the row is there with `admitted` NULL.  The in-memory store takes
both steps at once.

`spent_usd` and the advisory `admit` and `settle` belong to the meter, not to the
admission, and are left out.
-/

namespace Everdict.Envelope

open Rights

/-- What a request id was presented for. -/
structure Ask where
  envelopeId : String
  runs : Nat
  deriving DecidableEq

/-- A row of `everdict_envelope_admissions`; `admitted = false` is NULL, the decision is
pending. -/
structure Admission where
  ask : Ask
  admitted : Bool
  deriving DecidableEq

/-- A row of `everdict_envelopes`. -/
structure EnvelopeRow where
  tenant : String
  admittedRuns : Nat
  deriving DecidableEq

/-- How a call of `tryAdmitRuns` ends; `failed` is the error of a statement. -/
inductive Reply
  | admitted (granted : Bool)
  | conflict (held asked : Ask)
  | failed
  deriving DecidableEq

/-- `assertSameRequest` -/
def assertSameRequest (held asked : Ask) : Option Reply :=
  if held = asked then none else some (.conflict held asked)

/-! ## The Postgres store -/

/-- The largest `integer` of Postgres. -/
def maxInt : Nat := 2147483647

structure Tables where
  admissions : Table String Admission
  envelopes : Table String EnvelopeRow

/-- What the decision statement found and did; `gone` is `pending = 0`. -/
inductive Decision
  | gone
  | granted (ask : Ask)
  | refused
  deriving DecidableEq

namespace Tables

def empty : Tables := ⟨Table.empty, Table.empty⟩

/-- The right a request id holds: the ask of its granted row. -/
def held (db : Tables) (requestId : String) : Option Ask :=
  (db.admissions.get requestId).bind fun row => if row.admitted then some row.ask else none

/-- `spend(id).runs` -/
def spend (db : Tables) (id : String) : Nat :=
  ((db.envelopes.get id).map EnvelopeRow.admittedRuns).getD 0

/-- The claim: the row is inserted with its decision pending, or locked and read.
`none` is an error of the statement. -/
def claim (db : Tables) (requestId : String) (ask : Ask) :
    Option (Tables × Admission × Bool) :=
  if maxInt < ask.runs then none
  else match db.admissions.get requestId with
    | none =>
        some ({ db with admissions := db.admissions.set requestId ⟨ask, false⟩ },
          ⟨ask, false⟩, true)
    | some row => some (db, row, false)

/-- `counted`: the envelope row as the decision writes it, or no row when the cap refuses.
The outer `none` is an overflow of the sum. -/
def counted (db : Tables) (tenant : String) (capRuns : Nat) (req : Ask) :
    Option (Option EnvelopeRow) :=
  if capRuns < req.runs then some none
  else match db.envelopes.get req.envelopeId with
    | none => some (some ⟨tenant, req.runs⟩)
    | some row =>
        if maxInt < row.admittedRuns + req.runs then none
        else if row.admittedRuns + req.runs ≤ capRuns then
          some (some { row with admittedRuns := row.admittedRuns + req.runs })
        else some none

/-- The decision: the pending row is granted with its runs counted, or deleted. -/
def decide (db : Tables) (requestId tenant : String) (capRuns : Nat) :
    Option (Tables × Decision) :=
  if maxInt < capRuns then none
  else match db.admissions.get requestId with
    | some ⟨req, false⟩ =>
        match db.counted tenant capRuns req with
        | none => none
        | some none =>
            some ({ db with admissions := db.admissions.erase requestId }, .refused)
        | some (some row) =>
            some (⟨db.admissions.set requestId ⟨req, true⟩,
              db.envelopes.set req.envelopeId row⟩, .granted req)
    | _ => some (db, .gone)

/-- `releaseRuns`, and the ask of the row that is `gone`.  `greatest(0, …)` is the
subtraction of `Nat`. -/
def releaseRuns (db : Tables) (id tenant requestId : String) : Tables × Option Ask :=
  match db.admissions.get requestId, db.envelopes.get id with
  | some ⟨ask, true⟩, some row =>
      if ask.envelopeId = id ∧ row.tenant = tenant then
        (⟨db.admissions.erase requestId,
          db.envelopes.set id { row with admittedRuns := row.admittedRuns - ask.runs }⟩,
          some ask)
      else (db, none)
  | _, _ => (db, none)

end Tables

/-- What a caller does with the row its claim came back with: the answer, or the decision is
next. -/
def afterClaim (ask : Ask) (row : Admission) (inserted : Bool) : Option Reply :=
  if inserted then none
  else match assertSameRequest row.ask ask with
    | some reply => some reply
    | none => if row.admitted then some (.admitted true) else none

/-- What a caller does after its decision: the answer, or it loops back. -/
def afterDecide : Decision → Option Reply
  | .gone => none
  | .granted _ => some (.admitted true)
  | .refused => some (.admitted false)

/-- The attempts a call makes. -/
def attempts : Nat := 3

/-- The loop of `tryAdmitRuns`, with the attempts it has left, when no other call falls
between its statements. -/
def Tables.tryAdmitLoop (tenant requestId : String) (ask : Ask) (capRuns : Nat) :
    Nat → Tables → Tables × Reply
  | 0, db => (db, .admitted false)
  | left + 1, db =>
      match db.claim requestId ask with
      | none => (db, .failed)
      | some (db, row, inserted) =>
          match afterClaim ask row inserted with
          | some reply => (db, reply)
          | none =>
              match db.decide requestId tenant capRuns with
              | none => (db, .failed)
              | some (db, decision) =>
                  match afterDecide decision with
                  | some reply => (db, reply)
                  | none => tryAdmitLoop tenant requestId ask capRuns left db

def Tables.tryAdmitRuns (db : Tables) (id tenant requestId : String) (runs capRuns : Nat) :
    Tables × Reply :=
  db.tryAdmitLoop tenant requestId ⟨id, runs⟩ capRuns attempts

/-! ## The in-memory store -/

structure Memory where
  rows : Table String EnvelopeRow
  requests : Table String Ask

namespace Memory

def empty : Memory := ⟨Table.empty, Table.empty⟩

def row (m : Memory) (id tenant : String) : EnvelopeRow := (m.rows.get id).getD ⟨tenant, 0⟩

def tryAdmitRuns (m : Memory) (id tenant requestId : String) (runs capRuns : Nat) :
    Memory × Reply :=
  match m.requests.get requestId with
  | some held => (m, (assertSameRequest held ⟨id, runs⟩).getD (.admitted true))
  | none =>
      let cur := m.row id tenant
      if capRuns < cur.admittedRuns + runs then (m, .admitted false)
      else
        (⟨m.rows.set id { cur with admittedRuns := cur.admittedRuns + runs },
          m.requests.set requestId ⟨id, runs⟩⟩, .admitted true)

def releaseRuns (m : Memory) (id tenant requestId : String) : Memory :=
  match m.requests.get requestId, m.rows.get id with
  | some held, some cur =>
      if held.envelopeId ≠ id then m
      else if cur.tenant ≠ tenant then m
      else
        ⟨m.rows.set id { cur with admittedRuns := cur.admittedRuns - held.runs },
          m.requests.erase requestId⟩
  | _, _ => m

def spend (m : Memory) (id : String) : Nat :=
  ((m.rows.get id).map EnvelopeRow.admittedRuns).getD 0

end Memory

/-! ## Calls one at a time -/

inductive Request
  | tryAdmitRuns (id tenant requestId : String) (runs capRuns : Nat)
  | releaseRuns (id tenant requestId : String)
  | spend (id : String)

inductive Response
  | replied (reply : Reply)
  | released
  | spent (runs : Nat)
  deriving DecidableEq

def pgEnvelopeStore : Transition.Machine Tables Request Response
  | db, .tryAdmitRuns id tenant requestId runs capRuns =>
      let (db, reply) := db.tryAdmitRuns id tenant requestId runs capRuns
      some (db, .replied reply)
  | db, .releaseRuns id tenant requestId =>
      some ((db.releaseRuns id tenant requestId).1, .released)
  | db, .spend id => some (db, .spent (db.spend id))

def inMemoryEnvelopeStore : Transition.Machine Memory Request Response
  | m, .tryAdmitRuns id tenant requestId runs capRuns =>
      let (m, reply) := m.tryAdmitRuns id tenant requestId runs capRuns
      some (m, .replied reply)
  | m, .releaseRuns id tenant requestId => some (m.releaseRuns id tenant requestId, .released)
  | m, .spend id => some (m, .spent (m.spend id))

/-- No statement of the request leaves the range of `integer`. -/
def Tables.inRange (db : Tables) : Request → Prop
  | .tryAdmitRuns id _ requestId runs capRuns =>
      runs ≤ maxInt ∧ (db.held requestId = none → capRuns ≤ maxInt ∧
        (runs ≤ capRuns → ∀ row, db.envelopes.get id = some row →
          row.admittedRuns + runs ≤ maxInt))
  | _ => True

/-! ## Callers side by side -/

/-- The cap and the tenant of an envelope. -/
structure Terms where
  capRuns : Nat
  tenant : String

inductive Phase
  | claiming (attempt : Nat)
  | deciding (attempt : Nat)
  deriving DecidableEq

/-- A call of `tryAdmitRuns` that has not ended. -/
structure Call where
  requestId : String
  ask : Ask
  phase : Phase
  deriving DecidableEq

structure World where
  db : Tables
  calls : Nat → Option Call

def World.empty : World := ⟨Tables.empty, fun _ => none⟩

/-- The steps: a call begins, sends one of its statements or crashes, and a release is one
statement. -/
inductive Event
  | begin (q : Nat) (requestId : String) (ask : Ask)
  | claim (q : Nat)
  | decide (q : Nat)
  | crash (q : Nat)
  | release (id requestId : String)

/-- The answer of the call that ended in a step, and the right that was charged or given
back. -/
structure Outcome where
  reply : Option Reply
  effect : Option (Entry String Ask)
  deriving DecidableEq

namespace World

variable (w : World)

/-- The call ends with an answer. -/
def finish (db : Tables) (q : Nat) : World :=
  ⟨db, Function.update w.calls q none⟩

/-- The call goes on in another phase. -/
def advance (db : Tables) (q : Nat) (call : Call) (phase : Phase) : World :=
  ⟨db, Function.update w.calls q (some { call with phase })⟩

def claim (q : Nat) (call : Call) (attempt : Nat) : World × Outcome :=
  match w.db.claim call.requestId call.ask with
  | none => (w.finish w.db q, ⟨some .failed, none⟩)
  | some (db, row, inserted) =>
      match afterClaim call.ask row inserted with
      | some reply => (w.finish db q, ⟨some reply, none⟩)
      | none => (w.advance db q call (.deciding attempt), ⟨none, none⟩)

def charged (requestId : String) : Decision → Option (Entry String Ask)
  | .granted ask => some (.charged requestId ask)
  | _ => none

def decide (terms : String → Terms) (q : Nat) (call : Call) (attempt : Nat) :
    World × Outcome :=
  let own := terms call.ask.envelopeId
  match w.db.decide call.requestId own.tenant own.capRuns with
  | none => (w.finish w.db q, ⟨some .failed, none⟩)
  | some (db, decision) =>
      match afterDecide decision with
      | some reply => (w.finish db q, ⟨some reply, charged call.requestId decision⟩)
      | none =>
          if attempt + 1 < attempts then
            (w.advance db q call (.claiming (attempt + 1)), ⟨none, none⟩)
          else (w.finish db q, ⟨some (.admitted false), none⟩)

end World

/-- `PgEnvelopeStore` under concurrent callers. -/
def machine (terms : String → Terms) : Transition.Machine World Event Outcome
  | w, .begin q requestId ask =>
      if (w.calls q).isSome then none
      else some (⟨w.db, Function.update w.calls q (some ⟨requestId, ask, .claiming 0⟩)⟩,
        ⟨none, none⟩)
  | w, .claim q =>
      match w.calls q with
      | some ⟨requestId, ask, .claiming attempt⟩ =>
          some (w.claim q ⟨requestId, ask, .claiming attempt⟩ attempt)
      | _ => none
  | w, .decide q =>
      match w.calls q with
      | some ⟨requestId, ask, .deciding attempt⟩ =>
          some (w.decide terms q ⟨requestId, ask, .deciding attempt⟩ attempt)
      | _ => none
  | w, .crash q => some (w.finish w.db q, ⟨none, none⟩)
  | w, .release id requestId =>
      let (db, gone) := w.db.releaseRuns id (terms id).tenant requestId
      some (⟨db, w.calls⟩, ⟨none, gone.map (.returned requestId)⟩)

/-- A decision that finds a pending row it would grant finds the caller's own ask in it. -/
def OwnDecision (terms : String → Terms) (w : World) : Event → Prop
  | .decide q => ∀ call ask row, w.calls q = some call →
      w.db.admissions.get call.requestId = some ⟨ask, false⟩ →
      w.db.counted (terms call.ask.envelopeId).tenant (terms call.ask.envelopeId).capRuns ask =
        some (some row) → ask = call.ask
  | _ => True

end Everdict.Envelope
