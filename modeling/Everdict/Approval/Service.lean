import Everdict.Approval.Approval
import Everdict.Transition

/-!
# The approval service

Three calls decide an ask: a member's `decide`, the agent's own `settleFromAgent` and the
expiry timer's `expire`.  Each reads the record, asks the aggregate, writes, and then speaks:
it pushes the facts to the live bus, and a landed decision is signalled, delivered and
resumed.  A call is split where it awaits, so any number of them interleave in the `machine`.
-/

namespace Everdict.Approval

open Transition

/-- What a deployment has wired; `outbox` is the event log of the in-process store, where the
SQL store always has one. -/
structure Deps where
  store : Backend
  outbox : Bool := true
  events : Bool := true
  deliver : Bool := true
  workflow : Bool := true
  resume : Bool := true
  deriving DecidableEq

inductive Entry where
  | decide (decision : Decision) (decidedBy : Option String)
  | settleFromAgent (decision : Decision)
  | expire
  deriving DecidableEq

structure Call where
  tenant : String
  id : String
  entry : Entry
  deriving DecidableEq

inductive Outcome where
  | threw (error : ServiceError)
  | decided (record : ApprovalRecord) (delivered resumed : Bool)
  | returned (record : Option ApprovalRecord)
  deriving DecidableEq

/-- Where a call stands: what it awaits, and what it has in hand. -/
inductive Phase where
  | get
  | update (id : String) (patch : ApprovalPatch) (stamped : List OutboxEvent)
  | updated (id : String) (stamped : List OutboxEvent) (updated : Option ApprovalRecord)
  | deliver (record : ApprovalRecord)
  | resume (record : ApprovalRecord)
  | done (outcome : Outcome)
  deriving DecidableEq

inductive Effect where
  | push (event : OutboxEvent)
  | outbox (event : OutboxEvent)
  | signalDecided (id : String)
  | deliver (record : ApprovalRecord) (decision : Decision)
  | resume (record : ApprovalRecord) (decision : Decision) (decidedBy : Option String)
  deriving DecidableEq

/-- What a step writes: the row of an accepted write, and the effects it starts. -/
structure Report where
  accepted : Option (String × ApprovalRecord) := none
  effects : List Effect := []
  deriving DecidableEq

/-! ## The calls -/

/-- The transition a call asks the aggregate for. -/
def Entry.transition (entry : Entry) (record : ApprovalRecord) (now : String) :
    Except ServiceError ApprovalTransition :=
  match entry with
  | .decide decision decidedBy => Approval.decide record decision decidedBy now
  | .settleFromAgent decision => Approval.decide record decision none now
  | .expire => Approval.expire record now

/-- The record a call cannot use: it is missing, or another tenant's. -/
def Call.missing (call : Call) : Outcome :=
  match call.entry with
  | .decide _ _ =>
      .threw { code := "NOT_FOUND", approval := call.id, message := "Approval not found." }
  | .settleFromAgent _ | .expire => .returned none

/-- `decide` leaves a settled record to the aggregate; the other two answer it. -/
def Entry.skips : Entry → ApprovalRecord → Bool
  | .decide _ _, _ => false
  | .settleFromAgent _, record | .expire, record => !record.isPending

/-- From the answer of `store.get` to the next await. -/
def Call.afterGet (call : Call) (found : Option ApprovalRecord) (stamp : Stamp) : Phase :=
  match found with
  | none => .done call.missing
  | some record =>
      if record.tenant ≠ call.tenant then .done call.missing
      else if call.entry.skips record then .done (.returned (some record))
      else
        match call.entry.transition record stamp.now with
        | .error error => .done (.threw error)
        | .ok transition =>
            .update record.id transition.patch (stampFacts record.tenant transition.facts stamp)

def Deps.appendEvents (deps : Deps) (stamped : List OutboxEvent) : List Effect :=
  if deps.outbox = true ∨ deps.store = .postgres then stamped.map .outbox else []

/-- The store's write, with the outbox rows beside it. -/
def Deps.write (deps : Deps) (ledger : Ledger) (id : String) (patch : ApprovalPatch)
    (stamped : List OutboxEvent) : Ledger × Phase × Report :=
  match deps.store.update ledger id patch with
  | (none, ledger) => (ledger, .updated id stamped none, {})
  | (some record, ledger) =>
      (ledger, .updated id stamped (some record),
        { accepted := some (id, record), effects := deps.appendEvents stamped })

def lostRace (id : String) : ServiceError :=
  { code := "CONFLICT", approval := id
    message :=
      "this approval was decided by somebody else — read it back for the decision that landed" }

/-- The live push stands before the check of the write's answer. -/
def Deps.pushPersisted (deps : Deps) (stamped : List OutboxEvent) : List Effect :=
  if deps.events then stamped.map .push else []

/-- From the answer of `store.update` to the next await. -/
def Call.afterUpdate (call : Call) (deps : Deps) (id : String) (stamped : List OutboxEvent)
    (updated : Option ApprovalRecord) : Phase × List Effect :=
  match call.entry, updated with
  | .decide _ _, none => (.done (.threw (lostRace id)), deps.pushPersisted stamped)
  | .decide decision _, some record =>
      (.deliver record,
        deps.pushPersisted stamped ++
          (if deps.workflow then [.signalDecided record.id] else []) ++
          (if deps.deliver then [.deliver record decision] else []))
  | .settleFromAgent _, updated => (.done (.returned updated), deps.pushPersisted stamped)
  | .expire, none => (.done (.returned none), deps.pushPersisted stamped)
  | .expire, some record =>
      (.deliver record,
        deps.pushPersisted stamped ++ (if deps.deliver then [.deliver record .deny] else []))

/-- From the answer of the delivery to the next await; a rejected delivery answers false. -/
def Call.afterDeliver (call : Call) (deps : Deps) (record : ApprovalRecord) (delivered : Bool) :
    Phase × List Effect :=
  match call.entry with
  | .decide decision decidedBy =>
      if delivered then (.done (.decided record true false), [])
      else
        (.resume record, if deps.resume then [.resume record decision decidedBy] else [])
  | .settleFromAgent _ | .expire => (.done (.returned (some record)), [])

/-! ## The machine -/

structure State where
  ledger : Ledger
  calls : List (Call × Phase) := []

inductive Event where
  | call (call : Call)
  | get (i : Nat) (stamp : Stamp)
  | update (i : Nat)
  | updated (i : Nat)
  | answered (i : Nat) (ok : Bool)
  deriving DecidableEq

/-- The call an event belongs to. -/
def Event.index : Event → Option Nat
  | .call _ => none
  | .get i _ | .update i | .updated i | .answered i _ => some i

/-- What the event does to a call that stands in the phase. -/
def advance (deps : Deps) (ledger : Ledger) (call : Call) (phase : Phase) :
    Event → Option (Ledger × Phase × Report)
  | .get _ stamp =>
      match phase with
      | .get => some (ledger, call.afterGet (ledger.get call.id) stamp, {})
      | _ => none
  | .update _ =>
      match phase with
      | .update id patch stamped => some (deps.write ledger id patch stamped)
      | _ => none
  | .updated _ =>
      match phase with
      | .updated id stamped updated =>
          let (next, effects) := call.afterUpdate deps id stamped updated
          some (ledger, next, { effects })
      | _ => none
  | .answered _ ok =>
      match phase with
      | .deliver record =>
          -- nothing answers where no bridge is wired
          if ok = true ∧ deps.deliver = false then none
          else
            let (next, effects) := call.afterDeliver deps record ok
            some (ledger, next, { effects })
      | .resume record =>
          if ok = true ∧ deps.resume = false then none
          else some (ledger, .done (.decided record false ok), {})
      | _ => none
  | .call _ => none

def machine (deps : Deps) : Machine State Event Report := fun s e =>
  match e with
  | .call call => some ({ s with calls := s.calls ++ [(call, .get)] }, {})
  | e =>
      match e.index with
      | none => none
      | some i =>
          match s.calls[i]? with
          | none => none
          | some (call, phase) =>
              match advance deps s.ledger call phase e with
              | none => none
              | some (ledger, next, report) =>
                  some ({ ledger, calls := s.calls.set i (call, next) }, report)

end Everdict.Approval
