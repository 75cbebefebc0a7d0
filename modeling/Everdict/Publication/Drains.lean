import Everdict.Attempt.Parents
import Everdict.Publication.Operations
import Everdict.Transition

/-!
# Draining a publication

A drain claims one operation, performs its effects, completes or releases the operation and
last writes the export receipt on the scorecard.  It is split at its awaits: the read of a
frozen payload, the call of the exporter, and each store call are steps of their own, and
between two of them any other drain, settle or heartbeat may step.  A drain whose process
dies takes no step any more.

The drains are kept in the order of their claims, so the drain that holds an operation's
latest claim is the last one of it.
-/

namespace Everdict.Publication

open Attempt (ScorecardStatus)
open Transition (Machine)

/-! ## The receipt on the scorecard -/

inductive ExportStatus where
  | succeeded
  | partly
  | failed
  deriving DecidableEq

/-- What the exporter answers; `partly` is the source's "partial". -/
structure ExportAnswer where
  sink : String
  status : ExportStatus
  url : Option String := none
  message : Option String := none
  exportedAt : Nat
  deriving DecidableEq

/-- The receipt, with the settlement it is of once a drain wrote it. -/
structure ScorecardExport extends ExportAnswer where
  scoringRevision : Option Nat := none
  deriving DecidableEq

structure Card where
  status : ScorecardStatus
  exported : Option ScorecardExport := none
  deriving DecidableEq

/-- `cur.export?.scoringRevision ?? 0` -/
def Card.exportRevision (card : Card) : Nat :=
  (card.exported.bind (·.scoringRevision)).getD 0

def isSettledScorecardStatus (status : ScorecardStatus) : Bool :=
  status ≠ .queued && status ≠ .running

def ABORTABLE_SETTLE_STATUSES : List ScorecardStatus :=
  [.queued, .running, .cancelled, .superseded]

/-! ## Performing the effects -/

/-- What the drain's process is wired with, and the digest of the results it was handed. -/
structure PublicationDeps where
  exporter : Bool
  artifacts : Bool
  results : String

/-- `owed`, `permanent` and `exported` of `performEffects`. -/
structure Tally where
  owed : Option String := none
  permanent : Bool := false
  exported : Option ExportAnswer := none
  deriving DecidableEq

/-- A permanent reason is not overwritten by a transient one. -/
def Tally.fail (tally : Tally) (reason : String) (isPermanent : Bool) : Tally :=
  if tally.permanent && !isPermanent then tally
  else { tally with permanent := tally.permanent || isPermanent, owed := some reason }

/-- Where a drain waits. -/
inductive Phase where
  | reading (key : String) (effect : PublicationEffect) (rest : List PublicationEffect)
      (tally : Tally)
  | exporting (effect : PublicationEffect) (rest : List PublicationEffect) (tally : Tally)
  | completing (exported : Option ExportAnswer)
  | positioning (exported : ExportAnswer)
  | writing (exported : ExportAnswer)
  | releasing (reason : String) (owed : Bool)
  | ended
  deriving DecidableEq

/-- What an effect comes to before the first await on it. -/
inductive Attempted where
  | failed (reason : String) (isPermanent : Bool)
  | read (key : String)
  | call

section Effects

-- `readExportPayload` answers the digest of what an inline payload decodes to, or the error
variable (readExportPayload : String → Except String String) (deps : PublicationDeps)

def attempt (effect : PublicationEffect) : Attempted :=
  if !deps.exporter then .failed "no trace-sink exporter is wired here" false
  else
    match effect.payload with
    | .frozen key =>
        if deps.artifacts then .read key
        else
          .failed ("no artifact store is wired here — the settlement's frozen export payload " ++
            "cannot be read") false
    | .inline bytes _ =>
        match readExportPayload bytes with
        | .error err => .failed s!"the inline export payload could not be decoded: {err}" true
        | .ok digest =>
            if digest ≠ effect.payloadDigest then
              .failed "the inline export payload does not digest to the planned payload" true
            else .call
    | .unfrozen reason =>
        if deps.results ≠ effect.payloadDigest then
          .failed ("the record's results are no longer the ones this settlement counted, and " ++
            s!"its payload was never frozen ({reason}) — not exported") true
        else .call

/-- The loop from one await to the next. -/
def proceed : List PublicationEffect → Tally → Phase
  | [], tally =>
      match tally.owed with
      | some reason => .releasing reason !tally.permanent
      | none => .completing tally.exported
  | effect :: rest, tally =>
      match attempt readExportPayload deps effect with
      | .failed reason isPermanent => proceed rest (tally.fail reason isPermanent)
      | .read key => .reading key effect rest tally
      | .call => .exporting effect rest tally

/-- What the artifact store answers: the digest of the parsed bytes, nothing, or an error. -/
inductive Frozen where
  | bytes (digest : String)
  | absent
  | failed (err : String)

def afterRead (key : String) (effect : PublicationEffect) (rest : List PublicationEffect)
    (tally : Tally) : Frozen → Phase
  | .absent =>
      proceed readExportPayload deps rest
        (tally.fail s!"the staged export payload '{key}' is not in the store" true)
  | .failed err =>
      proceed readExportPayload deps rest
        (tally.fail s!"the staged export payload could not be read: {err}" false)
  | .bytes digest =>
      if digest ≠ effect.payloadDigest then
        proceed readExportPayload deps rest
          (tally.fail
            s!"the staged export payload '{key}' does not digest to the planned payload" true)
      else .exporting effect rest tally

def afterExport (rest : List PublicationEffect) (tally : Tally) :
    Except String (Option ExportAnswer) → Phase
  | .ok exported => proceed readExportPayload deps rest { tally with exported }
  | .error err =>
      proceed readExportPayload deps rest (tally.fail s!"trace-sink export failed: {err}" false)

end Effects

/-- Is there an effect the drain may still start? -/
def Phase.mayStart : Phase → Bool
  | .reading .. => true
  | .exporting _ rest _ => !rest.isEmpty
  | _ => false

def Phase.isExporting : Phase → Bool
  | .exporting .. => true
  | _ => false

/-! ## The world -/

structure Drain where
  operation : PublicationOperation
  owner : String
  leaseSeconds : Nat
  deps : PublicationDeps
  phase : Phase

structure World where
  cards : Table String Card
  operations : Table String PublicationOperation
  drains : List Drain

/-- The clocks are the publishers' own: an event that asks for the time carries it. -/
inductive Event where
  | create (scorecardId : String)
  /-- The settle that decides a batch; its operation rides the write. -/
  | settle (scorecardId passId : String) (exports : List PublicationEffect) (now : Nat)
  /-- A later settlement of a decided batch: the ledger takes a row of any revision. -/
  | resettle (settlement : SettlementRef) (exports : List PublicationEffect) (now : Nat)
  | fail (scorecardId : String)
  /-- An aborted batch's partials, with the receipt its streamed exports left. -/
  | abort (scorecardId : String) (cancelled : Bool) (exported : Option ExportAnswer)
  /-- The inline drain or a sweep's: the claim of one operation. -/
  | claim (id owner : String) (leaseSeconds now : Nat) (deps : PublicationDeps)
  /-- A heartbeat of a drain; one in flight may land after the drain ended. -/
  | renew (drain now : Nat)
  | read (drain : Nat) (answer : Frozen)
  | answer (drain : Nat) (exported : Except String (Option ExportAnswer))
  | complete (drain now : Nat)
  /-- The ledger read; `false` where it failed. -/
  | position (drain : Nat) (readable : Bool)
  /-- The receipt's write; `false` where it failed. -/
  | write (drain : Nat) (delivered : Bool)
  | release (drain now : Nat)
  | crash (drain : Nat)

/-- What a step answers: the drain that called the exporter in it, if one did. -/
abbrev Started := Option Nat

namespace World

def empty : World := ⟨.empty, .empty, []⟩

def openPublication (w : World) (operation : Option PublicationOperation) : World :=
  match operation with
  | none => w
  | some operation => { w with operations := openOperation w.operations operation }

def toPhase (w : World) (k : Nat) (drain : Drain) (phase : Phase) : World :=
  { w with drains := w.drains.set k { drain with phase } }

/-- The drain goes on to its next await; the answer says whether that is a call. -/
def goOn (w : World) (k : Nat) (drain : Drain) (phase : Phase) : World × Started :=
  (w.toPhase k drain phase, if phase.isExporting then some k else none)

/-- `none` is the ledger that could not be read, or a newer settlement that is published. -/
def settlementPosition (w : World) (readable : Bool) (settlement : SettlementRef) : Bool :=
  readable &&
    !((listForScorecard w.operations settlement.scorecardId).any fun o =>
      o.state = .published && settlement.scoringRevision < o.settlement.scoringRevision)

/-- The guarded update: `expectExportRevisionBelow`. -/
def writeReceipt (w : World) (settlement : SettlementRef) (exported : ExportAnswer) : World :=
  match w.cards.get settlement.scorecardId with
  | none => w
  | some card =>
      if settlement.scoringRevision ≤ card.exportRevision then w
      else
        { w with
          cards := w.cards.set settlement.scorecardId
            { card with
              exported :=
                some { exported with scoringRevision := some settlement.scoringRevision } } }

/-- An update of one operation's row; a refused one changes nothing. -/
def updateOperation (w : World) (id : String)
    (change : PublicationOperation → Option PublicationOperation) : World :=
  match (w.operations.get id).bind change with
  | none => w
  | some next => { w with operations := w.operations.set id next }

end World

variable (backend : Backend) (readExportPayload : String → Except String String)

def claimStep (w : World) (id owner : String) (leaseSeconds now : Nat) (deps : PublicationDeps) :
    World × Started :=
  match (w.operations.get id).bind (backend.claim · owner leaseSeconds now) with
  | none => (w, none)
  | some operation =>
      let phase := proceed readExportPayload deps operation.effects {}
      ({ w with
          operations := w.operations.set id operation
          drains := w.drains ++ [{ operation, owner, leaseSeconds, deps, phase }] },
        if phase.isExporting then some w.drains.length else none)

def completeStep (w : World) (k : Nat) (drain : Drain) (exported : Option ExportAnswer)
    (now : Nat) : World :=
  match (w.operations.get drain.operation.id).bind (backend.complete · drain.owner now) with
  | none => w.toPhase k drain .ended
  | some next =>
      let w := { w with operations := w.operations.set drain.operation.id next }
      match exported with
      | none => w.toPhase k drain .ended
      | some exported => w.toPhase k drain (.positioning exported)

/-- One step of drain `k`, which waits in the phase the event answers. -/
def drainStep (w : World) (k : Nat) (drain : Drain) : Phase → Event → Option (World × Started)
  | .reading key effect rest tally, .read _ frozen =>
      some (w.goOn k drain (afterRead readExportPayload drain.deps key effect rest tally frozen))
  | .exporting _ rest tally, .answer _ exported =>
      some (w.goOn k drain (afterExport readExportPayload drain.deps rest tally exported))
  | .completing exported, .complete _ now =>
      some (completeStep backend w k drain exported now, none)
  | .positioning exported, .position _ readable =>
      some (w.toPhase k drain
        (if w.settlementPosition readable drain.operation.settlement then .writing exported
          else .ended), none)
  | .writing exported, .write _ delivered =>
      let w := w.toPhase k drain .ended
      some (if delivered then w.writeReceipt drain.operation.settlement exported else w, none)
  | .releasing reason owed, .release _ now =>
      some ((w.updateOperation drain.operation.id
        (backend.release · drain.owner reason owed now)).toPhase k drain .ended, none)
  | _, .renew _ now =>
      some (w.updateOperation drain.operation.id
        (backend.renew · drain.owner drain.leaseSeconds now), none)
  | _, .crash _ => some (w.toPhase k drain .ended, none)
  | _, _ => none

def Event.drain : Event → Option Nat
  | .read k _ | .answer k _ | .complete k _ | .position k _ | .write k _ | .release k _
  | .renew k _ | .crash k => some k
  | _ => none

def settleStep (w : World) (settlement : SettlementRef) (exports : List PublicationEffect)
    (now : Nat) : World :=
  w.openPublication (planPublicationOperation settlement exports now)

def machine : Machine World Event Started := fun w event =>
  match event with
  | .create scorecardId =>
      if (w.cards.get scorecardId).isSome then none
      else some ({ w with cards := w.cards.set scorecardId { status := .queued } }, none)
  | .settle scorecardId passId exports now =>
      (w.cards.get scorecardId).bind fun card =>
        if isSettledScorecardStatus card.status then none
        else
          some (settleStep
            { w with cards := w.cards.set scorecardId { card with status := .succeeded } }
            ⟨scorecardId, 1, passId⟩ exports now, none)
  | .resettle settlement exports now =>
      (w.cards.get settlement.scorecardId).bind fun card =>
        if card.status = .succeeded then some (settleStep w settlement exports now, none)
        else none
  | .fail scorecardId =>
      (w.cards.get scorecardId).bind fun card =>
        if isSettledScorecardStatus card.status then none
        else
          some ({ w with cards := w.cards.set scorecardId { card with status := .failed } }, none)
  | .abort scorecardId cancelled exported =>
      (w.cards.get scorecardId).bind fun card =>
        if card.status ∈ ABORTABLE_SETTLE_STATUSES then
          some ({ w with
            cards := w.cards.set scorecardId
              { status := if cancelled then .cancelled else .superseded
                exported :=
                  match exported with
                  | none => card.exported
                  | some exported => some { exported with } } }, none)
        else none
  | .claim id owner leaseSeconds now deps =>
      some (claimStep backend readExportPayload w id owner leaseSeconds now deps)
  | event =>
      event.drain.bind fun k =>
        w.drains[k]?.bind fun drain =>
          drainStep backend readExportPayload w k drain drain.phase event

end Everdict.Publication
