import Everdict.Fencing
import Everdict.Passes.Markers
import Mathlib.Logic.Function.Basic

/-!
# The callers of the two passes

`ScorecardScoreService.score` with the activities of its pass, and `RetryCasesInPlace.run`,
as machines over one scorecard and one clock.  Every caller is split at its awaits, so any
other caller may step in between, and a process may crash there with all its callers.

A request is one whose other checks pass: the batch is settled, its plane and the named cases
are there, a reason is given where one is owed.  What a pass does besides the scorecard (the
judging, the dispatch of the cases) leaves the markers and is not here.
-/

namespace Everdict.Passes

open Fencing (Landed)
open Function (update)
open Retry (PassStatus ExecutionPassAuthority)
open Transition (Machine)

/-! ## The world -/

inductive Axis where
  | scoring
  | execution
  deriving DecidableEq

/-- Where a caller of the scoring axis waits. -/
inductive ScoreCall where
  | idle
  /-- `score` has its record. -/
  | fetched (record : ScorecardRecord)
  /-- `score` pins its judges. -/
  | pinning (record : ScorecardRecord)
  /-- `score` seals its judge closure. -/
  | sealing (record : ScorecardRecord)
  /-- `score` claimed the pass and starts its driver. -/
  | starting (passId : String) (pass : ScoringPass)
  /-- The in-process pass (`tracked`) or an activity acts for the pass; `fresh` is the record
  it read last. -/
  | owning (tracked : Bool) (passId : String) (pass : ScoringPass)
      (fresh : Option ScorecardRecord)
  /-- A heartbeat of the in-process pass that is over may be in flight. -/
  | lingering (passId : String) (pass : ScoringPass)
  | ended

/-- Where a caller of the execution axis waits. -/
inductive RetryCall where
  | idle
  | claiming (record : ScorecardRecord)
  | dispatching (record : ScorecardRecord) (claimed : ExecutionPass)
      (authority : ExecutionPassAuthority)
  /-- The pass threw and its marker is about to be marked failed. -/
  | failing (claimed : ExecutionPass) (passId : String)
  | ended

def ScoreCall.die : ScoreCall → ScoreCall
  | .idle => .idle
  | _ => .ended

def RetryCall.die : RetryCall → RetryCall
  | .idle => .idle
  | _ => .ended

structure World where
  record : ScorecardRecord
  now : Int
  scores : Nat → ScoreCall
  retries : Nat → RetryCall
  /-- The processes whose `inFlight` set has the scorecard. -/
  inFlight : List Nat
  /-- The identities that passes carried so far. -/
  spent : List String

inductive ScoreEvent where
  | read
  | pin
  | check
  | claim (passId : String) (selection : JudgeSelection) (submittedBy : Option String)
  /-- The workflow started and owns the pass. -/
  | handOff
  /-- A workflow already holds the pass's id. -/
  | refuseStart
  /-- The pass goes on in this process. -/
  | track
  /-- An activity of the pass, with the identity it was given. -/
  | activity (passId : String)
  | reread
  | renew
  | note (message : String)
  | settle
  | fail (reason : String)
  | finish

inductive RetryEvent where
  | read
  | claim (passId : String) (selection : RetrySelection) (submittedBy : Option String)
  | settle
  | throw
  | fail (reason : String)

inductive Event where
  | score (caller : Nat) (event : ScoreEvent)
  | retry (caller : Nat) (event : RetryEvent)
  | crash (process : Nat)
  | tick (elapsed : Nat)

/-- The write of a step that took effect, if there was one. -/
abbrev Effect := Option (Axis × Landed String)

namespace World

def setScore (w : World) (c : Nat) (call : ScoreCall) : World :=
  { w with scores := update w.scores c call }

def setRetry (w : World) (c : Nat) (call : RetryCall) : World :=
  { w with retries := update w.retries c call }

/-- A guarded update of the scorecard. -/
def write (w : World) (store : Store) (sent : Patch × ScorecardUpdateGuard) (axis : Axis)
    (what : Landed String) : World × Effect :=
  match store.update w.record sent.1 sent.2 w.now with
  | none => (w, none)
  | some record => ({ w with record }, some (axis, what))

end World

/-! ## The updates of the scoring axis -/

def latestRevision (scoring : List Nat) : Nat := (scoring.getLast?).getD 0

/-- The marker `score` builds from the record it read. -/
def newScoringPass (record : ScorecardRecord) (passId : String) (selection : JudgeSelection)
    (submittedBy : Option String) (now : Int) : ScoringPass where
  passId := some passId
  epoch := some ((record.scoringPass.bind (·.epoch)).getD 0 + 1)
  leaseUntil := some (now + SCORING_PASS_LEASE_MS)
  heartbeatAt := some now
  targetRevision := latestRevision record.scoring + 1
  baseRevision := latestRevision record.scoring
  selection
  startedAt := now
  startedBy := submittedBy
  status := .running

def claimScoring (record : ScorecardRecord) (pass : ScoringPass) (now : Int) :
    Patch × ScorecardUpdateGuard :=
  ({ scoringPass := some (some pass), updatedAt := some now },
    { expectScoringPassId := some (record.scoringPass.bind (·.passId))
      expectScoringPassReclaimable := record.scoringPass.isSome
      stampScoringLeaseSeconds := some (5 * 60) })

def renewScoring (passId : String) (pass : ScoringPass) (now : Int) :
    Patch × ScorecardUpdateGuard :=
  ({ scoringPass := some (some
        { pass with leaseUntil := some (now + SCORING_PASS_LEASE_MS), heartbeatAt := some now })
     updatedAt := some now },
    { expectScoringPassId := some (some passId), stampScoringLeaseSeconds := some (5 * 60) })

/-- The step `finalizeScore` appends for the cases it stopped planning. -/
def noteScoring (passId : String) (fresh : ScorecardRecord) (message : String) (now : Int) :
    Patch × ScorecardUpdateGuard :=
  ({ steps := some (fresh.steps ++ [message]), updatedAt := some now },
    { expectScoringPassId := some (some passId) })

/-- The settle of `aggregate`: the revision is appended and the marker cleared in one write. -/
def settleScoring (passId : String) (fresh : ScorecardRecord) (now : Int) :
    Patch × ScorecardUpdateGuard :=
  ({ scoring := some (fresh.scoring ++ [latestRevision fresh.scoring + 1])
     scoringPass := some none, updatedAt := some now },
    { expectScoringCount := some fresh.scoring.length
      expectScoringPassId := some (some passId) })

def failedPass {σ : Type} (pass : PassMarker σ) (reason : String) (now : Int) : PassMarker σ :=
  { pass with status := .failed, failedAt := some now, failure := some reason }

def START_FAILURE : String :=
  "the scoring workflow could not start — another execution already holds this pass's id"

def refuseScoring (passId : String) (pass : ScoringPass) (now : Int) :
    Patch × ScorecardUpdateGuard :=
  ({ scoringPass := some (some (failedPass pass START_FAILURE now)), updatedAt := some now },
    { expectScoringPassId := some (some passId) })

/-- The mark of a pass that died, on the marker that was read. -/
def failScoring (passId : String) (fresh : ScorecardRecord) (live : ScoringPass) (reason : String)
    (now : Int) : Patch × ScorecardUpdateGuard :=
  ({ scoringPass := some (some (failedPass live reason now))
     steps := some (fresh.steps ++ [reason]), updatedAt := some now },
    { expectScoringPassId := some (some passId) })

/-- May the activity act for the pass it names? -/
def owningPass (record : ScorecardRecord) (passId : String) : Option ScoringPass :=
  record.scoringPass.filter fun live => live.passId = some passId ∧ live.status = .running

/-- The lease ends soon enough to renew it. -/
def renewalDue (pass : ScoringPass) (now : Int) : Bool :=
  match pass.leaseUntil with
  | none => true
  | some leaseUntil => decide (leaseUntil - now ≤ SCORING_PASS_RENEW_BEFORE_MS)

/-! ## The updates of the execution axis -/

def nextExecutionRevision (executions : List Nat) : Nat := executions.foldl max 0 + 1

def newExecutionPass (record : ScorecardRecord) (passId : String) (selection : RetrySelection)
    (submittedBy : Option String) (now : Int) : ExecutionPass where
  passId := some passId
  epoch := some ((record.executionPass.bind (·.epoch)).getD 0 + 1)
  targetRevision := nextExecutionRevision record.executions
  baseRevision := nextExecutionRevision record.executions - 1
  selection
  startedAt := now
  startedBy := submittedBy
  status := .running

def claimExecution (record : ScorecardRecord) (pass : ExecutionPass) (now : Int) :
    Patch × ScorecardUpdateGuard :=
  ({ executionPass := some (some pass), updatedAt := some now },
    { expectExecutionPassId := some (record.executionPass.bind (·.passId))
      expectExecutionPassReclaimable := record.executionPass.isSome
      stampExecutionLeaseSeconds := some RETRY_PASS_LEASE_SECONDS })

def settleExecution (record : ScorecardRecord) (authority : ExecutionPassAuthority) (now : Int) :
    Patch × ScorecardUpdateGuard :=
  ({ executions := some (record.executions ++ [nextExecutionRevision record.executions])
     executionPass := some none, updatedAt := some now },
    { expectExecutionPassId := some (some authority.passId) })

def failExecution (passId : String) (claimed : ExecutionPass) (reason : String) (now : Int) :
    Patch × ScorecardUpdateGuard :=
  ({ executionPass := some (some (failedPass claimed reason now)) },
    { expectExecutionPassId := some (some passId) })

/-- What the mint of the authority reads of a marker. -/
def mintedFrom (pass : ExecutionPass) : Option Retry.PassMarker :=
  pass.passId.map fun passId =>
    { passId, targetRevision := pass.targetRevision, status := pass.status }

/-! ## The machines -/

section Machines

-- the process a caller runs in, and the id of the scorecard
variable (store : Store) (host : Nat → Nat) (id : String)

/-- One step of caller `c` of the scoring axis. -/
def scoreStep (w : World) (c : Nat) : ScoreCall → ScoreEvent → Option (World × Effect)
  | .idle, .read => some (w.setScore c (.fetched w.record), none)
  | .fetched record, .pin =>
      some (w.setScore c (if host c ∈ w.inFlight then .ended else .pinning record), none)
  | .pinning record, .check =>
      some (w.setScore c
        (if record.scoringPass.all (scoringPassReclaimable · w.now) then .sealing record
          else .ended), none)
  | .sealing record, .claim passId selection submittedBy =>
      let pass := newScoringPass record passId selection submittedBy w.now
      match w.write store (claimScoring record pass w.now) .scoring (.claimed passId) with
      | (w, none) => some (w.setScore c .ended, none)
      | (w, some what) =>
          some ({ w with spent := passId :: w.spent }.setScore c (.starting passId pass),
            some what)
  | .starting _ _, .handOff => some (w.setScore c .ended, none)
  | .starting passId pass, .refuseStart =>
      let (w, effect) :=
        w.write store (refuseScoring passId pass w.now) .scoring (.failed passId)
      some (w.setScore c .ended, effect)
  | .starting passId pass, .track =>
      some ({ w with inFlight := host c :: w.inFlight }.setScore c
        (.owning true passId pass none), none)
  | .idle, .activity passId =>
      some (w.setScore c
        (match owningPass w.record passId with
          | none => .ended
          | some live => .owning false passId live (some w.record)), none)
  | .owning tracked passId pass _, .reread =>
      some (w.setScore c (.owning tracked passId pass (some w.record)), none)
  | .owning _ passId pass _, .renew | .lingering passId pass, .renew =>
      if renewalDue pass w.now then
        some (w.write store (renewScoring passId pass w.now) .scoring (.wrote passId))
      else some (w, none)
  | .owning false passId _ (some fresh), .note message =>
      some (w.write store (noteScoring passId fresh message w.now) .scoring (.wrote passId))
  | .owning _ passId _ (some fresh), .settle =>
      some (w.write store (settleScoring passId fresh w.now) .scoring (.settled passId))
  | .owning _ passId _ (some fresh), .fail reason =>
      match fresh.scoringPass with
      | none => some (w, none)
      | some live =>
          if live.passId ≠ some passId then some (w, none)
          else
            some (w.write store (failScoring passId fresh live reason w.now) .scoring
              (.failed passId))
  | .owning true passId pass _, .finish =>
      some ({ w with inFlight := w.inFlight.filter (· ≠ host c) }.setScore c
        (.lingering passId pass), none)
  | .owning false _ _ _, .finish | .lingering _ _, .finish =>
      some (w.setScore c .ended, none)
  | _, _ => none

/-- One step of caller `c` of the execution axis. -/
def retryStep (w : World) (c : Nat) : RetryCall → RetryEvent → Option (World × Effect)
  | .idle, .read =>
      -- a running marker is refused here, whatever its lease says
      some (w.setRetry c
        (if w.record.executionPass.any (·.status = .running) then .ended
          else .claiming w.record), none)
  | .claiming record, .claim passId selection submittedBy =>
      let pass := newExecutionPass record passId selection submittedBy w.now
      match w.write store (claimExecution record pass w.now) .execution (.claimed passId) with
      | (w, none) => some (w.setRetry c .ended, none)
      | (w, some what) =>
          let w := { w with spent := passId :: w.spent }
          match w.record.executionPass with
          | none => some (w.setRetry c .ended, some what)
          | some claimed =>
              match Retry.executionPassAuthority id (mintedFrom claimed) passId with
              | none => some (w.setRetry c .ended, some what)
              | some authority =>
                  some (w.setRetry c (.dispatching record claimed authority), some what)
  | .dispatching record claimed authority, .settle =>
      match w.write store (settleExecution record authority w.now) .execution
          (.settled authority.passId) with
      | (w, none) => some (w.setRetry c (.failing claimed authority.passId), none)
      | (w, some what) => some (w.setRetry c .ended, some what)
  | .dispatching _ claimed authority, .throw =>
      some (w.setRetry c (.failing claimed authority.passId), none)
  | .failing claimed passId, .fail reason =>
      let (w, effect) :=
        w.write store (failExecution passId claimed reason w.now) .execution (.failed passId)
      some (w.setRetry c .ended, effect)
  | _, _ => none

/-- A process dies with the callers that have begun in it and its `inFlight` set. -/
def crash (w : World) (process : Nat) : World :=
  { w with
    scores := fun c => if host c = process then (w.scores c).die else w.scores c
    retries := fun c => if host c = process then (w.retries c).die else w.retries c
    inFlight := w.inFlight.filter (· ≠ process) }

def step : Machine World Event Effect := fun w event =>
  match event with
  | .score c e => scoreStep store host w c (w.scores c) e
  | .retry c e => retryStep store id w c (w.retries c) e
  | .crash process => some (crash host w process, none)
  | .tick elapsed => some ({ w with now := w.now + elapsed }, none)

end Machines

def PassMarker.ids {σ : Type} (pass : Option (PassMarker σ)) : List String :=
  (pass.bind (·.passId)).toList

/-- A scorecard whose callers have not begun. -/
def World.start (record : ScorecardRecord) (now : Int) : World where
  record
  now
  scores := fun _ => .idle
  retries := fun _ => .idle
  inFlight := []
  spent := PassMarker.ids record.scoringPass ++ PassMarker.ids record.executionPass

/-- The identity a claim mints. -/
def Event.minted : Event → Option String
  | .score _ (.claim passId _ _) | .retry _ (.claim passId _ _) => some passId
  | _ => none

/-- An identity is never minted twice. -/
def Minted (w : World) (e : Event) : Prop := ∀ passId ∈ e.minted, passId ∉ w.spent

instance (w : World) (e : Event) : Decidable (Minted w e) :=
  inferInstanceAs (Decidable (∀ passId ∈ e.minted, passId ∉ w.spent))

end Everdict.Passes
