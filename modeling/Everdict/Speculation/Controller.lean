import Mathlib.Data.Rat.Floor
import Everdict.Contracts.CaseJob
import Everdict.FirstSuccess
import Everdict.Sorting
import Everdict.Transition

/-!
# The speculation controller

`SpeculationController.run` wraps one case execution: when a case of the batch's tail takes
too long, a duplicate of its job is dispatched on another runtime, and the first success of
the two answers the case.

A controller runs the races of a batch.  What happens to one of them between two awaits is a
`Turn`: its timer fires, the reattempt hook answers or rejects, a branch succeeds or rejects.
The breaker, the clock and the hook are the environment's; a turn is handed what they answer.
-/

namespace Everdict.Speculation

open FirstSuccess Sorting

variable {ρ ε : Type*}

structure SpilloverOutcome (ρ : Type*) where
  result : ρ
  target : Option String
  job : CaseJob
  deriving DecidableEq

structure SpeculationOpts where
  targets : List String
  tenant : String
  totalCases : Nat
  minStragglerMs : Option ℚ := none
  seedMedianMs : Option ℚ := none
  medianFactor : Option ℚ := none
  rearmMs : Option ℚ := none

def DEFAULT_MIN_STRAGGLER_MS : ℚ := (10000 : Nat)

def DEFAULT_REARM_MS : ℚ := (1000 : Nat)

/-- `job.evalCase.placement?.target` -/
def assignedTarget (job : CaseJob) : Option String :=
  job.evalCase.placement.bind Placement.target

/-- The job with its placement rewritten; its other fields are the job's own. -/
def duplicateOf (job : CaseJob) (target : String) : CaseJob :=
  { job with evalCase := { job.evalCase with placement := some { target := some target } } }

inductive Branch where
  | primary
  | duplicate
  deriving DecidableEq

/-- What the controller does to the outside.  A pick and a dispatch are logged with the circuits
that are open at that moment. -/
inductive Call (ρ ε : Type*) where
  | execute (branch : Branch) (job : CaseJob) (opened : List String)
  | onSpeculate (caseId assigned target : String) (opened : List String)
  | onWin (caseId winner : String) (speculated : Bool)
  | cancelQueued (caseId : String)
  | onLoser (outcome : SpilloverOutcome ρ) (caseId : String)
  | onLoserFailure (job : CaseJob) (caseId : String)
  | resolve (outcome : SpilloverOutcome ρ)
  | reject (error : Option ε)

/-- The promise that one `run` returned, and the variables its closures share. -/
structure CaseRace (ρ ε : Type*) where
  job : CaseJob
  startedAt : ℚ
  timer : Option ℚ := none
  speculated : Bool := false
  /-- The shell the timer built, once it has speculated. -/
  duplicate : Option CaseJob := none
  /-- The duplicate as dispatched. -/
  duplicateJob : Option CaseJob := none
  pending : Nat := 0
  settled : Bool := false
  firstError : Option ε := none
  /-- A branch hands over its own job object: `lost !== job` holds of all but the primary's. -/
  rejectedBranches : List (Branch × CaseJob) := []
  /-- The branches whose promise is still out. -/
  inFlight : List Branch := []
  /-- How the branches ended, in order, with the job each had by then. -/
  ended : List (Ending Branch CaseJob (SpilloverOutcome ρ)) := []
  calls : List (Call ρ ε) := []

structure Controller (ρ ε : Type*) where
  started : Nat := 0
  durations : List ℚ := []
  races : List (CaseRace ρ ε) := []

/-! ## When and where to speculate -/

def median (durations : List ℚ) : Option ℚ := (sortBy id durations)[durations.length / 2]?

def thresholdMs (opts : SpeculationOpts) (durations : List ℚ) : Option ℚ :=
  (if durations.length > 0 then median durations else opts.seedMedianMs).map fun median =>
    max (opts.minStragglerMs.getD DEFAULT_MIN_STRAGGLER_MS)
      (opts.medianFactor.getD (2 : Nat) * median)

/-- `this.thresholdMs() ?? this.opts.minStragglerMs ?? DEFAULT_MIN_STRAGGLER_MS` -/
def straggles (opts : SpeculationOpts) (durations : List ℚ) : ℚ :=
  ((thresholdMs opts durations).or opts.minStragglerMs).getD DEFAULT_MIN_STRAGGLER_MS

/-- The key of a runtime's circuit. -/
def circuit (opts : SpeculationOpts) (target : String) : String := opts.tenant ++ ":" ++ target

def duplicateTarget (opts : SpeculationOpts) (opened : List String) (assigned : Option String) :
    Option String :=
  if opts.targets.length ≤ 1 then none
  else opts.targets.find? fun t => some t ≠ assigned ∧ circuit opts t ∉ opened

/-! ## The race of one case -/

namespace CaseRace

def call (race : CaseRace ρ ε) (made : List (Call ρ ε)) : CaseRace ρ ε :=
  { race with calls := race.calls ++ made }

def join (race : CaseRace ρ ε) (branch : Branch) : CaseRace ρ ε :=
  { race with pending := race.pending + 1, inFlight := race.inFlight ++ [branch] }

def finish (race : CaseRace ρ ε) (fn : CaseRace ρ ε → CaseRace ρ ε) : CaseRace ρ ε :=
  if race.settled then race else fn { race with settled := true, timer := none }

/-- The job a branch names when it rejects (`branchJobOf`). -/
def branchJobOf (race : CaseRace ρ ε) : Branch → CaseJob
  | .primary => race.job
  | .duplicate => (race.duplicateJob.or race.duplicate).getD race.job

def branchEnded (race : CaseRace ρ ε) (branch : Branch) (value : Option (SpilloverOutcome ρ)) :
    CaseRace ρ ε :=
  { race with
    inFlight := race.inFlight.erase branch
    ended := race.ended ++ [.mk branch (race.branchJobOf branch) value] }

def handOver (race : CaseRace ρ ε) (lost : List (Branch × CaseJob)) : List (Call ρ ε) :=
  lost.map fun x => .onLoserFailure x.2 race.job.evalCase.id

/-- A branch has succeeded; what it pushes on `durations` comes along. -/
def onFulfilled (race : CaseRace ρ ε) (branch : Branch) (v : SpilloverOutcome ρ) (now : ℚ) :
    CaseRace ρ ε × List ℚ :=
  let race := race.branchEnded branch (some v)
  let caseId := race.job.evalCase.id
  if race.settled then (race.call [.onLoser v caseId], [])
  else
    (race.finish fun race =>
      race.call ([.onWin caseId ((v.target.or (assignedTarget race.job)).getD "") race.speculated] ++
        (if race.speculated then [.cancelQueued caseId] else []) ++
        race.handOver race.rejectedBranches ++ [.resolve v]),
      [now - race.startedAt])

def onRejected (race : CaseRace ρ ε) (branch : Branch) (e : Option ε) : CaseRace ρ ε :=
  let lost := race.branchJobOf branch
  let race := race.branchEnded branch none
  let race :=
    if race.settled then race.call [.onLoserFailure lost race.job.evalCase.id]
    else { race with rejectedBranches := race.rejectedBranches ++ [(branch, lost)] }
  let race := { race with firstError := race.firstError.or e, pending := race.pending - 1 }
  if race.pending = 0 then
    race.finish fun race =>
      race.call (race.handOver (race.rejectedBranches.filter fun x => x.1 ≠ .primary) ++
        [.reject race.firstError])
  else race

/-- The duplicate's branch joins; its hook is out. -/
def speculate (race : CaseRace ρ ε) (target : String) (opened : List String) : CaseRace ρ ε :=
  ({ race with
    timer := none
    speculated := true
    duplicate := some (duplicateOf race.job target) }.call
    [.onSpeculate race.job.evalCase.id ((assignedTarget race.job).getD "") target
      opened]).join .duplicate

/-- The timer's callback. -/
def onTimer (race : CaseRace ρ ε) (opts : SpeculationOpts) (s : Controller ρ ε) (now : ℚ)
    (opened : List String) : CaseRace ρ ε :=
  let race := { race with timer := none }
  if race.settled || race.speculated then race
  else
    let rearm := opts.rearmMs.getD DEFAULT_REARM_MS
    -- pure tail only
    if s.started < opts.totalCases then { race with timer := some rearm }
    else
      let threshold := straggles opts s.durations
      let elapsed := now - race.startedAt
      if elapsed < threshold then { race with timer := some (max rearm (threshold - elapsed)) }
      else
        match duplicateTarget opts opened (assignedTarget race.job) with
        | none => race
        | some target => race.speculate target opened

/-- The reattempt hook of the duplicate has not answered. -/
def Opening (race : CaseRace ρ ε) : Prop :=
  race.duplicateJob = none ∧ .duplicate ∈ race.inFlight

instance (race : CaseRace ρ ε) : Decidable race.Opening := inferInstanceAs (Decidable (_ ∧ _))

/-- `(await this.opts.reattempt?.(duplicate)) ?? duplicate`, and the dispatch behind it. -/
def onReattempted (race : CaseRace ρ ε) (answer : Option CaseJob) (opened : List String) :
    CaseRace ρ ε :=
  let job := (answer.or race.duplicate).getD race.job
  { race with duplicateJob := some job }.call [.execute .duplicate job opened]

/-- The branch was dispatched and its promise is out. -/
def Runs (race : CaseRace ρ ε) (branch : Branch) : Prop :=
  branch ∈ race.inFlight ∧ (branch = .duplicate → race.duplicateJob ≠ none)

instance (race : CaseRace ρ ε) (branch : Branch) : Decidable (race.Runs branch) :=
  inferInstanceAs (Decidable (_ ∧ _))

end CaseRace

/-! ## The controller -/

inductive Turn (ρ ε : Type*) where
  | timer (now : ℚ) (opened : List String)
  | reattempted (answer : Option CaseJob) (opened : List String)
  | reattemptRejected (error : Option ε)
  | fulfilled (branch : Branch) (outcome : SpilloverOutcome ρ) (now : ℚ)
  | rejected (branch : Branch) (error : Option ε)

def CaseRace.turn (race : CaseRace ρ ε) (opts : SpeculationOpts) (s : Controller ρ ε) :
    Turn ρ ε → Option (CaseRace ρ ε × List ℚ)
  | .timer now opened =>
      if race.timer = none then none else some (race.onTimer opts s now opened, [])
  | .reattempted answer opened =>
      if race.Opening then some (race.onReattempted answer opened, []) else none
  | .reattemptRejected e => if race.Opening then some (race.onRejected .duplicate e, []) else none
  | .fulfilled branch v now =>
      if race.Runs branch then some (race.onFulfilled branch v now) else none
  | .rejected branch e => if race.Runs branch then some (race.onRejected branch e, []) else none

def begun (opts : SpeculationOpts) (durations : List ℚ) (job : CaseJob) (now : ℚ)
    (opened : List String) : CaseRace ρ ε :=
  let race := (({ job := job, startedAt := now } : CaseRace ρ ε).call
    [.execute .primary job opened]).join .primary
  if (duplicateTarget opts opened (assignedTarget job)).isSome then
    { race with timer := some (straggles opts durations) }
  else race

inductive Event (ρ ε : Type*) where
  | run (job : CaseJob) (now : ℚ) (opened : List String)
  | turn (i : Nat) (turn : Turn ρ ε)

def step (opts : SpeculationOpts) : Transition.Machine (Controller ρ ε) (Event ρ ε) Unit
  | s, .run job now opened =>
      some ({ s with
        started := s.started + 1
        races := s.races ++ [begun opts s.durations job now opened] }, ())
  | s, .turn i turn =>
      (s.races[i]?).bind fun race =>
        (race.turn opts s turn).map fun after =>
          ({ s with
            durations := s.durations ++ after.2
            races := s.races.set i after.1 }, ())

end Everdict.Speculation
