import Everdict.Contracts.CaseJob
import Everdict.Table
import Everdict.Transition
import Mathlib.Data.List.Sort
import Mathlib.Data.Int.Order.Basic

/-!
# The runner lease queue

The in-memory `RunnerJobStore`: a `Map` from job ids to rows, and one atomic step
for each of its operations.  `claimAttempt` is the one operation that awaits
between two writes (the mint of the attempt ledger), so it is two steps: the
claim, which leaves a `Ticket` for the mint in flight, and the mint's return or
failure, which may land at any later moment.

Times are milliseconds.  The case result `ρ` is only stored.
-/

namespace Everdict.Runner

/-- The runner id of a job parked for any runner of its owner. -/
def POOL_RUNNER : String := "*"

inductive Status where
  | queued
  | leased
  | completed
  | failed
  | cancelled
  deriving DecidableEq

structure Entry (ρ : Type) where
  jobId : String
  owner : String
  runnerId : String
  tenant : Option String
  job : CaseJob
  requiredCaps : List String
  status : Status
  cancelRequested : Bool
  leasedBy : Option String
  leaseEpoch : Option Nat
  currentAttemptId : Option String
  activityAt : Int
  result : Option ρ
  error : Option String
  createdAt : Int

structure ParkInput where
  jobId : String
  owner : String
  runnerId : String
  tenant : Option String := none
  job : CaseJob
  requiredCaps : List String := []
  now : Int
  attemptId : Option String := none
  deriving DecidableEq

structure ClaimInput where
  owner : String
  runnerId : String
  advertisedCaps : Option (List String) := none
  leaseTtlMs : Int
  now : Int
  deriving DecidableEq

structure RunnerJobLease where
  jobId : String
  job : CaseJob
  leaseEpoch : Nat
  deriving DecidableEq

/-- What a claim's ledger work answers with. -/
structure ClaimedAttempt where
  job : Option CaseJob
  attemptId : Option String
  deriving DecidableEq

/-- A mint in flight: the lease it was started for and the predecessor it was
given. -/
structure Ticket where
  lease : RunnerJobLease
  prior : Option String
  deriving DecidableEq

structure RunnerJobOutcome (ρ : Type) where
  status : Status
  result : Option ρ
  error : Option String
  ranBy : Option String
  recordingGeneration : Option Nat
  attemptId : Option String
  activityAt : Int

structure Store (ρ : Type) where
  jobs : Table String (Entry ρ)
  minting : List Ticket

variable {ρ : Type}

def Store.empty : Store ρ := ⟨.empty, []⟩

/-- Each row names the job it is stored under. -/
def Keyed (jobs : Table String (Entry ρ)) : Prop :=
  ∀ id e, jobs.get id = some e → e.jobId = id

/-! ## Predicates on a row -/

def isTerminal (e : Entry ρ) : Bool :=
  e.status = .completed ∨ e.status = .failed ∨ e.status = .cancelled

def capsOk (required : List String) : Option (List String) → Bool
  | none => true
  | some advertised => required.all fun c => c ∈ advertised

/-- The current-lease fence: the liveness half of every report. -/
def holdsLease (e : Entry ρ) (runnerId : String) (leaseEpoch : Nat) : Bool :=
  e.status = .leased ∧ e.leasedBy = some runnerId ∧ leaseEpoch ≠ 0 ∧
    e.leaseEpoch = some leaseEpoch

/-- What every mutation of a runner asks for: a cancel revokes the capability. -/
def holdsWritableLease (e : Entry ρ) (runnerId : String) (leaseEpoch : Nat) : Bool :=
  holdsLease e runnerId leaseEpoch ∧ ¬ e.cancelRequested

/-! ## Operations -/

def parked (input : ParkInput) : Entry ρ where
  jobId := input.jobId
  owner := input.owner
  runnerId := input.runnerId
  tenant := input.tenant
  job := input.job
  requiredCaps := input.requiredCaps
  status := .queued
  cancelRequested := false
  leasedBy := none
  leaseEpoch := none
  currentAttemptId := input.attemptId
  activityAt := input.now
  result := none
  error := none
  createdAt := input.now

def park (jobs : Table String (Entry ρ)) (input : ParkInput) : Table String (Entry ρ) :=
  jobs.set input.jobId (parked input)

/-- A lease of this owner whose runner went silent ends before the claim: back to
the queue, or, when the job was cancelled meanwhile, in the cancelled state. -/
def requeueExpired (input : ClaimInput) (e : Entry ρ) : Entry ρ :=
  if e.owner ≠ input.owner ∨ e.status ≠ .leased ∨ input.now - e.activityAt ≤ input.leaseTtlMs then e
  else if e.cancelRequested then { e with status := .cancelled }
  else { e with status := .queued, leasedBy := none }

def claimable (input : ClaimInput) (e : Entry ρ) : Bool :=
  e.owner = input.owner ∧ e.status = .queued ∧ ¬ e.cancelRequested ∧
    (e.runnerId = input.runnerId ∨ e.runnerId = POOL_RUNNER) ∧
    capsOk e.requiredCaps input.advertisedCaps

def poolRank (e : Entry ρ) : Int := if e.runnerId = POOL_RUNNER then 1 else 0

/-- Own queue before the owner pool, then the oldest first. -/
def claimBefore (a b : Entry ρ) : Prop :=
  (if poolRank a - poolRank b ≠ 0 then poolRank a - poolRank b else a.createdAt - b.createdAt) ≤ 0

instance : DecidableRel (claimBefore (ρ := ρ)) := fun a b => by
  unfold claimBefore
  infer_instance

def candidates (jobs : Table String (Entry ρ)) (input : ClaimInput) : List (Entry ρ) :=
  (jobs.values.filter (claimable input)).insertionSort claimBefore

/-- The row after a claim took it. -/
def leased (input : ClaimInput) (e : Entry ρ) : Entry ρ :=
  { e with
    status := .leased
    leasedBy := some input.runnerId
    leaseEpoch := some (e.leaseEpoch.getD 0 + 1)
    activityAt := input.now }

def claim (jobs : Table String (Entry ρ)) (input : ClaimInput) :
    Table String (Entry ρ) × Option RunnerJobLease :=
  let swept := jobs.update fun _ => requeueExpired input
  match (candidates swept input).head? with
  | none => (swept, none)
  | some e =>
      (swept.modify e.jobId (leased input),
        some ⟨e.jobId, e.job, e.leaseEpoch.getD 0 + 1⟩)

theorem mem_candidates {jobs : Table String (Entry ρ)} {input : ClaimInput} {e : Entry ρ} :
    e ∈ candidates jobs input ↔ e ∈ jobs.values ∧ claimable input e = true := by
  simp [candidates]

/-- The write-back of a mint, as it stands after the await. -/
def restamped (minted : ClaimedAttempt) (e : Entry ρ) : Entry ρ :=
  { e with
    job := minted.job.getD e.job
    currentAttemptId := minted.attemptId <|> e.currentAttemptId }

/-- The hand-made rollback of a mint that threw; the epoch stays. -/
def unclaimed (leaseEpoch : Nat) (e : Entry ρ) : Entry ρ :=
  if e.status = .leased ∧ e.leaseEpoch = some leaseEpoch then
    { e with status := .queued, leasedBy := none }
  else e

/-- The refused report of a cancelled lease's holder is its acknowledgement. -/
def ackCancelled (runnerId : String) (leaseEpoch : Nat) (e : Entry ρ) : Entry ρ :=
  if holdsLease e runnerId leaseEpoch ∧ e.cancelRequested ∧ e.status = .leased then
    { e with status := .cancelled }
  else e

/-- A report that ends a job, or acknowledges its cancellation. -/
def reportOr (ended : Entry ρ → Entry ρ) (runnerId : String) (leaseEpoch : Nat) (e : Entry ρ) :
    Entry ρ :=
  if holdsWritableLease e runnerId leaseEpoch then ended e else ackCancelled runnerId leaseEpoch e

def completed (result : ρ) (e : Entry ρ) : Entry ρ :=
  { e with status := .completed, result := some result }

def failed (message : String) (e : Entry ρ) : Entry ρ :=
  { e with status := .failed, error := some message }

def NO_RUNNER : String := "no_runner: idle timeout (no lease/heartbeat activity)"

def expired (e : Entry ρ) : Entry ρ :=
  if isTerminal e then e else failed NO_RUNNER e

def cancelMatches (matched : CaseJob → Bool) (e : Entry ρ) : Bool :=
  ¬ isTerminal e ∧ ¬ e.cancelRequested ∧ matched e.job

/-- A queued row ends at once; a leased one keeps the flag until its runner
acknowledges or the sweep takes it. -/
def cancelled (matched : CaseJob → Bool) (e : Entry ρ) : Entry ρ :=
  if cancelMatches matched e then
    { e with
      cancelRequested := true
      status := if e.status = .queued then .cancelled else e.status }
  else e

def couldTake (owner runnerId : String) (advertisedCaps : Option (List String)) (now : Int)
    (e : Entry ρ) : Bool :=
  e.owner = owner ∧ e.status = .queued ∧ ¬ e.cancelRequested ∧
    (e.runnerId = runnerId ∨ e.runnerId = POOL_RUNNER) ∧
    capsOk e.requiredCaps advertisedCaps ∧ e.activityAt < now

def touched (runnerId : String) (leaseEpoch : Nat) (now : Int) (e : Entry ρ) : Entry ρ :=
  if e.status = .cancelled ∧ e.leasedBy = some runnerId ∧ e.leaseEpoch = some leaseEpoch then e
  else if holdsWritableLease e runnerId leaseEpoch then { e with activityAt := now }
  else e

/-- What a heartbeat answers: whether the lease was extended, and the cancel flag. -/
def touchAnswer (runnerId : String) (leaseEpoch : Nat) (e : Entry ρ) : Bool × Bool :=
  if e.status = .cancelled ∧ e.leasedBy = some runnerId ∧ e.leaseEpoch = some leaseEpoch then
    (false, true)
  else if ¬ holdsLease e runnerId leaseEpoch then (false, false)
  else if e.cancelRequested then (false, true)
  else (true, false)

def outcome (e : Entry ρ) : RunnerJobOutcome ρ where
  status := if e.cancelRequested ∧ ¬ isTerminal e then .cancelled else e.status
  result := e.result
  error := e.error
  ranBy := e.leasedBy
  recordingGeneration := e.job.recordingGeneration
  attemptId := e.job.attemptId <|> e.currentAttemptId
  activityAt := e.activityAt

def pending (jobs : Table String (Entry ρ)) (owner runnerId : String) : Nat :=
  (jobs.values.filter fun e =>
    e.owner = owner ∧ e.runnerId = runnerId ∧ ¬ isTerminal e ∧ ¬ e.cancelRequested).length

/-! ## The store as a machine -/

inductive Event (ρ : Type) where
  | park (input : ParkInput)
  | claim (input : ClaimInput)
  | claimAttempt (input : ClaimInput)
  | mintReturn (jobId : String) (leaseEpoch : Nat) (minted : ClaimedAttempt)
  | mintThrow (jobId : String) (leaseEpoch : Nat)
  | restampJob (jobId runnerId : String) (leaseEpoch : Nat) (job : CaseJob)
  | authorize (jobId runnerId : String) (leaseEpoch : Nat)
  | touchWaiting (owner runnerId : String) (advertisedCaps : Option (List String)) (now : Int)
  | touch (jobId runnerId : String) (leaseEpoch : Nat) (now : Int)
  | complete (jobId : String) (result : ρ) (ranBy : String) (leaseEpoch : Nat)
  | fail (jobId message runnerId : String) (leaseEpoch : Nat)
  | expire (jobId : String)
  | cancel (matched : CaseJob → Bool)
  | outcome (jobId : String)
  | pending (owner runnerId : String)

/-- What a step answers.  `lease` is the answer of a claim; `minted` that of a
`claimAttempt` whose mint returned, with the ticket the mint was given. -/
inductive Answer (ρ : Type) where
  | done
  | lease (lease : Option RunnerJobLease)
  | minted (ticket : Ticket) (lease : RunnerJobLease)
  | threw
  | ok (took : Bool)
  | job (job : Option CaseJob)
  | touched (extended cancelled : Bool)
  | count (n : Nat)
  | outcome (o : Option (RunnerJobOutcome ρ))

def Store.ticket (s : Store ρ) (jobId : String) (leaseEpoch : Nat) : Option Ticket :=
  s.minting.find? fun t => t.lease.jobId = jobId ∧ t.lease.leaseEpoch = leaseEpoch

def Store.closeTicket (s : Store ρ) (jobId : String) (leaseEpoch : Nat) : List Ticket :=
  s.minting.filter fun t => ¬ (t.lease.jobId = jobId ∧ t.lease.leaseEpoch = leaseEpoch)

def Store.holds (s : Store ρ) (jobId runnerId : String) (leaseEpoch : Nat) : Bool :=
  (s.jobs.get jobId).any fun e => holdsWritableLease e runnerId leaseEpoch

def step : Transition.Machine (Store ρ) (Event ρ) (Answer ρ)
  | s, .park input => some ({ s with jobs := park s.jobs input }, .done)
  | s, .claim input =>
      let (jobs, lease) := claim s.jobs input
      some ({ s with jobs }, .lease lease)
  | s, .claimAttempt input =>
      let (jobs, lease) := claim s.jobs input
      let opened := lease.toList.map fun l =>
        ⟨l, (jobs.get l.jobId).bind Entry.currentAttemptId⟩
      some ({ jobs, minting := s.minting ++ opened }, .lease lease)
  | s, .mintReturn jobId leaseEpoch minted =>
      match s.ticket jobId leaseEpoch with
      | none => none
      | some t =>
          some (⟨s.jobs.modify jobId (restamped minted), s.closeTicket jobId leaseEpoch⟩,
            .minted t { t.lease with job := minted.job.getD t.lease.job })
  | s, .mintThrow jobId leaseEpoch =>
      match s.ticket jobId leaseEpoch with
      | none => none
      | some _ =>
          some (⟨s.jobs.modify jobId (unclaimed leaseEpoch), s.closeTicket jobId leaseEpoch⟩,
            .threw)
  | s, .restampJob jobId runnerId leaseEpoch job =>
      some ({ s with jobs := s.jobs.modify jobId fun e =>
          if holdsWritableLease e runnerId leaseEpoch then { e with job } else e },
        .ok (s.holds jobId runnerId leaseEpoch))
  | s, .authorize jobId runnerId leaseEpoch =>
      some (s, .job (((s.jobs.get jobId).filter fun e =>
        holdsWritableLease e runnerId leaseEpoch).map Entry.job))
  | s, .touchWaiting owner runnerId advertisedCaps now =>
      some ({ s with jobs := s.jobs.update fun _ e =>
          if couldTake owner runnerId advertisedCaps now e then { e with activityAt := now }
          else e },
        .count (s.jobs.values.filter (couldTake owner runnerId advertisedCaps now)).length)
  | s, .touch jobId runnerId leaseEpoch now =>
      let (extended, gone) := ((s.jobs.get jobId).map (touchAnswer runnerId leaseEpoch)).getD
        (false, false)
      some ({ s with jobs := s.jobs.modify jobId (touched runnerId leaseEpoch now) },
        .touched extended gone)
  | s, .complete jobId result ranBy leaseEpoch =>
      some ({ s with jobs := s.jobs.modify jobId (reportOr (completed result) ranBy leaseEpoch) },
        .ok (s.holds jobId ranBy leaseEpoch))
  | s, .fail jobId message runnerId leaseEpoch =>
      some ({ s with jobs := s.jobs.modify jobId (reportOr (failed message) runnerId leaseEpoch) },
        .ok (s.holds jobId runnerId leaseEpoch))
  | s, .expire jobId => some ({ s with jobs := s.jobs.modify jobId expired }, .done)
  | s, .cancel matched =>
      some ({ s with jobs := s.jobs.update fun _ => cancelled matched },
        .count (s.jobs.values.filter (cancelMatches matched)).length)
  | s, .outcome jobId => some (s, .outcome ((s.jobs.get jobId).map outcome))
  | s, .pending owner runnerId => some (s, .count (pending s.jobs owner runnerId))

/-- A job is parked under a fresh id: the hubs draw it from `randomUUID`, and the
SQL table has it as its primary key. -/
def FreshPark (s : Store ρ) : Event ρ → Prop
  | .park input => s.jobs.get input.jobId = none
  | _ => True

instance (s : Store ρ) (ev : Event ρ) : Decidable (FreshPark s ev) := by
  unfold FreshPark
  split <;> infer_instance

end Everdict.Runner
