import Everdict.Billing.Budget
import Everdict.Placement.FairQueue
import Everdict.Scheduling.Capacity
import Everdict.Table
import Everdict.Transition

/-!
# The scheduler

A capacity-aware and tenant-fair scheduler: `dispatch` queues a job, and `pump`
drains the queue onto the backends that have room.  The pump is not reentrant and
awaits four things on its way (the capacity probe, the ledger, the pool of a
harness, a permit); everything else may happen at any of these awaits, and at no
other point.  The segments between two awaits are small steps of the pump at which
nothing else happens (`awaiting`).

The registry is fixed.  What the backends report is the `world`, which any event
of the outside may change.  `effects` is what the scheduler did to the outside,
in order.  Of a drain two fields say what only a reader asks for: `placed`, what
it handed out, and `late`, whether a completion landed on a backend that it had
read already.
-/

namespace Everdict.Scheduling

open Billing Placement Transition

/-! ## Configuration -/

/-- The durable run ledger.  Its permits are optional. -/
structure Ledger where
  tryAdmit : Bool
  deriving DecidableEq

structure Config where
  names : List String
  caseCapacityAware : String → Bool := fun _ => false
  policy : PlacementPolicy
  eligible : Option (CaseJob → List String → List String) := none
  maxQueueDepth : Option Nat := none
  tenantMaxQueueDepth : String → Option Nat := fun _ => none
  tenantQuota : String → Option Nat := fun _ => none
  weightFor : String → ℚ := fun _ => 1
  agingMs : Option Nat := none
  limitFor : String → Option BudgetLimit := fun _ => none
  ledger : Option Ledger := none

def DEFAULT_AGING_MS : Nat := 60000

/-! ## State -/

structure QueueEntry where
  job : CaseJob
  enqueuedAt : Nat
  signal : Option Nat
  /-- The queued-abort listener is attached. -/
  listening : Bool
  promoted : Bool := false
  permitId : Option String := none

/-- A job that was handed to a backend. -/
structure InFlight where
  id : Nat
  held : Held
  deriving DecidableEq

inductive Effect where
  | handed (id : Nat) (backend : String)
  | refunded (id : Nat)
  | settled (id : Nat) (resolved : Bool)
  | minted (id : Nat) (permitId : String)
  | released (permitId : String)
  deriving DecidableEq

/-- What a backend would answer now: its capacity, and the pool of a harness. -/
structure Backend where
  capacity : BackendCapacity
  pool : String → Option BackendCapacity := fun _ => none

/-- One drain: what it read at its start, and the pools it asked on the way. -/
structure Drain where
  caps : String → Option BackendCapacity
  own : Admission
  atProbe : String → Nat
  localAtProbe : String → Nat
  caseCaps : String → Option (Option BackendCapacity)
  placed : List InFlight
  late : Bool

/-- One placement round: the slots computed at its start, and the scan order. -/
structure Round where
  own : Admission
  slots : String → Option BackendSlot
  snapshot : List Nat
  rest : List Nat
  placedAny : Bool

/-- Where the pump stands. -/
inductive Pc where
  | probing (left : List String)
  | reading
  | looping (placedAny : Bool) (snapshot : List Nat)
  | scanning (r : Round)
  | asking (r : Round) (id : Nat) (left withRoom : List BackendSlot)
  | admitting (r : Round) (id : Nat) (chosen : String)
  | committing (r : Round) (id : Nat) (chosen : String)

structure Pump where
  drain : Drain
  pc : Pc

structure State where
  queue : FairQueue Nat
  entrySeq : Nat
  entries : Table Nat QueueEntry
  budget : Budget
  admission : Admission
  inFlight : List InFlight
  livePermits : List String
  aborted : List Nat
  effects : List Effect
  world : String → Backend
  pump : Option Pump

def State.initial (world : String → Backend) : State where
  queue := .empty
  entrySeq := 0
  entries := .empty
  budget := .empty
  admission := .empty
  inFlight := []
  livePermits := []
  aborted := []
  effects := []
  world := world
  pump := none

/-- Is the pump idle or at an await? -/
def awaiting (s : State) : Bool :=
  match s.pump with
  | none => true
  | some pump =>
      match pump.pc with
      | .probing _ => true
      | .reading => true
      | .asking _ _ (_ :: _) _ => true
      | .admitting .. => true
      | _ => false

/-! ## Leaving the queue -/

def drainOf (s : State) : Drain where
  caps := fun _ => none
  own := s.admission
  atProbe := fun _ => 0
  localAtProbe := fun _ => 0
  caseCaps := fun _ => none
  placed := []
  late := false

/-- `void this.pump()`: nothing while a pump runs, nothing for an empty queue. -/
def wake (cfg : Config) (s : State) : State :=
  match s.pump with
  | some _ => s
  | none =>
      if s.queue.size = 0 then s
      else { s with pump := some ⟨drainOf s, .probing cfg.names⟩ }

def emit (effect : Effect) (s : State) : State := { s with effects := s.effects ++ [effect] }

def removeQueued (id : Nat) (s : State) : State := { s with queue := (s.queue.remove id).2 }

/-- Give back the reserved run of a job that leaves without being dispatched. -/
def releaseBudget (id : Nat) (s : State) : State :=
  match s.entries.get id with
  | none => s
  | some entry => emit (.refunded id) { s with budget := s.budget.release (tenantOf entry.job) }

/-- Return the permit of an entry, if one was minted for it. -/
def releasePermit (id : Nat) (s : State) : State :=
  match (s.entries.get id).bind QueueEntry.permitId with
  | none => s
  | some permitId =>
      emit (.released permitId) { s with livePermits := s.livePermits.erase permitId }

def detach (id : Nat) (s : State) : State :=
  { s with entries := s.entries.modify id fun entry => { entry with listening := false } }

/-- Remove an entry, refund it, return its permit and reject its promise. -/
def leaveQueue (id : Nat) (s : State) : State :=
  emit (.settled id false) (releasePermit id (releaseBudget id (removeQueued id s)))

/-- The queued-abort listener of one entry; it fires once. -/
def onAbort (s : State) (id : Nat) : State :=
  if (s.queue.remove id).1 then leaveQueue id (detach id s) else detach id s

/-- The entries whose listener hears a signal, in the order of registration. -/
def listeners (signal : Nat) (s : State) : List Nat :=
  (s.entries.entries.filter fun e => e.2.signal = some signal && e.2.listening).map Prod.fst

def abort (signal : Nat) (s : State) : State :=
  if signal ∈ s.aborted then s
  else (listeners signal s).foldl onAbort { s with aborted := signal :: s.aborted }

/-! ## The verbs -/

inductive Refusal where
  | cancelled
  | rateLimited
  | budgetExceeded
  deriving DecidableEq

inductive Answer where
  | done
  | refused (why : Refusal)
  | queued (id : Nat)
  | cancelled (count : Nat)
  | found (found : Bool)
  deriving DecidableEq

/-- The entry of an id, and what its job says. -/
def jobOf (s : State) (id : Nat) : Option CaseJob := (s.entries.get id).map QueueEntry.job

def queueOptions (cfg : Config) (s : State) : FairQueueOptions Nat where
  tenantOf id := ((jobOf s id).map tenantOf).getD ""
  weightFor := cfg.weightFor

/-- The entry of a dispatch, queued. -/
def enqueued (cfg : Config) (job : CaseJob) (signal : Option Nat) (now : Nat) (budget : Budget)
    (s : State) : State :=
  let id := s.entrySeq + 1
  let s := { s with
    entrySeq := id
    budget := budget
    entries := s.entries.set id
      { job, enqueuedAt := now, signal, listening := signal.isSome } }
  { s with queue := s.queue.enqueue (queueOptions cfg s) id }

/-- The backpressure checks come before the budget, which reserves a run. -/
def dispatch (cfg : Config) (job : CaseJob) (signal : Option Nat) (now : Nat) (s : State) :
    State × Answer :=
  if signal.any fun signal => signal ∈ s.aborted then (s, .refused .cancelled)
  else if cfg.maxQueueDepth.any fun depth => s.queue.size ≥ depth then (s, .refused .rateLimited)
  else if (cfg.tenantMaxQueueDepth (tenantOf job)).any fun depth =>
      s.queue.queuedByTenant (tenantOf job) ≥ depth then (s, .refused .rateLimited)
  else
    match s.budget.admitRun (tenantOf job) cfg.limitFor with
    | none => (s, .refused .budgetExceeded)
    | some budget => (wake cfg (enqueued cfg job signal now budget s), .queued (s.entrySeq + 1))

/-- The queued entries whose job a predicate holds of. -/
def matching (predicate : CaseJob → Bool) (s : State) : List Nat :=
  s.queue.ordered.filter fun id => (jobOf s id).any predicate

def cancelQueued (predicate : CaseJob → Bool) (s : State) : State × Answer :=
  ((matching predicate s).foldl (fun s id => leaveQueue id s) s,
    .cancelled (matching predicate s).length)

def cancelEntry (id : Nat) (s : State) : State × Answer :=
  if id ∈ s.queue.ordered then (leaveQueue id (detach id s), .found true)
  else (s, .found false)

def promoteEntry (cfg : Config) (id : Nat) (s : State) : State × Answer :=
  if id ∈ s.queue.ordered then
    (wake cfg { s with
      entries := s.entries.modify id fun entry => { entry with promoted := true }
      queue := (s.queue.promote id).2 }, .found true)
  else (s, .found false)

/-- A completion that lands on a backend the running drain has read is late. -/
def markLate (backend : String) (pump : Pump) : Pump :=
  { pump with drain := { pump.drain with
    late := pump.drain.late || (pump.drain.caps backend).isSome } }

/-- The backend of a job settles: the promise, the budget, what was held. -/
def complete (cfg : Config) (f : InFlight) (result : Option Cost) (after : Backend) (s : State) :
    State :=
  let s := match result with
    | some cost =>
        emit (.settled f.id true) { s with budget := s.budget.settle f.held.tenant cost }
    | none => emit (.settled f.id false) s
  wake cfg (releasePermit f.id { s with
    admission := s.admission.release f.held
    inFlight := s.inFlight.erase f
    world := Function.update s.world f.held.backend after
    pump := s.pump.map (markLate f.held.backend) })

/-! ## The pump -/

def pinOf (job : CaseJob) : Option String :=
  (job.evalCase.placement.bind Placement.target).filter fun pin => pin ≠ ""

/-- The backends a job may go to; an unregistered pin throws. -/
def eligibleNames (cfg : Config) (job : CaseJob) : Option (List String) :=
  match pinOf job with
  | some pin => if pin ∈ cfg.names then some [pin] else none
  | none => some (match cfg.eligible with
      | none => cfg.names
      | some eligible => eligible job cfg.names)

def isUrgent (cfg : Config) (now : Nat) (entry : QueueEntry) : Bool :=
  entry.job.priority = some .interactive || entry.promoted
    || entry.enqueuedAt + cfg.agingMs.getD DEFAULT_AGING_MS ≤ now

/-- The fair order, the urgent class first. -/
def scanOrder (cfg : Config) (now : Nat) (s : State) : List Nat :=
  let urgent id := (s.entries.get id).any (isUrgent cfg now)
  s.queue.ordered.filter urgent ++ s.queue.ordered.filter fun id => !urgent id

/-- The fleet's tenant in-flight: the reading, and what was placed since. -/
def Drain.countFor (d : Drain) (tenant : String) (localNow : Nat) : Nat :=
  max localNow (d.atProbe tenant + (localNow - d.localAtProbe tenant))

def candidates (r : Round) (names : List String) (job : CaseJob) : List BackendSlot :=
  (names.filterMap r.slots).filter fun slot =>
    slotAdmits slot (some (jobMemoryMb job)) (some (jobCpu job))

/-- Has the pool of a harness room?  Without a signal the aggregate decides. -/
def poolRoom (own : Admission) (name harness : String) (pool : Option BackendCapacity) : Bool :=
  match pool with
  | none => true
  | some cap =>
      cap.total - effectiveUsed cap (own.harnessCounts (poolKey name harness)) .max > 0

/-- The pool a drain knows for a backend and a harness, asked once. -/
def askPool (s : State) (d : Drain) (name harness : String) (fails : Bool) :
    Option BackendCapacity × Drain :=
  match d.caseCaps (poolKey name harness) with
  | some pool => (pool, d)
  | none =>
      let pool := if fails then none else (s.world name).pool harness
      (pool, { d with caseCaps := Function.update d.caseCaps (poolKey name harness) (some pool) })

def harnessRoom (cfg : Config) (s : State) (d : Drain) (name : String) (job : CaseJob)
    (fails : Bool) : Bool × Drain :=
  if cfg.caseCapacityAware name then
    let asked := askPool s d name (harnessKeyOf job) fails
    (poolRoom s.admission name (harnessKeyOf job) asked.1, asked.2)
  else (true, d)

def heldOf (job : CaseJob) (backend : String) : Held where
  backend := backend
  tenant := tenantOf job
  memoryMb := jobMemoryMb job
  cpu := jobCpu job
  harness := harnessKeyOf job

/-- The local decrement within one round. -/
def takeSlot (slots : String → Option BackendSlot) (h : Held) : String → Option BackendSlot :=
  fun name =>
    if name = h.backend then (slots name).map fun slot =>
      { slot with
        free := slot.free - 1
        memFreeMb := slot.memFreeMb.map fun left => left - h.memoryMb
        cpuFree := slot.cpuFree.map fun left => left - h.cpu }
    else slots name

/-- A placement round begins with the live counts and the scan order of the moment. -/
def startRound (cfg : Config) (now : Nat) (d : Drain) (s : State) : Round where
  own := s.admission
  slots := freeSlotsFrom d.caps s.admission
  snapshot := scanOrder cfg now s
  rest := scanOrder cfg now s
  placedAny := false

/-- An entry that no backend may take: it is failed at once. -/
def failEntry (id : Nat) (s : State) : State :=
  emit (.settled id false) (releaseBudget id (removeQueued id s))

/-- Does the quota of a tenant plainly leave no headroom? -/
def overQuota (cfg : Config) (s : State) (d : Drain) (tenant : String) : Bool :=
  (cfg.tenantQuota tenant).any fun quota =>
    d.countFor tenant (s.admission.tenantCounts tenant) ≥ quota

/-- The next entry of the scan: skipped, failed, or worth asking for. -/
def scanEntry (cfg : Config) (d : Drain) (r : Round) (id : Nat) (job : CaseJob) (s : State) :
    State :=
  if overQuota cfg s d (tenantOf job) then { s with pump := some ⟨d, .scanning r⟩ }
  else
    match eligibleNames cfg job with
    | none => { failEntry id s with pump := some ⟨d, .scanning { r with placedAny := true }⟩ }
    | some names =>
        match candidates r names job with
        | [] => { s with pump := some ⟨d, .scanning r⟩ }
        | slot :: left => { s with pump := some ⟨d, .asking r id (slot :: left) []⟩ }

/-- Is the quota of a tenant a hard one, with a permit to claim? -/
def needsPermit (cfg : Config) (tenant : String) : Bool :=
  (cfg.tenantQuota tenant).isSome && cfg.ledger.any Ledger.tryAdmit

/-- `entry.permitId ??= ...` -/
def mintPermit (id : Nat) (uuid : String) (s : State) : State :=
  match (s.entries.get id).bind QueueEntry.permitId with
  | some _ => s
  | none =>
      let permitId := "q" ++ toString id ++ "-" ++ uuid
      emit (.minted id permitId) { s with
        entries := s.entries.modify id fun entry => { entry with permitId := some permitId } }

def holdPermit (id : Nat) (s : State) : State :=
  match (s.entries.get id).bind QueueEntry.permitId with
  | none => s
  | some permitId => { s with livePermits := s.livePermits.insert permitId }

/-- One of the backends with room is chosen; a hard quota then asks for a permit. -/
def chooseBackend (cfg : Config) (d : Drain) (r : Round) (id : Nat) (job : CaseJob)
    (withRoom : List BackendSlot) (uuid : String) (s : State) : State :=
  match withRoom with
  | [] => { s with pump := some ⟨d, .scanning r⟩ }
  | _ :: _ =>
      match cfg.policy.choose withRoom job with
      | none => { s with pump := some ⟨d, .scanning r⟩ }
      | some chosen =>
          if needsPermit cfg (tenantOf job) then
            { mintPermit id uuid s with pump := some ⟨d, .admitting r id chosen⟩ }
          else { s with pump := some ⟨d, .committing r id chosen⟩ }

/-- Leaving the queue for a backend: reserve, and hand the job out. -/
def place (d : Drain) (r : Round) (id : Nat) (job : CaseJob) (chosen : String) (after : Backend)
    (s : State) : State :=
  let f : InFlight := ⟨id, heldOf job chosen⟩
  let s := detach id (removeQueued id s)
  emit (.handed id chosen) { s with
    admission := s.admission.reserve f.held
    inFlight := s.inFlight ++ [f]
    world := Function.update s.world chosen after
    pump := some ⟨{ d with placed := d.placed ++ [f] },
      .scanning { r with slots := takeSlot r.slots f.held, placedAny := true }⟩ }

/-- The commit point: an entry that has left the queue since is not dispatched. -/
def commit (d : Drain) (r : Round) (id : Nat) (job : CaseJob) (chosen : String) (after : Backend)
    (s : State) : State :=
  if (s.queue.remove id).1 then place d r id job chosen after s
  else { releasePermit id s with pump := some ⟨d, .scanning r⟩ }

/-! ## The machine -/

inductive Event where
  | dispatch (job : CaseJob) (signal : Option Nat) (now : Nat)
  | abort (signal : Nat)
  | cancelEntry (id : Nat)
  | cancelQueued (predicate : CaseJob → Bool)
  | promoteEntry (id : Nat)
  | poke
  | complete (f : InFlight) (result : Option Cost) (after : Backend)
  | capacityChanges (name : String) (after : Backend)
  | answer (name : String)
  | probeFails (name : String)
  | probed
  | ledgerRead (counts : String → Nat)
  | loop (now : Nat)
  | scan
  | room (fails : Bool)
  | choose (uuid : String)
  | tryAdmit (granted : Bool)
  | commit (after : Backend)

/-- What happens outside the pump. -/
def outside (cfg : Config) (s : State) : Event → Option (State × Answer)
  | .dispatch job signal now => some (dispatch cfg job signal now s)
  | .abort signal => some (abort signal s, .done)
  | .cancelEntry id => some (cancelEntry id s)
  | .cancelQueued predicate => some (cancelQueued predicate s)
  | .promoteEntry id => some (promoteEntry cfg id s)
  | .poke => some (wake cfg s, .done)
  | .complete f result after =>
      if f ∈ s.inFlight then some (complete cfg f result after s, .done) else none
  | .capacityChanges name after =>
      some ({ s with world := Function.update s.world name after }, .done)
  | _ => none

/-- A segment of the pump. -/
def advance (cfg : Config) (s : State) (d : Drain) : Pc → Event → Option State
  | .probing left, .answer name =>
      if name ∈ left then
        some { s with pump := some ⟨{ d with
          caps := Function.update d.caps name (some (s.world name).capacity) },
          .probing (left.erase name)⟩ }
      else none
  | .probing left, .probeFails name =>
      if name ∈ left then some { s with pump := some ⟨d, .probing (left.erase name)⟩ } else none
  | .probing [], .probed => some { s with pump := some ⟨d, .reading⟩ }
  | .reading, .ledgerRead counts =>
      some { s with pump := some ⟨{ d with
        atProbe := if cfg.ledger.isSome then counts else fun _ => 0
        localAtProbe := s.admission.tenantCounts }, .looping true []⟩ }
  | .looping placedAny _, .loop now =>
      if placedAny && s.queue.size > 0 then
        some { s with pump := some ⟨d, .scanning (startRound cfg now d s)⟩ }
      else some { s with pump := none }
  | .scanning r, .scan =>
      match r.rest with
      | [] => some { s with pump := some ⟨d, .looping r.placedAny r.snapshot⟩ }
      | id :: rest => (jobOf s id).map fun job => scanEntry cfg d { r with rest } id job s
  | .asking r id (slot :: left) withRoom, .room fails =>
      (jobOf s id).map fun job =>
        let (room, d) := harnessRoom cfg s d slot.name job fails
        let withRoom := if room then withRoom ++ [slot] else withRoom
        { s with pump := some ⟨d, .asking r id left withRoom⟩ }
  | .asking r id [] withRoom, .choose uuid =>
      (jobOf s id).map fun job => chooseBackend cfg d r id job withRoom uuid s
  | .admitting r id chosen, .tryAdmit granted =>
      some (if granted then { holdPermit id s with pump := some ⟨d, .committing r id chosen⟩ }
        else { s with pump := some ⟨d, .scanning r⟩ })
  | .committing r id chosen, .commit after =>
      (jobOf s id).map fun job => commit d r id job chosen after s
  | _, _ => none

def isPump : Event → Bool
  | .answer _ | .probeFails _ | .probed | .ledgerRead _ | .loop _ | .scan | .room _ | .choose _
  | .tryAdmit _ | .commit _ => true
  | _ => false

/-- The outside acts while the pump is idle or awaits, the pump acts in between. -/
def step (cfg : Config) : Machine State Event Answer := fun s ev =>
  if isPump ev then
    s.pump.bind fun pump => (advance cfg s pump.drain pump.pc ev).map fun t => (t, .done)
  else if awaiting s then outside cfg s ev
  else none

end Everdict.Scheduling
