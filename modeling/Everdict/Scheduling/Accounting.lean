import Mathlib.Data.List.Range
import Everdict.Scheduling.Steps

/-!
# Every admitted dispatch is accounted for

The scheduler keeps no book of its own about the dispatches it admitted: each one waits, or
has been handed out, or has been refunded, and each promise is pending or settled.  The two
partitions (`Books.entered`, `Books.settled`) and the count of reserved runs are kept by
every operation that takes only entries out of the queue that are still in it.

One drop path does not ask: an entry whose pin is not registered is failed where the scan
meets it, and the scan goes over a snapshot that an abort at an earlier await has made stale.
The same staleness lets the pump claim a permit for an entry that has left, which a refusal
then leaves behind.  `Present` is the condition that excludes both.
-/

namespace Everdict.Scheduling

open Billing Placement Transition Machine

variable {cfg : Config} {s t : State} {id : Nat}

/-! ## The books -/

namespace Effect

def handedId : Effect → Option Nat
  | .handed id _ => some id
  | _ => none

def refundedId : Effect → Option Nat
  | .refunded id => some id
  | _ => none

def settledId : Effect → Option Nat
  | .settled id _ => some id
  | _ => none

end Effect

/-- The entries handed to a backend, in order. -/
def handed (s : State) : List Nat := s.effects.filterMap Effect.handedId

def refunded (s : State) : List Nat := s.effects.filterMap Effect.refundedId

def settled (s : State) : List Nat := s.effects.filterMap Effect.settledId

def running (s : State) : List Nat := s.inFlight.map InFlight.id

/-- The entries of the dispatches that passed the budget. -/
def admitted (s : State) : List Nat := List.range' 1 s.entrySeq

def permitOf (s : State) (id : Nat) : Option String :=
  (s.entries.get id).bind QueueEntry.permitId

def isOf (s : State) (tenant : String) (id : Nat) : Bool :=
  (jobOf s id).any fun job => tenantOf job = tenant

/-- The entry the pump holds or awaits a permit for. -/
def Pc.claim : Pc → Option Nat
  | .admitting _ id _ => some id
  | .committing _ id _ => some id
  | _ => none

def claiming (s : State) : Option Nat := s.pump.bind fun pump => pump.pc.claim

/-- Each dispatch that passed the budget is in one place, its promise is settled once, by the
ending it had, and its permit is returned by then. -/
structure Accounted (s : State) : Prop where
  once : ∀ id ∈ admitted s,
    s.queue.ordered.count id + (handed s).count id + (refunded s).count id = 1
  no_other : ∀ id, id ∈ s.queue.ordered ∨ id ∈ handed s ∨ id ∈ refunded s → id ∈ admitted s
  settled_once : ∀ id ∈ admitted s,
    s.queue.ordered.count id + (running s).count id + (settled s).count id = 1
  /-- Only a job that was handed out is in flight or has a result. -/
  by_backend : ∀ id, id ∈ running s ∨ .settled id true ∈ s.effects → id ∈ handed s
  /-- A refunded dispatch is rejected at once. -/
  by_refund : ∀ id ∈ refunded s, .settled id false ∈ s.effects
  permits : ∀ id permitId, .minted id permitId ∈ s.effects → id ∈ settled s →
    .released permitId ∈ s.effects ∨ claiming s = some id
  /-- What the tenant has reserved: what waits and what was ever dispatched. -/
  reserved : ∀ tenant, (s.budget tenant).runs
    = s.queue.ordered.countP (isOf s tenant) + (handed s).countP (isOf s tenant)

/-- The scan fails only an entry that still waits, and a refused permit is not left behind by
an entry that has gone. -/
def Present (cfg : Config) (s : State) (ev : Event) : Bool :=
  match s.pump, ev with
  | some ⟨d, .scanning r⟩, .scan =>
      r.rest.head?.all fun id => id ∈ s.queue.ordered ||
        (jobOf s id).all fun job =>
          overQuota cfg s d (tenantOf job) || (eligibleNames cfg job).isSome
  | some ⟨_, .admitting _ id _⟩, .tryAdmit false =>
      id ∈ s.queue.ordered || (permitOf s id).all fun permitId => .released permitId ∈ s.effects
  | _, _ => true

/-! ## What the operations leave in the books -/

/-- The part of a state that the books are about. -/
structure Books (s : State) : Prop where
  entered : (s.queue.ordered ++ (handed s ++ refunded s)).Perm (admitted s)
  settled : (s.queue.ordered ++ (running s ++ settled s)).Perm (admitted s)
  jobs : ∀ id ∈ admitted s, jobOf s id ≠ none
  by_backend : ∀ id, id ∈ running s ∨ .settled id true ∈ s.effects → id ∈ handed s
  by_refund : ∀ id ∈ refunded s, .settled id false ∈ s.effects
  reserved : ∀ tenant,
    (s.budget tenant).runs = (s.queue.ordered ++ handed s).countP (isOf s tenant)

/-- Two states with the same books. -/
structure Same (s t : State) : Prop where
  queue : t.queue.ordered.Perm s.queue.ordered
  inFlight : t.inFlight = s.inFlight
  effects : t.effects = s.effects
  budget : t.budget = s.budget
  entrySeq : t.entrySeq = s.entrySeq
  job : ∀ id, jobOf t id = jobOf s id
  permit : ∀ id, permitOf t id = permitOf s id

theorem Same.refl (s : State) : Same s s :=
  ⟨.refl _, rfl, rfl, rfl, rfl, fun _ => rfl, fun _ => rfl⟩

theorem isOf_eq (same : ∀ id, jobOf t id = jobOf s id) (tenant : String) :
    isOf t tenant = isOf s tenant := by
  funext id
  rw [isOf, isOf, same]

theorem Books.same (books : Books s) (same : Same s t) : Books t := by
  have handed : handed t = handed s := by rw [Scheduling.handed, Scheduling.handed, same.effects]
  have refunded : refunded t = refunded s := by
    rw [Scheduling.refunded, Scheduling.refunded, same.effects]
  have settled : Scheduling.settled t = Scheduling.settled s := by
    rw [Scheduling.settled, Scheduling.settled, same.effects]
  have running : running t = running s := by
    rw [Scheduling.running, Scheduling.running, same.inFlight]
  have admitted : admitted t = admitted s := by
    rw [Scheduling.admitted, Scheduling.admitted, same.entrySeq]
  refine ⟨?_, ?_, ?_, ?_, ?_, ?_⟩
  · rw [handed, refunded, admitted]
    exact (same.queue.append_right _).trans books.entered
  · rw [running, settled, admitted]
    exact (same.queue.append_right _).trans books.settled
  · intro id inside
    rw [same.job]
    exact books.jobs id (admitted ▸ inside)
  · rw [running, same.effects, handed]
    exact books.by_backend
  · rw [refunded, same.effects]
    exact books.by_refund
  · intro tenant
    rw [same.budget, books.reserved, isOf_eq same.job, handed]
    exact ((same.queue.append_right _).countP_eq _).symm

theorem handed_of_effects {extra : List Effect} (effects : t.effects = s.effects ++ extra) :
    handed t = handed s ++ extra.filterMap Effect.handedId := by
  rw [handed, effects, List.filterMap_append, handed]

theorem refunded_of_effects {extra : List Effect} (effects : t.effects = s.effects ++ extra) :
    refunded t = refunded s ++ extra.filterMap Effect.refundedId := by
  rw [refunded, effects, List.filterMap_append, refunded]

theorem settled_of_effects {extra : List Effect} (effects : t.effects = s.effects ++ extra) :
    settled t = settled s ++ extra.filterMap Effect.settledId := by
  rw [settled, effects, List.filterMap_append, settled]

/-- An entry goes from one place of a partition to another. -/
theorem perm_moved {a b c : List Nat} (waits : id ∈ a) :
    (a.erase id ++ (b ++ (c ++ [id]))).Perm (a ++ (b ++ c)) := by
  refine (?_ : List.Perm _ (id :: (a.erase id ++ (b ++ c)))).trans ?_
  · rw [← List.append_assoc b, ← List.append_assoc]
    exact List.perm_append_singleton _ _
  · rw [← List.cons_append]
    exact (List.perm_cons_erase waits).symm.append_right _

theorem countP_erase {a b : List Nat} (p : Nat → Bool) (waits : id ∈ a) :
    (a ++ b).countP p = (a.erase id ++ b).countP p + if p id then 1 else 0 := by
  rw [List.countP_append, (List.perm_cons_erase waits).countP_eq, List.countP_cons,
    List.countP_append]
  omega

theorem nodup_admitted (s : State) : (admitted s).Nodup := List.nodup_range'

theorem Books.nodup (books : Books s) : s.queue.ordered.Nodup :=
  (List.nodup_append.mp (books.entered.nodup_iff.mpr (nodup_admitted s))).1

variable {job : CaseJob}

/-- An entry that waits is refunded and rejected; the permits it may have carried go back. -/
theorem Books.refund (books : Books s) (waits : id ∈ s.queue.ordered)
    (found : jobOf s id = some job) (permits : List String)
    (queue : t.queue.ordered = s.queue.ordered.erase id) (inFlight : t.inFlight = s.inFlight)
    (effects : t.effects
      = s.effects ++ (.refunded id :: (permits.map .released ++ [.settled id false])))
    (budget : t.budget = s.budget.release (tenantOf job)) (entrySeq : t.entrySeq = s.entrySeq)
    (jobs : ∀ id, jobOf t id = jobOf s id) : Books t := by
  have handed : handed t = handed s := by
    simp [handed_of_effects effects, Effect.handedId, Function.comp_def, List.filterMap_map,
      List.filterMap_cons, -List.filterMap_eq_nil_iff]
  have refunded : refunded t = refunded s ++ [id] := by
    simp [refunded_of_effects effects, Effect.refundedId, Function.comp_def, List.filterMap_map,
      List.filterMap_cons, -List.filterMap_eq_nil_iff]
  have settled : Scheduling.settled t = Scheduling.settled s ++ [id] := by
    simp [settled_of_effects effects, Effect.settledId, Function.comp_def, List.filterMap_map,
      List.filterMap_cons, -List.filterMap_eq_nil_iff]
  have running : running t = running s := by rw [Scheduling.running, inFlight, Scheduling.running]
  have admitted : admitted t = admitted s := by
    rw [Scheduling.admitted, entrySeq, Scheduling.admitted]
  refine ⟨?_, ?_, ?_, ?_, ?_, ?_⟩
  · rw [queue, handed, refunded, admitted]
    exact (perm_moved waits).trans books.entered
  · rw [queue, running, settled, admitted]
    exact (perm_moved waits).trans books.settled
  · intro id inside
    rw [jobs]
    exact books.jobs id (admitted ▸ inside)
  · rw [running, handed]
    intro id' inside
    refine books.by_backend id' (inside.imp_right fun resolved => ?_)
    simpa [effects] using resolved
  · intro id' inside
    rw [refunded, List.mem_append, List.mem_singleton] at inside
    rw [effects]
    rcases inside with old | rfl
    · exact List.mem_append_left _ (books.by_refund id' old)
    · simp
  · intro tenant
    have before := books.reserved tenant
    rw [countP_erase _ waits] at before
    rw [budget, Budget.release_runs, before, isOf_eq jobs, queue, handed]
    have here : isOf s tenant id = decide (tenant = tenantOf job) := by
      simp [isOf, found, eq_comm]
    rw [here]
    split <;> simp_all

/-! ## Leaving the queue -/

theorem entry_of_job (found : jobOf s id = some job) :
    ∃ entry, s.entries.get id = some entry ∧ entry.job = job :=
  Option.map_eq_some_iff.mp found

theorem permit_modify (f : QueueEntry → QueueEntry) (same : ∀ e, (f e).permitId = e.permitId)
    (id' : Nat) : permitOf { s with entries := s.entries.modify id f } id' = permitOf s id' := by
  unfold permitOf
  by_cases hit : id' = id
  · subst hit
    rw [Table.get_modify_self, Option.bind_map]
    exact Option.bind_congr fun entry _ => same entry
  · rw [Table.get_modify_of_ne _ hit]

theorem same_detach (id : Nat) : Same s (detach id s) :=
  ⟨.refl _, rfl, rfl, rfl, rfl, (leaves_detach id).job, permit_modify _ fun _ => rfl⟩

theorem effects_releasePermit (id : Nat) :
    (releasePermit id s).effects = s.effects ++ (permitOf s id).toList.map .released := by
  unfold releasePermit permitOf
  split
  · next none => simp [none]
  · next permitId found => simp [found, emit]

/-- Returning a permit leaves the rest as it is. -/
theorem releasePermit_keeps (id : Nat) :
    (releasePermit id s).queue = s.queue ∧ (releasePermit id s).budget = s.budget ∧
      (releasePermit id s).entries = s.entries ∧ (releasePermit id s).pump = s.pump := by
  unfold releasePermit
  split <;> exact ⟨rfl, rfl, rfl, rfl⟩

theorem leaveQueue_eq {entry : QueueEntry} (found : s.entries.get id = some entry) :
    (leaveQueue id s).queue = (s.queue.remove id).2 ∧
      (leaveQueue id s).budget = s.budget.release (tenantOf entry.job) ∧
      (leaveQueue id s).entries = s.entries ∧
      (leaveQueue id s).effects = s.effects ++
        (.refunded id :: ((permitOf s id).toList.map .released ++ [.settled id false])) := by
  have refunds : releaseBudget id (removeQueued id s) = emit (.refunded id)
      { removeQueued id s with budget := s.budget.release (tenantOf entry.job) } := by
    unfold releaseBudget
    rw [show (removeQueued id s).entries.get id = some entry from found]
    rfl
  obtain ⟨queue, budget, entries, -⟩ := @releasePermit_keeps
    (releaseBudget id (removeQueued id s)) id
  have effects := @effects_releasePermit (releaseBudget id (removeQueued id s)) id
  rw [refunds] at queue budget entries effects
  refine ⟨?_, ?_, ?_, ?_⟩
  · rw [leaveQueue, refunds]
    exact queue
  · rw [leaveQueue, refunds]
    exact budget
  · rw [leaveQueue, refunds]
    exact entries
  · rw [leaveQueue, refunds, emit, effects]
    simp [emit, removeQueued, permitOf]

theorem Books.leaveQueue (books : Books s) (waits : id ∈ s.queue.ordered) :
    Books (leaveQueue id s) := by
  have inside : id ∈ admitted s :=
    books.entered.mem_iff.mp (List.mem_append_left _ waits)
  obtain ⟨job, found⟩ := Option.ne_none_iff_exists'.mp (books.jobs id inside)
  obtain ⟨entry, here, rfl⟩ := entry_of_job found
  obtain ⟨queue, budget, entries, effects⟩ := leaveQueue_eq here
  have leaves := leaves_leaveQueue (s := s) id
  refine books.refund waits found (permitOf s id).toList ?_ leaves.inFlight effects budget
    leaves.entrySeq leaves.job
  rw [queue, FairQueue.remove_ordered]

/-- What leaving the queue does to what waits. -/
theorem queue_leaveQueue (id : Nat) :
    (Scheduling.leaveQueue id s).queue.ordered = s.queue.ordered.erase id := by
  have queue : (Scheduling.leaveQueue id s).queue = (s.queue.remove id).2 := by
    unfold Scheduling.leaveQueue releasePermit releaseBudget
    split <;> split <;> rfl
  rw [queue, FairQueue.remove_ordered]

theorem Books.onAbort (books : Books s) (id : Nat) : Books (onAbort s id) := by
  have detached := books.same (same_detach id)
  unfold Scheduling.onAbort
  split
  · next waits => exact detached.leaveQueue (FairQueue.remove_fst.mp waits)
  · exact detached

theorem Books.abort (books : Books s) (signal : Nat) : Books (abort signal s) := by
  have each : ∀ (ids : List Nat) {s : State}, Books s → Books (ids.foldl Scheduling.onAbort s) := by
    intro ids
    induction ids with
    | nil => exact fun books => books
    | cons id ids ih => exact fun books => ih (books.onAbort id)
  unfold Scheduling.abort
  split
  · exact books
  · have marked : Same s { s with aborted := signal :: s.aborted } :=
      ⟨.refl _, rfl, rfl, rfl, rfl, fun _ => rfl, fun _ => rfl⟩
    exact each _ (books.same marked)

theorem Books.cancelEntry (books : Books s) (id : Nat) : Books (cancelEntry id s).1 := by
  unfold Scheduling.cancelEntry
  split
  · next waits => exact (books.same (same_detach id)).leaveQueue waits
  · exact books

/-- The entries a predicate holds of leave one by one; each still waits at its turn. -/
theorem Books.cancelQueued (books : Books s) (predicate : CaseJob → Bool) :
    Books (cancelQueued predicate s).1 := by
  have each : ∀ (ids : List Nat) {s : State}, Books s → ids.Nodup →
      (∀ id ∈ ids, id ∈ s.queue.ordered) → Books (ids.foldl (fun s id => Scheduling.leaveQueue id s) s) := by
    intro ids
    induction ids with
    | nil => exact fun books _ _ => books
    | cons id ids ih =>
        intro s books distinct wait
        obtain ⟨absent, distinct⟩ := List.nodup_cons.mp distinct
        refine ih (books.leaveQueue (wait id List.mem_cons_self)) distinct fun other inside => ?_
        rw [queue_leaveQueue, books.nodup.mem_erase_iff]
        exact ⟨fun same => absent (same ▸ inside), wait other (List.mem_cons_of_mem _ inside)⟩
  refine each _ books (books.nodup.filter _) fun id inside => ?_
  exact (List.mem_filter.mp inside).1

theorem Books.failEntry (books : Books s) (waits : id ∈ s.queue.ordered) :
    Books (failEntry id s) := by
  have inside : id ∈ admitted s :=
    books.entered.mem_iff.mp (List.mem_append_left _ waits)
  obtain ⟨job, found⟩ := Option.ne_none_iff_exists'.mp (books.jobs id inside)
  obtain ⟨entry, here, rfl⟩ := entry_of_job found
  have refunds : releaseBudget id (removeQueued id s) = emit (.refunded id)
      { removeQueued id s with budget := s.budget.release (tenantOf entry.job) } := by
    unfold releaseBudget
    rw [show (removeQueued id s).entries.get id = some entry from here]
    rfl
  refine books.refund waits found [] ?_ ?_ ?_ ?_ ?_ ?_ <;> rw [Scheduling.failEntry, refunds]
  · exact FairQueue.remove_ordered
  · rfl
  · simp [emit, removeQueued]
  · rfl
  · rfl
  · exact fun _ => rfl

/-! ## Going to a backend and coming back -/

theorem Books.place (books : Books s) {d : Drain} {r : Round} {job : CaseJob} {chosen : String}
    {after : Backend} (waits : id ∈ s.queue.ordered) : Books (place d r id job chosen after s) := by
  have effects : (Scheduling.place d r id job chosen after s).effects
      = s.effects ++ [.handed id chosen] := rfl
  have handed : handed (Scheduling.place d r id job chosen after s) = handed s ++ [id] := by
    rw [handed_of_effects effects]
    rfl
  have refunded : refunded (Scheduling.place d r id job chosen after s) = refunded s := by
    rw [refunded_of_effects effects]
    exact List.append_nil _
  have settled : Scheduling.settled (Scheduling.place d r id job chosen after s)
      = Scheduling.settled s := by
    rw [settled_of_effects effects]
    exact List.append_nil _
  have running : running (Scheduling.place d r id job chosen after s) = running s ++ [id] := by
    simp [Scheduling.running, Scheduling.place, emit, detach, removeQueued]
  have queue : (Scheduling.place d r id job chosen after s).queue.ordered
      = s.queue.ordered.erase id := FairQueue.remove_ordered
  have jobs : ∀ id', jobOf (Scheduling.place d r id job chosen after s) id' = jobOf s id' :=
    (leaves_detach (s := s) id).job
  have admitted : admitted (Scheduling.place d r id job chosen after s) = admitted s := rfl
  have erased (x : Nat) := (List.perm_cons_erase waits).count_eq x
  refine ⟨?_, ?_, ?_, ?_, ?_, ?_⟩
  · rw [queue, handed, refunded, admitted]
    refine List.perm_iff_count.mpr fun x => ?_
    have before := books.entered.count_eq x
    have here := erased x
    simp only [List.count_append, List.count_cons, List.count_nil] at before here ⊢
    omega
  · rw [queue, running, settled, admitted]
    refine List.perm_iff_count.mpr fun x => ?_
    have before := books.settled.count_eq x
    have here := erased x
    simp only [List.count_append, List.count_cons, List.count_nil] at before here ⊢
    omega
  · exact fun id' inside => (jobs id').symm ▸ books.jobs id' inside
  · intro id' inside
    rw [handed, List.mem_append, List.mem_singleton]
    rw [running, List.mem_append, List.mem_singleton, effects] at inside
    rcases inside with (old | new) | resolved
    · exact Or.inl (books.by_backend id' (Or.inl old))
    · exact Or.inr new
    · exact Or.inl (books.by_backend id' (Or.inr (by simpa using resolved)))
  · intro id' inside
    rw [effects]
    exact List.mem_append_left _ (books.by_refund id' (refunded ▸ inside))
  · intro tenant
    rw [isOf_eq jobs, queue, handed]
    have moved : (s.queue.ordered.erase id ++ (Scheduling.handed s ++ [id])).Perm
        (s.queue.ordered ++ Scheduling.handed s) := by
      have moved := @perm_moved id s.queue.ordered [] (Scheduling.handed s) waits
      exact moved
    exact (books.reserved tenant).trans (moved.countP_eq _).symm

/-- A promise is settled by the backend; the reserved runs stay, the permits go back. -/
theorem Books.settle (books : Books s) {f : InFlight} (inFlight : f ∈ s.inFlight) (result : Bool)
    (permits : List String) (queue : t.queue = s.queue) (left : t.inFlight = s.inFlight.erase f)
    (effects : t.effects = s.effects ++ (.settled f.id result :: permits.map .released))
    (budget : ∀ tenant, (t.budget tenant).runs = (s.budget tenant).runs)
    (entrySeq : t.entrySeq = s.entrySeq) (jobs : ∀ id, jobOf t id = jobOf s id) : Books t := by
  have handed : handed t = handed s := by
    simp [handed_of_effects effects, Effect.handedId, Function.comp_def, List.filterMap_map,
      List.filterMap_cons, -List.filterMap_eq_nil_iff]
  have refunded : refunded t = refunded s := by
    simp [refunded_of_effects effects, Effect.refundedId, Function.comp_def, List.filterMap_map,
      List.filterMap_cons, -List.filterMap_eq_nil_iff]
  have settled : Scheduling.settled t = Scheduling.settled s ++ [f.id] := by
    simp [settled_of_effects effects, Effect.settledId, Function.comp_def, List.filterMap_map,
      -List.filterMap_eq_nil_iff]
  have running : (running s).Perm (f.id :: running t) := by
    rw [Scheduling.running, Scheduling.running, left]
    exact (List.perm_cons_erase inFlight).map InFlight.id
  have admitted : admitted t = admitted s := by
    rw [Scheduling.admitted, entrySeq, Scheduling.admitted]
  refine ⟨?_, ?_, ?_, ?_, ?_, ?_⟩
  · rw [queue, handed, refunded, admitted]
    exact books.entered
  · rw [queue, settled, admitted]
    refine List.perm_iff_count.mpr fun x => ?_
    have before := books.settled.count_eq x
    have here := running.count_eq x
    simp only [List.count_append, List.count_cons, List.count_nil] at before here ⊢
    omega
  · intro id inside
    rw [jobs]
    exact books.jobs id (admitted ▸ inside)
  · rw [handed]
    rintro id (inside | resolved)
    · exact books.by_backend id (Or.inl (running.mem_iff.mpr (List.mem_cons_of_mem _ inside)))
    · rw [effects, List.mem_append, List.mem_cons] at resolved
      rcases resolved with old | new | returned
      · exact books.by_backend id (Or.inr old)
      · obtain ⟨rfl, -⟩ := Effect.settled.inj new
        exact books.by_backend f.id (Or.inl (List.mem_map_of_mem inFlight))
      · obtain ⟨_, _, eq⟩ := List.mem_map.mp returned
        cases eq
  · intro id inside
    rw [effects]
    exact List.mem_append_left _ (books.by_refund id (refunded ▸ inside))
  · intro tenant
    rw [budget, books.reserved, isOf_eq jobs, queue, handed]

/-- A wake-up starts the pump at most. -/
theorem same_wake (cfg : Config) (s : State) : Same s (wake cfg s) := by
  rcases wake_cases cfg s with eq | ⟨_, _, eq⟩
  · rw [eq]
    exact .refl s
  · rw [eq]
    exact ⟨.refl _, rfl, rfl, rfl, rfl, fun _ => rfl, fun _ => rfl⟩

/-- What the end of a job does before the pump is woken. -/
structure Completed (s : State) (f : InFlight) (result : Bool) (t : State) : Prop where
  queue : t.queue = s.queue
  inFlight : t.inFlight = s.inFlight.erase f
  entries : t.entries = s.entries
  entrySeq : t.entrySeq = s.entrySeq
  effects : t.effects
    = s.effects ++ (.settled f.id result :: (permitOf s f.id).toList.map .released)
  budget : ∀ tenant, (t.budget tenant).runs = (s.budget tenant).runs
  pump : t.pump = s.pump.map (markLate f.held.backend)

theorem completed_complete (f : InFlight) (result : Option Cost) (after : Backend) :
    ∃ t, complete cfg f result after s = wake cfg t ∧ Completed s f result.isSome t := by
  unfold complete
  cases result with
  | none =>
      refine ⟨_, rfl, ?_⟩
      refine ⟨(releasePermit_keeps _).1, (leaves_releasePermit _).inFlight,
        (releasePermit_keeps _).2.2.1, (leaves_releasePermit _).entrySeq,
        (effects_releasePermit _).trans ?_, fun tenant => ?_, (releasePermit_keeps _).2.2.2⟩
      · simp [emit, permitOf]
      · rw [(releasePermit_keeps _).2.1]
        rfl
  | some cost =>
      refine ⟨_, rfl, ?_⟩
      refine ⟨(releasePermit_keeps _).1, (leaves_releasePermit _).inFlight,
        (releasePermit_keeps _).2.2.1, (leaves_releasePermit _).entrySeq,
        (effects_releasePermit _).trans ?_, fun tenant => ?_, (releasePermit_keeps _).2.2.2⟩
      · simp [emit, permitOf]
      · rw [(releasePermit_keeps _).2.1]
        exact Budget.settle_runs cost

theorem Books.complete (books : Books s) {f : InFlight} (inFlight : f ∈ s.inFlight)
    (result : Option Cost) (after : Backend) : Books (complete cfg f result after s) := by
  obtain ⟨t, eq, done⟩ := @completed_complete cfg s f result after
  rw [eq]
  refine Books.same ?_ (same_wake cfg t)
  exact books.settle inFlight result.isSome _ done.queue done.inFlight done.effects done.budget
    done.entrySeq fun id => by rw [jobOf, done.entries]; rfl

/-- Minting and returning permits is no move of an entry. -/
def Effect.quiet (e : Effect) : Prop :=
  e.handedId = none ∧ e.refundedId = none ∧ e.settledId = none

theorem Books.noted (books : Books s) {extra : List Effect} (queue : t.queue = s.queue)
    (inFlight : t.inFlight = s.inFlight) (effects : t.effects = s.effects ++ extra)
    (quiet : ∀ e ∈ extra, e.quiet) (budget : t.budget = s.budget)
    (entrySeq : t.entrySeq = s.entrySeq) (jobs : ∀ id, jobOf t id = jobOf s id) : Books t := by
  have handed : handed t = handed s := by
    rw [handed_of_effects effects, List.filterMap_eq_nil_iff.mpr fun e here => (quiet e here).1,
      List.append_nil]
  have refunded : refunded t = refunded s := by
    rw [refunded_of_effects effects,
      List.filterMap_eq_nil_iff.mpr fun e here => (quiet e here).2.1, List.append_nil]
  have settled : Scheduling.settled t = Scheduling.settled s := by
    rw [settled_of_effects effects,
      List.filterMap_eq_nil_iff.mpr fun e here => (quiet e here).2.2, List.append_nil]
  have running : running t = running s := by rw [Scheduling.running, inFlight, Scheduling.running]
  have admitted : admitted t = admitted s := by
    rw [Scheduling.admitted, entrySeq, Scheduling.admitted]
  refine ⟨?_, ?_, ?_, ?_, ?_, ?_⟩
  · rw [queue, handed, refunded, admitted]
    exact books.entered
  · rw [queue, running, settled, admitted]
    exact books.settled
  · intro id inside
    rw [jobs]
    exact books.jobs id (admitted ▸ inside)
  · rw [running, handed]
    rintro id (inside | resolved)
    · exact books.by_backend id (Or.inl inside)
    · rw [effects, List.mem_append] at resolved
      rcases resolved with old | new
      · exact books.by_backend id (Or.inr old)
      · cases (quiet _ new).2.2
  · intro id inside
    rw [effects]
    exact List.mem_append_left _ (books.by_refund id (refunded ▸ inside))
  · intro tenant
    rw [budget, books.reserved, isOf_eq jobs, queue, handed]

theorem Books.releasePermit (books : Books s) (id : Nat) : Books (releasePermit id s) := by
  obtain ⟨queue, budget, -⟩ := releasePermit_keeps (s := s) id
  have leaves := leaves_releasePermit (s := s) id
  refine books.noted queue leaves.inFlight (effects_releasePermit id) ?_ budget leaves.entrySeq
    leaves.job
  intro e here
  obtain ⟨permitId, -, rfl⟩ := List.mem_map.mp here
  exact ⟨rfl, rfl, rfl⟩

/-- A permit is minted once for an entry. -/
theorem mintPermit_cases (id : Nat) (uuid : String) :
    ((∃ permitId, permitOf s id = some permitId) ∧ mintPermit id uuid s = s) ∨
      ∃ permitId, permitOf s id = none ∧ (mintPermit id uuid s).effects
        = s.effects ++ [.minted id permitId] ∧
        ∀ id', permitOf (mintPermit id uuid s) id'
          = if id' = id then (s.entries.get id).map fun _ => permitId else permitOf s id' := by
  unfold mintPermit
  rcases found : (s.entries.get id).bind QueueEntry.permitId with _ | permitId
  · refine Or.inr ⟨_, found, rfl, fun id' => ?_⟩
    unfold permitOf emit
    by_cases hit : id' = id
    · subst hit
      rw [if_pos rfl, Table.get_modify_self, Option.bind_map]
      exact (Option.map_eq_bind).symm
    · rw [if_neg hit, Table.get_modify_of_ne _ hit]
  · exact Or.inl ⟨⟨permitId, found⟩, rfl⟩

theorem Books.mintPermit (books : Books s) (id : Nat) (uuid : String) :
    Books (mintPermit id uuid s) := by
  rcases mintPermit_cases (s := s) id uuid with ⟨-, same⟩ | ⟨permitId, -, effects, -⟩
  · rw [same]
    exact books
  · have leaves := leaves_mintPermit (s := s) id uuid
    have keeps : (Scheduling.mintPermit id uuid s).queue = s.queue ∧
        (Scheduling.mintPermit id uuid s).budget = s.budget := by
      unfold Scheduling.mintPermit
      split <;> exact ⟨rfl, rfl⟩
    refine books.noted keeps.1 leaves.inFlight effects ?_ keeps.2 leaves.entrySeq leaves.job
    intro e here
    rw [List.mem_singleton.mp here]
    exact ⟨rfl, rfl, rfl⟩

/-- A dispatch that passes the budget joins the queue under a number of its own. -/
theorem Books.enqueued (books : Books s) {signal : Option Nat} {now : Nat} {budget : Budget}
    (admits : s.budget.admitRun (tenantOf job) cfg.limitFor = some budget) :
    Books (enqueued cfg job signal now budget s) := by
  have jobs (id : Nat) : jobOf (Scheduling.enqueued cfg job signal now budget s) id
      = if id = s.entrySeq + 1 then some job else jobOf s id := jobOf_enqueued id
  have admitted : admitted (Scheduling.enqueued cfg job signal now budget s)
      = admitted s ++ [s.entrySeq + 1] := by
    rw [Nat.add_comm]
    exact List.range'_1_concat
  have queue : (Scheduling.enqueued cfg job signal now budget s).queue.ordered.Perm
      ((s.entrySeq + 1) :: s.queue.ordered) := FairQueue.enqueue_perm _
  have old : ∀ id ∈ Scheduling.admitted s, id ≠ s.entrySeq + 1 := by
    intro id inside
    have bound := List.mem_range'_1.mp inside
    omega
  refine ⟨?_, ?_, ?_, books.by_backend, books.by_refund, ?_⟩
  · rw [admitted]
    refine (queue.append_right _).trans ?_
    exact ((List.Perm.cons _ books.entered)).trans (List.perm_append_singleton _ _).symm
  · rw [admitted]
    refine (queue.append_right _).trans ?_
    exact ((List.Perm.cons _ books.settled)).trans (List.perm_append_singleton _ _).symm
  · intro id inside
    rw [jobs]
    split
    · exact Option.some_ne_none job
    · next other =>
        rw [admitted, List.mem_append, List.mem_singleton] at inside
        exact books.jobs id (inside.resolve_right other)
  · intro tenant
    have placed : ∀ id ∈ s.queue.ordered ++ handed s, id ≠ s.entrySeq + 1 := by
      intro id inside
      refine old id (books.entered.mem_iff.mp ?_)
      rw [← List.append_assoc]
      exact List.mem_append_left _ inside
    have runs := @Budget.admitRun_runs _ _ tenant _ _ admits
    have new : isOf (Scheduling.enqueued cfg job signal now budget s) tenant (s.entrySeq + 1)
        = decide (tenant = tenantOf job) := by
      simp [isOf, jobs, eq_comm]
    have same : ∀ id ∈ s.queue.ordered ++ handed s,
        isOf (Scheduling.enqueued cfg job signal now budget s) tenant id = isOf s tenant id := by
      intro id inside
      rw [isOf, isOf, jobs, if_neg (placed id inside)]
    have unchanged : (s.queue.ordered ++ handed s).countP
        (isOf (Scheduling.enqueued cfg job signal now budget s) tenant)
        = (s.queue.ordered ++ handed s).countP (isOf s tenant) :=
      List.countP_congr fun id inside => by rw [same id inside]
    have moved := (queue.append_right (handed s)).countP_eq
      (isOf (Scheduling.enqueued cfg job signal now budget s) tenant)
    rw [List.cons_append, List.countP_cons, new, unchanged] at moved
    refine runs.trans ?_
    rw [books.reserved, show handed (Scheduling.enqueued cfg job signal now budget s) = handed s
      from rfl, moved]
    simp only [decide_eq_true_eq]

/-! ## The permits -/

/-- The entry the pump has found a backend for. -/
def Pc.ask : Pc → Option Nat
  | .asking _ id _ _ => some id
  | .admitting _ id _ => some id
  | .committing _ id _ => some id
  | _ => none

def asked (s : State) : Option Nat := s.pump.bind fun pump => pump.pc.ask

/-- Some backend may take the entry's job. -/
def Placeable (cfg : Config) (s : State) (id : Nat) : Prop :=
  ∃ job, jobOf s id = some job ∧ (eligibleNames cfg job).isSome = true

/-- The permit of an entry has a place: the entry waits or runs, or the permit is back. -/
def Covered (s : State) (id : Nat) (permitId : String) : Prop :=
  id ∈ s.queue.ordered ∨ id ∈ running s ∨ .released permitId ∈ s.effects

structure Permits (cfg : Config) (s : State) : Prop where
  held : ∀ id permitId, .minted id permitId ∈ s.effects →
    Covered s id permitId ∨ claiming s = some id
  carried : ∀ id permitId, .minted id permitId ∈ s.effects → permitOf s id = some permitId
  placeable : ∀ id permitId, permitOf s id = some permitId → Placeable cfg s id
  found : ∀ id, asked s = some id → Placeable cfg s id

/-- Nothing was minted, and no permit was lost. -/
structure Carries (s t : State) : Prop where
  minted : ∀ id permitId, .minted id permitId ∈ t.effects → .minted id permitId ∈ s.effects
  held : ∀ id permitId, permitOf s id = some permitId → Covered s id permitId →
    Covered t id permitId
  permit : ∀ id permitId, permitOf t id = some permitId ↔ permitOf s id = some permitId
  job : ∀ id job, jobOf s id = some job → jobOf t id = some job

theorem Carries.trans {u : State} (first : Carries s t) (second : Carries t u) : Carries s u where
  minted id permitId here := first.minted id permitId (second.minted id permitId here)
  held id permitId found here := second.held id permitId
    ((first.permit id permitId).mpr found) (first.held id permitId found here)
  permit id permitId := (second.permit id permitId).trans (first.permit id permitId)
  job id job found := second.job id job (first.job id job found)

theorem Same.carries (same : Same s t) : Carries s t where
  minted id permitId here := same.effects ▸ here
  held id permitId _ here := by
    rw [Covered, running, same.inFlight, same.effects, same.queue.mem_iff]
    exact here
  permit id permitId := by rw [same.permit]
  job id job found := (same.job id).trans found

theorem Placeable.carries {id : Nat} (placeable : Placeable cfg s id)
    (job : ∀ id job, jobOf s id = some job → jobOf t id = some job) : Placeable cfg t id := by
  obtain ⟨own, found, eligible⟩ := placeable
  exact ⟨own, job id own found, eligible⟩

/-- While the pump stays where it is, or works on no entry, the permits are kept. -/
theorem Permits.carries (permits : Permits cfg s) (carries : Carries s t)
    (claims : ∀ id permitId, permitOf t id = some permitId → claiming s = some id →
      claiming t = some id ∨ Covered t id permitId)
    (asks : ∀ id, asked t = some id → Placeable cfg t id) : Permits cfg t := by
  refine ⟨?_, ?_, ?_, asks⟩
  · intro id permitId here
    have before := carries.minted id permitId here
    have found := permits.carried id permitId before
    rcases permits.held id permitId before with held | claims'
    · exact Or.inl (carries.held id permitId found held)
    · exact (claims id permitId ((carries.permit id permitId).mpr found) claims').symm
  · intro id permitId here
    exact (carries.permit id permitId).mpr
      (permits.carried id permitId (carries.minted id permitId here))
  · intro id permitId found
    exact (permits.placeable id permitId ((carries.permit id permitId).mp found)).carries carries.job

/-- What leaving the queue does to the permits, whether or not the entry is known. -/
theorem leaveQueue_permits (id : Nat) : (leaveQueue id s).entries = s.entries ∧
    ∃ refunds : List Effect, (∀ e ∈ refunds, e = .refunded id) ∧ (leaveQueue id s).effects
      = s.effects ++ (refunds ++ ((permitOf s id).toList.map .released ++ [.settled id false])) := by
  rcases found : s.entries.get id with _ | entry
  · have refunds : releaseBudget id (removeQueued id s) = removeQueued id s := by
      unfold releaseBudget
      rw [show (removeQueued id s).entries.get id = none from found]
    have none_held : permitOf s id = none := by rw [permitOf, found, Option.bind_none]
    rw [leaveQueue, refunds, none_held]
    refine ⟨(releasePermit_keeps _).2.2.1, [], by simp, ?_⟩
    rw [emit, effects_releasePermit, show permitOf (removeQueued id s) id = none from none_held]
    simp [removeQueued]
  · obtain ⟨-, -, entries, effects⟩ := leaveQueue_eq found
    exact ⟨entries, [.refunded id], by simp, effects⟩

theorem carries_leaveQueue (id : Nat) : Carries s (leaveQueue id s) := by
  obtain ⟨entries, refunds, only, effects⟩ := leaveQueue_permits (s := s) id
  have leaves := leaves_leaveQueue (s := s) id
  refine ⟨?_, ?_, ?_, fun id job found => (leaves.job id).trans found⟩
  · intro id' permitId here
    rw [effects] at here
    simp only [List.mem_append, List.mem_map, List.mem_singleton, reduceCtorEq, and_false,
      exists_false, or_false] at here
    exact here.resolve_right fun refund => by cases only _ refund
  · intro id' permitId carried covered
    rw [Covered, queue_leaveQueue, running, leaves.inFlight, effects]
    by_cases same : id' = id
    · subst same
      refine Or.inr (Or.inr ?_)
      simp [carried]
    · rcases covered with waits | runs | returned
      · exact Or.inl ((List.mem_erase_of_ne same).mpr waits)
      · exact Or.inr (Or.inl runs)
      · exact Or.inr (Or.inr (List.mem_append_left _ returned))
  · intro id' permitId
    rw [permitOf, permitOf, entries]

theorem carries_foldl {f : State → Nat → State} (one : ∀ s id, Carries s (f s id))
    (ids : List Nat) : Carries s (ids.foldl f s) := by
  induction ids generalizing s with
  | nil => exact (Same.refl s).carries
  | cons id ids ih => exact (one s id).trans ih

theorem carries_onAbort (s : State) (id : Nat) : Carries s (onAbort s id) := by
  unfold onAbort
  split
  · exact (same_detach id).carries.trans (carries_leaveQueue id)
  · exact (same_detach id).carries

theorem carries_abort (signal : Nat) : Carries s (abort signal s) := by
  unfold abort
  split
  · exact (Same.refl s).carries
  · have marked : Same s { s with aborted := signal :: s.aborted } :=
      ⟨.refl _, rfl, rfl, rfl, rfl, fun _ => rfl, fun _ => rfl⟩
    exact marked.carries.trans (carries_foldl carries_onAbort _)

theorem carries_cancelEntry (id : Nat) : Carries s (cancelEntry id s).1 := by
  unfold cancelEntry
  split
  · exact (same_detach id).carries.trans (carries_leaveQueue id)
  · exact (Same.refl s).carries

theorem carries_cancelQueued (predicate : CaseJob → Bool) :
    Carries s (cancelQueued predicate s).1 :=
  carries_foldl (fun _ id => carries_leaveQueue id) _

/-- An entry that is failed where the scan meets it carries no permit. -/
theorem carries_failEntry (unminted : permitOf s id = none) : Carries s (failEntry id s) := by
  have keeps : (failEntry id s).queue = (s.queue.remove id).2 ∧
      (failEntry id s).entries = s.entries ∧ ∃ extra : List Effect,
        (∀ e ∈ extra, e = .refunded id ∨ e = .settled id false) ∧
        (failEntry id s).effects = s.effects ++ extra := by
    unfold failEntry releaseBudget
    split
    · exact ⟨rfl, rfl, [.settled id false], by simp, rfl⟩
    · exact ⟨rfl, rfl, [.refunded id, .settled id false], by simp, by simp [emit, removeQueued]⟩
  obtain ⟨queue, entries, extra, only, effects⟩ := keeps
  have leaves := leaves_failEntry (s := s) id
  refine ⟨?_, ?_, ?_, fun id job found => (leaves.job id).trans found⟩
  · intro id' permitId here
    rw [effects, List.mem_append] at here
    refine here.resolve_right fun new => ?_
    rcases only _ new with eq | eq <;> cases eq
  · intro id' permitId carried covered
    rw [Covered, queue, FairQueue.remove_ordered, running, leaves.inFlight, effects]
    rcases covered with waits | runs | returned
    · refine Or.inl ((List.mem_erase_of_ne ?_).mpr waits)
      rintro rfl
      cases unminted.symm.trans carried
    · exact Or.inr (Or.inl runs)
    · exact Or.inr (Or.inr (List.mem_append_left _ returned))
  · intro id' permitId
    rw [permitOf, permitOf, entries]

theorem carries_enqueued (numbered : WellNumbered s) {signal : Option Nat} {now : Nat}
    {budget : Budget} : Carries s (enqueued cfg job signal now budget s) := by
  have unknown : s.entries.get (s.entrySeq + 1) = none := by
    rcases found : s.entries.get (s.entrySeq + 1) with _ | entry
    · rfl
    · have bound := numbered (s.entrySeq + 1) (by rw [jobOf, found]; exact Option.some_ne_none _)
      omega
  refine ⟨fun _ _ here => here, ?_, ?_, ?_⟩
  · intro id permitId _ covered
    rcases covered with waits | runs | returned
    · exact Or.inl (FairQueue.mem_enqueue.mpr (Or.inr waits))
    · exact Or.inr (Or.inl runs)
    · exact Or.inr (Or.inr returned)
  · intro id permitId
    rw [permitOf, permitOf, enqueued, Table.get_set]
    split
    · next new => simp [new, unknown]
    · rfl
  · intro id own found
    rw [jobOf_enqueued, if_neg, found]
    rintro rfl
    rw [jobOf, unknown] at found
    cases found

theorem carries_complete (f : InFlight) (result : Option Cost) (after : Backend) :
    Carries s (complete cfg f result after s) := by
  obtain ⟨t, eq, done⟩ := @completed_complete cfg s f result after
  rw [eq]
  refine Carries.trans ?_ (same_wake cfg t).carries
  refine ⟨?_, ?_, ?_, fun id job found => by rwa [jobOf, done.entries]⟩
  · intro id permitId here
    rw [done.effects] at here
    simpa using here
  · intro id permitId carried covered
    rw [Covered, done.queue, running, done.inFlight, done.effects]
    rcases covered with waits | runs | returned
    · exact Or.inl waits
    · by_cases same : id = f.id
      · subst same
        exact Or.inr (Or.inr (by simp [carried]))
      · obtain ⟨g, here, rfl⟩ := List.mem_map.mp runs
        refine Or.inr (Or.inl (List.mem_map_of_mem ?_))
        exact (List.mem_erase_of_ne fun eq => same (congrArg InFlight.id eq)).mpr here
    · exact Or.inr (Or.inr (List.mem_append_left _ returned))
  · intro id permitId
    rw [permitOf, permitOf, done.entries]

/-! ## The steps -/

/-- Waking the pump leaves it where it works on no entry. -/
theorem claiming_wake (cfg : Config) (s : State) : claiming (wake cfg s) = claiming s := by
  rcases wake_cases cfg s with eq | ⟨idle, _, eq⟩
  · rw [eq]
  · rw [eq, claiming, claiming, idle]
    rfl

theorem asked_wake (cfg : Config) (s : State) : asked (wake cfg s) = asked s := by
  rcases wake_cases cfg s with eq | ⟨idle, _, eq⟩
  · rw [eq]
  · rw [eq, asked, asked, idle]
    rfl

/-- The invariant of the machine. -/
structure Reckoned (cfg : Config) (s : State) : Prop where
  numbered : WellNumbered s
  books : Books s
  permits : Permits cfg s

variable {d : Drain} {pc : Pc} {ev : Event} {o : Answer}

/-- What happens outside the pump leaves it at its entry. -/
theorem outside_pump (outside : Outside cfg s ev t o) :
    claiming t = claiming s ∧ asked t = asked s := by
  have ofLeaves {t : State} (leaves : Leaves s t) :
      claiming t = claiming s ∧ asked t = asked s := by
    rw [claiming, asked, leaves.pump]
    exact ⟨rfl, rfl⟩
  cases outside with
  | refused | absent | capacityChanges => exact ⟨rfl, rfl⟩
  | queued => exact ⟨claiming_wake cfg _, asked_wake cfg _⟩
  | aborted => exact ofLeaves (leaves_abort _)
  | cancelEntry => exact ofLeaves (leaves_cancelEntry _)
  | cancelQueued => exact ofLeaves (leaves_cancelQueued _)
  | promoted => exact ⟨claiming_wake cfg _, asked_wake cfg _⟩
  | poked => exact ⟨claiming_wake cfg _, asked_wake cfg _⟩
  | @complete f result after =>
      obtain ⟨u, eq, done⟩ := @completed_complete cfg s f result after
      rw [eq, claiming_wake, asked_wake, claiming, asked, done.pump]
      rcases running : s.pump with _ | ⟨drain, pc⟩
      · rw [claiming, asked, running]
        exact ⟨rfl, rfl⟩
      · rw [claiming, asked, running]
        exact ⟨rfl, rfl⟩

theorem outside_carries (numbered : WellNumbered s) (outside : Outside cfg s ev t o) :
    Carries s t := by
  cases outside with
  | refused | absent => exact (Same.refl s).carries
  | queued => exact (carries_enqueued numbered).trans (same_wake cfg _).carries
  | aborted => exact carries_abort _
  | cancelEntry => exact carries_cancelEntry _
  | cancelQueued => exact carries_cancelQueued _
  | @promoted id =>
      refine Carries.trans ?_ (same_wake cfg _).carries
      refine Same.carries ⟨FairQueue.promote_perm, rfl, rfl, rfl, rfl, (leaves_promote id).job, ?_⟩
      exact permit_modify _ fun _ => rfl
  | poked => exact (same_wake cfg s).carries
  | complete => exact carries_complete _ _ _
  | capacityChanges =>
      exact Same.carries ⟨.refl _, rfl, rfl, rfl, rfl, fun _ => rfl, fun _ => rfl⟩

theorem outside_books (books : Books s) (outside : Outside cfg s ev t o) : Books t := by
  cases outside with
  | refused | absent => exact books
  | queued admits => exact (books.enqueued admits).same (same_wake cfg _)
  | aborted => exact books.abort _
  | cancelEntry => exact books.cancelEntry _
  | cancelQueued => exact books.cancelQueued _
  | @promoted id =>
      refine Books.same ?_ (same_wake cfg _)
      refine books.same ⟨FairQueue.promote_perm, rfl, rfl, rfl, rfl, (leaves_promote id).job, ?_⟩
      exact permit_modify _ fun _ => rfl
  | poked => exact books.same (same_wake cfg s)
  | complete inFlight => exact books.complete inFlight _ _
  | capacityChanges =>
      exact books.same ⟨.refl _, rfl, rfl, rfl, rfl, fun _ => rfl, fun _ => rfl⟩

theorem same_pump (s : State) (pump : Option Pump) : Same s { s with pump := pump } :=
  ⟨.refl _, rfl, rfl, rfl, rfl, fun _ => rfl, fun _ => rfl⟩

theorem same_holdPermit (id : Nat) : Same s (holdPermit id s) := by
  unfold holdPermit
  split
  · exact .refl s
  · exact ⟨.refl _, rfl, rfl, rfl, rfl, fun _ => rfl, fun _ => rfl⟩

/-- The scan fails an entry that waits, or skips it for its quota. -/
theorem fail_cases {r : Round} {id : Nat} {rest : List Nat}
    (pump : s.pump = some ⟨d, .scanning r⟩) (next : r.rest = id :: rest)
    (found : jobOf s id = some job) (nowhere : eligibleNames cfg job = none)
    (present : Present cfg s .scan = true) (eq : advance cfg s d (.scanning r) .scan = some t) :
    id ∈ s.queue.ordered ∨ ∃ pump, t = { s with pump := pump } := by
  by_cases quota : overQuota cfg s d (tenantOf job) = true
  · refine Or.inr ⟨some ⟨d, .scanning { r with rest }⟩, ?_⟩
    simp only [advance, next, found, Option.map_some, scanEntry, quota, if_true,
      Option.some.injEq] at eq
    exact eq.symm
  · refine Or.inl ?_
    simpa [Present, pump, next, found, nowhere, quota] using present

theorem advance_books (books : Books s) (pump : s.pump = some ⟨d, pc⟩)
    (present : Present cfg s ev = true) (eq : advance cfg s d pc ev = some t) : Books t := by
  have advance := advance_cases eq
  cases advance with
  | answer | probeFails | probed | ledgerRead | round | exit | scanned | skip | ask | room
  | noRoom | chosen | refused => exact books.same (same_pump s _)
  | fail next found nowhere =>
      rcases fail_cases pump next found nowhere present eq with waits | ⟨_, same⟩
      · exact (books.failEntry waits).same (same_pump _ _)
      · rw [same]
        exact books.same (same_pump s _)
  | mint => exact (books.mintPermit _ _).same (same_pump _ _)
  | granted => exact (books.same (same_holdPermit _)).same (same_pump _ _)
  | place _ queued => exact books.place queued
  | gone => exact (books.releasePermit _).same (same_pump _ _)

/-- The job that is placed runs; the permits of the others stay where they are. -/
theorem carries_place {r : Round} {id : Nat} {chosen : String} {after : Backend} :
    Carries s (place d r id job chosen after s) := by
  refine ⟨?_, ?_, ?_, fun id' job found => ((leaves_detach id).job id').trans found⟩
  · intro id' permitId here
    simpa [place, emit, detach, removeQueued] using here
  · intro id' permitId _ covered
    have queue : (place d r id job chosen after s).queue.ordered = s.queue.ordered.erase id :=
      FairQueue.remove_ordered
    have runs : running (place d r id job chosen after s) = running s ++ [id] := by
      simp [running, place, emit, detach, removeQueued]
    rw [Covered, queue, runs, List.mem_append, List.mem_singleton]
    by_cases same : id' = id
    · exact Or.inr (Or.inl (Or.inr same))
    · rcases covered with waits | isRunning | returned
      · exact Or.inl ((List.mem_erase_of_ne same).mpr waits)
      · exact Or.inr (Or.inl (Or.inl isRunning))
      · exact Or.inr (Or.inr (List.mem_append_left _ returned))
  · intro id' permitId
    have kept := (same_detach (s := s) id).permit id'
    exact (Eq.congr_left kept : _ ↔ _)

theorem carries_releasePermit (id : Nat) : Carries s (releasePermit id s) := by
  obtain ⟨queue, -, entries, -⟩ := releasePermit_keeps (s := s) id
  have leaves := leaves_releasePermit (s := s) id
  have effects := effects_releasePermit (s := s) id
  refine ⟨?_, ?_, ?_, fun id' job found => (leaves.job id').trans found⟩
  · intro id' permitId here
    rw [effects] at here
    simpa using here
  · intro id' permitId _ covered
    rw [Covered, queue, running, leaves.inFlight, effects]
    exact covered.imp_right (Or.imp_right (List.mem_append_left _))
  · intro id' permitId
    rw [permitOf, permitOf, entries]

/-- A state of the pump in which it claims nothing. -/
theorem Permits.moved (permits : Permits cfg s) (carries : Carries s t)
    (idle : claiming s = none) (asks : ∀ id, asked t = some id → Placeable cfg t id) :
    Permits cfg t :=
  permits.carries carries (fun id _ _ claims => by rw [idle] at claims; cases claims) asks

theorem Permits.mint (permits : Permits cfg s) {r : Round} {id : Nat} {with' : List BackendSlot}
    {chosen : String} (pump : s.pump = some ⟨d, .asking r id [] with'⟩) (uuid : String) :
    Permits cfg { mintPermit id uuid s with pump := some ⟨d, .admitting r id chosen⟩ } := by
  have idle : claiming s = none := by rw [claiming, pump]; rfl
  have placeable : Placeable cfg s id := permits.found id (by rw [asked, pump]; rfl)
  obtain ⟨job, found, eligible⟩ := placeable
  rcases mintPermit_cases (s := s) id uuid with
    ⟨-, same⟩ | ⟨permitId, unminted, effects, carried⟩
  · rw [same]
    refine permits.moved (same_pump s _).carries idle fun id' here => ?_
    obtain rfl := Option.some_inj.mp here
    exact ⟨job, found, eligible⟩
  · have leaves := leaves_mintPermit (s := s) id uuid
    obtain ⟨entry, entryFound, -⟩ := entry_of_job found
    have own : permitOf (mintPermit id uuid s) id = some permitId := by
      rw [carried, if_pos rfl, entryFound]
      rfl
    have other : ∀ id' permitId', permitOf s id' = some permitId' →
        permitOf (mintPermit id uuid s) id' = some permitId' := by
      intro id' permitId' here
      rw [carried, if_neg]
      · exact here
      · rintro rfl
        cases unminted.symm.trans here
    have queue : (mintPermit id uuid s).queue = s.queue := by
      unfold mintPermit
      split <;> rfl
    have jobs : ∀ id' job', jobOf s id' = some job' → jobOf (mintPermit id uuid s) id' = some job' :=
      fun id' job' here => (leaves.job id').trans here
    have inEffects : ∀ id' permitId', .minted id' permitId' ∈ (mintPermit id uuid s).effects →
        .minted id' permitId' ∈ s.effects ∨ id' = id ∧ permitId' = permitId := by
      intro id' permitId' here
      rw [effects, List.mem_append, List.mem_singleton] at here
      exact here.imp_right Effect.minted.inj
    refine ⟨?_, ?_, ?_, ?_⟩
    · intro id' permitId' here
      rcases inEffects id' permitId' here with old | ⟨rfl, -⟩
      · rcases permits.held id' permitId' old with covered | claims
        · refine Or.inl ?_
          show _ ∈ (mintPermit id uuid s).queue.ordered ∨
            _ ∈ (mintPermit id uuid s).inFlight.map InFlight.id ∨ _ ∈ (mintPermit id uuid s).effects
          rw [queue, leaves.inFlight, effects]
          exact covered.imp_right (Or.imp_right (List.mem_append_left _))
        · rw [idle] at claims
          cases claims
      · exact Or.inr rfl
    · intro id' permitId' here
      rcases inEffects id' permitId' here with old | ⟨rfl, rfl⟩
      · exact other id' permitId' (permits.carried id' permitId' old)
      · exact own
    · intro id' permitId' here
      by_cases same : id' = id
      · subst same
        exact ⟨job, jobs _ _ found, eligible⟩
      · have before : permitOf s id' = some permitId' := by
          have here' : permitOf (mintPermit id uuid s) id' = some permitId' := here
          rwa [carried, if_neg same] at here'
        exact (permits.placeable id' permitId' before).carries jobs
    · intro id' here
      obtain rfl := Option.some_inj.mp here
      exact ⟨job, jobs _ _ found, eligible⟩

theorem advance_permits (permits : Permits cfg s) (pump : s.pump = some ⟨d, pc⟩)
    (present : Present cfg s ev = true) (eq : advance cfg s d pc ev = some t) :
    Permits cfg t := by
  have advance := advance_cases eq
  have claims : claiming s = pc.claim := by rw [claiming, pump]; rfl
  have asks : asked s = pc.ask := by rw [asked, pump]; rfl
  cases advance with
  | answer | probeFails | probed | ledgerRead | round | exit | scanned | skip =>
      exact permits.moved (same_pump s _).carries claims fun _ here => by cases here
  | @fail r id rest job next found nowhere =>
      rcases fail_cases pump next found nowhere present eq with - | ⟨_, same⟩
      · have unminted : permitOf s id = none := by
          rcases carried : permitOf s id with _ | permitId
          · rfl
          · obtain ⟨own, here, eligible⟩ := permits.placeable id permitId carried
            obtain rfl := Option.some_inj.mp (here.symm.trans found)
            rw [nowhere] at eligible
            cases eligible
        exact permits.moved ((carries_failEntry unminted).trans (same_pump _ _).carries) claims
          fun _ here => by cases here
      · refine permits.moved ?_ claims fun _ here => by cases here
        rw [same]
        exact (same_pump s _).carries
  | ask next found eligible =>
      refine permits.moved (same_pump s _).carries claims fun id' here => ?_
      obtain rfl := Option.some_inj.mp here
      exact ⟨_, found, by rw [eligible]; rfl⟩
  | room found =>
      refine permits.moved (same_pump s _).carries claims fun id' here => ?_
      obtain rfl := Option.some_inj.mp here
      exact (permits.found _ asks).carries fun _ _ found => found
  | noRoom => exact permits.moved (same_pump s _).carries claims fun _ here => by cases here
  | mint => exact permits.mint pump _
  | chosen found =>
      refine permits.moved (same_pump s _).carries claims fun id' here => ?_
      obtain rfl := Option.some_inj.mp here
      exact (permits.found _ asks).carries fun _ _ found => found
  | @granted r id chosen =>
      have held := (same_holdPermit (s := s) id)
      refine permits.carries (held.carries.trans (same_pump _ _).carries) ?_ fun id' here => ?_
      · exact fun id' _ _ here => Or.inl (claims.symm.trans here)
      · obtain rfl := Option.some_inj.mp here
        exact (permits.found _ asks).carries fun id job found => (held.job id).trans found
  | @refused r id chosen =>
      refine permits.carries (same_pump s _).carries ?_ fun _ here => by cases here
      intro id' permitId carried here
      obtain rfl := Option.some_inj.mp (claims.symm.trans here)
      have carried' : permitOf s id = some permitId := carried
      refine Or.inr ?_
      have stands : id ∈ s.queue.ordered ∨ .released permitId ∈ s.effects := by
        simpa [Present, pump, carried'] using present
      exact stands.imp_right Or.inr
  | @place r id job chosen after found queued =>
      refine permits.carries carries_place ?_ fun _ here => by cases here
      intro id' permitId _ here
      obtain rfl := Option.some_inj.mp (claims.symm.trans here)
      refine Or.inr (Or.inr (Or.inl ?_))
      simp [running, place, emit, detach, removeQueued]
  | @gone r id chosen after left =>
      refine permits.carries ((carries_releasePermit id).trans (same_pump _ _).carries) ?_
        fun _ here => by cases here
      intro id' permitId carried here
      obtain rfl := Option.some_inj.mp (claims.symm.trans here)
      refine Or.inr (Or.inr (Or.inr ?_))
      have carried' : permitOf s id = some permitId := by
        have here' : permitOf (releasePermit id s) id = some permitId := carried
        rwa [permitOf, (releasePermit_keeps id).2.2.1] at here'
      show _ ∈ (releasePermit id s).effects
      rw [effects_releasePermit, carried']
      simp

theorem reckoned_initial (cfg : Config) (world : String → Backend) :
    Reckoned cfg (.initial world) := by
  refine ⟨wellNumbered_initial world, ⟨.refl _, .refl _, ?_, ?_, ?_, fun _ => rfl⟩,
    ⟨?_, ?_, ?_, ?_⟩⟩
  · exact fun _ inside => absurd inside List.not_mem_nil
  · rintro id (inside | inside) <;> exact absurd inside List.not_mem_nil
  · exact fun _ inside => absurd inside List.not_mem_nil
  · exact fun _ _ here => absurd here List.not_mem_nil
  · exact fun _ _ here => absurd here List.not_mem_nil
  · exact fun _ _ here => absurd here (Option.some_ne_none _).symm
  · exact fun _ here => absurd here (Option.some_ne_none _).symm

theorem Reckoned.step (reckoned : Reckoned cfg s) (present : Present cfg s ev = true)
    (eq : step cfg s ev = some (t, o)) : Reckoned cfg t := by
  have numbered := step_wellNumbered reckoned.numbered eq
  rcases step_parts eq with ⟨-, outside⟩ | ⟨d, pc, pump, advanced⟩
  · have carries := outside_carries reckoned.numbered outside
    obtain ⟨claims, asks⟩ := outside_pump outside
    refine ⟨numbered, outside_books reckoned.books outside, ?_⟩
    refine reckoned.permits.carries carries (fun id _ _ here => ?_) fun id here => ?_
    · exact Or.inl (claims.trans here)
    · exact (reckoned.permits.found id (asks.symm.trans here)).carries carries.job
  · exact ⟨numbered, advance_books reckoned.books pump present advanced,
      advance_permits reckoned.permits pump present advanced⟩

/-- What the books say of one entry. -/
theorem Reckoned.accounted (reckoned : Reckoned cfg s) : Accounted s := by
  have books := reckoned.books
  have one : ∀ id ∈ admitted s, (admitted s).count id = 1 :=
    fun id inside => List.count_eq_one_of_mem (nodup_admitted s) inside
  have settled_once : ∀ id ∈ admitted s,
      s.queue.ordered.count id + (running s).count id + (settled s).count id = 1 := by
    intro id inside
    rw [← one id inside, ← books.settled.count_eq id, List.count_append, List.count_append,
      Nat.add_assoc]
  refine ⟨?_, ?_, settled_once, books.by_backend, books.by_refund, ?_, ?_⟩
  · intro id inside
    rw [← one id inside, ← books.entered.count_eq id, List.count_append, List.count_append,
      Nat.add_assoc]
  · intro id inside
    refine books.entered.mem_iff.mp ?_
    rwa [List.mem_append, List.mem_append]
  · intro id permitId minted isSettled
    have inside : id ∈ admitted s := books.settled.mem_iff.mp
      (List.mem_append_right _ (List.mem_append_right _ isSettled))
    have once := settled_once id inside
    have here := List.count_pos_iff.mpr isSettled
    refine (reckoned.permits.held id permitId minted).imp_left fun covered => ?_
    rcases covered with waits | runs | returned
    · have there := List.count_pos_iff.mpr waits
      omega
    · have there := List.count_pos_iff.mpr runs
      omega
    · exact returned
  · intro tenant
    rw [books.reserved, List.countP_append]

/-- In every run that fails only waiting entries and leaves no refused permit behind, each
admitted dispatch is accounted for. -/
theorem dispatches_accounted (cfg : Config) (world : String → Backend)
    {log : List (Event × Answer)}
    (run : Runs (step cfg) (fun s ev => Present cfg s ev = true) (.initial world) log s) :
    Accounted s := by
  have reckoned : Reckoned cfg s := run.state_invariant (reckoned_initial cfg world)
    fun _ _ _ _ reckoned present eq => reckoned.step present eq
  exact reckoned.accounted

/-! ### A cancelled entry with an unknown pin -/

def lonePin : CaseJob :=
  { evalCase := ⟨"case", some { target := some "nowhere" }⟩, harness := ⟨"h", "1"⟩ }

/-- A backend whose pool is asked before a job is placed. -/
def pooledConfig : Config where
  names := ["b"]
  caseCapacityAware := fun _ => true
  policy := leastLoadedPolicy fun _ _ => true

def emptyBackend : Backend := { capacity := { total := 4, used := .known 0 } }

/-- The pump reads the backend and asks its pool for the first of the two entries. -/
def askedFirst : List Event :=
  [.dispatch { evalCase := ⟨"case", none⟩, harness := ⟨"h", "1"⟩ } none 0,
    .dispatch lonePin none 0, .answer "b", .probed, .ledgerRead fun _ => 0, .loop 0, .scan]

/-- The first entry is placed, and the scan meets the second. -/
def placedFirst : List Event := [.room false, .choose "", .commit emptyBackend, .scan]

/-- The second entry is cancelled while the pump asks; the scan fails it all the same, and its
run is given back twice. -/
theorem cancelled_pin_is_refunded_twice : ¬ ∀ (cfg : Config) (world : String → Backend) (s : State),
    Reachable (step cfg) Always (.initial world) s → Accounted s := by
  intro all
  obtain ⟨log, s, run, twice⟩ := exists_run_of_exec (step pooledConfig) Always
    (.initial fun _ => emptyBackend) (askedFirst ++ .cancelEntry 2 :: placedFirst)
    (fun s => s.entrySeq = 2 && refunded s = [2, 2]) (by decide +kernel)
  simp only [Bool.and_eq_true, decide_eq_true_eq] at twice
  have once := (all pooledConfig _ s ⟨log, run⟩).once 2 (by rw [admitted, twice.1]; decide)
  rw [twice.2, List.count_cons_self, List.count_cons_self] at once
  omega

theorem dispatches_accounted_placedFirst : ∃ s : State,
    handed s = [1] ∧ refunded s = [2] ∧ (s.budget "default").runs = 1 ∧ Accounted s := by
  obtain ⟨log, s, run, here⟩ := exists_run_of_exec (step pooledConfig)
    (fun s ev => Present pooledConfig s ev = true) (.initial fun _ => emptyBackend)
    (askedFirst ++ placedFirst)
    (fun s => handed s = [1] ∧ refunded s = [2] ∧ (s.budget "default").runs = 1)
    (by decide +kernel)
  obtain ⟨handedOut, given, left⟩ := of_decide_eq_true here
  exact ⟨s, handedOut, given, left, dispatches_accounted pooledConfig _ run⟩

end Everdict.Scheduling
