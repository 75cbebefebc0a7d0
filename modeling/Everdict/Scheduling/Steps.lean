import Everdict.Scheduling.Scheduler

/-!
# What a step of the scheduler can do

`Advance` lists the segments of the pump with the guards under which they happen;
`Outside` lists what may happen at an await.  Every invariant of the scheduler is
derived from these two (`step_cases`).  `Leaves` is what leaving the queue has in
common: nothing joins, and the pump, the backends and the jobs stay as they are.
-/

namespace Everdict.Scheduling

open Billing Placement Transition Machine

variable {cfg : Config} {s t u : State} {d : Drain} {pc : Pc} {ev : Event} {o : Answer}

/-! ## The segments of the pump -/

inductive Advance (cfg : Config) (s : State) (d : Drain) : Pc → Event → State → Prop
  | answer {left : List String} {name : String} (mem : name ∈ left) :
      Advance cfg s d (.probing left) (.answer name) { s with pump := some ⟨{ d with
        caps := Function.update d.caps name (some (s.world name).capacity) },
        .probing (left.erase name)⟩ }
  | probeFails {left : List String} {name : String} (mem : name ∈ left) :
      Advance cfg s d (.probing left) (.probeFails name)
        { s with pump := some ⟨d, .probing (left.erase name)⟩ }
  | probed : Advance cfg s d (.probing []) .probed { s with pump := some ⟨d, .reading⟩ }
  | ledgerRead {counts : String → Nat} :
      Advance cfg s d .reading (.ledgerRead counts) { s with pump := some ⟨{ d with
        atProbe := if cfg.ledger.isSome then counts else fun _ => 0
        localAtProbe := s.admission.tenantCounts }, .looping true []⟩ }
  | round {snapshot : List Nat} {now : Nat} (more : 0 < s.queue.size) :
      Advance cfg s d (.looping true snapshot) (.loop now)
        { s with pump := some ⟨d, .scanning (startRound cfg now d s)⟩ }
  | exit {placedAny : Bool} {snapshot : List Nat} {now : Nat}
      (stop : placedAny = false ∨ s.queue.size = 0) :
      Advance cfg s d (.looping placedAny snapshot) (.loop now) { s with pump := none }
  | scanned {r : Round} (rest : r.rest = []) :
      Advance cfg s d (.scanning r) .scan
        { s with pump := some ⟨d, .looping r.placedAny r.snapshot⟩ }
  | skip {r : Round} {id : Nat} {rest : List Nat} {job : CaseJob} (next : r.rest = id :: rest)
      (found : jobOf s id = some job)
      (why : overQuota cfg s d (tenantOf job) = true ∨
        ∃ names, eligibleNames cfg job = some names ∧ candidates r names job = []) :
      Advance cfg s d (.scanning r) .scan { s with pump := some ⟨d, .scanning { r with rest }⟩ }
  | fail {r : Round} {id : Nat} {rest : List Nat} {job : CaseJob} (next : r.rest = id :: rest)
      (found : jobOf s id = some job) (nowhere : eligibleNames cfg job = none) :
      Advance cfg s d (.scanning r) .scan { failEntry id s with
        pump := some ⟨d, .scanning { r with rest, placedAny := true }⟩ }
  | ask {r : Round} {id : Nat} {rest : List Nat} {job : CaseJob} {names : List String}
      (next : r.rest = id :: rest) (found : jobOf s id = some job)
      (eligible : eligibleNames cfg job = some names) :
      Advance cfg s d (.scanning r) .scan { s with
        pump := some ⟨d, .asking { r with rest } id (candidates r names job) []⟩ }
  | room {r : Round} {id : Nat} {job : CaseJob} {slot : BackendSlot} {left with' : List BackendSlot}
      {fails : Bool} (found : jobOf s id = some job) :
      Advance cfg s d (.asking r id (slot :: left) with') (.room fails) { s with
        pump := some ⟨(harnessRoom cfg s d slot.name job fails).2, .asking r id left
          (if (harnessRoom cfg s d slot.name job fails).1 then with' ++ [slot] else with')⟩ }
  | noRoom {r : Round} {id : Nat} {uuid : String} :
      Advance cfg s d (.asking r id [] []) (.choose uuid)
        { s with pump := some ⟨d, .scanning r⟩ }
  | mint {r : Round} {id : Nat} {job : CaseJob} {with' : List BackendSlot} {uuid chosen : String}
      (found : jobOf s id = some job) (choice : cfg.policy.choose with' job = some chosen)
      (permit : needsPermit cfg (tenantOf job) = true) :
      Advance cfg s d (.asking r id [] with') (.choose uuid)
        { mintPermit id uuid s with pump := some ⟨d, .admitting r id chosen⟩ }
  | chosen {r : Round} {id : Nat} {job : CaseJob} {with' : List BackendSlot} {uuid chosen : String}
      (found : jobOf s id = some job) (choice : cfg.policy.choose with' job = some chosen)
      (free : needsPermit cfg (tenantOf job) = false) :
      Advance cfg s d (.asking r id [] with') (.choose uuid)
        { s with pump := some ⟨d, .committing r id chosen⟩ }
  | granted {r : Round} {id : Nat} {chosen : String} :
      Advance cfg s d (.admitting r id chosen) (.tryAdmit true)
        { holdPermit id s with pump := some ⟨d, .committing r id chosen⟩ }
  | refused {r : Round} {id : Nat} {chosen : String} :
      Advance cfg s d (.admitting r id chosen) (.tryAdmit false)
        { s with pump := some ⟨d, .scanning r⟩ }
  | place {r : Round} {id : Nat} {job : CaseJob} {chosen : String} {after : Backend}
      (found : jobOf s id = some job) (queued : id ∈ s.queue.ordered) :
      Advance cfg s d (.committing r id chosen) (.commit after) (place d r id job chosen after s)
  | gone {r : Round} {id : Nat} {chosen : String} {after : Backend} (left : id ∉ s.queue.ordered) :
      Advance cfg s d (.committing r id chosen) (.commit after)
        { releasePermit id s with pump := some ⟨d, .scanning r⟩ }

theorem scanEntry_cases {r : Round} {id : Nat} {rest : List Nat} {job : CaseJob}
    (next : r.rest = id :: rest) (found : jobOf s id = some job) :
    Advance cfg s d (.scanning r) .scan (scanEntry cfg d { r with rest } id job s) := by
  unfold scanEntry
  split
  · next quota => exact .skip next found (.inl quota)
  · split
    · next nowhere => exact .fail next found nowhere
    · next names eligible =>
        have same : candidates { r with rest } names job = candidates r names job := rfl
        rw [same]
        split
        · next none => exact .skip next found (.inr ⟨names, eligible, none⟩)
        · next slot left eq => exact eq ▸ .ask next found eligible

theorem chooseBackend_cases {r : Round} {id : Nat} {job : CaseJob} {with' : List BackendSlot}
    {uuid : String} (found : jobOf s id = some job) :
    Advance cfg s d (.asking r id [] with') (.choose uuid)
      (chooseBackend cfg d r id job with' uuid s) := by
  unfold chooseBackend
  split
  · exact .noRoom
  · split
    · next none => exact absurd none (cfg.policy.picks (List.cons_ne_nil _ _))
    · next chosen choice =>
        split
        · next permit => exact .mint found choice permit
        · next free => exact .chosen found choice (Bool.eq_false_iff.mpr free)

theorem commit_cases {r : Round} {id : Nat} {job : CaseJob} {chosen : String} {after : Backend}
    (found : jobOf s id = some job) :
    Advance cfg s d (.committing r id chosen) (.commit after)
      (commit d r id job chosen after s) := by
  unfold commit
  split
  · next queued => exact .place found (FairQueue.remove_fst.mp queued)
  · next left => exact .gone fun queued => left (FairQueue.remove_fst.mpr queued)

/-- A segment of the pump is one of those listed. -/
theorem advance_cases (eq : advance cfg s d pc ev = some t) : Advance cfg s d pc ev t := by
  unfold advance at eq
  split at eq
  · split at eq
    · obtain rfl := Option.some_inj.mp eq
      exact .answer ‹_›
    · cases eq
  · split at eq
    · obtain rfl := Option.some_inj.mp eq
      exact .probeFails ‹_›
    · cases eq
  · obtain rfl := Option.some_inj.mp eq
    exact .probed
  · obtain rfl := Option.some_inj.mp eq
    exact .ledgerRead
  · split at eq
    · next more =>
        obtain rfl := Option.some_inj.mp eq
        simp only [Bool.and_eq_true, decide_eq_true_eq, gt_iff_lt] at more
        obtain ⟨rfl, size⟩ := more
        exact .round size
    · next stop =>
        obtain rfl := Option.some_inj.mp eq
        refine .exit ?_
        by_contra neither
        obtain ⟨placed, size⟩ := not_or.mp neither
        rw [Bool.not_eq_false] at placed
        simp [placed, Nat.pos_of_ne_zero size] at stop
  · split at eq
    · next rest =>
        obtain rfl := Option.some_inj.mp eq
        exact .scanned rest
    · next next =>
        obtain ⟨job, found, rfl⟩ := Option.map_eq_some_iff.mp eq
        exact scanEntry_cases next found
  · obtain ⟨job, found, rfl⟩ := Option.map_eq_some_iff.mp eq
    exact .room found
  · obtain ⟨job, found, rfl⟩ := Option.map_eq_some_iff.mp eq
    exact chooseBackend_cases found
  · obtain rfl := Option.some_inj.mp eq
    split
    · next granted =>
        subst granted
        exact .granted
    · next refused =>
        obtain rfl := Bool.eq_false_iff.mpr refused
        exact .refused
  · obtain ⟨job, found, rfl⟩ := Option.map_eq_some_iff.mp eq
    exact commit_cases found
  · cases eq

/-! ## Leaving the queue -/

theorem jobOf_modify {id : Nat} {f : QueueEntry → QueueEntry} (kept : ∀ entry, (f entry).job = entry.job)
    (id' : Nat) : jobOf { s with entries := s.entries.modify id f } id' = jobOf s id' := by
  unfold jobOf
  by_cases hit : id' = id
  · subst hit
    rw [Table.get_modify_self, Option.map_map]
    exact Option.map_congr fun entry _ => kept entry
  · rw [Table.get_modify_of_ne _ hit]

/-- Nothing joined the queue, and the rest of the desk is as it was. -/
structure Leaves (s t : State) : Prop where
  admission : t.admission = s.admission
  inFlight : t.inFlight = s.inFlight
  world : t.world = s.world
  pump : t.pump = s.pump
  queue : ∀ id ∈ t.queue.ordered, id ∈ s.queue.ordered
  job : ∀ id, jobOf t id = jobOf s id
  entrySeq : t.entrySeq = s.entrySeq

theorem Leaves.refl : Leaves s s := ⟨rfl, rfl, rfl, rfl, fun _ mem => mem, fun _ => rfl, rfl⟩

theorem Leaves.trans (h : Leaves s t) (h' : Leaves t u) : Leaves s u where
  admission := h'.admission.trans h.admission
  inFlight := h'.inFlight.trans h.inFlight
  world := h'.world.trans h.world
  pump := h'.pump.trans h.pump
  queue id mem := h.queue id (h'.queue id mem)
  job id := (h'.job id).trans (h.job id)
  entrySeq := h'.entrySeq.trans h.entrySeq

theorem leaves_emit (effect : Effect) : Leaves s (emit effect s) :=
  ⟨rfl, rfl, rfl, rfl, fun _ mem => mem, fun _ => rfl, rfl⟩

variable (id : Nat)

theorem leaves_removeQueued : Leaves s (removeQueued id s) :=
  ⟨rfl, rfl, rfl, rfl, fun _ => FairQueue.remove_subset, fun _ => rfl, rfl⟩

theorem leaves_releaseBudget : Leaves s (releaseBudget id s) := by
  unfold releaseBudget
  split
  · exact .refl
  · exact ⟨rfl, rfl, rfl, rfl, fun _ mem => mem, fun _ => rfl, rfl⟩

theorem leaves_releasePermit : Leaves s (releasePermit id s) := by
  unfold releasePermit
  split
  · exact .refl
  · exact ⟨rfl, rfl, rfl, rfl, fun _ mem => mem, fun _ => rfl, rfl⟩

theorem leaves_detach : Leaves s (detach id s) :=
  ⟨rfl, rfl, rfl, rfl, fun _ mem => mem, jobOf_modify fun _ => rfl, rfl⟩

theorem leaves_leaveQueue : Leaves s (leaveQueue id s) :=
  (leaves_removeQueued id).trans ((leaves_releaseBudget id).trans
    ((leaves_releasePermit id).trans (leaves_emit _)))

theorem leaves_failEntry : Leaves s (failEntry id s) :=
  (leaves_removeQueued id).trans ((leaves_releaseBudget id).trans (leaves_emit _))

theorem leaves_onAbort : Leaves s (onAbort s id) := by
  unfold onAbort
  split
  · exact (leaves_detach id).trans (leaves_leaveQueue id)
  · exact leaves_detach id

theorem leaves_foldl {f : State → Nat → State} (one : ∀ s id, Leaves s (f s id)) (ids : List Nat) :
    Leaves s (ids.foldl f s) := by
  induction ids generalizing s with
  | nil => exact .refl
  | cons id ids ih => exact (one s id).trans ih

theorem leaves_abort (signal : Nat) : Leaves s (abort signal s) := by
  unfold abort
  split
  · exact .refl
  · have marked : Leaves s { s with aborted := signal :: s.aborted } :=
      ⟨rfl, rfl, rfl, rfl, fun _ mem => mem, fun _ => rfl, rfl⟩
    exact marked.trans (leaves_foldl (fun _ id => leaves_onAbort id) _)

theorem leaves_cancelQueued (predicate : CaseJob → Bool) :
    Leaves s (cancelQueued predicate s).1 :=
  leaves_foldl (fun _ id => leaves_leaveQueue id) _

theorem leaves_cancelEntry : Leaves s (cancelEntry id s).1 := by
  unfold cancelEntry
  split
  · exact (leaves_detach id).trans (leaves_leaveQueue id)
  · exact .refl

theorem leaves_mintPermit (uuid : String) : Leaves s (mintPermit id uuid s) := by
  unfold mintPermit
  split
  · exact .refl
  · exact ⟨rfl, rfl, rfl, rfl, fun _ mem => mem, jobOf_modify fun _ => rfl, rfl⟩

theorem leaves_holdPermit : Leaves s (holdPermit id s) := by
  unfold holdPermit
  split
  · exact .refl
  · exact ⟨rfl, rfl, rfl, rfl, fun _ mem => mem, fun _ => rfl, rfl⟩

/-- A promotion keeps the items of the queue. -/
theorem leaves_promote : Leaves s { s with
    entries := s.entries.modify id fun entry => { entry with promoted := true }
    queue := (s.queue.promote id).2 } :=
  ⟨rfl, rfl, rfl, rfl, fun _ => FairQueue.mem_promote.mp, jobOf_modify fun _ => rfl, rfl⟩

/-! ## What may happen at an await -/

inductive Outside (cfg : Config) (s : State) : Event → State → Answer → Prop
  | refused {job : CaseJob} {signal : Option Nat} {now : Nat} {why : Refusal} :
      Outside cfg s (.dispatch job signal now) s (.refused why)
  | queued {job : CaseJob} {signal : Option Nat} {now : Nat} {budget : Budget}
      (admitted : s.budget.admitRun (tenantOf job) cfg.limitFor = some budget) :
      Outside cfg s (.dispatch job signal now) (wake cfg (enqueued cfg job signal now budget s))
        (.queued (s.entrySeq + 1))
  | aborted {signal : Nat} : Outside cfg s (.abort signal) (abort signal s) .done
  | cancelEntry {id : Nat} : Outside cfg s (.cancelEntry id) (cancelEntry id s).1 (cancelEntry id s).2
  | cancelQueued {predicate : CaseJob → Bool} : Outside cfg s (.cancelQueued predicate)
      (cancelQueued predicate s).1 (cancelQueued predicate s).2
  | promoted {id : Nat} (waits : id ∈ s.queue.ordered) : Outside cfg s (.promoteEntry id)
      (wake cfg { s with
        entries := s.entries.modify id fun entry => { entry with promoted := true }
        queue := (s.queue.promote id).2 }) (.found true)
  | absent {id : Nat} : Outside cfg s (.promoteEntry id) s (.found false)
  | poked : Outside cfg s .poke (wake cfg s) .done
  | complete {f : InFlight} {result : Option Cost} {after : Backend} (running : f ∈ s.inFlight) :
      Outside cfg s (.complete f result after) (complete cfg f result after s) .done
  | capacityChanges {name : String} {after : Backend} : Outside cfg s (.capacityChanges name after)
      { s with world := Function.update s.world name after } .done

theorem dispatch_cases (job : CaseJob) (signal : Option Nat) (now : Nat) :
    Outside cfg s (.dispatch job signal now) (dispatch cfg job signal now s).1
      (dispatch cfg job signal now s).2 := by
  unfold dispatch
  split
  · exact .refused
  · split
    · exact .refused
    · split
      · exact .refused
      · split
        · exact .refused
        · next budget admitted => exact .queued admitted

theorem promoteEntry_cases : Outside cfg s (.promoteEntry id)
    (promoteEntry cfg id s).1 (promoteEntry cfg id s).2 := by
  unfold promoteEntry
  split
  · next waits => exact .promoted waits
  · exact .absent

theorem outside_cases (eq : outside cfg s ev = some (t, o)) : Outside cfg s ev t o := by
  cases ev with
  | dispatch job signal now =>
      obtain ⟨rfl, rfl⟩ := Prod.ext_iff.mp (Option.some_inj.mp eq)
      exact dispatch_cases job signal now
  | abort signal =>
      obtain ⟨rfl, rfl⟩ := Prod.ext_iff.mp (Option.some_inj.mp eq)
      exact .aborted
  | cancelEntry id =>
      obtain ⟨rfl, rfl⟩ := Prod.ext_iff.mp (Option.some_inj.mp eq)
      exact .cancelEntry
  | cancelQueued predicate =>
      obtain ⟨rfl, rfl⟩ := Prod.ext_iff.mp (Option.some_inj.mp eq)
      exact .cancelQueued
  | promoteEntry id =>
      obtain ⟨rfl, rfl⟩ := Prod.ext_iff.mp (Option.some_inj.mp eq)
      exact promoteEntry_cases id
  | poke =>
      obtain ⟨rfl, rfl⟩ := Prod.ext_iff.mp (Option.some_inj.mp eq)
      exact .poked
  | complete f result after =>
      simp only [outside] at eq
      split at eq
      · next running =>
          obtain ⟨rfl, rfl⟩ := Prod.ext_iff.mp (Option.some_inj.mp eq)
          exact .complete running
      · cases eq
  | capacityChanges name after =>
      obtain ⟨rfl, rfl⟩ := Prod.ext_iff.mp (Option.some_inj.mp eq)
      exact .capacityChanges
  | answer | probeFails | probed | ledgerRead | loop | scan | room | choose | tryAdmit | commit =>
      cases eq

/-- A step happens outside the pump, at an await, or is the pump's own. -/
theorem step_parts (eq : step cfg s ev = some (t, o)) :
    (awaiting s = true ∧ Outside cfg s ev t o) ∨
      ∃ d pc, s.pump = some ⟨d, pc⟩ ∧ advance cfg s d pc ev = some t := by
  unfold step at eq
  split at eq
  · simp only [Option.bind_eq_some_iff, Option.map_eq_some_iff, Prod.mk.injEq] at eq
    obtain ⟨⟨d, pc⟩, running, t', advanced, rfl, _⟩ := eq
    exact .inr ⟨d, pc, running, advanced⟩
  · split at eq
    · next awaits => exact .inl ⟨awaits, outside_cases eq⟩
    · cases eq

/-- A step is something at an await, or a segment of the pump. -/
theorem step_cases (eq : step cfg s ev = some (t, o)) :
    (awaiting s = true ∧ Outside cfg s ev t o) ∨
      ∃ d pc, s.pump = some ⟨d, pc⟩ ∧ Advance cfg s d pc ev t := by
  rcases step_parts eq with outside | ⟨d, pc, running, advanced⟩
  · exact .inl outside
  · exact .inr ⟨d, pc, running, advance_cases advanced⟩

/-! ## The jobs of the entries -/

/-- The numbers of the entries were given out. -/
def WellNumbered (s : State) : Prop := ∀ id, jobOf s id ≠ none → id ≤ s.entrySeq

theorem wake_cases (cfg : Config) (s : State) :
    wake cfg s = s ∨ s.pump = none ∧ 0 < s.queue.size ∧
      wake cfg s = { s with pump := some ⟨drainOf s, .probing cfg.names⟩ } := by
  unfold wake
  split
  · exact .inl rfl
  · next idle =>
      split
      · exact .inl rfl
      · next waits => exact .inr ⟨idle, Nat.pos_of_ne_zero waits, rfl⟩

theorem jobOf_wake : jobOf (wake cfg s) id = jobOf s id := by
  rcases wake_cases cfg s with eq | ⟨_, _, eq⟩
  · rw [eq]
  · rw [eq]
    rfl

theorem entrySeq_wake : (wake cfg s).entrySeq = s.entrySeq := by
  rcases wake_cases cfg s with eq | ⟨_, _, eq⟩
  · rw [eq]
  · rw [eq]

theorem jobOf_enqueued {job : CaseJob} {signal : Option Nat} {now : Nat} {budget : Budget} :
    jobOf (enqueued cfg job signal now budget s) id =
      if id = s.entrySeq + 1 then some job else jobOf s id := by
  simp only [jobOf, enqueued, Table.get_set]
  split <;> rfl

/-- What a settling job leaves as it was. -/
theorem complete_keeps (f : InFlight) (result : Option Cost) (after : Backend) :
    (∀ id, jobOf (complete cfg f result after s) id = jobOf s id) ∧
      (complete cfg f result after s).entrySeq = s.entrySeq := by
  unfold complete
  have released (u : State) := leaves_releasePermit (s := u) f.id
  refine ⟨fun id => ?_, ?_⟩
  · rw [jobOf_wake, (released _).job]
    cases result <;> rfl
  · rw [entrySeq_wake, (released _).entrySeq]
    cases result <;> rfl

/-- A segment of the pump leaves the entries as they were. -/
theorem advance_keeps (h : Advance cfg s d pc ev t) :
    (∀ id, jobOf t id = jobOf s id) ∧ t.entrySeq = s.entrySeq := by
  cases h with
  | fail => exact ⟨fun id => (leaves_failEntry _).job id, (leaves_failEntry _).entrySeq⟩
  | mint => exact ⟨fun id => (leaves_mintPermit _ _).job id, (leaves_mintPermit _ _).entrySeq⟩
  | granted => exact ⟨fun id => (leaves_holdPermit _).job id, (leaves_holdPermit _).entrySeq⟩
  | gone => exact ⟨fun id => (leaves_releasePermit _).job id, (leaves_releasePermit _).entrySeq⟩
  | place => exact ⟨fun id => (leaves_detach _).job id, rfl⟩
  | answer | probeFails | probed | ledgerRead | round | exit | scanned | skip | ask | room
  | noRoom | chosen | refused => exact ⟨fun _ => rfl, rfl⟩

/-- A dispatch numbers a new entry, everything else leaves the entries alone. -/
theorem step_entries (eq : step cfg s ev = some (t, o)) :
    ((∀ id, jobOf t id = jobOf s id) ∧ t.entrySeq = s.entrySeq) ∨
      ∃ job, (∀ id, jobOf t id = if id = s.entrySeq + 1 then some job else jobOf s id) ∧
        t.entrySeq = s.entrySeq + 1 := by
  rcases step_cases eq with ⟨_, outside⟩ | ⟨d, pc, _, advance⟩
  · cases outside with
    | refused | absent | capacityChanges => exact .inl ⟨fun _ => rfl, rfl⟩
    | @queued job =>
        refine .inr ⟨job, fun id => ?_, ?_⟩
        · rw [jobOf_wake, jobOf_enqueued]
        · rw [entrySeq_wake]
          rfl
    | aborted => exact .inl ⟨(leaves_abort _).job, (leaves_abort _).entrySeq⟩
    | cancelEntry => exact .inl ⟨(leaves_cancelEntry _).job, (leaves_cancelEntry _).entrySeq⟩
    | cancelQueued => exact .inl ⟨(leaves_cancelQueued _).job, (leaves_cancelQueued _).entrySeq⟩
    | promoted =>
        exact .inl ⟨fun id => (jobOf_wake id).trans ((leaves_promote _).job id), entrySeq_wake⟩
    | poked => exact .inl ⟨fun id => jobOf_wake id, entrySeq_wake⟩
    | complete => exact .inl (complete_keeps _ _ _)
  · exact .inl (advance_keeps advance)

theorem step_wellNumbered (numbered : WellNumbered s) (eq : step cfg s ev = some (t, o)) :
    WellNumbered t := by
  intro id found
  rcases step_entries eq with ⟨job, seq⟩ | ⟨_, job, seq⟩
  · rw [seq]
    exact numbered id (job id ▸ found)
  · rw [job] at found
    split at found
    · next new => omega
    · have old := numbered id found
      omega

/-- The job of an entry stays. -/
theorem step_jobOf (numbered : WellNumbered s) (eq : step cfg s ev = some (t, o)) {id : Nat}
    {job : CaseJob} (found : jobOf s id = some job) : jobOf t id = some job := by
  rcases step_entries eq with ⟨same, _⟩ | ⟨_, same, _⟩
  · rw [same, found]
  · have old := numbered id (by simp [found])
    rw [same, if_neg (by omega), found]

theorem wellNumbered_initial (world : String → Backend) : WellNumbered (.initial world) := by
  intro id found
  exact absurd rfl found

end Everdict.Scheduling
