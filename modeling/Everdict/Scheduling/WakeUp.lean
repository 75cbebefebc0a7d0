import Everdict.Scheduling.Accounting
import Everdict.Scheduling.DrainBound

/-!
# Which wake-ups are lost

A pump that runs takes every wake-up of its time for itself: a dispatch and a completion that
land on one of its awaits find it running and do nothing.  It looks at an entry once a round,
against the capacities it read at its start, and goes home after a round that placed nothing.

`Watch` is what such a drain knows: as long as nothing completed on a backend it had read and
nothing was placed, its readings are what the backends would answer now, and every entry it
passed over has no room.  So where it goes home after looking at every entry that waits, no
entry that waits would be admitted (`no_lost_wake_up`); where a dispatch came after the last
snapshot, or a completion after the reading, one may be (`dispatch_behind_the_snapshot_waits`).
-/

namespace Everdict.Scheduling

open Billing Placement Transition Machine

variable {cfg : Config} {s t : State} {d : Drain} {pc : Pc} {ev : Event} {o : Answer}

/-! ## What waits for nothing -/

/-- Some backend the job may go to would admit it, by its own total and used counts. -/
def WouldAdmit (cfg : Config) (s : State) (id : Nat) : Prop :=
  ∃ job names name slot, jobOf s id = some job ∧ eligibleNames cfg job = some names ∧
    name ∈ names ∧ name ∈ cfg.names ∧
    freeSlotsFrom (fun name => some (s.world name).capacity) .empty name = some slot ∧
    slotAdmits slot (some (jobMemoryMb job)) (some (jobCpu job)) = true ∧
    (cfg.caseCapacityAware name = true → poolRoom .empty name (harnessKeyOf job)
      ((s.world name).pool (harnessKeyOf job)) = true)

/-- The pump is idle, nothing is in flight, and nothing that waits would be admitted. -/
def Awake (cfg : Config) (s : State) : Prop :=
  s.pump = none → s.inFlight = [] → ∀ id ∈ s.queue.ordered, ¬ WouldAdmit cfg s id

/-- Every backend answers its probe, and its capacity changes with our own jobs only. -/
def Steady : Event → Bool
  | .capacityChanges .. => false
  | .probeFails _ => false
  | _ => true

/-- The pump goes home only where nothing waits, or where nothing completed behind its reading
and its last round looked at everything that waits. -/
def Heard (s : State) (ev : Event) : Bool :=
  match s.pump, ev with
  | some ⟨d, .looping placedAny snapshot⟩, .loop _ =>
      (placedAny && s.queue.size > 0) || s.queue.size = 0 ||
        (!d.late && s.queue.ordered.all fun id => id ∈ snapshot)
  | _, _ => true

/-- No registered name is another one followed by the mark of a pool key. -/
def KeysApart (cfg : Config) : Prop :=
  ∀ name ∈ cfg.names, ∀ name' ∈ cfg.names, ∀ harness harness',
    poolKey name harness = poolKey name' harness' → name = name'

/-! ## What is held -/

/-- What the jobs in flight add up to under a key. -/
def total (key : Held → String) (amount : Held → Nat) : List InFlight → String → Nat
  | [], _ => 0
  | f :: rest, k => (if k = key f.held then amount f.held else 0) + total key amount rest k

section total

variable {key : Held → String} {amount : Held → Nat} {fs : List InFlight} {f : InFlight}

theorem total_append (fs : List InFlight) (f : InFlight) (k : String) :
    total key amount (fs ++ [f]) k
      = total key amount fs k + if k = key f.held then amount f.held else 0 := by
  induction fs with
  | nil => exact Nat.add_comm _ _
  | cons g fs ih =>
      rw [List.cons_append, total, ih, total, Nat.add_assoc]

theorem total_erase (inside : f ∈ fs) (k : String) :
    total key amount fs k
      = (if k = key f.held then amount f.held else 0) + total key amount (fs.erase f) k := by
  induction fs with
  | nil => cases inside
  | cons g fs ih =>
      by_cases same : g = f
      · subst same
        rw [List.erase_cons_head, total]
      · have there : f ∈ fs := (List.mem_cons.mp inside).resolve_left (Ne.symm same)
        rw [List.erase_cons_tail (by simpa using same), total, total, ih there]
        omega

/-- A counter that follows the jobs in flight. -/
def Follows (key : Held → String) (amount : Held → Nat) (fs : List InFlight)
    (counter : String → Nat) : Prop := ∀ k, counter k = total key amount fs k

variable {counter : String → Nat}

theorem Follows.reserve (follows : Follows key amount fs counter) (f : InFlight) :
    Follows key amount (fs ++ [f]) (bump counter (key f.held) (amount f.held)) := by
  intro k
  rw [total_append, bump_apply, follows k]
  split <;> omega

theorem Follows.release (follows : Follows key amount fs counter) (inside : f ∈ fs) :
    Follows key amount (fs.erase f) (bump counter (key f.held) (-amount f.held)) := by
  intro k
  have before := @total_erase key amount fs f inside k
  rw [bump_apply, follows k, before]
  split <;> omega

end total

/-- The five counters follow the jobs in flight. -/
structure Holds (a : Admission) (fs : List InFlight) : Prop where
  slots : Follows Held.backend (fun _ => 1) fs a.backendCounts
  memory : Follows Held.backend Held.memoryMb fs a.backendMemMb
  cpu : Follows Held.backend Held.cpu fs a.backendCpu
  tenants : Follows Held.tenant (fun _ => 1) fs a.tenantCounts
  pools : Follows (fun h => poolKey h.backend h.harness) (fun _ => 1) fs a.harnessCounts

theorem Holds.reserve {a : Admission} {fs : List InFlight} (holds : Holds a fs) (f : InFlight) :
    Holds (a.reserve f.held) (fs ++ [f]) :=
  ⟨holds.slots.reserve f, holds.memory.reserve f, holds.cpu.reserve f, holds.tenants.reserve f,
    holds.pools.reserve f⟩

theorem Holds.release {a : Admission} {fs : List InFlight} {f : InFlight} (holds : Holds a fs)
    (inside : f ∈ fs) : Holds (a.release f.held) (fs.erase f) :=
  ⟨holds.slots.release inside, holds.memory.release inside, holds.cpu.release inside,
    holds.tenants.release inside, holds.pools.release inside⟩

/-- Where nothing is in flight, nothing is held. -/
theorem Holds.eq_empty {a : Admission} (holds : Holds a []) : a = .empty := by
  obtain ⟨slots, memory, cpu, tenants, pools⟩ := holds
  cases a
  simp only [Admission.empty, Admission.mk.injEq]
  exact ⟨funext slots, funext memory, funext cpu, funext tenants, funext pools⟩

/-! ## What a drain knows -/

/-- The pool of a harness was asked, and has no room. -/
def Full (cfg : Config) (s : State) (d : Drain) (name : String) (job : CaseJob) : Prop :=
  cfg.caseCapacityAware name = true ∧ ∃ pool,
    d.caseCaps (poolKey name (harnessKeyOf job)) = some pool ∧
    poolRoom s.admission name (harnessKeyOf job) pool = false

/-- A slot of the reading that would take the job. -/
def Fits (s : State) (d : Drain) (names : List String) (job : CaseJob) (slot : BackendSlot) :
    Prop :=
  ∃ name ∈ names, freeSlotsFrom d.caps s.admission name = some slot ∧
    slotAdmits slot (some (jobMemoryMb job)) (some (jobCpu job)) = true

/-- The drain looked at an entry and found no room for it. -/
def Skipped (cfg : Config) (s : State) (d : Drain) (id : Nat) : Prop :=
  ∀ job names, jobOf s id = some job → eligibleNames cfg job = some names →
    ∀ slot, Fits s d names job slot → Full cfg s d slot.name job

/-- Nothing completed behind the reading, and nothing was placed. -/
def Quiet (d : Drain) : Prop := d.late = false ∧ d.placed = []

/-- The slots of a round are those of backends that were read, and a quiet round looked at what
it passed, the entry in hand apart. -/
structure Scanned (cfg : Config) (s : State) (d : Drain) (r : Round) (inHand : Option Nat) :
    Prop where
  named : ∀ name slot, r.slots name = some slot →
    slot.name = name ∧ (d.caps name).isSome = true
  slots : Quiet d → r.slots = freeSlotsFrom d.caps s.admission
  passed : Quiet d → ∀ id ∈ r.snapshot, id ∉ r.rest → some id ≠ inHand →
    id ∈ s.queue.ordered → Skipped cfg s d id

/-- What is known where the pump stands, once every backend has been read. -/
def Here (cfg : Config) (s : State) (d : Drain) : Pc → Prop
  | .probing _ => True
  | .reading => True
  | .looping placedAny snapshot => placedAny = false → Quiet d →
      ∀ id ∈ snapshot, id ∈ s.queue.ordered → Skipped cfg s d id
  | .scanning r => Scanned cfg s d r none
  | .asking r id left with' => Scanned cfg s d r (some id) ∧
      (∀ slot ∈ left ++ with', (d.caps slot.name).isSome = true) ∧
      (Quiet d → ∀ job names, jobOf s id = some job → eligibleNames cfg job = some names →
        ∀ slot, Fits s d names job slot → slot ∈ left ∨ slot ∈ with' ∨ Full cfg s d slot.name job)
  | .admitting .. => False
  | .committing r id chosen => Scanned cfg s d r (some id) ∧ (d.caps chosen).isSome = true

/-- The backends that the drain has still to read. -/
def Pc.unread : Pc → List String
  | .probing left => left
  | _ => []

/-- The entries that a round goes over. -/
def Pc.ids : Pc → List Nat
  | .looping _ snapshot => snapshot
  | .scanning r => r.snapshot ++ r.rest
  | .asking r id _ _ => id :: (r.snapshot ++ r.rest)
  | .admitting r id _ => id :: (r.snapshot ++ r.rest)
  | .committing r id _ => id :: (r.snapshot ++ r.rest)
  | _ => []

structure Watch (cfg : Config) (s : State) (d : Drain) (pc : Pc) : Prop where
  read : ∀ name ∈ cfg.names, name ∈ pc.unread ∨ (d.caps name).isSome = true
  unread : ∀ name ∈ pc.unread, name ∈ cfg.names
  registered : ∀ name, (d.caps name).isSome = true → name ∈ cfg.names
  first : ∀ left, pc = .probing left → d.placed = [] ∧ ∀ key, d.caseCaps key = none
  placed : d.late = false → ∀ f ∈ d.placed,
    f ∈ s.inFlight ∧ (d.caps f.held.backend).isSome = true
  capacities : Quiet d → ∀ name cap, d.caps name = some cap → (s.world name).capacity = cap
  pools : Quiet d → ∀ name ∈ cfg.names, ∀ harness pool,
    d.caseCaps (poolKey name harness) = some pool →
      pool = none ∨ pool = (s.world name).pool harness
  numbered : ∀ id ∈ pc.ids, id ≤ s.entrySeq
  here : Here cfg s d pc

/-- What holds whatever the pump does. -/
structure Knows (cfg : Config) (s : State) : Prop where
  numbered : WellNumbered s
  queued : ∀ id ∈ s.queue.ordered, id ≤ s.entrySeq
  holds : Holds s.admission s.inFlight
  named : ∀ f ∈ s.inFlight, f.held.backend ∈ cfg.names
  drain : ∀ d pc, s.pump = some ⟨d, pc⟩ → Watch cfg s d pc

/-- The invariant of the machine. -/
structure Watched (cfg : Config) (s : State) : Prop extends Knows cfg s where
  idle : Awake cfg s

theorem watch_begin (s : State) : Watch cfg t (drainOf s) (.probing cfg.names) where
  read name inside := Or.inl inside
  unread _ inside := inside
  registered _ isRead := by cases isRead
  first _ _ := ⟨rfl, fun _ => rfl⟩
  placed _ _ inside := by cases inside
  capacities _ _ _ isRead := by cases isRead
  pools _ _ _ _ _ isAsked := by cases isAsked
  numbered _ inside := by cases inside
  here := trivial

theorem not_quiet_of_late (late : d.late = true) : ¬ Quiet d := by
  rintro ⟨isFalse, -⟩
  rw [late] at isFalse
  cases isFalse

/-- A drain that something completed behind, or that has placed something, promises nothing. -/
theorem here_of_not_quiet (here : Here cfg s d pc) {d' : Drain} (caps : d'.caps = d.caps)
    (loud : ¬ Quiet d') : Here cfg t d' pc := by
  have scanned : ∀ {r inHand}, Scanned cfg s d r inHand → Scanned cfg t d' r inHand :=
    fun scanned => ⟨caps ▸ scanned.named, fun quiet => absurd quiet loud,
      fun quiet => absurd quiet loud⟩
  cases pc with
  | probing | reading => trivial
  | looping => exact fun _ quiet => absurd quiet loud
  | scanning => exact scanned here
  | asking =>
      refine ⟨scanned here.1, ?_, fun quiet => absurd quiet loud⟩
      rw [caps]
      exact here.2.1
  | admitting => exact here
  | committing =>
      refine ⟨scanned here.1, ?_⟩
      rw [caps]
      exact here.2

section transport

variable {id : Nat}

theorem Skipped.transport (skipped : Skipped cfg s d id) (admission : t.admission = s.admission)
    (job : jobOf t id = jobOf s id) : Skipped cfg t d id := by
  intro own names found eligible slot fits
  have before := skipped own names (job.symm.trans found) eligible slot
  rw [Fits, Full, ← admission] at before
  exact before fits

/-- What changes outside the pump as long as nothing completes: entries leave, or new ones come,
which no round has in its scan order. -/
theorem Watch.transport (watch : Watch cfg s d pc) (admission : t.admission = s.admission)
    (inFlight : t.inFlight = s.inFlight) (world : t.world = s.world)
    (entrySeq : s.entrySeq ≤ t.entrySeq)
    (queue : ∀ id ∈ t.queue.ordered, id ∈ s.queue.ordered ∨ s.entrySeq < id)
    (jobs : ∀ id ≤ s.entrySeq, jobOf t id = jobOf s id) : Watch cfg t d pc := by
  have skipped : ∀ id ∈ pc.ids, Skipped cfg s d id → Skipped cfg t d id := by
    intro id inside skipped
    exact skipped.transport admission (jobs id (watch.numbered id inside))
  have waits : ∀ id ∈ pc.ids, id ∈ t.queue.ordered → id ∈ s.queue.ordered := by
    intro id inside waits
    refine (queue id waits).resolve_right fun new => ?_
    exact absurd (watch.numbered id inside) (Nat.not_le.mpr new)
  have scanned : ∀ r inHand, (∀ id ∈ r.snapshot, id ∈ pc.ids) → Scanned cfg s d r inHand →
      Scanned cfg t d r inHand := by
    intro r inHand known scanned
    refine ⟨scanned.named, fun quiet => ?_, fun quiet id inside gone other waiting => ?_⟩
    · rw [scanned.slots quiet, admission]
    · have inPc := known id inside
      exact skipped id inPc (scanned.passed quiet id inside gone other (waits id inPc waiting))
  refine ⟨watch.read, watch.unread, watch.registered, watch.first, ?_, ?_, ?_, ?_, ?_⟩
  · rw [inFlight]
    exact watch.placed
  · rw [world]
    exact watch.capacities
  · rw [world]
    exact watch.pools
  · exact fun id inside => Nat.le_trans (watch.numbered id inside) entrySeq
  · have here := watch.here
    cases pc with
    | probing | reading => trivial
    | looping placedAny snapshot =>
        exact fun none_placed quiet id inside waiting => skipped id inside
          (here none_placed quiet id inside (waits id inside waiting))
    | scanning r =>
        exact scanned r none (fun id inside => List.mem_append_left _ inside) here
    | asking r id left with' =>
        refine ⟨scanned r _ (fun id inside => List.mem_cons_of_mem _
          (List.mem_append_left _ inside)) here.1, here.2.1, ?_⟩
        intro quiet job names found eligible slot fits
        have same := jobs id (watch.numbered id List.mem_cons_self)
        have before := here.2.2 quiet job names (same.symm.trans found) eligible slot
        rw [Fits, Full, ← admission] at before
        exact before fits
    | admitting => exact here
    | committing r id chosen =>
        exact ⟨scanned r _ (fun id inside => List.mem_cons_of_mem _
          (List.mem_append_left _ inside)) here.1, here.2⟩

end transport

/-! ## The segments of the pump -/

theorem Watch.pumped (watch : Watch cfg s d pc) (pump : Option Pump) :
    Watch cfg { s with pump := pump } d pc :=
  watch.transport rfl rfl rfl (Nat.le_refl _) (fun _ inside => Or.inl inside) fun _ _ => rfl

/-- The pump goes on in a state in which only entries have left the queue. -/
theorem Watch.leaves (watch : Watch cfg s d pc) (left : Leaves s t) : Watch cfg t d pc :=
  watch.transport left.admission left.inFlight left.world (Nat.le_of_eq left.entrySeq.symm)
    (fun id inside => Or.inl (left.queue id inside)) fun id _ => left.job id

/-- The pump moves on, over the same reading. -/
theorem Watch.move {pc' : Pc} (watch : Watch cfg s d pc) (unread : pc'.unread = pc.unread)
    (first : ∀ left, pc' = .probing left → pc = .probing left)
    (numbered : ∀ id ∈ pc'.ids, id ∈ pc.ids) (here : Here cfg s d pc') : Watch cfg s d pc' :=
  ⟨unread ▸ watch.read, unread ▸ watch.unread, watch.registered,
    fun left eq => watch.first left (first left eq), watch.placed, watch.capacities, watch.pools,
    fun id inside => watch.numbered id (numbered id inside), here⟩

theorem Watch.goesOn {pc' : Pc} (watch : Watch cfg s d pc) (unread : pc'.unread = pc.unread)
    (first : ∀ left, pc' = .probing left → pc = .probing left)
    (numbered : ∀ id ∈ pc'.ids, id ∈ pc.ids) (here : Here cfg s d pc') :
    Watch cfg { s with pump := some ⟨d, pc'⟩ } d pc' :=
  (watch.move unread first numbered here).pumped _

section segments

variable {id : Nat} {r : Round} {job : CaseJob} {names : List String}

/-- The candidates of a quiet round are the slots of the reading that fit. -/
theorem mem_candidates (slots : r.slots = freeSlotsFrom d.caps s.admission) {slot : BackendSlot} :
    slot ∈ candidates r names job ↔ Fits s d names job slot := by
  simp only [candidates, slots, List.mem_filter, List.mem_filterMap, Fits]
  constructor
  · rintro ⟨⟨name, inside, found⟩, admits⟩
    exact ⟨name, inside, found, admits⟩
  · rintro ⟨name, inside, found, admits⟩
    exact ⟨⟨name, inside, found⟩, admits⟩

/-- A round begins with everything still to look at. -/
theorem scanned_start (now : Nat) : Scanned cfg s d (startRound cfg now d s) none := by
  refine ⟨fun name slot found => ?_, fun _ => rfl, fun _ id inside gone => absurd inside gone⟩
  obtain ⟨cap, read, rfl⟩ := Option.map_eq_some_iff.mp found
  exact ⟨rfl, by rw [read]; rfl⟩

/-- The entry in hand was passed over. -/
theorem Scanned.pass (scanned : Scanned cfg s d r (some id))
    (skipped : Quiet d → id ∈ s.queue.ordered → Skipped cfg s d id) : Scanned cfg s d r none := by
  refine ⟨scanned.named, scanned.slots, fun quiet other inside gone _ waits => ?_⟩
  by_cases same : other = id
  · subst same
    exact skipped quiet waits
  · exact scanned.passed quiet other inside gone (fun eq => same (Option.some_inj.mp eq)) waits

/-- The next entry is taken in hand. -/
theorem Scanned.next {rest : List Nat} {placedAny : Bool} (scanned : Scanned cfg s d r none)
    (next : r.rest = id :: rest) :
    Scanned cfg s d { r with rest := rest, placedAny := placedAny } (some id) := by
  refine ⟨scanned.named, scanned.slots, fun quiet other inside gone notInHand waits => ?_⟩
  refine scanned.passed quiet other inside ?_ (Option.some_ne_none other) waits
  rw [next, List.mem_cons, not_or]
  exact ⟨fun eq => notInHand (congrArg some eq), gone⟩

/-- A memo that grew still says what it said. -/
theorem Full.grow {name : String} {d' : Drain} (full : Full cfg s d name job)
    (grown : ∀ key pool, d.caseCaps key = some pool → d'.caseCaps key = some pool) :
    Full cfg s d' name job := by
  obtain ⟨aware, pool, asked, noRoom⟩ := full
  exact ⟨aware, pool, grown _ _ asked, noRoom⟩

/-- What asking a pool does to the memo. -/
theorem harnessRoom_memo (cfg : Config) (s : State) (d : Drain) (name : String) (job : CaseJob)
    (fails : Bool) :
    (∀ key pool, d.caseCaps key = some pool →
      (harnessRoom cfg s d name job fails).2.caseCaps key = some pool) ∧
    (∀ key pool, (harnessRoom cfg s d name job fails).2.caseCaps key = some pool →
      d.caseCaps key = some pool ∨ key = poolKey name (harnessKeyOf job) ∧
        (pool = none ∨ pool = (s.world name).pool (harnessKeyOf job))) ∧
    ((harnessRoom cfg s d name job fails).1 = false →
      Full cfg s (harnessRoom cfg s d name job fails).2 name job) := by
  unfold harnessRoom
  split
  · next aware =>
      unfold askPool
      split
      · next pool asked =>
          refine ⟨fun _ _ asked => asked, fun _ _ asked => Or.inl asked, fun noRoom => ?_⟩
          exact ⟨aware, pool, asked, noRoom⟩
      · next unasked =>
          refine ⟨fun key pool asked => ?_, fun key pool asked => ?_, fun noRoom => ?_⟩
          · show Function.update d.caseCaps _ _ key = some pool
            rw [Function.update_of_ne]
            · exact asked
            · rintro rfl
              cases unasked.symm.trans asked
          · replace asked : Function.update d.caseCaps _
              (some (if fails = true then none else _)) key = some pool := asked
            by_cases same : key = poolKey name (harnessKeyOf job)
            · subst same
              rw [Function.update_self] at asked
              refine Or.inr ⟨rfl, ?_⟩
              rw [← Option.some_inj.mp asked]
              split
              · exact Or.inl rfl
              · exact Or.inr rfl
            · rw [Function.update_of_ne same] at asked
              exact Or.inl asked
          · exact ⟨aware, _, Function.update_self .., noRoom⟩
  · exact ⟨fun _ _ asked => asked, fun _ _ asked => Or.inl asked, fun noRoom => by cases noRoom⟩

theorem poolKey_inj {name harness harness' : String}
    (same : poolKey name harness = poolKey name harness') : harness = harness' := by
  have chars := congrArg String.toList same
  simp only [poolKey, String.toList_append, List.append_assoc] at chars
  exact String.toList_inj.mp (List.append_cancel_left (List.append_cancel_left chars))

theorem Scanned.place (scanned : Scanned cfg s d r (some id)) {f : InFlight} :
    Scanned cfg t { d with placed := d.placed ++ [f] }
      { r with slots := takeSlot r.slots f.held, placedAny := true } none := by
  have loud : ¬ Quiet { d with placed := d.placed ++ [f] } := by
    rintro ⟨-, none_placed⟩
    exact List.append_ne_nil_of_right_ne_nil _ (List.cons_ne_nil f []) none_placed
  refine ⟨fun name slot found => ?_, fun quiet => absurd quiet loud,
    fun quiet => absurd quiet loud⟩
  replace found : takeSlot r.slots f.held name = some slot := found
  unfold takeSlot at found
  split at found
  · obtain ⟨before, here, rfl⟩ := Option.map_eq_some_iff.mp found
    exact scanned.named name before here
  · exact scanned.named name slot found

/-- One more backend has answered. -/
theorem Watch.answer {left : List String} {name : String} (watch : Watch cfg s d (.probing left))
    (mem : name ∈ left) : Watch cfg s
      { d with caps := Function.update d.caps name (some (s.world name).capacity) }
      (.probing (left.erase name)) := by
  obtain ⟨none_placed, unasked⟩ := watch.first left rfl
  have self : Function.update d.caps name (some (s.world name).capacity) name
      = some (s.world name).capacity := Function.update_self ..
  have other : ∀ name' ≠ name,
      Function.update d.caps name (some (s.world name).capacity) name' = d.caps name' :=
    fun _ ne => Function.update_of_ne ne ..
  refine ⟨?_, ?_, ?_, ?_, ?_, ?_, ?_, ?_, trivial⟩
  · intro name' inside
    by_cases same : name' = name
    · subst same
      exact Or.inr (congrArg Option.isSome self)
    · have before := watch.read name' inside
      refine before.imp (List.mem_erase_of_ne same).mpr fun isRead => ?_
      exact (congrArg Option.isSome (other name' same)).trans isRead
  · exact fun name' inside => watch.unread name' (List.mem_of_mem_erase inside)
  · intro name' isRead
    by_cases same : name' = name
    · subst same
      exact watch.unread name' mem
    · exact watch.registered name' ((congrArg Option.isSome (other name' same)).symm.trans isRead)
  · exact fun _ _ => ⟨none_placed, unasked⟩
  · intro _ f inside
    replace inside : f ∈ d.placed := inside
    rw [none_placed] at inside
    cases inside
  · rintro quiet name' cap isRead
    replace isRead : Function.update d.caps name _ name' = some cap := isRead
    by_cases same : name' = name
    · subst same
      rw [self] at isRead
      exact Option.some_inj.mp isRead
    · rw [other name' same] at isRead
      exact watch.capacities quiet name' cap isRead
  · intro _ name' _ harness pool isAsked
    cases (unasked (poolKey name' harness)).symm.trans isAsked
  · exact fun id inside => by cases inside

/-- One more candidate was asked for the room of its pool. -/
theorem Watch.asked {slot : BackendSlot} {left with' : List BackendSlot} {fails : Bool}
    (apart : KeysApart cfg) (watch : Watch cfg s d (.asking r id (slot :: left) with'))
    (found : jobOf s id = some job) :
    Watch cfg s (harnessRoom cfg s d slot.name job fails).2 (.asking r id left
      (if (harnessRoom cfg s d slot.name job fails).1 then with' ++ [slot] else with')) := by
  obtain ⟨caps, -, placed, late⟩ := harnessRoom_keeps cfg s d slot.name job fails
  obtain ⟨grown, fresh, noRoom⟩ := harnessRoom_memo cfg s d slot.name job fails
  obtain ⟨scanned, named, candidates⟩ := watch.here
  have isRead : slot.name ∈ cfg.names :=
    watch.registered slot.name (named slot (List.mem_append_left _ List.mem_cons_self))
  have quiet_iff : Quiet (harnessRoom cfg s d slot.name job fails).2 ↔ Quiet d := by
    rw [Quiet, Quiet, late, placed]
  have fits_iff : ∀ names job' slot', Fits s (harnessRoom cfg s d slot.name job fails).2 names job'
      slot' ↔ Fits s d names job' slot' := by
    intro names job' slot'
    rw [Fits, Fits, caps]
  have skipped : ∀ other, Skipped cfg s d other →
      Skipped cfg s (harnessRoom cfg s d slot.name job fails).2 other := by
    intro other skipped job' names found' eligible slot' fits
    exact (skipped job' names found' eligible slot' ((fits_iff _ _ _).mp fits)).grow grown
  have offered : ∀ {slot'}, slot' ∈ with' → slot' ∈
      (if (harnessRoom cfg s d slot.name job fails).1 = true then with' ++ [slot] else with') := by
    intro slot' inside
    split
    · exact List.mem_append_left _ inside
    · exact inside
  refine ⟨?_, watch.unread, ?_, (fun _ eq => by cases eq), ?_, ?_, ?_, watch.numbered, ?_, ?_, ?_⟩
  · rw [caps]
    exact watch.read
  · rw [caps]
    exact watch.registered
  · rw [caps, placed, late]
    exact watch.placed
  · rw [caps, quiet_iff]
    exact watch.capacities
  · intro quiet name inside harness pool isAsked
    rcases fresh _ pool isAsked with before | ⟨key, now⟩
    · exact watch.pools (quiet_iff.mp quiet) name inside harness pool before
    · obtain rfl := apart name inside slot.name isRead _ _ key
      obtain rfl := poolKey_inj key
      exact now
  · refine ⟨?_, ?_, fun quiet other inside gone inHand waits => ?_⟩
    · rw [caps]
      exact scanned.named
    · rw [caps, quiet_iff]
      exact scanned.slots
    · exact skipped other (scanned.passed (quiet_iff.mp quiet) other inside gone inHand waits)
  · rw [caps]
    intro slot' inside
    refine named slot' ?_
    rcases List.mem_append.mp inside with inside | inside
    · exact List.mem_append_left _ (List.mem_cons_of_mem _ inside)
    · split at inside
      · rcases List.mem_append.mp inside with inside | inside
        · exact List.mem_append_right _ inside
        · rw [List.mem_singleton.mp inside]
          exact List.mem_append_left _ List.mem_cons_self
      · exact List.mem_append_right _ inside
  · intro quiet job' names found' eligible slot' fits
    have before := candidates (quiet_iff.mp quiet) job' names found' eligible slot'
      ((fits_iff _ _ _).mp fits)
    rcases before with waits | has | full
    · rcases List.mem_cons.mp waits with rfl | later
      · -- the slot in question: it joins the ones with room, or its pool is full
        obtain rfl := Option.some_inj.mp (found'.symm.trans found)
        by_cases room : (harnessRoom cfg s d slot'.name job' fails).1 = true
        · rw [if_pos room]
          exact Or.inr (Or.inl (List.mem_append_right _ List.mem_cons_self))
        · exact Or.inr (Or.inr (noRoom (Bool.eq_false_iff.mpr room)))
      · exact Or.inl later
    · exact Or.inr (Or.inl (offered has))
    · exact Or.inr (Or.inr (full.grow grown))

/-- A job was handed out on a backend that was read. -/
theorem Watch.place {chosen : String} {after : Backend}
    (watch : Watch cfg s d (.committing r id chosen)) : Watch cfg (place d r id job chosen after s)
      { d with placed := d.placed ++ [⟨id, heldOf job chosen⟩] }
      (.scanning { r with slots := takeSlot r.slots (heldOf job chosen), placedAny := true }) := by
  have loud : ¬ Quiet { d with placed := d.placed ++ [⟨id, heldOf job chosen⟩] } := by
    rintro ⟨-, none_placed⟩
    exact List.append_ne_nil_of_right_ne_nil _ (List.cons_ne_nil _ []) none_placed
  refine ⟨watch.read, watch.unread, watch.registered, (fun _ eq => by cases eq), ?_,
    fun quiet => absurd quiet loud, fun quiet => absurd quiet loud, ?_, watch.here.1.place⟩
  · intro late f inside
    rcases List.mem_append.mp inside with before | new
    · obtain ⟨running, isRead⟩ := watch.placed late f before
      exact ⟨List.mem_append_left _ running, isRead⟩
    · obtain rfl := List.mem_singleton.mp new
      exact ⟨List.mem_append_right _ List.mem_cons_self, watch.here.2⟩
  · exact fun other inside => watch.numbered other (List.mem_cons_of_mem _ inside)

end segments

/-- A segment of the pump keeps what the drain knows. -/
theorem advance_watch (watch : Watch cfg s d pc)
    (noQuota : ∀ tenant, cfg.tenantQuota tenant = none) (apart : KeysApart cfg)
    (queued : ∀ id ∈ s.queue.ordered, id ≤ s.entrySeq) (steady : Steady ev = true)
    (advance : Advance cfg s d pc ev t) {d' : Drain} {pc' : Pc}
    (pump : t.pump = some ⟨d', pc'⟩) : Watch cfg t d' pc' := by
  have here := watch.here
  have taken : ∀ {r : Round} {id : Nat} {rest : List Nat}, r.rest = id :: rest →
      ∀ other ∈ r.snapshot ++ rest, other ∈ r.snapshot ++ r.rest := by
    intro r id rest next other inside
    rw [next]
    exact (List.mem_append.mp inside).elim (List.mem_append_left _) fun later =>
      List.mem_append_right _ (List.mem_cons_of_mem _ later)
  cases advance with
  | @answer left name mem =>
      obtain ⟨rfl, rfl⟩ := Pump.mk.inj (Option.some_inj.mp pump)
      exact (watch.answer mem).pumped _
  | probeFails => cases steady
  | probed =>
      obtain ⟨rfl, rfl⟩ := Pump.mk.inj (Option.some_inj.mp pump)
      refine watch.goesOn rfl ?_ ?_ trivial
      · exact fun _ eq => by cases eq
      · exact fun _ inside => by cases inside
  | ledgerRead =>
      obtain ⟨rfl, rfl⟩ := Pump.mk.inj (Option.some_inj.mp pump)
      refine ⟨watch.read, watch.unread, watch.registered, ?_, watch.placed, watch.capacities,
        watch.pools, ?_, ?_⟩
      · exact fun _ eq => by cases eq
      · exact fun _ inside => by cases inside
      · exact fun isFalse => by cases isFalse
  | @round snapshot now more =>
      obtain ⟨rfl, rfl⟩ := Pump.mk.inj (Option.some_inj.mp pump)
      have begun : Watch cfg s d (.scanning (startRound cfg now d s)) := by
        refine ⟨watch.read, watch.unread, watch.registered, (fun _ eq => by cases eq),
          watch.placed, watch.capacities, watch.pools, fun id inside => ?_, scanned_start now⟩
        refine queued id ?_
        simp only [Pc.ids, startRound, scanOrder, List.mem_append, List.mem_filter] at inside
        rcases inside with (inside | inside) | inside | inside <;> exact inside.1
      exact begun.pumped _
  | exit => cases pump
  | @scanned r rest =>
      obtain ⟨rfl, rfl⟩ := Pump.mk.inj (Option.some_inj.mp pump)
      refine watch.goesOn rfl (fun _ eq => by cases eq)
        (fun id inside => List.mem_append_left _ inside) ?_
      intro _ quiet id inside waits
      refine here.passed quiet id inside ?_ (Option.some_ne_none id) waits
      rw [rest]
      exact List.not_mem_nil
  | @skip r id rest job next found why =>
      obtain ⟨rfl, rfl⟩ := Pump.mk.inj (Option.some_inj.mp pump)
      refine watch.goesOn rfl (fun _ eq => by cases eq) (taken next) ?_
      refine (here.next next).pass fun quiet waits job' names' found' eligible' slot fits => ?_
      rcases why with quota | ⟨names, eligible, none_fit⟩
      · rw [overQuota, noQuota] at quota
        cases quota
      · obtain rfl := Option.some_inj.mp (found'.symm.trans found)
        obtain rfl := Option.some_inj.mp (eligible'.symm.trans eligible)
        have inside := (mem_candidates (here.slots quiet)).mpr fits
        rw [none_fit] at inside
        cases inside
  | @fail r id rest job next found nowhere =>
      obtain ⟨rfl, rfl⟩ := Pump.mk.inj (Option.some_inj.mp pump)
      have moved : Watch cfg s d (.scanning { r with rest, placedAny := true }) := by
        refine watch.move rfl (fun _ eq => by cases eq) (taken next) ?_
        refine (here.next next).pass fun _ _ job' names found' eligible => ?_
        obtain rfl := Option.some_inj.mp (found'.symm.trans found)
        cases nowhere.symm.trans eligible
      exact (moved.leaves (leaves_failEntry id)).pumped _
  | @ask r id rest job names next found eligible =>
      obtain ⟨rfl, rfl⟩ := Pump.mk.inj (Option.some_inj.mp pump)
      refine watch.goesOn rfl (fun _ eq => by cases eq) ?_ ⟨here.next next, ?_, ?_⟩
      · intro other inside
        rcases List.mem_cons.mp inside with rfl | inside
        · rw [show Pc.ids (.scanning r) = r.snapshot ++ r.rest from rfl, next]
          exact List.mem_append_right _ List.mem_cons_self
        · exact taken next other inside
      · intro slot inside
        rw [List.append_nil] at inside
        obtain ⟨name, -, current⟩ := List.mem_filterMap.mp (List.mem_of_mem_filter inside)
        obtain ⟨named, isRead⟩ := here.named name slot current
        rw [named]
        exact isRead
      · intro quiet job' names' found' eligible' slot fits
        obtain rfl := Option.some_inj.mp (found'.symm.trans found)
        obtain rfl := Option.some_inj.mp (eligible'.symm.trans eligible)
        exact Or.inl ((mem_candidates (here.slots quiet)).mpr fits)
  | room found =>
      obtain ⟨rfl, rfl⟩ := Pump.mk.inj (Option.some_inj.mp pump)
      exact (watch.asked apart found).pumped _
  | @noRoom r id =>
      obtain ⟨rfl, rfl⟩ := Pump.mk.inj (Option.some_inj.mp pump)
      refine watch.goesOn rfl (fun _ eq => by cases eq)
        (fun _ inside => List.mem_cons_of_mem _ inside) ?_
      refine here.1.pass fun quiet _ job names found eligible slot fits => ?_
      rcases here.2.2 quiet job names found eligible slot fits with waits | has | full
      · cases waits
      · cases has
      · exact full
  | @mint r id job with' uuid chosen found choice permit =>
      rw [needsPermit, noQuota] at permit
      cases permit
  | @chosen r id job with' uuid chosen found choice free =>
      obtain ⟨rfl, rfl⟩ := Pump.mk.inj (Option.some_inj.mp pump)
      obtain ⟨slot, inside, rfl⟩ := cfg.policy.mem choice
      exact watch.goesOn rfl (fun _ eq => by cases eq) (fun _ inside => inside)
        ⟨here.1, here.2.1 slot inside⟩
  | granted | refused => exact here.elim
  | place =>
      obtain ⟨rfl, rfl⟩ := Pump.mk.inj (Option.some_inj.mp pump)
      exact watch.place
  | @gone r id chosen after left =>
      obtain ⟨rfl, rfl⟩ := Pump.mk.inj (Option.some_inj.mp pump)
      have moved : Watch cfg s d (.scanning r) :=
        watch.move rfl (fun _ eq => by cases eq) (fun _ inside => List.mem_cons_of_mem _ inside)
          (here.1.pass fun _ waits => absurd waits left)
      exact (moved.leaves (leaves_releasePermit id)).pumped _

/-- A segment of the pump keeps what is known. -/
theorem Knows.advance (knows : Knows cfg s) (noQuota : ∀ tenant, cfg.tenantQuota tenant = none)
    (apart : KeysApart cfg) (steady : Steady ev = true) (running : s.pump = some ⟨d, pc⟩)
    (numbered : WellNumbered t) (advance : Advance cfg s d pc ev t) : Knows cfg t := by
  have watch := knows.drain d pc running
  have entrySeq := (advance_keeps advance).2
  have queue : ∀ id ∈ t.queue.ordered, id ∈ s.queue.ordered := by
    cases advance with
    | fail => exact (leaves_failEntry _).queue
    | mint => exact (leaves_mintPermit _ _).queue
    | granted => exact (leaves_holdPermit _).queue
    | gone => exact (leaves_releasePermit _).queue
    | place => exact fun _ inside => FairQueue.remove_subset inside
    | _ => exact fun _ inside => inside
  have held : Holds t.admission t.inFlight ∧ ∀ f ∈ t.inFlight, f.held.backend ∈ cfg.names := by
    have kept : t.admission = s.admission → t.inFlight = s.inFlight →
        Holds t.admission t.inFlight ∧ ∀ f ∈ t.inFlight, f.held.backend ∈ cfg.names := by
      intro admission inFlight
      rw [admission, inFlight]
      exact ⟨knows.holds, knows.named⟩
    cases advance with
    | fail => exact kept (leaves_failEntry _).admission (leaves_failEntry _).inFlight
    | mint => exact kept (leaves_mintPermit _ _).admission (leaves_mintPermit _ _).inFlight
    | granted => exact kept (leaves_holdPermit _).admission (leaves_holdPermit _).inFlight
    | gone => exact kept (leaves_releasePermit _).admission (leaves_releasePermit _).inFlight
    | @place r id job chosen after found queued =>
        refine ⟨knows.holds.reserve ⟨id, heldOf job chosen⟩, fun f inside => ?_⟩
        rcases List.mem_append.mp inside with before | new
        · exact knows.named f before
        · obtain rfl := List.mem_singleton.mp new
          exact watch.registered chosen watch.here.2
    | _ => exact kept rfl rfl
  refine ⟨numbered, fun id inside => ?_, held.1, held.2, fun d' pc' pump => ?_⟩
  · rw [entrySeq]
    exact knows.queued id (queue id inside)
  · exact advance_watch watch noQuota apart knows.queued steady advance pump

/-- A pump that goes home after hearing of everything leaves nothing that would be admitted. -/
theorem Knows.home (knows : Knows cfg s) {placedAny : Bool} {snapshot : List Nat} {now : Nat}
    (running : s.pump = some ⟨d, .looping placedAny snapshot⟩)
    (heard : Heard s (.loop now) = true) (stop : placedAny = false ∨ s.queue.size = 0) :
    Awake cfg { s with pump := none } := by
  rintro - nothing id waits ⟨job, names, name, slot, found, eligible, inside, registered, offered,
    admits, room⟩
  replace nothing : s.inFlight = [] := nothing
  have watch := knows.drain d _ running
  have some_wait : s.queue.size ≠ 0 := by
    rw [← FairQueue.ordered_length]
    exact Nat.ne_of_gt (List.length_pos_of_mem waits)
  obtain rfl := stop.resolve_right some_wait
  obtain ⟨onTime, looked⟩ : d.late = false ∧ ∀ id ∈ s.queue.ordered, id ∈ snapshot := by
    simpa [Heard, running, some_wait] using heard
  have quiet : Quiet d := by
    refine ⟨onTime, List.eq_nil_iff_forall_not_mem.mpr fun f handed => ?_⟩
    have running := (watch.placed onTime f handed).1
    rw [nothing] at running
    cases running
  have holds := knows.holds
  rw [nothing] at holds
  obtain ⟨cap, isRead⟩ := Option.isSome_iff_exists.mp
    ((watch.read name registered).resolve_left List.not_mem_nil)
  have capacity := watch.capacities quiet name cap isRead
  have current : freeSlotsFrom d.caps s.admission name = some slot := by
    rw [← offered, holds.eq_empty]
    simp only [freeSlotsFrom, isRead, capacity]
  have named : slot.name = name := by
    obtain ⟨_, -, rfl⟩ := Option.map_eq_some_iff.mp offered
    rfl
  have full := watch.here rfl quiet id (looked id waits) waits job names found eligible slot
    ⟨name, inside, current, admits⟩
  rw [named] at full
  obtain ⟨aware, pool, asked, noRoom⟩ := full
  rw [holds.eq_empty] at noRoom
  rcases watch.pools quiet name registered _ pool asked with rfl | rfl
  · cases noRoom
  · exact Bool.false_ne_true (noRoom.symm.trans (room aware))

/-! ## What happens at an await -/

/-- Waking the pump, and what is known. -/
theorem Knows.wake (knows : Knows cfg s) : Watched cfg (wake cfg s) := by
  unfold Scheduling.wake
  split
  · next pump running =>
      refine ⟨knows, fun idle => ?_⟩
      rw [running] at idle
      cases idle
  · next idle =>
      split
      · next none_wait =>
          refine ⟨knows, fun _ _ id waits => ?_⟩
          rw [← FairQueue.ordered_length, List.length_eq_zero_iff] at none_wait
          rw [none_wait] at waits
          cases waits
      · refine ⟨⟨knows.numbered, knows.queued, knows.holds, knows.named, ?_⟩,
          fun running => by cases running⟩
        intro d pc pump
        obtain ⟨rfl, rfl⟩ := Pump.mk.inj (Option.some_inj.mp pump)
        exact watch_begin s

theorem WellNumbered.leaves (numbered : WellNumbered s) (left : Leaves s t) : WellNumbered t := by
  intro id found
  rw [left.job] at found
  rw [left.entrySeq]
  exact numbered id found

theorem Knows.leaves (knows : Knows cfg s) (left : Leaves s t) : Knows cfg t := by
  refine ⟨knows.numbered.leaves left, fun id inside => ?_, ?_, ?_, fun d pc running => ?_⟩
  · rw [left.entrySeq]
    exact knows.queued id (left.queue id inside)
  · rw [left.admission, left.inFlight]
    exact knows.holds
  · rw [left.inFlight]
    exact knows.named
  · exact (knows.drain d pc (left.pump.symm.trans running)).leaves left

theorem Watched.leaves (watched : Watched cfg s) (left : Leaves s t) : Watched cfg t := by
  refine ⟨watched.toKnows.leaves left, fun idle nothing id waits => ?_⟩
  have before := watched.idle (left.pump.symm.trans idle) (left.inFlight.symm.trans nothing) id
    (left.queue id waits)
  rw [WouldAdmit, ← left.job, ← left.world] at before
  exact before

/-- A new entry joins with a number that no round has seen. -/
theorem Knows.enqueued (knows : Knows cfg s) {job : CaseJob} {signal : Option Nat} {now : Nat}
    {budget : Billing.Budget} (numbered : WellNumbered (enqueued cfg job signal now budget s)) :
    Knows cfg (enqueued cfg job signal now budget s) := by
  have queue : ∀ id ∈ (Scheduling.enqueued cfg job signal now budget s).queue.ordered,
      id ∈ s.queue.ordered ∨ id = s.entrySeq + 1 := by
    intro id inside
    exact (FairQueue.mem_enqueue.mp inside).symm
  refine ⟨numbered, fun id inside => ?_, knows.holds, knows.named, fun d pc running => ?_⟩
  · show id ≤ s.entrySeq + 1
    rcases queue id inside with before | rfl
    · exact Nat.le_succ_of_le (knows.queued id before)
    · exact Nat.le_refl _
  · refine (knows.drain d pc running).transport rfl rfl rfl (Nat.le_succ _) ?_ ?_
    · intro id inside
      refine (queue id inside).imp_right fun new => ?_
      rw [new]
      exact Nat.lt_succ_self _
    · intro id old
      rw [jobOf_enqueued, if_neg (by omega)]

/-- A completion on a backend that was read makes the drain late, one on a backend that was not
is read in time. -/
theorem Watch.settle (watch : Watch cfg s d pc) {f : InFlight} {after : Backend}
    {pump : Option Pump} (named : f.held.backend ∈ cfg.names) : Watch cfg { s with
      admission := s.admission.release f.held
      inFlight := s.inFlight.erase f
      world := Function.update s.world f.held.backend after
      pump := pump } { d with late := d.late || (d.caps f.held.backend).isSome } pc := by
  by_cases isRead : (d.caps f.held.backend).isSome = true
  · have late : (d.late || (d.caps f.held.backend).isSome) = true := by
      rw [isRead, Bool.or_true]
    have loud : ¬ Quiet { d with late := d.late || (d.caps f.held.backend).isSome } :=
      not_quiet_of_late late
    refine ⟨watch.read, watch.unread, watch.registered, watch.first, fun onTime => ?_,
      fun quiet => absurd quiet loud, fun quiet => absurd quiet loud, watch.numbered,
      here_of_not_quiet watch.here rfl loud⟩
    cases late.symm.trans onTime
  · -- only a drain that is still reading has a registered backend unread
    have unread := (watch.read f.held.backend named).resolve_right isRead
    have other : ∀ name, (d.caps name).isSome = true → name ≠ f.held.backend := by
      rintro name known rfl
      exact isRead known
    cases pc with
    | probing left =>
        obtain ⟨none_placed, unasked⟩ := watch.first left rfl
        rw [Bool.eq_false_iff.mpr isRead, Bool.or_false]
        refine ⟨watch.read, watch.unread, watch.registered, watch.first, ?_, ?_, ?_,
          watch.numbered, trivial⟩
        · intro _ g inside
          replace inside : g ∈ d.placed := inside
          rw [none_placed] at inside
          cases inside
        · intro quiet name cap known
          have ne := other name (by rw [show d.caps name = some cap from known]; rfl)
          show (Function.update s.world f.held.backend after name).capacity = cap
          rw [Function.update_of_ne ne]
          exact watch.capacities quiet name cap known
        · intro _ name _ harness pool asked
          cases (unasked (poolKey name harness)).symm.trans asked
    | _ => cases unread

theorem Knows.settle (knows : Knows cfg s) {f : InFlight} (running : f ∈ s.inFlight)
    (after : Backend) : Knows cfg { s with
      admission := s.admission.release f.held
      inFlight := s.inFlight.erase f
      world := Function.update s.world f.held.backend after
      pump := s.pump.map (markLate f.held.backend) } := by
  refine ⟨knows.numbered, knows.queued, knows.holds.release running,
    fun g inside => knows.named g (List.mem_of_mem_erase inside), fun d' pc' eq => ?_⟩
  obtain ⟨⟨d, pc⟩, before, marked⟩ := Option.map_eq_some_iff.mp eq
  obtain ⟨rfl, rfl⟩ := Pump.mk.inj marked
  exact (knows.drain d pc before).settle (knows.named f running)

theorem Knows.complete (knows : Knows cfg s) {f : InFlight} (running : f ∈ s.inFlight)
    (result : Option Billing.Cost) (after : Backend) :
    Watched cfg (complete cfg f result after s) := by
  unfold Scheduling.complete
  refine Knows.wake (Knows.leaves (Knows.settle ?_ ?_ after) (leaves_releasePermit _))
  · cases result with
    | none => exact knows.leaves (leaves_emit _)
    | some cost => exact knows.leaves ⟨rfl, rfl, rfl, rfl, fun _ inside => inside, fun _ => rfl, rfl⟩
  · cases result <;> exact running

/-- What happens at an await keeps the invariant. -/
theorem Watched.outside (watched : Watched cfg s) (steady : Steady ev = true)
    (outside : Outside cfg s ev t o) : Watched cfg t := by
  cases outside with
  | refused | absent => exact watched
  | queued admitted =>
      refine Knows.wake (watched.toKnows.enqueued fun id found => ?_)
      rw [jobOf_enqueued] at found
      show id ≤ s.entrySeq + 1
      split at found
      · next new => exact Nat.le_of_eq new
      · exact Nat.le_succ_of_le (watched.numbered id found)
  | aborted => exact watched.leaves (leaves_abort _)
  | cancelEntry => exact watched.leaves (leaves_cancelEntry _)
  | cancelQueued => exact watched.leaves (leaves_cancelQueued _)
  | promoted => exact (watched.toKnows.leaves (leaves_promote _)).wake
  | poked => exact watched.toKnows.wake
  | complete running => exact watched.toKnows.complete running _ _
  | capacityChanges => cases steady

/-- Every step of the machine keeps the invariant. -/
theorem Watched.step (watched : Watched cfg s)
    (noQuota : ∀ tenant, cfg.tenantQuota tenant = none) (apart : KeysApart cfg)
    (steady : Steady ev = true) (heard : Heard s ev = true) (eq : step cfg s ev = some (t, o)) :
    Watched cfg t := by
  have numbered := step_wellNumbered watched.numbered eq
  rcases step_cases eq with ⟨-, outside⟩ | ⟨d, pc, running, advance⟩
  · exact watched.outside steady outside
  · have knows := watched.toKnows.advance noQuota apart steady running numbered advance
    refine ⟨knows, ?_⟩
    cases advance with
    | exit stop => exact watched.toKnows.home running heard stop
    | _ => exact fun idle => by cases idle

theorem watched_initial (cfg : Config) (world : String → Backend) :
    Watched cfg (.initial world) where
  numbered := wellNumbered_initial world
  queued _ inside := by cases inside
  holds := ⟨fun _ => rfl, fun _ => rfl, fun _ => rfl, fun _ => rfl, fun _ => rfl⟩
  named _ inside := by cases inside
  drain _ _ running := by cases running
  idle _ _ _ inside := by cases inside

/-- In every run whose drains go home only after hearing of everything, an idle scheduler with
nothing in flight has nothing waiting that would be admitted. -/
theorem no_lost_wake_up (cfg : Config) (noQuota : ∀ tenant, cfg.tenantQuota tenant = none)
    (apart : KeysApart cfg) (world : String → Backend) {log : List (Event × Answer)}
    (run : Runs (step cfg) (fun s ev => Steady ev = true ∧ Heard s ev = true)
      (.initial world) log s) : Awake cfg s := by
  have watched : Watched cfg s := run.state_invariant (watched_initial cfg world)
    fun _ _ _ _ watched cond eq => watched.step noQuota apart cond.1 cond.2 eq
  exact watched.idle

/-! ### A dispatch behind the snapshot -/

/-- One slot of room, and a pool that somebody else has filled for the one harness. -/
def fullPool : String → Backend := fun _ =>
  { capacity := { total := 4, used := .known 0 }
    pool := fun harness => if harness = "h@1" then some { total := 1, used := .known 1 } else none }

def jobOn (harness : String) : CaseJob :=
  { evalCase := ⟨"case", none⟩, harness := ⟨harness, "1"⟩ }

/-- The pump reads the backend and asks its pool for the first entry. -/
def askedForFull : List Event :=
  [.dispatch (jobOn "h") none 0, .answer "b", .probed, .ledgerRead fun _ => 0, .loop 0, .scan]

/-- The pool is full, the round places nothing, and the pump goes home. -/
def goneHome : List Event := [.room false, .choose "", .scan, .loop 0]

/-- An entry that came while the pump asked is not looked at, and waits with room. -/
theorem dispatch_behind_the_snapshot_waits : ¬ ∀ (cfg : Config) (world : String → Backend)
    (s : State), (∀ tenant, cfg.tenantQuota tenant = none) → cfg.ledger = none →
    Reachable (step cfg) (fun _ ev => Steady ev = true) (.initial world) s → Awake cfg s := by
  intro all
  obtain ⟨log, s, run, here⟩ := exists_run_of_exec (step pooledConfig)
    (fun _ ev => Steady ev = true) (.initial fullPool)
    (askedForFull ++ .dispatch (jobOn "g") none 0 :: goneHome)
    (fun s => (s.pump.isNone && decide (s.inFlight = [] ∧ 2 ∈ s.queue.ordered)) &&
      (jobOf s 2).any fun job => (eligibleNames pooledConfig job).any fun names =>
        decide ("b" ∈ names) && (freeSlotsFrom (fun name => some (s.world name).capacity) .empty
          "b").any fun slot => slotAdmits slot (some (jobMemoryMb job)) (some (jobCpu job)) &&
            poolRoom .empty "b" (harnessKeyOf job) ((s.world "b").pool (harnessKeyOf job)))
    (by decide +kernel)
  simp only [Bool.and_eq_true, decide_eq_true_eq, Option.any_eq_true] at here
  obtain ⟨⟨idle, nothing, waits⟩, job, found, names, eligible, inside, slot, offered, admits,
    room⟩ := here
  have awake := all pooledConfig fullPool s (fun _ => rfl) rfl ⟨log, run⟩
  exact awake (Option.isNone_iff_eq_none.mp idle) nothing 2 waits
    ⟨job, names, "b", slot, found, eligible, inside, List.mem_singleton_self "b", offered, admits,
      fun _ => room⟩

/-- The pump that hears of nothing else goes home with the entry that has no room. -/
theorem no_lost_wake_up_goneHome : ∃ s : State, s.queue.ordered = [1] ∧ s.pump.isNone = true ∧
    s.inFlight = [] ∧ Awake pooledConfig s := by
  obtain ⟨log, s, run, here⟩ := exists_run_of_exec (step pooledConfig)
    (fun s ev => Steady ev = true ∧ Heard s ev = true) (.initial fullPool)
    (askedForFull ++ goneHome)
    (fun s => s.queue.ordered = [1] ∧ s.pump.isNone = true ∧ s.inFlight = []) (by decide +kernel)
  obtain ⟨waits, idle, nothing⟩ := of_decide_eq_true here
  refine ⟨s, waits, idle, nothing, no_lost_wake_up pooledConfig (fun _ => rfl) ?_ _ run⟩
  intro name inside name' inside' _ _ _
  rw [List.mem_singleton.mp inside, List.mem_singleton.mp inside']

end Everdict.Scheduling
