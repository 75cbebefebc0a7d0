import Everdict.Scheduling.Steps

/-!
# What one drain places

A drain reads every backend once and then keeps two books: the free slots of a
round, recomputed from that reading and the live counts, and the decrement within
the round.  The recomputation takes the larger of the reading and our own count,
so placements of an earlier round disappear behind a reading that was higher than
ours (`second_round_overcommits`).

`drain_within_capacity` is the bound under the missing condition, `RoundsAddUp`:
where a job is placed, either the reading was not above our own count at the
probe, or nothing was placed on that backend in an earlier round of the drain.
The three axes (slots, memory, cpu) are one argument.
-/

namespace Everdict.Scheduling

open Billing Placement Transition Machine

/-! ## The three axes -/

inductive Axis where
  | slots
  | memory
  | cpu
  deriving DecidableEq

namespace Axis

/-- What a backend has in all; an axis without an envelope has no bound. -/
def budget : Axis → BackendCapacity → Option Nat
  | slots, cap => some cap.total
  | memory, cap => cap.memoryBudgetMb
  | cpu, cap => cap.cpuBudget

/-- What the probe read. -/
def observed : Axis → BackendCapacity → Option Reading
  | slots, cap => some cap.used
  | memory, cap => cap.usedMemoryMb
  | cpu, cap => cap.usedCpu

/-- What this process holds on a backend. -/
def heldOn : Axis → Admission → String → Nat
  | slots, a => a.backendCounts
  | memory, a => a.backendMemMb
  | cpu, a => a.backendCpu

def asked : Axis → Held → Nat
  | slots, _ => 1
  | memory, h => h.memoryMb
  | cpu, h => h.cpu

def left : Axis → BackendSlot → Option Nat
  | slots, slot => some slot.free
  | memory, slot => slot.memFreeMb
  | cpu, slot => slot.cpuFree

/-- What a drain placed on a backend. -/
def placed (axis : Axis) (d : Drain) (name : String) : Nat :=
  ((d.placed.filter fun f => f.held.backend = name).map fun f => axis.asked f.held).sum

end Axis

variable {cfg : Config} {s t : State} {d : Drain} {pc : Pc} {ev : Event} {o : Answer}
variable {r : Round} {a : Admission} {axis : Axis} {name : String} {job : CaseJob}
variable {slot : BackendSlot} {cap : BackendCapacity} {budget : Nat}

theorem effectiveUsed_eq (held : Nat) :
    effectiveUsed cap held .max = effectiveResource cap.total (some cap.used) held := by
  unfold effectiveUsed effectiveResource
  cases cap.used <;> rfl

/-- What a backend has left, axis by axis. -/
theorem left_backendSlotOf : axis.left (backendSlotOf name cap (a.held cap name)) =
    (axis.budget cap).map fun budget =>
      budget - effectiveResource budget (axis.observed cap) (axis.heldOn a name) := by
  cases axis with
  | slots => simp [Axis.left, Axis.budget, Axis.observed, Axis.heldOn, backendSlotOf,
      Admission.held, effectiveUsed_eq]
  | memory => rfl
  | cpu => rfl

theorem heldOn_reserve (h : Held) : axis.heldOn (a.reserve h) name =
    axis.heldOn a name + if name = h.backend then axis.asked h else 0 := by
  cases axis
  all_goals
    simp only [Axis.heldOn, Admission.reserve, bump_apply, Axis.asked]
    split <;> omega

/-- A slot that admits a job has what the job asks for, on every axis. -/
theorem asked_le_left (axis : Axis) (backend : String) {left : Nat}
    (admits : slotAdmits slot (some (jobMemoryMb job)) (some (jobCpu job)) = true)
    (eq : axis.left slot = some left) : axis.asked (heldOf job backend) ≤ left := by
  simp only [slotAdmits, Bool.and_eq_true, decide_eq_true_eq, Option.all_eq_true] at admits
  obtain ⟨⟨free, memory⟩, cpu⟩ := admits
  cases axis with
  | slots =>
      obtain rfl := Option.some_inj.mp eq
      exact free
  | memory => exact memory left eq
  | cpu => exact cpu left eq

/-- The local decrement of a placement, axis by axis. -/
theorem left_takeSlot {slots : String → Option BackendSlot} {h : Held} {slot' : BackendSlot}
    (eq : takeSlot slots h name = some slot') : ∃ slot, slots name = some slot ∧
      slot'.name = slot.name ∧ ∀ axis : Axis, axis.left slot' =
        (axis.left slot).map fun left => left - if name = h.backend then axis.asked h else 0 := by
  unfold takeSlot at eq
  split at eq
  · next hit =>
      obtain ⟨slot, found, rfl⟩ := Option.map_eq_some_iff.mp eq
      refine ⟨slot, found, rfl, fun axis => ?_⟩
      cases axis <;> simp [Axis.left, Axis.asked, hit]
  · next miss =>
      refine ⟨slot', eq, rfl, fun axis => ?_⟩
      simp [miss]

theorem placed_append (f : InFlight) : axis.placed { d with placed := d.placed ++ [f] } name =
    axis.placed d name + if name = f.held.backend then axis.asked f.held else 0 := by
  by_cases hit : f.held.backend = name
  · simp [Axis.placed, List.filter_append, hit]
  · simp [Axis.placed, List.filter_append, hit, Ne.symm hit]

/-! ## The bound, and when two rounds add up -/

/-- On every axis with an envelope on which a drain placed something, the larger of
the reading and our own count at the probe leaves room for what it placed. -/
def WithinCapacity (d : Drain) : Prop :=
  ∀ (axis : Axis) name cap budget, d.caps name = some cap → axis.budget cap = some budget →
    0 < axis.placed d name →
    effectiveResource budget (axis.observed cap) (axis.heldOn d.own name) + axis.placed d name
      ≤ budget

/-- The probe read no more than this process held. -/
def notAbove (observed : Option Reading) (own : Nat) : Bool :=
  match observed with
  | some (.known count) => count ≤ own
  | some .unknown => true
  | none => true

/-- A placement in this round adds up with those before it, on each axis that has
an envelope and of which the job asks something. -/
def addsUp (d : Drain) (r : Round) (job : CaseJob) (chosen : String) : Bool :=
  [Axis.slots, .memory, .cpu].all fun axis => (d.caps chosen).all fun cap =>
    axis.budget cap = none || axis.asked (heldOf job chosen) = 0
      || notAbove (axis.observed cap) (axis.heldOn d.own chosen)
      || axis.heldOn r.own chosen = axis.heldOn d.own chosen

/-- No job completes while a drain runs, and its placements add up: on each axis
the reading of the backend was not above our own count at the probe, or nothing
was placed there in an earlier round. -/
def RoundsAddUp (s : State) (ev : Event) : Bool :=
  match s.pump, ev with
  | some _, .complete .. => false
  | some ⟨d, .committing r id chosen⟩, .commit _ =>
      id ∉ s.queue.ordered || (jobOf s id).all fun job => addsUp d r job chosen
  | _, _ => true

theorem addsUp_iff {chosen : String} : addsUp d r job chosen = true ↔
    ∀ (axis : Axis) cap, d.caps chosen = some cap →
      ((axis.budget cap = none ∨ axis.asked (heldOf job chosen) = 0) ∨
        notAbove (axis.observed cap) (axis.heldOn d.own chosen) = true) ∨
        axis.heldOn r.own chosen = axis.heldOn d.own chosen := by
  simp only [addsUp, List.all_cons, List.all_nil, Bool.and_true, Bool.and_eq_true,
    Option.all_eq_true, Bool.or_eq_true, decide_eq_true_eq]
  constructor
  · rintro ⟨slots, memory, cpu⟩ axis
    cases axis
    · exact slots
    · exact memory
    · exact cpu
  · exact fun all => ⟨all .slots, all .memory, all .cpu⟩

/-- The two books on one axis.  `own` is what was held at the probe, `live` what was
held when the round began, `taken` what the round placed since. -/
theorem books_add_up {observed : Option Reading} {own live taken asked : Nat}
    (grown : own ≤ live) (asks : 0 < asked)
    (room : asked ≤ budget - effectiveResource budget observed live - taken)
    (adds : notAbove observed own = true ∨ live = own) :
    effectiveResource budget observed own + (live - own + taken + asked) ≤ budget := by
  cases observed with
  | none =>
      simp only [effectiveResource] at room ⊢
      omega
  | some reading =>
      cases reading with
      | unknown =>
          simp only [effectiveResource] at room
          omega
      | known count =>
          simp only [effectiveResource, notAbove, decide_eq_true_eq] at room adds ⊢
          omega

/-! ## What holds while a drain runs -/

/-- The slots of a round against what is held now. -/
structure RoundOk (a : Admission) (d : Drain) (r : Round) : Prop where
  own_le : ∀ (axis : Axis) name, axis.heldOn d.own name ≤ axis.heldOn r.own name
  live_le : ∀ (axis : Axis) name, axis.heldOn r.own name ≤ axis.heldOn a name
  slot : ∀ name slot, r.slots name = some slot → slot.name = name ∧
    ∃ cap, d.caps name = some cap ∧ ∀ axis : Axis, axis.left slot =
      (axis.budget cap).map fun budget =>
        budget - effectiveResource budget (axis.observed cap) (axis.heldOn r.own name)
          - (axis.heldOn a name - axis.heldOn r.own name)

/-- A slot of this round in which a job fits. -/
structure Offered (r : Round) (job : CaseJob) (slot : BackendSlot) : Prop where
  current : r.slots slot.name = some slot
  admits : slotAdmits slot (some (jobMemoryMb job)) (some (jobCpu job)) = true

/-- What is known where the pump stands. -/
def PcOk (s : State) (d : Drain) : Pc → Prop
  | .probing _ => d.placed = []
  | .reading => d.placed = []
  | .looping _ _ => True
  | .scanning r => RoundOk s.admission d r
  | .asking r id left with' => RoundOk s.admission d r ∧
      ∃ job, jobOf s id = some job ∧ ∀ slot ∈ left ++ with', Offered r job slot
  | .admitting r id chosen => RoundOk s.admission d r ∧
      ∃ job, jobOf s id = some job ∧ ∃ slot, Offered r job slot ∧ slot.name = chosen
  | .committing r id chosen => RoundOk s.admission d r ∧
      ∃ job, jobOf s id = some job ∧ ∃ slot, Offered r job slot ∧ slot.name = chosen

structure DrainOk (s : State) (d : Drain) (pc : Pc) : Prop where
  held : ∀ (axis : Axis) name,
    axis.heldOn s.admission name = axis.heldOn d.own name + axis.placed d name
  within : WithinCapacity d
  here : PcOk s d pc

theorem DrainOk.transport (h : DrainOk s d pc) (admission : t.admission = s.admission)
    (jobs : ∀ id job, jobOf s id = some job → jobOf t id = some job) : DrainOk t d pc where
  held := by
    rw [admission]
    exact h.held
  within := h.within
  here := by
    have here := h.here
    cases pc with
    | probing | reading | looping => exact here
    | scanning r =>
        rw [PcOk, admission]
        exact here
    | asking | admitting | committing =>
        obtain ⟨round, job, found, offered⟩ := here
        rw [PcOk, admission]
        exact ⟨round, job, jobs _ _ found, offered⟩

theorem WithinCapacity.of_nothing (none : d.placed = []) : WithinCapacity d := by
  intro axis name cap budget _ _ some
  simp [Axis.placed, none] at some

/-- A drain begins with nothing placed. -/
theorem drainOk_begin (left : List String) : DrainOk s (drainOf s) (.probing left) where
  held axis name := by simp [Axis.placed, drainOf]
  within := .of_nothing rfl
  here := rfl

/-- The slots of a fresh round. -/
theorem roundOk_start (now : Nat)
    (held : ∀ (axis : Axis) name,
      axis.heldOn s.admission name = axis.heldOn d.own name + axis.placed d name) :
    RoundOk s.admission d (startRound cfg now d s) where
  own_le axis name := by
    rw [startRound, held]
    exact Nat.le_add_right _ _
  live_le axis name := Nat.le_refl _
  slot name slot eq := by
    obtain ⟨cap, read, rfl⟩ := Option.map_eq_some_iff.mp eq
    refine ⟨rfl, cap, read, fun axis => ?_⟩
    rw [left_backendSlotOf]
    simp [startRound]

/-- The candidates of a job are slots of the round in which it fits. -/
theorem candidates_offered {names : List String} (round : RoundOk a d r)
    (mem : slot ∈ candidates r names job) : Offered r job slot := by
  obtain ⟨found, admits⟩ := List.mem_filter.mp mem
  obtain ⟨name, _, eq⟩ := List.mem_filterMap.mp found
  have named := (round.slot name slot eq).1
  exact ⟨by rw [named, eq], admits⟩

/-- Asking a pool changes the memo of a drain and nothing else. -/
theorem harnessRoom_keeps (cfg : Config) (s : State) (d : Drain) (name : String) (job : CaseJob)
    (fails : Bool) :
    (harnessRoom cfg s d name job fails).2.caps = d.caps ∧
      (harnessRoom cfg s d name job fails).2.own = d.own ∧
      (harnessRoom cfg s d name job fails).2.placed = d.placed ∧
      (harnessRoom cfg s d name job fails).2.late = d.late := by
  unfold harnessRoom
  split
  · unfold askPool
    split <;> exact ⟨rfl, rfl, rfl, rfl⟩
  · exact ⟨rfl, rfl, rfl, rfl⟩

/-- The same drain, as far as the bound looks at it. -/
theorem DrainOk.withMemo {d' : Drain} (h : DrainOk s d pc) (caps : d'.caps = d.caps)
    (own : d'.own = d.own) (placed : d'.placed = d.placed) : DrainOk s d' pc := by
  have sum (axis : Axis) (name : String) : axis.placed d' name = axis.placed d name := by
    rw [Axis.placed, placed, Axis.placed]
  have round (r : Round) (ok : RoundOk s.admission d r) : RoundOk s.admission d' r :=
    ⟨own ▸ ok.own_le, ok.live_le, caps ▸ ok.slot⟩
  refine ⟨fun axis name => ?_, fun axis name => ?_, ?_⟩
  · rw [own, sum, h.held]
  · rw [caps, own, sum]
    exact h.within axis name
  · have here := h.here
    cases pc with
    | probing | reading => exact placed.trans here
    | looping => trivial
    | scanning r => exact round r here
    | asking r | admitting r | committing r => exact ⟨round r here.1, here.2⟩

/-! ## A step of the drain -/

section Place

variable {id : Nat} {chosen : String} {after : Backend}

/-- Placing a job keeps the two books of a backend and the bound. -/
theorem place_within (h : DrainOk s d pc) (round : RoundOk s.admission d r)
    (offered : Offered r job slot) (named : slot.name = chosen)
    (adds : addsUp d r job chosen = true) :
    WithinCapacity { d with placed := d.placed ++ [⟨id, heldOf job chosen⟩] } := by
  intro axis name cap budget read declared some
  rw [placed_append] at some ⊢
  have within := h.within axis name cap budget read declared
  have add : (if name = (heldOf job chosen).backend then axis.asked (heldOf job chosen) else 0)
      = if name = chosen then axis.asked (heldOf job chosen) else 0 := rfl
  simp only [add] at some ⊢
  by_cases hit : name = chosen
  · subst hit
    rw [if_pos rfl] at some ⊢
    rcases Nat.eq_zero_or_pos (axis.asked (heldOf job name)) with none | asks
    · rw [none] at some ⊢
      exact within some
    · obtain ⟨_, cap', read', left⟩ := round.slot name slot (named ▸ offered.current)
      obtain rfl : cap' = cap := Option.some_inj.mp (read'.symm.trans read)
      have books := addsUp_iff.mp adds axis cap' read
      have room := asked_le_left axis name offered.admits
        (by rw [left axis, declared]; rfl)
      have held := h.held axis name
      have own_le := round.own_le axis name
      have live_le := round.live_le axis name
      have bound := books_add_up own_le asks room
        (by simpa [declared, Nat.ne_of_gt asks] using books)
      have placed : axis.heldOn r.own name - axis.heldOn d.own name
          + (axis.heldOn s.admission name - axis.heldOn r.own name) = axis.placed d name := by
        omega
      rw [placed] at bound
      exact bound
  · rw [if_neg hit] at some ⊢
    exact within some

/-- After a placement the slots are still in step with what is held. -/
theorem roundOk_place (round : RoundOk a d r) (f : InFlight) :
    RoundOk (a.reserve f.held) { d with placed := d.placed ++ [f] }
      { r with slots := takeSlot r.slots f.held, placedAny := true } where
  own_le := round.own_le
  live_le axis name := by
    have le := round.live_le axis name
    rw [heldOn_reserve]
    exact Nat.le_trans le (Nat.le_add_right _ _)
  slot name slot' eq := by
    obtain ⟨slot, found, named, taken⟩ := left_takeSlot eq
    obtain ⟨same, cap, read, left⟩ := round.slot name slot found
    refine ⟨named.trans same, cap, read, fun axis => ?_⟩
    have le := round.live_le axis name
    rw [taken axis, left axis, Option.map_map, heldOn_reserve]
    refine Option.map_congr fun budget _ => ?_
    simp only [Function.comp_apply]
    omega

theorem drainOk_place (h : DrainOk s d pc) (round : RoundOk s.admission d r)
    (offered : Offered r job slot) (named : slot.name = chosen)
    (adds : addsUp d r job chosen = true) :
    DrainOk (place d r id job chosen after s)
      { d with placed := d.placed ++ [⟨id, heldOf job chosen⟩] }
      (.scanning { r with
        slots := takeSlot r.slots (heldOf job chosen), placedAny := true }) where
  held axis name := by
    rw [placed_append, ← Nat.add_assoc, ← h.held axis name]
    exact heldOn_reserve _
  within := place_within h round offered named adds
  here := roundOk_place round ⟨id, heldOf job chosen⟩

end Place

/-- A backend that was chosen is one of those that were offered. -/
theorem pcOk_chosen {id : Nat} {with' : List BackendSlot} {chosen : String}
    (here : PcOk s d (.asking r id [] with')) (found : jobOf s id = some job)
    (choice : cfg.policy.choose with' job = some chosen) :
    PcOk s d (.committing r id chosen) := by
  obtain ⟨round, job', found', offered⟩ := here
  obtain rfl : job' = job := Option.some_inj.mp (found'.symm.trans found)
  obtain ⟨slot, mem, named⟩ := cfg.policy.mem choice
  exact ⟨round, job', found, slot, offered slot (by simpa using mem), named⟩

/-- The pump goes on in a state that differs in the queue and the permits only. -/
theorem DrainOk.leaves {pc' : Pc} {u : State} (h : DrainOk s d pc) (left : Leaves s u)
    (admission : t.admission = u.admission) (jobs : ∀ id, jobOf t id = jobOf u id)
    (here : PcOk s d pc') : DrainOk t d pc' := by
  have moved : DrainOk s d pc' := ⟨h.held, h.within, here⟩
  refine moved.transport (admission.trans left.admission) fun id job found => ?_
  rw [jobs, left.job, found]

/-- Where a drain goes on: the pump may stop, or the drain is as sound as before. -/
theorem advance_drainOk (running : s.pump = some ⟨d, pc⟩) (h : DrainOk s d pc)
    (adds : RoundsAddUp s ev = true) (advance : Advance cfg s d pc ev t) :
    ∀ pump, t.pump = some pump → DrainOk t pump.drain pump.pc := by
  intro pump eq
  have here := h.here
  cases advance with
  | answer mem =>
      obtain rfl := Option.some_inj.mp eq
      exact ⟨h.held, .of_nothing here, here⟩
  | probeFails mem | probed =>
      obtain rfl := Option.some_inj.mp eq
      exact ⟨h.held, h.within, here⟩
  | ledgerRead =>
      obtain rfl := Option.some_inj.mp eq
      exact ⟨h.held, h.within, trivial⟩
  | round more =>
      obtain rfl := Option.some_inj.mp eq
      exact ⟨h.held, h.within, roundOk_start _ h.held⟩
  | exit => cases eq
  | scanned =>
      obtain rfl := Option.some_inj.mp eq
      exact ⟨h.held, h.within, trivial⟩
  | skip =>
      obtain rfl := Option.some_inj.mp eq
      exact ⟨h.held, h.within, here.own_le, here.live_le, here.slot⟩
  | @fail r id rest =>
      obtain rfl := Option.some_inj.mp eq
      have same : PcOk s d (.scanning { r with rest, placedAny := true }) :=
        ⟨here.own_le, here.live_le, here.slot⟩
      exact h.leaves (leaves_failEntry id) rfl (fun _ => rfl) same
  | ask next found eligible =>
      obtain rfl := Option.some_inj.mp eq
      refine ⟨h.held, h.within, ⟨here.own_le, here.live_le, here.slot⟩, _, found, ?_⟩
      intro slot mem
      rw [List.append_nil] at mem
      have offered := candidates_offered here mem
      exact ⟨offered.current, offered.admits⟩
  | @room r id job slot left with' fails found =>
      obtain rfl := Option.some_inj.mp eq
      obtain ⟨caps, own, placed, _⟩ := harnessRoom_keeps cfg s d slot.name job fails
      obtain ⟨round, job', found', offered⟩ := here
      have asked : PcOk s d (.asking r id left
          (if (harnessRoom cfg s d slot.name job fails).1 then with' ++ [slot] else with')) := by
        refine ⟨round, job', found', fun slot' mem => offered slot' ?_⟩
        split at mem
        · simp only [List.mem_append, List.mem_cons, List.not_mem_nil, or_false] at mem ⊢
          tauto
        · simp only [List.mem_append, List.mem_cons] at mem ⊢
          tauto
      have moved : DrainOk s d (.asking r id left _) := ⟨h.held, h.within, asked⟩
      exact (moved.withMemo caps own placed).transport rfl fun _ _ found => found
  | noRoom =>
      obtain rfl := Option.some_inj.mp eq
      exact ⟨h.held, h.within, here.1⟩
  | @mint r id job with' uuid chosen found choice =>
      obtain rfl := Option.some_inj.mp eq
      exact h.leaves (leaves_mintPermit id uuid) rfl (fun _ => rfl) (pcOk_chosen here found choice)
  | chosen found choice =>
      obtain rfl := Option.some_inj.mp eq
      exact ⟨h.held, h.within, pcOk_chosen here found choice⟩
  | @granted r id chosen =>
      obtain rfl := Option.some_inj.mp eq
      have chosen : PcOk s d (.committing r id chosen) := here
      exact h.leaves (leaves_holdPermit id) rfl (fun _ => rfl) chosen
  | refused =>
      obtain rfl := Option.some_inj.mp eq
      exact ⟨h.held, h.within, here.1⟩
  | @place r id job chosen after found queued =>
      obtain rfl := Option.some_inj.mp eq
      obtain ⟨round, job', found', slot, offered, named⟩ := here
      obtain rfl : job' = job := Option.some_inj.mp (found'.symm.trans found)
      have add : addsUp d r job' chosen = true := by
        simpa [RoundsAddUp, running, queued, found] using adds
      exact drainOk_place h round offered named add
  | @gone r id =>
      obtain rfl := Option.some_inj.mp eq
      have scanning : PcOk s d (.scanning r) := here.1
      exact h.leaves (leaves_releasePermit id) rfl (fun _ => rfl) scanning

/-! ## A whole run -/

/-- The pump of a state has just begun its drain, if it runs. -/
def Fresh (cfg : Config) (s : State) : Prop :=
  ∀ pump, s.pump = some pump → pump = ⟨drainOf s, .probing cfg.names⟩

/-- The entries are numbered, and a running drain is sound. -/
structure Sound (s : State) : Prop where
  numbered : WellNumbered s
  drain : ∀ pump, s.pump = some pump → DrainOk s pump.drain pump.pc

theorem fresh_wake (idle : s.pump = none) : Fresh cfg (wake cfg s) := by
  intro pump eq
  rcases wake_cases cfg s with same | ⟨_, _, begun⟩
  · rw [same, idle] at eq
    cases eq
  · rw [begun] at eq ⊢
    exact (Option.some_inj.mp eq).symm

theorem admission_wake : (wake cfg s).admission = s.admission := by
  rcases wake_cases cfg s with eq | ⟨_, _, eq⟩
  · rw [eq]
  · rw [eq]

theorem pump_wake {pump : Pump} (running : s.pump = some pump) : (wake cfg s).pump = some pump := by
  rcases wake_cases cfg s with eq | ⟨idle, _⟩
  · rw [eq, running]
  · rw [running] at idle
    cases idle

/-- What happens at an await of a running drain leaves the drain and what is held
as they were, unless it is a completion. -/
theorem outside_keeps {pump : Pump} (running : s.pump = some pump) (h : Outside cfg s ev t o) :
    (∃ f result after, ev = .complete f result after) ∨
      t.admission = s.admission ∧ t.pump = some pump := by
  cases h with
  | refused | absent | capacityChanges => exact .inr ⟨rfl, running⟩
  | queued => exact .inr ⟨admission_wake, pump_wake running⟩
  | aborted => exact .inr ⟨(leaves_abort _).admission, (leaves_abort _).pump.trans running⟩
  | cancelEntry =>
      exact .inr ⟨(leaves_cancelEntry _).admission, (leaves_cancelEntry _).pump.trans running⟩
  | cancelQueued =>
      exact .inr ⟨(leaves_cancelQueued _).admission, (leaves_cancelQueued _).pump.trans running⟩
  | promoted => exact .inr ⟨admission_wake, pump_wake running⟩
  | poked => exact .inr ⟨admission_wake, pump_wake running⟩
  | @complete f result after => exact .inl ⟨f, result, after, rfl⟩

/-- What happens while the pump is idle begins a drain at most. -/
theorem outside_fresh (idle : s.pump = none) (h : Outside cfg s ev t o) : Fresh cfg t := by
  have none_fresh (u : State) (eq : u.pump = none) : Fresh cfg u := by
    intro pump some
    rw [eq] at some
    cases some
  cases h with
  | refused | absent => exact none_fresh _ idle
  | capacityChanges => exact none_fresh _ idle
  | queued => exact fresh_wake idle
  | aborted => exact none_fresh _ ((leaves_abort _).pump.trans idle)
  | cancelEntry => exact none_fresh _ ((leaves_cancelEntry _).pump.trans idle)
  | cancelQueued => exact none_fresh _ ((leaves_cancelQueued _).pump.trans idle)
  | promoted => exact fresh_wake idle
  | poked => exact fresh_wake idle
  | @complete f result after =>
      refine fresh_wake ((leaves_releasePermit _).pump.trans ?_)
      cases result <;> simp [emit, idle]

theorem Fresh.sound (fresh : Fresh cfg s) (numbered : WellNumbered s) : Sound s where
  numbered := numbered
  drain pump eq := by
    obtain rfl := fresh pump eq
    exact drainOk_begin _

/-- One step keeps a drain sound. -/
theorem step_sound (h : Sound s) (adds : RoundsAddUp s ev = true)
    (eq : step cfg s ev = some (t, o)) : Sound t := by
  have numbered := step_wellNumbered h.numbered eq
  rcases step_cases eq with ⟨_, outside⟩ | ⟨d, pc, running, advance⟩
  · rcases running : s.pump with _ | pump
    · exact (outside_fresh running outside).sound numbered
    · rcases outside_keeps running outside with ⟨f, result, after, rfl⟩ | ⟨admission, same⟩
      · simp [RoundsAddUp, running] at adds
      · refine ⟨numbered, fun pump' eq' => ?_⟩
        obtain rfl := Option.some_inj.mp (same.symm.trans eq')
        have jobs id job (found : jobOf s id = some job) := step_jobOf h.numbered eq found
        exact (h.drain _ running).transport admission jobs
  · exact ⟨numbered, advance_drainOk running (h.drain _ running) adds advance⟩

/-- What one drain places fits beside what it read, while its rounds add up. -/
theorem drain_within_capacity (cfg : Config) (world : String → Backend) (s₀ s : State)
    (log : List (Event × Answer)) (reached : Reachable (step cfg) Always (.initial world) s₀)
    (fresh : Fresh cfg s₀)
    (run : Runs (step cfg) (fun s ev => RoundsAddUp s ev = true) s₀ log s) :
    ∀ pump, s.pump = some pump → WithinCapacity pump.drain := by
  obtain ⟨_, before⟩ := reached
  have numbered : WellNumbered s₀ := before.state_invariant (wellNumbered_initial world)
    fun _ _ _ _ numbered _ => step_wellNumbered numbered
  have sound : Sound s := run.state_invariant (fresh.sound numbered)
    fun _ _ _ _ sound adds => step_sound sound adds
  exact fun pump eq => (sound.drain pump eq).within

/-! ### One backend -/

/-- One backend of four slots, of which the probe reads `used`. -/
def oneBackend (used : Nat) : String → Backend := fun _ =>
  { capacity := { total := 4, used := .known used } }

def oneBackendConfig : Config where
  names := ["b"]
  policy := leastLoadedPolicy fun _ _ => true

def plainJob : CaseJob := { evalCase := ⟨"case", none⟩, harness := ⟨"h", "1"⟩ }

/-- A first job was dispatched, and the pump has begun. -/
def oneQueued (used : Nat) : State :=
  (dispatch oneBackendConfig plainJob none 0 (.initial (oneBackend used))).1

theorem oneQueued_reached (used : Nat) :
    Reachable (step oneBackendConfig) Always (.initial (oneBackend used)) (oneQueued used) := by
  have dispatched : step oneBackendConfig (.initial (oneBackend used)) (.dispatch plainJob none 0)
      = some (dispatch oneBackendConfig plainJob none 0 (.initial (oneBackend used))) := rfl
  exact ⟨_, .tail .refl trivial dispatched⟩

theorem oneQueued_fresh (used : Nat) : Fresh oneBackendConfig (oneQueued used) :=
  outside_fresh rfl (dispatch_cases plainJob none 0)

/-- The pump reads the backend and begins a round. -/
def probeEvents : List Event := [.answer "b", .probed, .ledgerRead fun _ => 0, .loop 0]

/-- The next entry of the scan goes to the backend. -/
def placeEvents (used : Nat) : List Event :=
  [.scan, .room false, .choose "", .commit (oneBackend used "b")]

/-- The running drain has read the backend and placed so many jobs on it. -/
def hasPlaced (used count : Nat) (s : State) : Bool :=
  s.pump.any fun pump => pump.drain.caps "b" = some (oneBackend used "b").capacity
    && Axis.slots.placed pump.drain "b" = count

theorem drain_within_capacity_oneQueued : ∃ pump : Pump, 0 < Axis.slots.placed pump.drain "b" ∧
    WithinCapacity pump.drain := by
  obtain ⟨log, s, run, placed⟩ := exists_run_of_exec (step oneBackendConfig)
    (fun s ev => RoundsAddUp s ev = true) (oneQueued 0) (probeEvents ++ placeEvents 0)
    (hasPlaced 0 1) (by decide +kernel)
  obtain ⟨pump, running, here⟩ := (Option.any_eq_true _ _).mp placed
  simp only [Bool.and_eq_true, decide_eq_true_eq] at here
  have within := drain_within_capacity _ _ _ _ log (oneQueued_reached 0) (oneQueued_fresh 0) run
  exact ⟨pump, by omega, within pump running⟩

/-- Nothing completes while a drain runs. -/
def NoCompletion (s : State) (ev : Event) : Bool :=
  match s.pump, ev with
  | some _, .complete .. => false
  | _, _ => true

/-- Three of the four slots are taken by others.  The first round places one job, the
second round forgets it behind the reading and places another. -/
theorem second_round_overcommits : ¬ ∀ (cfg : Config) (world : String → Backend) (s₀ s : State)
    (log : List (Event × Answer)), Reachable (step cfg) Always (.initial world) s₀ →
    Fresh cfg s₀ → Runs (step cfg) (fun s ev => NoCompletion s ev = true) s₀ log s →
    ∀ pump, s.pump = some pump → WithinCapacity pump.drain := by
  intro all
  obtain ⟨log, s, run, placed⟩ := exists_run_of_exec (step oneBackendConfig)
    (fun s ev => NoCompletion s ev = true) (oneQueued 3)
    (.dispatch plainJob none 0 :: probeEvents ++ placeEvents 3 ++ [.scan, .scan, .loop 0]
      ++ placeEvents 3)
    (hasPlaced 3 2) (by decide +kernel)
  obtain ⟨pump, running, here⟩ := (Option.any_eq_true _ _).mp placed
  simp only [Bool.and_eq_true, decide_eq_true_eq] at here
  have within := all _ _ _ _ log (oneQueued_reached 3) (oneQueued_fresh 3) run pump running
    .slots "b" _ 4 here.1 rfl (by omega)
  have reading : 3 ≤ effectiveResource 4 (Axis.slots.observed (oneBackend 3 "b").capacity)
      (Axis.slots.heldOn pump.drain.own "b") := Nat.le_max_left _ _
  omega

end Everdict.Scheduling
