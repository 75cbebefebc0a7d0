import Everdict.Concurrency.Calls
import Everdict.Submission.ScoreRows
import Everdict.Transition
import Mathlib.Data.Rat.Floor

/-!
# Concurrency gates

`createLimiter` gives a slot back before the waiter that it wakes has taken it, and the waiter
takes it without another look: a call that comes in between finds room and both go in.  The
number in flight keeps to the limit in runs where no call takes a slot that a woken waiter is
about to take (`NoSlip`).  `AdaptiveConcurrencyGate` has every waiter look again at the width
sampled when it continues, and lets none in above that width.  Both strand no call.
-/

namespace Everdict.Concurrency

open Gates
open Submission (JsNumber)
open Transition (Machine)
open Transition.Machine

/-! ## Widths -/

/-- `n < width` -/
def below (n : Nat) : JsNumber → Bool
  | .finite width => (n : ℚ) < width
  | .infinity => true
  | .nan | .negativeInfinity => false

/-- `n >= width` -/
def reaches (n : Nat) : JsNumber → Bool
  | .finite width => width ≤ (n : ℚ)
  | .negativeInfinity => true
  | .nan | .infinity => false

/-- `n > width` -/
def exceeds (n : Nat) : JsNumber → Bool
  | .finite width => width < (n : ℚ)
  | .negativeInfinity => true
  | .nan | .infinity => false

/-- `Math.max(1, value)` -/
def atLeastOne : JsNumber → JsNumber
  | .finite value => .finite (max 1 value)
  | .negativeInfinity => .finite 1
  | value => value

/-- `Math.round` -/
def roundNumber : JsNumber → JsNumber
  | .finite value => .finite ⌊value + 1 / 2⌋
  | value => value

/-- `base * factor`, rounded as doubles are. -/
abbrev Product := JsNumber → ℚ → JsNumber

variable {ι : Type} [DecidableEq ι]

/-! ## Steps -/

/-- A call comes, a running one completes (it returns or throws), or a woken one continues;
`sample` is what a gate is told when it looks. -/
inductive GateEvent (ι α : Type) where
  | call (id : ι) (sample : α)
  | complete (id : ι)
  | resume (id : ι) (sample : α)

/-- `running` is the number in flight with the call that went in, under the width it found. -/
inductive GateAnswer where
  | admitted (running : Nat) (width : JsNumber)
  | waits
  | completed
  deriving DecidableEq

variable {α : Type}

/-- The call of a step that came, and the one that went in. -/
def cameIn : GateEvent ι α × GateAnswer → Option ι
  | (.call id _, _) => some id
  | _ => none

def wentIn : GateEvent ι α × GateAnswer → Option ι
  | (.call id _, .admitted _ _) | (.resume id _, .admitted _ _) => some id
  | _ => none

abbrev GateLog (ι α : Type) := List (GateEvent ι α × GateAnswer)

def cameOf (log : GateLog ι α) : List ι := log.filterMap cameIn

def admittedOf (log : GateLog ι α) : List ι := log.filterMap wentIn

/-! ### The limiter -/

structure Limiter (ι : Type) where
  active : Nat := 0
  calls : Calls ι := {}

def capOf (limit : JsNumber) : JsNumber := atLeastOne limit

/-- A step behind `createLimiter(limit)`. -/
def limiter (limit : JsNumber) : Machine (Limiter ι) (GateEvent ι Unit) GateAnswer := fun s event =>
  match event with
  | .call id _ =>
      if id ∈ s.calls.all then none
      else if below s.active (capOf limit) then
        some ({ active := s.active + 1, calls := s.calls.enter id },
          .admitted (s.active + 1) (capOf limit))
      else some ({ s with calls := s.calls.wait id }, .waits)
  | .resume id _ =>
      if id ∈ s.calls.woken then
        some ({ active := s.active + 1, calls := (s.calls.rise id).enter id },
          .admitted (s.active + 1) (capOf limit))
      else none
  | .complete id =>
      if id ∈ s.calls.running then
        some ({ active := s.active - 1, calls := s.calls.leave id 1 }, .completed)
      else none

/-! ### The adaptive gate -/

structure AdaptiveGate (ι : Type) where
  inFlight : Nat := 0
  lastEffective : JsNumber
  calls : Calls ι := {}

def effective (times : Product) (base raw : JsNumber) : JsNumber :=
  let factor := match raw with
    | .finite raw => min 1 (max 0 raw)
    | _ => 1
  atLeastOne (roundNumber (times base factor))

/-- The look at the width, and the call that waits or goes in after it. -/
def look (times : Product) (base raw : JsNumber) (s : AdaptiveGate ι) (id : ι) :
    AdaptiveGate ι × GateAnswer :=
  let width := effective times base raw
  let s := { s with lastEffective := width }
  if reaches s.inFlight width then ({ s with calls := s.calls.wait id }, .waits)
  else
    ({ s with inFlight := s.inFlight + 1, calls := s.calls.enter id },
      .admitted (s.inFlight + 1) width)

/-- A step of `AdaptiveConcurrencyGate.run`; the samples are what `factor` returns. -/
def adaptiveGate (times : Product) (base : JsNumber) :
    Machine (AdaptiveGate ι) (GateEvent ι JsNumber) GateAnswer :=
  fun s event =>
    match event with
    | .call id raw => if id ∈ s.calls.all then none else some (look times base raw s id)
    | .resume id raw =>
        if id ∈ s.calls.woken then
          some (look times base raw { s with calls := s.calls.rise id } id)
        else none
    | .complete id =>
        if id ∈ s.calls.running then
          some ({ s with
            inFlight := s.inFlight - 1
            calls := s.calls.leave id s.calls.waiting.length }, .completed)
        else none

/-! ## Moves -/

theorem limiter_moves {limit : JsNumber} {s t : Limiter ι} {event : GateEvent ι Unit}
    {answer : GateAnswer} (step : limiter limit s event = some (t, answer)) :
    Move s.calls t.calls (cameIn (event, answer)) (wentIn (event, answer)) := by
  cases event with
  | call id sample =>
      simp only [limiter] at step
      split_ifs at step with known room <;> obtain ⟨rfl, rfl⟩ := Prod.mk.inj (Option.some.inj step)
      · exact .enter known
      · exact .wait known
  | resume id sample =>
      simp only [limiter] at step
      split_ifs at step with isWoken
      obtain ⟨rfl, rfl⟩ := Prod.mk.inj (Option.some.inj step)
      exact .resume isWoken
  | complete id =>
      simp only [limiter] at step
      split_ifs at step with runs
      obtain ⟨rfl, rfl⟩ := Prod.mk.inj (Option.some.inj step)
      exact .leave 1 runs

theorem adaptiveGate_moves {times : Product} {base : JsNumber} {s t : AdaptiveGate ι}
    {event : GateEvent ι JsNumber} {answer : GateAnswer}
    (step : adaptiveGate times base s event = some (t, answer)) :
    Move s.calls t.calls (cameIn (event, answer)) (wentIn (event, answer)) := by
  cases event with
  | call id raw =>
      simp only [adaptiveGate, look] at step
      split_ifs at step with known full <;> obtain ⟨rfl, rfl⟩ := Prod.mk.inj (Option.some.inj step)
      · exact .wait known
      · exact .enter known
  | resume id raw =>
      simp only [adaptiveGate, look] at step
      split_ifs at step with isWoken full <;>
        obtain ⟨rfl, rfl⟩ := Prod.mk.inj (Option.some.inj step)
      · exact .repark isWoken
      · exact .resume isWoken
  | complete id =>
      simp only [adaptiveGate] at step
      split_ifs at step with runs
      obtain ⟨rfl, rfl⟩ := Prod.mk.inj (Option.some.inj step)
      exact .leave _ runs

/-! ## Widths that are reached -/

section Widths

variable {n m : Nat} {width : JsNumber}

theorem exceeds_of_le (le : n ≤ m) (fits : exceeds m width = false) : exceeds n width = false := by
  cases width with
  | finite width =>
      rw [exceeds, decide_eq_false_iff_not, not_lt] at fits ⊢
      exact le_trans (by exact_mod_cast le) fits
  | negativeInfinity => cases fits
  | nan | infinity => rfl

theorem exceeds_one (value : JsNumber) : exceeds 1 (atLeastOne value) = false := by
  cases value with
  | finite value =>
      rw [atLeastOne, exceeds, decide_eq_false_iff_not, not_lt, Nat.cast_one]
      exact le_max_left _ _
  | negativeInfinity =>
      rw [atLeastOne, exceeds, decide_eq_false_iff_not, not_lt, Nat.cast_one]
  | nan | infinity => rfl

/-- A width of at least one is reached by someone. -/
theorem pos_of_reaches {value : JsNumber} (full : reaches n (atLeastOne value) = true) : 0 < n := by
  have one_le : ∀ width : ℚ, 1 ≤ width → width ≤ (n : ℚ) → 0 < n := by
    intro width low high
    have : (1 : ℚ) ≤ (n : ℚ) := low.trans high
    exact_mod_cast this
  cases value with
  | finite value => exact one_le _ (le_max_left _ _) (of_decide_eq_true full)
  | negativeInfinity => exact one_le 1 le_rfl (of_decide_eq_true full)
  | nan | infinity => cases full

theorem reaches_of_not_below (full : below n width ≠ true) (isNumber : width ≠ .nan) :
    reaches n width = true := by
  cases width with
  | finite width =>
      have full : ¬ (n : ℚ) < width := fun lt => full (decide_eq_true lt)
      exact decide_eq_true (not_lt.mp full)
  | negativeInfinity => rfl
  | nan => exact absurd rfl isNumber
  | infinity => exact absurd rfl full

/-- A rounded width is whole: where it is not reached there is room for one more. -/
theorem exceeds_succ_rounded {value : JsNumber}
    (room : reaches n (atLeastOne (roundNumber value)) = false) :
    exceeds (n + 1) (atLeastOne (roundNumber value)) = false := by
  have below_one : (n : ℚ) < 1 → ((n + 1 : Nat) : ℚ) ≤ 1 := by
    intro low
    have : n < 1 := by exact_mod_cast low
    exact_mod_cast this
  cases value with
  | finite value =>
      simp only [roundNumber, atLeastOne, reaches, exceeds, decide_eq_false_iff_not, not_le,
        not_lt] at room ⊢
      rcases lt_max_iff.mp room with low | low
      · exact le_max_of_le_left (below_one low)
      · have : (n : Int) < ⌊value + 1 / 2⌋ := by exact_mod_cast low
        exact le_max_of_le_right (by exact_mod_cast this)
  | negativeInfinity =>
      simp only [roundNumber, atLeastOne, reaches, exceeds, decide_eq_false_iff_not, not_le,
        not_lt] at room ⊢
      exact below_one room
  | nan | infinity => rfl

end Widths

/-! ## Runs of the limiter -/

/-- A call that finds a slot finds one that no woken waiter is about to take. -/
def NoSlip (limit : JsNumber) (s : Limiter ι) : GateEvent ι Unit → Prop
  | .call _ _ => below s.active (capOf limit) = true →
      exceeds (s.active + s.calls.woken.length + 1) (capOf limit) = false
  | _ => True

instance (limit : JsNumber) (s : Limiter ι) (event : GateEvent ι Unit) :
    Decidable (NoSlip limit s event) :=
  match event with
  | .call _ _ => inferInstanceAs (Decidable (_ → _))
  | .complete _ | .resume _ _ => inferInstanceAs (Decidable True)

structure LimiterHolds (limit : JsNumber) (s : Limiter ι) : Prop where
  counted : s.active = s.calls.running.length
  served : capOf limit ≠ .nan → s.calls.waiting ≠ [] → s.calls.running ≠ [] ∨ s.calls.woken ≠ []

/-- With the woken waiters the running calls keep to the limit. -/
def Fits (limit : JsNumber) (s : Limiter ι) : Prop :=
  exceeds (s.active + s.calls.woken.length) (capOf limit) = false

section Limiter

variable {limit : JsNumber} {s t : Limiter ι} {event : GateEvent ι Unit} {answer : GateAnswer}

theorem LimiterHolds.step (holds : LimiterHolds limit s)
    (step : limiter limit s event = some (t, answer)) : LimiterHolds limit t := by
  obtain ⟨counted, served⟩ := holds
  cases event with
  | call id sample =>
      simp only [limiter] at step
      split_ifs at step with known room <;> obtain ⟨rfl, rfl⟩ := Prod.mk.inj (Option.some.inj step)
      · refine ⟨?_, fun _ _ => Or.inl ?_⟩ <;> simp [Calls.enter, counted]
      · refine ⟨counted, fun isNumber _ => Or.inl ?_⟩
        have some' := pos_of_reaches (reaches_of_not_below room isNumber)
        exact List.ne_nil_of_length_pos (counted ▸ some')
  | resume id sample =>
      simp only [limiter] at step
      split_ifs at step with isWoken
      obtain ⟨rfl, rfl⟩ := Prod.mk.inj (Option.some.inj step)
      refine ⟨?_, fun _ _ => Or.inl ?_⟩ <;> simp [Calls.enter, Calls.rise, counted]
  | complete id =>
      simp only [limiter] at step
      split_ifs at step with runs
      obtain ⟨rfl, rfl⟩ := Prod.mk.inj (Option.some.inj step)
      have one := List.length_erase_add_one runs
      refine ⟨?_, fun _ waits => Or.inr ?_⟩
      · simp only [Calls.leave]
        omega
      · simp only [Calls.leave] at waits ⊢
        rcases waiting : s.calls.waiting with _ | ⟨next, rest⟩
        · rw [waiting] at waits
          exact absurd rfl waits
        · simp

theorem Fits.step (holds : LimiterHolds limit s) (fits : Fits limit s) (noSlip : NoSlip limit s event)
    (step : limiter limit s event = some (t, answer)) : Fits limit t := by
  unfold Fits at fits ⊢
  cases event with
  | call id sample =>
      simp only [limiter] at step
      split_ifs at step with known room <;> obtain ⟨rfl, rfl⟩ := Prod.mk.inj (Option.some.inj step)
      · rw [Nat.add_right_comm]
        exact noSlip room
      · exact fits
  | resume id sample =>
      simp only [limiter] at step
      split_ifs at step with isWoken
      obtain ⟨rfl, rfl⟩ := Prod.mk.inj (Option.some.inj step)
      have one := List.length_erase_add_one isWoken
      refine exceeds_of_le (Nat.le_of_eq ?_) fits
      simp only [Calls.enter, Calls.rise]
      omega
  | complete id =>
      simp only [limiter] at step
      split_ifs at step with runs
      obtain ⟨rfl, rfl⟩ := Prod.mk.inj (Option.some.inj step)
      have counted := holds.counted
      have one := List.length_erase_add_one runs
      refine exceeds_of_le ?_ fits
      simp only [Calls.leave, List.length_append, List.length_take]
      omega

omit [DecidableEq ι] in
theorem limiterHolds_start : LimiterHolds limit ({} : Limiter ι) :=
  ⟨rfl, fun _ waits => absurd rfl waits⟩

omit [DecidableEq ι] in
theorem fits_start : Fits limit ({} : Limiter ι) :=
  exceeds_of_le (Nat.zero_le 1) (exceeds_one limit)

end Limiter

/-! ## Runs of the adaptive gate -/

structure GateHolds (s : AdaptiveGate ι) : Prop where
  counted : s.inFlight = s.calls.running.length
  served : s.calls.waiting ≠ [] → s.calls.running ≠ []

section AdaptiveGate

variable {times : Product} {base raw : JsNumber} {s t : AdaptiveGate ι} {event : GateEvent ι JsNumber}
  {answer : GateAnswer} {id : ι}

omit [DecidableEq ι] in
theorem gateHolds_look (counted : s.inFlight = s.calls.running.length) :
    GateHolds (look times base raw s id).1 := by
  unfold look
  dsimp only
  split_ifs with full
  · refine ⟨counted, fun _ => ?_⟩
    exact List.ne_nil_of_length_pos (counted ▸ pos_of_reaches full)
  · refine ⟨?_, fun _ => ?_⟩ <;> simp [Calls.enter, counted]

theorem GateHolds.step (holds : GateHolds s)
    (step : adaptiveGate times base s event = some (t, answer)) : GateHolds t := by
  obtain ⟨counted, served⟩ := holds
  cases event with
  | call id raw =>
      simp only [adaptiveGate] at step
      split_ifs at step
      have same : (look times base raw _ id).1 = t := congrArg Prod.fst (Option.some.inj step)
      exact same ▸ gateHolds_look counted
  | resume id raw =>
      simp only [adaptiveGate] at step
      split_ifs at step
      have same : (look times base raw _ id).1 = t := congrArg Prod.fst (Option.some.inj step)
      exact same ▸ gateHolds_look counted
  | complete id =>
      simp only [adaptiveGate] at step
      split_ifs at step with runs
      obtain ⟨rfl, rfl⟩ := Prod.mk.inj (Option.some.inj step)
      have one := List.length_erase_add_one runs
      refine ⟨?_, fun waits => absurd ?_ waits⟩
      · simp only [Calls.leave]
        omega
      · simp [Calls.leave]

/-- What goes in is under the width that it was sampled for. -/
theorem admitted_of_step (step : adaptiveGate times base s event = some (t, answer)) {running : Nat}
    {width : JsNumber} (admitted : answer = .admitted running width) :
    running = t.inFlight ∧ exceeds running width = false := by
  have looked : ∀ raw (s : AdaptiveGate ι) id, some (look times base raw s id) = some (t, answer) →
      running = t.inFlight ∧ exceeds running width = false := by
    intro raw s id eq
    simp only [look] at eq
    split_ifs at eq with full <;> obtain ⟨rfl, rfl⟩ := Prod.mk.inj (Option.some.inj eq)
    · cases admitted
    · cases admitted
      exact ⟨rfl, exceeds_succ_rounded (Bool.eq_false_of_not_eq_true full)⟩
  cases event with
  | call id raw =>
      simp only [adaptiveGate] at step
      split_ifs at step
      exact looked _ _ _ step
  | resume id raw =>
      simp only [adaptiveGate] at step
      split_ifs at step
      exact looked _ _ _ step
  | complete id =>
      simp only [adaptiveGate] at step
      split_ifs at step
      obtain ⟨rfl, rfl⟩ := Prod.mk.inj (Option.some.inj step)
      cases admitted

end AdaptiveGate

/-! ## What the gates hold -/

/-- The calls that went in did so once, and they all did where none waits. -/
structure AdmittedOnce (log : GateLog ι α) (calls : Calls ι) : Prop where
  once : ∀ id, (admittedOf log).count id = if id ∈ calls.running ++ calls.finished then 1 else 0
  all : calls.waiting = [] → calls.woken = [] →
    ∀ id ∈ cameOf log, (admittedOf log).count id = 1

theorem admittedOnce_of_ledger {log : GateLog ι α} {calls : Calls ι}
    (ledger : Ledger (cameOf log) (admittedOf log) calls) : AdmittedOnce log calls where
  once := ledger.admitted_once
  all := fun waiting woken _ isIn => ledger.all_admitted waiting woken isIn

theorem ledger_tail {log : GateLog ι α} {entry : GateEvent ι α × GateAnswer}
    {calls after : Calls ι} (ledger : Ledger (cameOf log) (admittedOf log) calls)
    (move : Move calls after (cameIn entry) (wentIn entry)) :
    Ledger (cameOf (log ++ [entry])) (admittedOf (log ++ [entry])) after := by
  have tail : ∀ f : GateEvent ι α × GateAnswer → Option ι,
      [entry].filterMap f = (f entry).toList := by
    intro f
    rcases eq : f entry with _ | id <;> simp [eq]
  rw [cameOf, admittedOf, List.filterMap_append, List.filterMap_append, tail, tail]
  exact ledger.move move

/-- Both gates admit each call once and strand none, the limiter where its limit is a number; the
limiter keeps to its limit in runs without slips, and the adaptive gate keeps every admission to
its width, however base and factor are multiplied. -/
theorem gates_hold :
    (∀ (limit : JsNumber) (log : GateLog ι Unit) (s : Limiter ι),
        Runs (limiter limit) Always {} log s →
          AdmittedOnce log s.calls ∧
            (capOf limit ≠ .nan → s.calls.waiting ≠ [] →
              s.calls.running ≠ [] ∨ s.calls.woken ≠ []) ∧
            (Runs (limiter limit) (NoSlip limit) {} log s →
              exceeds s.calls.running.length (capOf limit) = false)) ∧
      ∀ (times : Product) (base : JsNumber) (log : GateLog ι JsNumber) (s : AdaptiveGate ι),
        Runs (adaptiveGate times base) Always { lastEffective := base } log s →
          (∀ event t running width,
            adaptiveGate times base s event = some (t, .admitted running width) →
              running = t.calls.running.length ∧ exceeds running width = false) ∧
            AdmittedOnce log s.calls ∧
            (s.calls.waiting ≠ [] → s.calls.running ≠ [] ∨ s.calls.woken ≠ []) := by
  constructor
  · intro limit log s run
    obtain ⟨⟨counted, served⟩, ledger⟩ := run.invariant
      (I := fun log s => LimiterHolds limit s ∧ Ledger (cameOf log) (admittedOf log) s.calls)
      ⟨limiterHolds_start, ledger_nil⟩ fun log s event t answer kept _ step =>
        ⟨kept.1.step step, ledger_tail kept.2 (limiter_moves step)⟩
    refine ⟨admittedOnce_of_ledger ledger, served, fun unslipped => ?_⟩
    obtain ⟨-, fits⟩ := unslipped.state_invariant
      (I := fun s => LimiterHolds limit s ∧ Fits limit s) ⟨limiterHolds_start, fits_start⟩
      fun s event t answer kept noSlip step => ⟨kept.1.step step, kept.2.step kept.1 noSlip step⟩
    exact exceeds_of_le (counted ▸ Nat.le_add_right _ _) fits
  · intro times base log s run
    obtain ⟨holds, ledger⟩ := run.invariant
      (I := fun log s => GateHolds s ∧ Ledger (cameOf log) (admittedOf log) s.calls)
      ⟨⟨rfl, fun waits => absurd rfl waits⟩, ledger_nil⟩ fun log s event t answer kept _ step =>
        ⟨kept.1.step step, ledger_tail kept.2 (adaptiveGate_moves step)⟩
    refine ⟨?_, admittedOnce_of_ledger ledger, fun waits => Or.inl (holds.served waits)⟩
    intro event t running width step
    obtain ⟨same, fits⟩ := admitted_of_step step rfl
    exact ⟨same.trans (holds.step step).counted, fits⟩

/-- A waiter is woken and goes on before the next call comes; a halved width lets one call in. -/
theorem gates_hold_inTurn :
    (∃ (log : GateLog Nat Unit) (s : Limiter Nat),
      Runs (limiter (.finite 1)) (NoSlip (.finite 1)) {} log s ∧ s.calls.waiting = [3] ∧
        exceeds s.calls.running.length (capOf (.finite 1)) = false ∧ AdmittedOnce log s.calls ∧
        (s.calls.running ≠ [] ∨ s.calls.woken ≠ [])) ∧
      ∃ (log : GateLog Nat JsNumber) (s : AdaptiveGate Nat),
        Runs (adaptiveGate (fun _ _ => .finite 1) (.finite 2)) Always
          { lastEffective := .finite 2 } log s ∧ s.calls.waiting = [1] ∧ AdmittedOnce log s.calls ∧
            (s.calls.running ≠ [] ∨ s.calls.woken ≠ []) := by
  obtain ⟨limiters, adaptive⟩ := @gates_hold Nat _
  constructor
  · obtain ⟨log, s, run, waits⟩ := exists_run_of_exec (limiter (.finite 1)) (NoSlip (.finite 1))
      ({} : Limiter Nat) [.call 0 (), .call 1 (), .complete 0, .resume 1 (), .complete 1,
        .call 2 (), .call 3 ()] (fun s => s.calls.waiting = [3]) (by decide +kernel)
    have waits : s.calls.waiting = [3] := by simpa using waits
    obtain ⟨once, served, keeps⟩ := limiters _ _ _ (run.mono fun _ _ _ => trivial)
    exact ⟨log, s, run, waits, keeps run, once, served (by decide) (by simp [waits])⟩
  · obtain ⟨log, s, run, waits⟩ := exists_run_of_exec
      (adaptiveGate (fun _ _ => .finite 1) (.finite 2)) Always { lastEffective := .finite 2 }
      [.call 0 (.finite (1 / 2)), .call 1 (.finite (1 / 2))] (fun s => s.calls.waiting = [1])
      (by decide +kernel)
    have waits : s.calls.waiting = [1] := by simpa using waits
    obtain ⟨-, once, served⟩ := adaptive _ _ _ _ run
    exact ⟨log, s, run, waits, once, served (by simp [waits])⟩

/-- A woken waiter and a call that came before it continued are in flight under a limit of
one. -/
theorem newcomer_slips_in :
    ¬ ∀ (limit : JsNumber) (log : GateLog Nat Unit) (s : Limiter Nat),
      Runs (limiter limit) Always {} log s →
        exceeds s.calls.running.length (capOf limit) = false := by
  intro holds
  obtain ⟨log, s, run, found⟩ := exists_run_of_exec (limiter (.finite 1)) Always
    ({} : Limiter Nat) [.call 0 (), .call 1 (), .complete 0, .call 2 (), .resume 1 ()]
    (fun s => exceeds s.calls.running.length (capOf (.finite 1))) (by decide +kernel)
  rw [holds _ _ _ run] at found
  cases found

end Everdict.Concurrency
