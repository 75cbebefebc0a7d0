import Everdict.Attempt.Parents
import Everdict.Transition

/-!
# The SQL attempt ledger

Each operation as the statements it sends.  A statement is atomic and addresses
one row by its key, so it is a function of that row; `Op.first` is the statement
an operation starts with, and `Op.second` the one it goes on with when the first
gave no answer.  Between the two anything may land.

`Op.first_writes` and `Op.second_writes` say what a statement can do to its row.
-/

namespace Everdict.Attempt

open Transition Machine

/-- `UPDATE … SET … WHERE attempt_id = $1 AND … RETURNING`: the row it wrote. -/
def updateWhere (row : Option ExecutionAttempt) (guard : ExecutionAttempt → Bool)
    (set : ExecutionAttempt → ExecutionAttempt) : Option ExecutionAttempt :=
  (row.filter guard).map set

def reservationRefused (attemptId : String) : StoreError :=
  conflict [("attemptId", attemptId)]
    ("this attempt may no longer authorize work — it has ended, already reserved, or belongs to " ++
    "an execution this driver no longer owns.")

def reofferRefused (attemptId : String) : StoreError :=
  conflict [("attemptId", attemptId)]
    ("this attempt may no longer authorize work — the execution it belongs to has ended or is " ++
    "owned by a newer driver, so re-offering the same handle does not revive the authorization.")

/-! ## Statements -/

def transitionGuard (parents : Parents) (target : AttemptState) (a : ExecutionAttempt) : Bool :=
  a.state ∉ TERMINAL_ATTEMPT_STATES ∧ target ≠ .created ∧
    (target ≠ .executing ∨ a.state ∈ EXECUTING_PREDECESSOR_STATES) ∧
    (target ≠ .verdictProduced ∨ a.state ∈ VERDICT_PREDECESSOR_STATES) ∧
    (target ≠ .committed ∨ a.state ∈ COMMIT_PREDECESSOR_STATES) ∧
    (target ≠ .committed ∨ parentAuthorizes parents a)

def activateGuard (parents : Parents) (work : RuntimeWorkRef) (a : ExecutionAttempt) : Bool :=
  a.state = .reserved ∧
    a.runtimeWork.map RuntimeWorkRef.externalJobId = some work.externalJobId ∧
    parentAuthorizes parents a

def reserveGuard (parents : Parents) (a : ExecutionAttempt) : Bool :=
  a.state = .created ∧ a.runtimeWork = none ∧ parentAuthorizes parents a

def adoptGuard (parents : Parents) (adoption : AttemptAdoption) (a : ExecutionAttempt) : Bool :=
  a.executionId = adoption.expectedExecutionId ∧ a.state ∈ COMMIT_PREDECESSOR_STATES ∧
    parentAdopts parents a adoption

/-- The re-offer of a handle the row already holds. -/
def reserveSelect (attemptId : String) (work : RuntimeWorkRef) (parents : Parents) :
    Option ExecutionAttempt → Option Outcome
  | none => some (.thrown (noSuchAttempt attemptId))
  | some row =>
      row.runtimeWork.map fun held =>
        if held.externalJobId = work.externalJobId then
          if ¬ parentAuthorizes parents row then .thrown (reofferRefused attemptId)
          else .intent ⟨attemptId, held, row.updatedAt⟩
        else .thrown (otherWorkReserved attemptId held.externalJobId work.externalJobId)

/-- Why the activation moved no row, read back. -/
def activateSelect (work : RuntimeWorkRef) (parents : Parents) :
    Option ExecutionAttempt → ActivationDecision
  | none => noAttemptRow
  | some row => decideActivation (activationRequest row work (parentAuthorizes parents row))

/-- Why the adoption moved no row, read back. -/
def adoptSelect (adoption : AttemptAdoption) : Option ExecutionAttempt → AdoptAttemptOutcome
  | none => .absent
  | some row =>
      if row.executionId ≠ adoption.expectedExecutionId then
        otherExecution row.executionId adoption.expectedExecutionId
      else if row.state = .committed then committedOutcome row.childRunId adoption
      else if row.state ∉ COMMIT_PREDECESSOR_STATES then .incompatibleState row.state
      else
        .wrongParent ("the parent " ++ adoption.parent.kind.name ++ " " ++ adoption.parent.id ++
          " is not open at epoch " ++ toString adoption.parent.adoptingEpoch)

/-- The first statement of an operation: what it wrote and, unless the operation
goes on, its answer. -/
def Op.first (op : Op) (attemptId : String) (row : Option ExecutionAttempt) (parents : Parents)
    (now : String) : Option ExecutionAttempt × Option Outcome :=
  match op with
  | .transition target patch =>
      let moved := updateWhere row (transitionGuard parents target) fun a =>
        applyPatch a target patch now
      (moved, some (.moved moved.isSome))
  | .reserveWork work => (none, reserveSelect attemptId work parents row)
  | .activateWork work =>
      let moved := updateWhere row (activateGuard parents work) fun a =>
        { a with state := .active, updatedAt := now }
      (moved, if moved.isSome then some (.activation .activate) else none)
  | .revokeReservation =>
      let updated := updateWhere row (fun a => a.state ∉ TERMINAL_ATTEMPT_STATES) fun a =>
        { a with state := .revoked, updatedAt := now }
      (updated, some (.revocation (match row with
        | none => .absent
        | some pre => if updated.isSome then .revoked pre.state else .settled pre.state)))
  | .markUnisolated =>
      (updateWhere row (fun _ => true) fun a => { a with unisolated := true, updatedAt := now },
        some .done)
  | .adoptAtSettlement adoption =>
      let moved := updateWhere row (adoptGuard parents adoption) fun a => adopted a adoption now
      (moved, if moved.isSome then some (.adoption .adopted) else none)

/-- The statement an operation goes on with. -/
def Op.second (op : Op) (attemptId : String) (row : Option ExecutionAttempt) (parents : Parents)
    (now : String) : Option ExecutionAttempt × Outcome :=
  match op with
  | .reserveWork work =>
      let moved := updateWhere row (reserveGuard parents) fun a =>
        { a with runtimeWork := some work, state := .reserved, updatedAt := now }
      (moved, match moved with
        | none => .thrown (reservationRefused attemptId)
        | some _ => .intent ⟨attemptId, work, now⟩)
  | .activateWork work => (none, .activation (activateSelect work parents row))
  | .adoptAtSettlement adoption => (none, .adoption (adoptSelect adoption row))
  | _ => (none, .done)

/-! ### What a statement can do to a row -/

section Writes

variable {op : Op} {attemptId now : String} {row : Option ExecutionAttempt} {parents : Parents}
  {written : ExecutionAttempt}

theorem updateWhere_eq_some {guard : ExecutionAttempt → Bool}
    {set : ExecutionAttempt → ExecutionAttempt} :
    updateWhere row guard set = some written ↔
      ∃ r, row = some r ∧ guard r = true ∧ set r = written := by
  simp [updateWhere, Option.map_eq_some_iff, Option.filter_eq_some_iff, and_assoc]

variable {r : ExecutionAttempt}

theorem live_of_transitionGuard {target : AttemptState}
    (guard : transitionGuard parents target r = true) :
    isTerminalAttemptState r.state = false ∧ target ≠ .created := by
  simp only [transitionGuard, Bool.decide_and, Bool.and_eq_true, decide_eq_true_eq] at guard
  exact ⟨by simpa [isTerminalAttemptState] using guard.1, guard.2.1⟩

theorem of_activateGuard {work : RuntimeWorkRef} (guard : activateGuard parents work r = true) :
    r.state = .reserved ∧ r.runtimeWork.map RuntimeWorkRef.externalJobId = some work.externalJobId ∧
      parentAuthorizes parents r = true := by
  simpa [activateGuard] using guard

theorem of_reserveGuard (guard : reserveGuard parents r = true) :
    r.state = .created ∧ r.runtimeWork = none ∧ parentAuthorizes parents r = true := by
  simpa [reserveGuard] using guard

theorem live_of_adoptGuard {adoption : AttemptAdoption}
    (guard : adoptGuard parents adoption r = true) : isTerminalAttemptState r.state = false := by
  simp only [adoptGuard, Bool.decide_and, Bool.and_eq_true, decide_eq_true_eq] at guard
  exact (mem_commit_iff _).mp guard.2.1

/-- A write of a statement: `Rewrites`, and the row is reserved afterwards only if it
was reserved or new before, or the statement is a `transition` to `reserved` of a live row. -/
structure Writes (op : Op) (row : Option ExecutionAttempt) (written : ExecutionAttempt) : Prop where
  rewrites : ∃ r, row = some r ∧ Rewrites r written
  reserved : ∀ r, row = some r → written.state = .reserved →
    r.state = .reserved ∨ r.state = .created ∨
      isTerminalAttemptState r.state = false ∧ ∃ patch, op = .transition .reserved patch

theorem Writes.of_row (rewrites : Rewrites r written)
    (reserved : written.state = .reserved → r.state = .reserved ∨ r.state = .created ∨
      isTerminalAttemptState r.state = false ∧ ∃ patch, op = .transition .reserved patch) :
    Writes op (some r) written :=
  ⟨⟨r, rfl, rewrites⟩, fun _ same => Option.some.inj same ▸ reserved⟩

theorem Op.first_writes {answer : Option Outcome}
    (eq : op.first attemptId row parents now = (some written, answer)) :
    Writes op row written := by
  cases op with
  | transition target patch =>
      simp only [Op.first, Prod.mk.injEq] at eq
      obtain ⟨r, rfl, guard, rfl⟩ := updateWhere_eq_some.mp eq.1
      obtain ⟨live, moved⟩ := live_of_transitionGuard guard
      refine .of_row (.of_live live rfl rfl rfl (fun _ => id) moved) fun reserved => ?_
      obtain rfl : target = .reserved := reserved
      exact .inr (.inr ⟨live, patch, rfl⟩)
  | reserveWork => simp [Op.first] at eq
  | activateWork work =>
      simp only [Op.first, Prod.mk.injEq] at eq
      obtain ⟨r, rfl, guard, rfl⟩ := updateWhere_eq_some.mp eq.1
      have reserved := (of_activateGuard guard).1
      exact .of_row (.of_live (by rw [reserved]; rfl) rfl rfl rfl (fun _ => id) (by simp))
        fun _ => .inl reserved
  | revokeReservation =>
      simp only [Op.first, Prod.mk.injEq] at eq
      obtain ⟨r, rfl, live, rfl⟩ := updateWhere_eq_some.mp eq.1
      exact .of_row (.of_live (by simpa [isTerminalAttemptState] using live) rfl rfl rfl
        (fun _ => id) (by simp)) (by simp)
  | markUnisolated =>
      simp only [Op.first, Prod.mk.injEq] at eq
      obtain ⟨r, rfl, -, rfl⟩ := updateWhere_eq_some.mp eq.1
      exact .of_row ⟨rfl, rfl, rfl, fun _ => id, fun _ => rfl, fun fresh => ⟨fresh, rfl⟩⟩ .inl
  | adoptAtSettlement adoption =>
      simp only [Op.first, Prod.mk.injEq] at eq
      obtain ⟨r, rfl, guard, rfl⟩ := updateWhere_eq_some.mp eq.1
      exact .of_row (.of_live (live_of_adoptGuard guard) rfl rfl rfl (fun _ => id)
        (by simp [adopted])) (by simp [adopted])

theorem Op.second_writes {outcome : Outcome}
    (eq : op.second attemptId row parents now = (some written, outcome)) :
    Writes op row written := by
  cases op with
  | reserveWork work =>
      simp only [Op.second, Prod.mk.injEq] at eq
      obtain ⟨r, rfl, guard, rfl⟩ := updateWhere_eq_some.mp eq.1
      obtain ⟨fresh, unreserved, -⟩ := of_reserveGuard guard
      exact .of_row (.of_live (by rw [fresh]; rfl) rfl rfl rfl (by simp [unreserved]) (by simp))
        fun _ => .inr (.inl fresh)
  | _ => simp [Op.second] at eq

end Writes

/-- `COALESCE(MAX(generation), 0) + 1` over the rows of the execution. -/
def insertGeneration (rows : Ledger) (executionId : String) : Nat :=
  ((generationsOf rows executionId).max?).getD 0 + 1

/-- The `INSERT` of `open`; `none` is a violated key (23505). -/
def insertNext (rows : Ledger) (input : OpenAttemptInput) (now : String) :
    Option (Ledger × String × Nat) :=
  let generation := insertGeneration rows input.executionId
  let attemptId := attemptIdOf input.executionId generation
  match rows.get attemptId with
  | some _ => none
  | none => some (rows.set attemptId (openedAttempt input generation now), attemptId, generation)

/-! ## Concurrent callers -/

/-- A call between its two statements. -/
structure Call where
  number : Nat
  attemptId : String
  op : Op

/-- `activated` is a history: the attempts some `activateWork` was told to activate.
No statement reads it. -/
structure Database where
  rows : Ledger
  calls : List Call
  activated : List String

def Database.empty : Database := ⟨.empty, [], []⟩

inductive SqlEvent where
  | openAttempt (input : OpenAttemptInput) (now : String)
  | call (number : Nat) (attemptId : String) (op : Op) (parents : Parents) (now : String)
  | resume (number : Nat) (parents : Parents) (now : String)

inductive SqlAnswer where
  | opened (attemptId : String) (generation : Nat)
  | collided
  | waiting
  | answered (attemptId : String) (op : Op) (outcome : Outcome)

def writeRow (rows : Ledger) (attemptId : String) : Option ExecutionAttempt → Ledger
  | none => rows
  | some row => rows.set attemptId row

def noteActivated (activated : List String) (attemptId : String) (outcome : Outcome) :
    List String :=
  if outcome = .activation .activate then attemptId :: activated else activated

def sqlStep : Machine Database SqlEvent SqlAnswer
  | d, .openAttempt input now =>
      match insertNext d.rows input now with
      | none => some (d, .collided)
      | some (rows, attemptId, generation) => some ({ d with rows }, .opened attemptId generation)
  | d, .call number attemptId op parents now =>
      if d.calls.any fun c => c.number = number then none
      else
        let (written, answer) := op.first attemptId (d.rows.get attemptId) parents now
        let rows := writeRow d.rows attemptId written
        match answer with
        | none => some ({ d with rows, calls := ⟨number, attemptId, op⟩ :: d.calls }, .waiting)
        | some outcome =>
            some ({ d with rows, activated := noteActivated d.activated attemptId outcome },
              .answered attemptId op outcome)
  | d, .resume number parents now =>
      match d.calls.find? fun c => c.number = number with
      | none => none
      | some c =>
          let (written, outcome) := c.op.second c.attemptId (d.rows.get c.attemptId) parents now
          some (⟨writeRow d.rows c.attemptId written,
              d.calls.filter fun c => c.number ≠ number,
              noteActivated d.activated c.attemptId outcome⟩,
            .answered c.attemptId c.op outcome)

end Everdict.Attempt
