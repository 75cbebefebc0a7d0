import Everdict.Contracts.ExecutionAttempt
import Everdict.Table
import Mathlib.Order.Lattice

/-!
# The operations of the attempt ledger

What each operation of the in-process ledger decides from the row it read and
the answer of the parent authority it awaited.  An operation is a function of
these two: it answers an `Outcome` and, when it writes, the row it puts in place
of the one it read.  `Attempt.InMemory` runs these functions under the
per-attempt queue; `Attempt.Parity` compares them with the SQL statements.

`Op.run_writes` says once what an operation can do to a row.
-/

namespace Everdict.Attempt

structure OpenAttemptInput where
  executionId : String
  tenant : String
  scorecardId : Option String := none
  caseId : Option String := none
  trial : Option Nat := none
  childRunId : Option String := none
  driverEpoch : Option Nat := none
  deriving DecidableEq

structure TransitionPatch where
  childRunId : Option String := none
  leaseEpoch : Option Nat := none
  unisolated : Option Bool := none
  error : Option AttemptError := none
  deriving DecidableEq

inductive ParentKind where
  | scorecard
  | run
  deriving DecidableEq

def ParentKind.name : ParentKind → String
  | scorecard => "scorecard"
  | run => "run"

structure AdoptingParent where
  kind : ParentKind
  id : String
  adoptingEpoch : Nat
  deriving DecidableEq

structure AttemptAdoption where
  parent : AdoptingParent
  expectedExecutionId : String
  childRunId : Option String := none
  deriving DecidableEq

inductive Op where
  | transition (target : AttemptState) (patch : TransitionPatch)
  | reserveWork (work : RuntimeWorkRef)
  | activateWork (work : RuntimeWorkRef)
  | revokeReservation
  | markUnisolated
  | adoptAtSettlement (adoption : AttemptAdoption)
  deriving DecidableEq

inductive RevocationOutcome where
  | revoked (before : AttemptState)
  | settled (state : AttemptState)
  | absent
  deriving DecidableEq

inductive AdoptAttemptOutcome where
  | adopted
  | alreadyAdopted
  | incompatibleState (state : AttemptState)
  | wrongParent (reason : String)
  | absent
  deriving DecidableEq

/-- A thrown error: its code, its details and its message. -/
structure StoreError where
  code : String
  details : List (String × String)
  message : String
  deriving DecidableEq

inductive Outcome where
  | moved (done : Bool)
  | intent (proof : PersistedWorkIntent)
  | activation (decision : ActivationDecision)
  | revocation (outcome : RevocationOutcome)
  | adoption (outcome : AdoptAttemptOutcome)
  | done
  | thrown (error : StoreError)
  deriving DecidableEq

/-- The answer of the parent authority: none is wired, the parent is over or gone,
it is owned at an epoch, or the lookup itself failed. -/
inductive Authority where
  | unwired
  | closed
  | owned (epoch : Nat)
  | fault (error : StoreError)
  deriving DecidableEq

def conflict (details : List (String × String)) (message : String) : StoreError :=
  ⟨"CONFLICT", details, message⟩

def noSuchAttempt (attemptId : String) : StoreError :=
  ⟨"NOT_FOUND", [("attemptId", attemptId)],
    "cannot reserve runtime work against an attempt row that does not exist — the dispatch has " ++
    "no durable identity to place work under."⟩

def otherWorkReserved (attemptId reserved offered : String) : StoreError :=
  conflict [("attemptId", attemptId), ("reserved", reserved), ("offered", offered)]
    ("this attempt has already authorized other work — overwriting the handle would leave the " ++
    "running job unaddressable.")

/-- Who may still authorize work under this attempt; `none` is a yes. -/
def assertParentStillAuthorizes (attemptId : String) (current : ExecutionAttempt) :
    Authority → Option StoreError
  | .unwired => none
  | .closed =>
      some (conflict [("attemptId", attemptId)]
        ("the execution this attempt belongs to is no longer open — work placed for it could " ++
        "never be torn down by the cancellation that already ran."))
  | .owned epoch =>
      match current.driverEpoch with
      | none => none
      | some held =>
          if epoch ≠ held then
            some (conflict [("attemptId", attemptId), ("held", toString held),
                ("current", toString epoch)]
              ("this driver has been displaced by a newer epoch — it may no longer authorize " ++
              "work it could not settle."))
          else none
  | .fault error => some error

/-! ## The six operations on a row -/

def applyPatch (current : ExecutionAttempt) (target : AttemptState) (patch : TransitionPatch)
    (now : String) : ExecutionAttempt :=
  { current with
    state := target
    childRunId := patch.childRunId <|> current.childRunId
    leaseEpoch := patch.leaseEpoch <|> current.leaseEpoch
    unisolated := patch.unisolated.getD current.unisolated
    error := patch.error <|> current.error
    updatedAt := now }

def transitionUnsafe (attemptId : String) (current : Option ExecutionAttempt)
    (target : AttemptState)
    (patch : TransitionPatch) (authority : Authority) (now : String) :
    Option ExecutionAttempt × Outcome :=
  match current with
  | none => (none, .moved false)
  | some current =>
      if isTerminalAttemptState current.state then (none, .moved false)
      else if target = .executing ∧ current.state ∉ EXECUTING_PREDECESSOR_STATES then
        (none, .moved false)
      else if target = .verdictProduced ∧ current.state ∉ VERDICT_PREDECESSOR_STATES then
        (none, .moved false)
      else if target = .committed ∧ current.state ∉ COMMIT_PREDECESSOR_STATES then
        (none, .moved false)
      else if target = .created then (none, .moved false)
      else if target = .committed ∧
          (assertParentStillAuthorizes attemptId current authority).isSome then
        (none, .moved false)
      else (some (applyPatch current target patch now), .moved true)

def reserveWorkUnsafe (attemptId : String) (current : Option ExecutionAttempt)
    (work : RuntimeWorkRef) (authority : Authority) (now : String) :
    Option ExecutionAttempt × Outcome :=
  match current with
  | none => (none, .thrown (noSuchAttempt attemptId))
  | some current =>
      match current.runtimeWork with
      | some held =>
          if held.externalJobId = work.externalJobId then
            match assertParentStillAuthorizes attemptId current authority with
            | some error => (none, .thrown error)
            | none => (none, .intent ⟨attemptId, held, current.updatedAt⟩)
          else
            (none, .thrown (otherWorkReserved attemptId held.externalJobId work.externalJobId))
      | none =>
          if current.state ≠ .created then
            (none, .thrown (conflict [("attemptId", attemptId), ("state", current.state.name)]
              ("an attempt in state '" ++ current.state.name ++ "' may not authorize new work — " ++
              "its outcome is no longer its own to decide.")))
          else
            match assertParentStillAuthorizes attemptId current authority with
            | some error => (none, .thrown error)
            | none =>
                (some { current with state := .reserved, runtimeWork := some work, updatedAt := now },
                  .intent ⟨attemptId, work, now⟩)

def activationRequest (current : ExecutionAttempt) (work : RuntimeWorkRef) (parentOpen : Bool) :
    ActivationRequest where
  state := current.state
  recordedWork := current.runtimeWork.map RuntimeWorkRef.externalJobId
  work := work.externalJobId
  parentOpen := parentOpen

def noAttemptRow : ActivationDecision := .refuse "this attempt row does not exist"

def activateWorkUnsafe (attemptId : String) (current : Option ExecutionAttempt)
    (work : RuntimeWorkRef) (authority : Authority) (now : String) :
    Option ExecutionAttempt × Outcome :=
  match current with
  | none => (none, .activation noAttemptRow)
  | some current =>
      let parentOpen := (assertParentStillAuthorizes attemptId current authority).isNone
      let decision := decideActivation (activationRequest current work parentOpen)
      (if decision = .activate then some { current with state := .active, updatedAt := now } else none,
        .activation decision)

def revokeReservationUnsafe (current : Option ExecutionAttempt) (now : String) :
    Option ExecutionAttempt × Outcome :=
  match current with
  | none => (none, .revocation .absent)
  | some current =>
      if isTerminalAttemptState current.state then (none, .revocation (.settled current.state))
      else
        (some { current with state := .revoked, updatedAt := now },
          .revocation (.revoked current.state))

def markUnisolatedUnsafe (current : Option ExecutionAttempt) (now : String) :
    Option ExecutionAttempt × Outcome :=
  (current.map fun current => { current with unisolated := true, updatedAt := now }, .done)

/-- The run a standalone execution names, or the empty id. -/
def runIdOf (executionId : String) : String :=
  if "evd-run-".toList <+: executionId.toList then
    String.ofList (executionId.toList.drop "evd-run-".length)
  else ""

def rowParentKind (current : ExecutionAttempt) : ParentKind :=
  if current.scorecardId.isSome then .scorecard else .run

def rowParentId (current : ExecutionAttempt) : String :=
  current.scorecardId.getD (runIdOf current.executionId)

def otherExecution (belongs expected : String) : AdoptAttemptOutcome :=
  .wrongParent ("this attempt belongs to execution " ++ belongs ++ ", not " ++ expected)

def adopted (current : ExecutionAttempt) (adoption : AttemptAdoption) (now : String) :
    ExecutionAttempt :=
  { current with
    state := .committed
    childRunId := adoption.childRunId <|> current.childRunId
    updatedAt := now }

/-- The one refusal that is success: the same settlement again. -/
def committedOutcome (childRunId : Option String) (adoption : AttemptAdoption) :
    AdoptAttemptOutcome :=
  if adoption.childRunId = none ∨ childRunId = none ∨ childRunId = adoption.childRunId then
    .alreadyAdopted
  else .incompatibleState .committed

def adoptAtSettlementUnsafe (current : Option ExecutionAttempt) (adoption : AttemptAdoption)
    (authority : Authority) (now : String) : Option ExecutionAttempt × Outcome :=
  match current with
  | none => (none, .adoption .absent)
  | some current =>
      if current.executionId ≠ adoption.expectedExecutionId then
        (none, .adoption (otherExecution current.executionId adoption.expectedExecutionId))
      else if current.state = .committed then
        (none, .adoption (committedOutcome current.childRunId adoption))
      else if isTerminalAttemptState current.state ∨
          current.state ∉ COMMIT_PREDECESSOR_STATES then
        (none, .adoption (.incompatibleState current.state))
      else if adoption.parent.kind ≠ rowParentKind current ∨
          adoption.parent.id ≠ rowParentId current then
        (none, .adoption (.wrongParent ("this attempt belongs to " ++
          (rowParentKind current).name ++ " " ++ rowParentId current ++
          ", and the settlement named " ++ adoption.parent.kind.name ++ " " ++
          adoption.parent.id)))
      else
        match authority with
        | .unwired => (some (adopted current adoption now), .adoption .adopted)
        | .closed =>
            (none, .adoption (.wrongParent ("the parent " ++ adoption.parent.kind.name ++ " " ++
              adoption.parent.id ++ " is no longer open")))
        | .owned epoch =>
            if epoch ≠ adoption.parent.adoptingEpoch then
              (none, .adoption (.wrongParent ("the parent is owned at epoch " ++ toString epoch ++
                ", and this settlement adopts at " ++ toString adoption.parent.adoptingEpoch)))
            else (some (adopted current adoption now), .adoption .adopted)
        | .fault error => (none, .thrown error)

def Op.run (op : Op) (attemptId : String) (current : Option ExecutionAttempt)
    (authority : Authority) (now : String) : Option ExecutionAttempt × Outcome :=
  match op with
  | .transition target patch => transitionUnsafe attemptId current target patch authority now
  | .reserveWork work => reserveWorkUnsafe attemptId current work authority now
  | .activateWork work => activateWorkUnsafe attemptId current work authority now
  | .revokeReservation => revokeReservationUnsafe current now
  | .markUnisolated => markUnisolatedUnsafe current now
  | .adoptAtSettlement adoption => adoptAtSettlementUnsafe current adoption authority now

/-! ## What an operation can do to a row -/

/-- A row before and after a write: its name and its recorded work stay, a terminal
state stays, and no row goes back to `created`. -/
structure Rewrites (before after : ExecutionAttempt) : Prop where
  attemptId : after.attemptId = before.attemptId
  executionId : after.executionId = before.executionId
  generation : after.generation = before.generation
  work : ∀ w, before.runtimeWork = some w → after.runtimeWork = some w
  terminal : isTerminalAttemptState before.state = true → after.state = before.state
  created : after.state = .created →
    before.state = .created ∧ after.runtimeWork = before.runtimeWork

theorem Rewrites.refl (r : ExecutionAttempt) : Rewrites r r :=
  ⟨rfl, rfl, rfl, fun _ => id, fun _ => rfl, fun h => ⟨h, rfl⟩⟩

theorem Rewrites.trans {a b c : ExecutionAttempt} (first : Rewrites a b) (second : Rewrites b c) :
    Rewrites a c where
  attemptId := second.attemptId.trans first.attemptId
  executionId := second.executionId.trans first.executionId
  generation := second.generation.trans first.generation
  work := fun w held => second.work w (first.work w held)
  terminal := fun ended => by
    have same := first.terminal ended
    exact (second.terminal (same ▸ ended)).trans same
  created := fun fresh => by
    obtain ⟨middle, kept⟩ := second.created fresh
    obtain ⟨before, kept'⟩ := first.created middle
    exact ⟨before, kept.trans kept'⟩

/-- A write of a live row to a state other than `created` that keeps name and work. -/
theorem Rewrites.of_live {before after : ExecutionAttempt}
    (live : isTerminalAttemptState before.state = false) (attemptId : after.attemptId = before.attemptId)
    (executionId : after.executionId = before.executionId)
    (generation : after.generation = before.generation)
    (work : ∀ w, before.runtimeWork = some w → after.runtimeWork = some w)
    (moved : after.state ≠ .created) : Rewrites before after :=
  ⟨attemptId, executionId, generation, work, fun ended => by simp [live] at ended,
    fun fresh => absurd fresh moved⟩

variable {attemptId now : String} {current : Option ExecutionAttempt} {authority : Authority}
  {written : ExecutionAttempt} {outcome : Outcome}

theorem transitionUnsafe_writes {target : AttemptState} {patch : TransitionPatch}
    (eq : transitionUnsafe attemptId current target patch authority now = (some written, outcome)) :
    ∃ r, current = some r ∧ Rewrites r written := by
  unfold transitionUnsafe at eq
  split at eq
  · cases eq
  · next r =>
      split_ifs at eq with ended _ _ _ fresh
      all_goals cases eq
      · exact ⟨r, rfl, .of_live (by simpa using ended) rfl rfl rfl (fun _ => id) fresh⟩

theorem reserveWorkUnsafe_writes {work : RuntimeWorkRef}
    (eq : reserveWorkUnsafe attemptId current work authority now = (some written, outcome)) :
    ∃ r, current = some r ∧ Rewrites r written := by
  unfold reserveWorkUnsafe at eq
  split at eq
  · cases eq
  · next r =>
      split at eq
      · split_ifs at eq
        · split at eq <;> cases eq
        · cases eq
      · next unreserved =>
          split_ifs at eq with ended
          · cases eq
          · split at eq
            · cases eq
            · cases eq
              simp only [ne_eq, not_not] at ended
              exact ⟨r, rfl, .of_live (by rw [ended]; rfl) rfl rfl rfl (by simp [unreserved])
                (by simp)⟩

theorem activateWorkUnsafe_writes {work : RuntimeWorkRef}
    (eq : activateWorkUnsafe attemptId current work authority now = (some written, outcome)) :
    ∃ r, current = some r ∧ Rewrites r written := by
  unfold activateWorkUnsafe at eq
  split at eq
  · cases eq
  · next r =>
      simp only [Prod.mk.injEq, Option.ite_none_right_eq_some, Option.some.injEq] at eq
      obtain ⟨⟨authorized, rfl⟩, -⟩ := eq
      have live := (decideActivation_authorizes (.inl authorized)).2.1
      exact ⟨r, rfl, .of_live live rfl rfl rfl (fun _ => id) (by simp)⟩

theorem revokeReservationUnsafe_writes
    (eq : revokeReservationUnsafe current now = (some written, outcome)) :
    ∃ r, current = some r ∧ Rewrites r written := by
  unfold revokeReservationUnsafe at eq
  split at eq
  · cases eq
  · next r =>
      split_ifs at eq with ended
      · cases eq
      · cases eq
        exact ⟨r, rfl, .of_live (by simpa using ended) rfl rfl rfl (fun _ => id) (by simp)⟩

theorem adoptAtSettlementUnsafe_writes {adoption : AttemptAdoption}
    (eq : adoptAtSettlementUnsafe current adoption authority now = (some written, outcome)) :
    ∃ r, current = some r ∧ Rewrites r written := by
  unfold adoptAtSettlementUnsafe at eq
  split at eq
  · cases eq
  · next r =>
      split_ifs at eq with _ _ ended
      · cases eq
      · cases eq
      · cases eq
      · cases eq
      · have live : isTerminalAttemptState r.state = false := by
          simp only [not_or] at ended
          simpa using ended.1
        have rewrites : Rewrites r (adopted r adoption now) :=
          .of_live live rfl rfl rfl (fun _ => id) (by simp [adopted])
        split at eq
        · cases eq
          exact ⟨r, rfl, rewrites⟩
        · cases eq
        · split_ifs at eq
          · cases eq
          · cases eq
            exact ⟨r, rfl, rewrites⟩
        · cases eq

/-- An operation writes only over the row it read, and only as `Rewrites` says. -/
theorem Op.run_writes {op : Op}
    (eq : op.run attemptId current authority now = (some written, outcome)) :
    ∃ r, current = some r ∧ Rewrites r written := by
  cases op with
  | transition => exact transitionUnsafe_writes eq
  | reserveWork => exact reserveWorkUnsafe_writes eq
  | activateWork => exact activateWorkUnsafe_writes eq
  | revokeReservation => exact revokeReservationUnsafe_writes eq
  | adoptAtSettlement => exact adoptAtSettlementUnsafe_writes eq
  | markUnisolated =>
      simp only [Op.run, markUnisolatedUnsafe, Prod.mk.injEq, Option.map_eq_some_iff] at eq
      obtain ⟨⟨r, rfl, rfl⟩, -⟩ := eq
      exact ⟨r, rfl, rfl, rfl, rfl, fun _ => id, fun _ => rfl, fun h => ⟨h, rfl⟩⟩

/-- The answers an operation has. -/
def Op.answers : Op → Outcome → Bool
  | .transition .., .moved _ => true
  | .reserveWork _, .intent _ => true
  | .reserveWork _, .thrown _ => true
  | .activateWork _, .activation _ => true
  | .revokeReservation, .revocation _ => true
  | .markUnisolated, .done => true
  | .adoptAtSettlement _, .adoption _ => true
  | .adoptAtSettlement _, .thrown _ => true
  | _, _ => false

theorem Op.run_answers (op : Op) (attemptId : String) (current : Option ExecutionAttempt)
    (authority : Authority) (now : String) :
    op.answers (op.run attemptId current authority now).2 = true := by
  cases op with
  | transition =>
      simp only [Op.run, transitionUnsafe]
      split
      · rfl
      · split_ifs <;> rfl
  | reserveWork =>
      simp only [Op.run, reserveWorkUnsafe]
      split
      · rfl
      · split
        · split_ifs
          · split <;> rfl
          · rfl
        · split_ifs
          · rfl
          · split <;> rfl
  | activateWork =>
      simp only [Op.run, activateWorkUnsafe]
      split <;> rfl
  | revokeReservation =>
      simp only [Op.run, revokeReservationUnsafe]
      split
      · rfl
      · split_ifs <;> rfl
  | markUnisolated => rfl
  | adoptAtSettlement =>
      simp only [Op.run, adoptAtSettlementUnsafe]
      split
      · rfl
      · split_ifs
        · rfl
        · rfl
        · rfl
        · rfl
        · split
          · rfl
          · rfl
          · split_ifs <;> rfl
          · rfl

/-- Only `activateWork` answers with a decision, and it authorizes only live rows. -/
theorem Op.run_authorizes {op : Op} {write : Option ExecutionAttempt} {decision : ActivationDecision}
    (eq : op.run attemptId current authority now = (write, .activation decision))
    (authorized : decision = .activate ∨ decision = .alreadyActive) :
    ∃ r, current = some r ∧ isTerminalAttemptState r.state = false := by
  have kind := op.run_answers attemptId current authority now
  rw [eq] at kind
  cases op with
  | activateWork work =>
      simp only [Op.run, activateWorkUnsafe] at eq
      split at eq
      · simp only [Prod.mk.injEq, Outcome.activation.injEq] at eq
        rcases authorized with rfl | rfl <;> simp [noAttemptRow] at eq
      · next r =>
          simp only [Prod.mk.injEq, Outcome.activation.injEq] at eq
          rw [← eq.2] at authorized
          exact ⟨r, rfl, (decideActivation_authorizes authorized).2.1⟩
  | _ => simp [Op.answers] at kind

/-- Only `revokeReservation` answers that it revoked, and it wrote `revoked`. -/
theorem Op.run_revoked {op : Op} {write : Option ExecutionAttempt} {before : AttemptState}
    (eq : op.run attemptId current authority now = (write, .revocation (.revoked before))) :
    ∃ r, write = some r ∧ r.state = .revoked := by
  have kind := op.run_answers attemptId current authority now
  rw [eq] at kind
  cases op with
  | revokeReservation =>
      simp only [Op.run, revokeReservationUnsafe] at eq
      split at eq
      · simp at eq
      · split_ifs at eq
        · simp at eq
        · simp only [Prod.mk.injEq] at eq
          exact ⟨_, eq.1.symm, rfl⟩
  | _ => simp [Op.answers] at kind

/-! ## Minting the next attempt -/

abbrev Ledger := Table String ExecutionAttempt

def generationsOf (attempts : Ledger) (executionId : String) : List Nat :=
  (attempts.values.filter fun a => a.executionId = executionId).map ExecutionAttempt.generation

def nextGeneration (attempts : Ledger) (executionId : String) : Nat :=
  (generationsOf attempts executionId).foldr max 0 + 1

def openedAttempt (input : OpenAttemptInput) (generation : Nat) (now : String) :
    ExecutionAttempt where
  attemptId := attemptIdOf input.executionId generation
  executionId := input.executionId
  generation := generation
  tenant := input.tenant
  scorecardId := input.scorecardId
  caseId := input.caseId
  trial := input.trial
  childRunId := input.childRunId
  driverEpoch := input.driverEpoch
  leaseEpoch := none
  state := .created
  unisolated := false
  error := none
  runtimeWork := none
  openedAt := now
  updatedAt := now

def openAttempt (attempts : Ledger) (input : OpenAttemptInput) (now : String) :
    Ledger × String × Nat :=
  let generation := nextGeneration attempts input.executionId
  let attemptId := attemptIdOf input.executionId generation
  (attempts.set attemptId (openedAttempt input generation now), attemptId, generation)

theorem lt_nextGeneration {attempts : Ledger} {executionId id : String} {r : ExecutionAttempt}
    (found : attempts.get id = some r) (name : r.executionId = executionId) :
    r.generation < nextGeneration attempts executionId := by
  have mem : r.generation ∈ generationsOf attempts executionId :=
    List.mem_map.mpr ⟨r, List.mem_filter.mpr ⟨Table.mem_values.mpr ⟨id, found⟩, by simp [name]⟩, rfl⟩
  have bound : ∀ (l : List Nat) (n : Nat), n ∈ l → n ≤ l.foldr max 0 := by
    intro l
    induction l with
    | nil => simp
    | cons m l ih =>
        intro n mem
        rcases List.mem_cons.mp mem with rfl | tail
        · exact le_max_left _ _
        · exact (ih n tail).trans (le_max_right _ _)
  have := bound _ _ mem
  unfold nextGeneration
  omega

end Everdict.Attempt
