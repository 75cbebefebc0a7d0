import Everdict.Attempt.InMemory
import Everdict.Attempt.Postgres

/-!
# The two ledgers, one operation at a time

Both ledgers as machines that serve one request at a time, over the same rows.
`serve_inMemory` and `serve_postgres` connect them to the concurrent machines: a
request is an operation started and finished, or a call and, after a miss, its
second statement, with nothing in between.

`ledgers_agree` holds of the requests that address attempts with a named parent.
`standalone_without_run` is the request at which they part.
-/

namespace Everdict.Attempt

open Transition Machine

inductive Request where
  | openAttempt (input : OpenAttemptInput) (now : String)
  | apply (attemptId : String) (op : Op) (parents : Parents) (now : String)

inductive Reply where
  | opened (attemptId : String) (generation : Nat)
  | collided
  | answered (outcome : Outcome)
  deriving DecidableEq

/-- The answer of `attemptParentAuthority` about the row an operation read. -/
def authorityOf (parents : Parents) (row : Option ExecutionAttempt) : Authority :=
  (row.map (attemptParentAuthority parents)).getD .unwired

def inMemory : Machine Ledger Request Reply
  | rows, .openAttempt input now =>
      let (rows, attemptId, generation) := openAttempt rows input now
      some (rows, .opened attemptId generation)
  | rows, .apply attemptId op parents now =>
      let row := rows.get attemptId
      let (written, outcome) := op.run attemptId row (authorityOf parents row) now
      some (put rows attemptId written, .answered outcome)

/-- The statements of an operation, one right after the other. -/
def Op.sql (op : Op) (attemptId : String) (row : Option ExecutionAttempt) (parents : Parents)
    (now : String) : Option ExecutionAttempt × Outcome :=
  let (written, answer) := op.first attemptId row parents now
  match answer with
  | some outcome => (written, outcome)
  | none => op.second attemptId row parents now

def postgres : Machine Ledger Request Reply
  | rows, .openAttempt input now =>
      match insertNext rows input now with
      | none => some (rows, .collided)
      | some (rows, attemptId, generation) => some (rows, .opened attemptId generation)
  | rows, .apply attemptId op parents now =>
      let (written, outcome) := op.sql attemptId (rows.get attemptId) parents now
      some (writeRow rows attemptId written, .answered outcome)

/-! ## The concurrent machines serve a request -/

theorem serve_inMemory (rows : Ledger) (attemptId : String) (op : Op) (parents : Parents)
    (now : String) :
    ∃ rows' outcome,
      inMemory rows (.apply attemptId op parents now) = some (rows', .answered outcome) ∧
      exec step Always ⟨rows, []⟩
          [.start attemptId op, .finish attemptId (authorityOf parents (rows.get attemptId)) now] =
        some ([.started, .finished op outcome], ⟨rows', []⟩) := by
  obtain ⟨⟨written, outcome⟩, run⟩ :
      ∃ p, op.run attemptId (rows.get attemptId) (authorityOf parents (rows.get attemptId)) now = p :=
    ⟨_, rfl⟩
  exact ⟨put rows attemptId written, outcome, by simp [inMemory, run],
    by simp [exec, step, Store.runningOn, Always, run]⟩

/-- The statement an operation goes on after has written nothing. -/
theorem Op.first_waits {op : Op} {attemptId now : String} {row written : Option ExecutionAttempt}
    {parents : Parents} (eq : op.first attemptId row parents now = (written, none)) :
    written = none := by
  cases op with
  | activateWork | adoptAtSettlement =>
      simp only [Op.first, Prod.mk.injEq] at eq
      obtain ⟨rfl, answered⟩ := eq
      split_ifs at answered with moved
      simpa using moved
  | reserveWork =>
      simp only [Op.first, Prod.mk.injEq] at eq
      exact eq.1.symm
  | _ => simp [Op.first] at eq

theorem serve_postgres (rows : Ledger) (activated : List String) (attemptId : String) (op : Op)
    (parents : Parents) (now : String) :
    ∃ rows' outcome events os activated',
      postgres rows (.apply attemptId op parents now) = some (rows', .answered outcome) ∧
      (events = [.call 0 attemptId op parents now] ∨
        events = [.call 0 attemptId op parents now, .resume 0 parents now]) ∧
      exec sqlStep Always ⟨rows, [], activated⟩ events = some (os, ⟨rows', [], activated'⟩) ∧
      os.getLast? = some (.answered attemptId op outcome) := by
  obtain ⟨⟨written, answer⟩, first⟩ :
      ∃ p, op.first attemptId (rows.get attemptId) parents now = p := ⟨_, rfl⟩
  cases answer with
  | some outcome =>
      refine ⟨writeRow rows attemptId written, outcome, [.call 0 attemptId op parents now],
        [.answered attemptId op outcome], noteActivated activated attemptId outcome, ?_, .inl rfl,
        ?_, rfl⟩
      · simp [postgres, Op.sql, first]
      · simp [exec, sqlStep, first, Always]
  | none =>
      obtain rfl := Op.first_waits first
      obtain ⟨⟨written, outcome⟩, second⟩ :
          ∃ p, op.second attemptId (rows.get attemptId) parents now = p := ⟨_, rfl⟩
      refine ⟨writeRow rows attemptId written, outcome,
        [.call 0 attemptId op parents now, .resume 0 parents now],
        [.waiting, .answered attemptId op outcome], noteActivated activated attemptId outcome, ?_,
        .inr rfl, ?_, rfl⟩
      · simp [postgres, Op.sql, first, second]
      · simp [exec, sqlStep, first, writeRow, second, Always]

/-! ## Where the answers agree -/

/-- Equal, but for the details and the message of a conflict and for the reason of a
parent that is not the right one. -/
def Outcome.Agrees : Outcome → Outcome → Prop
  | .thrown e, .thrown e' => e = e' ∨ e.code = "CONFLICT" ∧ e'.code = "CONFLICT"
  | .adoption (.wrongParent _), .adoption (.wrongParent _) => True
  | outcome, outcome' => outcome = outcome'

theorem Outcome.Agrees.refl (outcome : Outcome) : outcome.Agrees outcome := by
  unfold Outcome.Agrees
  split <;> simp_all

theorem Outcome.Agrees.of_eq {outcome outcome' : Outcome} (same : outcome = outcome') :
    outcome.Agrees outcome' := same ▸ .refl outcome

def Reply.Agrees : Reply → Reply → Prop
  | .answered outcome, .answered outcome' => outcome.Agrees outcome'
  | reply, reply' => reply = reply'

/-- One operation of both ledgers on one row: the same write, and answers that agree. -/
def Twins (op : Op) (attemptId : String) (row : Option ExecutionAttempt) (parents : Parents)
    (now : String) : Prop :=
  (op.sql attemptId row parents now).1 = (op.run attemptId row (authorityOf parents row) now).1 ∧
    (op.run attemptId row (authorityOf parents row) now).2.Agrees
      (op.sql attemptId row parents now).2

section Operations

variable {attemptId now : String} {parents : Parents} {r : ExecutionAttempt}

theorem Twins.of_eq {op : Op} {row : Option ExecutionAttempt}
    (same : op.sql attemptId row parents now = op.run attemptId row (authorityOf parents row) now) :
    Twins op attemptId row parents now :=
  ⟨by rw [same], by rw [same]; exact .refl _⟩

theorem updateWhere_some (guard : ExecutionAttempt → Bool)
    (set : ExecutionAttempt → ExecutionAttempt) :
    updateWhere (some r) guard set = if guard r then some (set r) else none := by
  cases held : guard r <;> simp [updateWhere, Option.filter, held]

theorem twins_absent (op : Op) : Twins op attemptId none parents now := by
  cases op <;> exact .of_eq rfl

/-- The guard of the `UPDATE` is the chain of refusals. -/
theorem transitionUnsafe_eq (named : ParentNamed parents r = true) (target : AttemptState)
    (patch : TransitionPatch) :
    transitionUnsafe attemptId (some r) target patch (attemptParentAuthority parents r) now =
      if transitionGuard parents target r then (some (applyPatch r target patch now), .moved true)
      else (none, .moved false) := by
  have authorized := authorizes_iff named attemptId
  unfold transitionUnsafe transitionGuard
  rw [← authorized]
  dsimp only
  split_ifs <;> simp_all [isTerminalAttemptState]

theorem transition_twins (named : ParentNamed parents r = true) (target : AttemptState)
    (patch : TransitionPatch) : Twins (.transition target patch) attemptId (some r) parents now := by
  refine .of_eq ?_
  by_cases guard : transitionGuard parents target r = true
  · simp [Op.sql, Op.first, Op.run, authorityOf, transitionUnsafe_eq named, updateWhere_some, guard]
  · simp [Op.sql, Op.first, Op.run, authorityOf, transitionUnsafe_eq named, updateWhere_some, guard]

theorem refused_conflict {error : StoreError}
    (refused : assertParentStillAuthorizes attemptId r (attemptParentAuthority parents r) =
      some error) : error.code = "CONFLICT" := by
  rcases attemptParentAuthority_cases parents r with closed | ⟨epoch, owned⟩
  · rw [closed] at refused
    cases refused
    rfl
  · simp only [owned, assertParentStillAuthorizes] at refused
    split at refused
    · cases refused
    · split_ifs at refused
      · cases refused
        rfl

theorem reserveWork_twins (named : ParentNamed parents r = true) (work : RuntimeWorkRef) :
    Twins (.reserveWork work) attemptId (some r) parents now := by
  have authorized := authorizes_iff named attemptId
  cases held : r.runtimeWork with
  | some reserved =>
      by_cases same : reserved.externalJobId = work.externalJobId
      · cases asked : assertParentStillAuthorizes attemptId r (attemptParentAuthority parents r) with
        | none =>
            have yes : parentAuthorizes parents r = true := by simpa [asked] using authorized.symm
            refine .of_eq ?_
            simp [Op.sql, Op.first, Op.run, reserveSelect, reserveWorkUnsafe, authorityOf, held,
              same, asked, yes]
        | some error =>
            have no : parentAuthorizes parents r = false := by simpa [asked] using authorized.symm
            refine ⟨?_, ?_⟩
            · simp [Op.sql, Op.first, Op.run, reserveSelect, reserveWorkUnsafe, authorityOf, held,
                same, asked]
            · simp [Op.sql, Op.first, Op.run, reserveSelect, reserveWorkUnsafe, authorityOf, held,
                same, asked, no, Outcome.Agrees, refused_conflict asked, reofferRefused, conflict]
      · refine .of_eq ?_
        simp [Op.sql, Op.first, Op.run, reserveSelect, reserveWorkUnsafe, held, same]
  | none =>
      by_cases fresh : r.state = .created
      · cases asked : assertParentStillAuthorizes attemptId r (attemptParentAuthority parents r) with
        | none =>
            have yes : parentAuthorizes parents r = true := by simpa [asked] using authorized.symm
            refine .of_eq ?_
            simp [Op.sql, Op.first, Op.second, Op.run, reserveSelect, reserveWorkUnsafe, authorityOf,
              held, asked, updateWhere_some, reserveGuard, fresh, yes]
        | some error =>
            have no : parentAuthorizes parents r = false := by simpa [asked] using authorized.symm
            refine ⟨?_, ?_⟩
            · simp [Op.sql, Op.first, Op.second, Op.run, reserveSelect, reserveWorkUnsafe,
                authorityOf, held, asked, updateWhere_some, reserveGuard, fresh, no]
            · simp [Op.sql, Op.first, Op.second, Op.run, reserveSelect, reserveWorkUnsafe,
                authorityOf, held, asked, updateWhere_some, reserveGuard, fresh, no, Outcome.Agrees,
                refused_conflict asked, reservationRefused, conflict]
      · refine ⟨?_, ?_⟩
        · simp [Op.sql, Op.first, Op.second, Op.run, reserveSelect, reserveWorkUnsafe, held,
            updateWhere_some, reserveGuard, fresh]
        · simp [Op.sql, Op.first, Op.second, Op.run, reserveSelect, reserveWorkUnsafe, held,
            updateWhere_some, reserveGuard, fresh, Outcome.Agrees, reservationRefused, conflict]

theorem activateWork_twins (named : ParentNamed parents r = true)
    (unreserved : r.state = .created → r.runtimeWork = none) (work : RuntimeWorkRef) :
    Twins (.activateWork work) attemptId (some r) parents now := by
  have authorized := authorizes_iff named attemptId
  have guard_iff : activateGuard parents work r = true ↔
      decideActivation (activationRequest r work (parentAuthorizes parents r)) = .activate := by
    rw [decideActivation_eq_activate_iff]
    constructor
    · intro guard
      obtain ⟨reserved, recorded, parentOpen⟩ := of_activateGuard guard
      exact ⟨parentOpen, recorded, .inr reserved⟩
    · rintro ⟨parentOpen, recorded, fresh | reserved⟩
      · simp [activationRequest, unreserved fresh] at recorded
      · simp only [activateGuard, decide_eq_true_eq]
        exact ⟨reserved, recorded, parentOpen⟩
  refine .of_eq ?_
  by_cases guard : activateGuard parents work r = true
  · have decided := guard_iff.mp guard
    simp [Op.sql, Op.first, Op.run, activateWorkUnsafe, authorityOf, authorized, updateWhere_some,
      guard, decided]
  · have decided := mt guard_iff.mpr guard
    simp [Op.sql, Op.first, Op.second, Op.run, activateSelect, activateWorkUnsafe, authorityOf,
      authorized, updateWhere_some, guard, decided]

theorem revokeReservation_twins : Twins .revokeReservation attemptId (some r) parents now := by
  refine .of_eq ?_
  by_cases ended : r.state ∈ TERMINAL_ATTEMPT_STATES
  · simp [Op.sql, Op.first, Op.run, revokeReservationUnsafe, updateWhere_some,
      isTerminalAttemptState, ended]
  · simp [Op.sql, Op.first, Op.run, revokeReservationUnsafe, updateWhere_some,
      isTerminalAttemptState, ended]

theorem namesParent_iff (named : ParentNamed parents r = true) (adoption : AttemptAdoption) :
    namesParent r adoption = true ↔
      adoption.parent.kind = rowParentKind r ∧ adoption.parent.id = rowParentId r := by
  unfold namesParent rowParentKind rowParentId
  cases batch : r.scorecardId with
  | some scorecardId =>
      simp only [Option.isSome_some, if_true, Option.getD_some, decide_eq_true_eq]
      rw [eq_comm (a := scorecardId)]
  | none =>
      have name : runIdOf r.executionId ≠ "" := by
        simp only [ParentNamed, batch, decide_eq_true_eq] at named
        exact (named.resolve_left (by simp)).1
      simp only [runIdOf_eq_iff name, Option.isSome_none, Bool.false_eq_true, if_false,
        Option.getD_none, decide_eq_true_eq]
      rw [eq_comm (b := adoption.parent.id)]

theorem adopt_sql (adoption : AttemptAdoption) :
    (Op.adoptAtSettlement adoption).sql attemptId (some r) parents now =
      if adoptGuard parents adoption r then (some (adopted r adoption now), .adoption .adopted)
      else (none, .adoption (adoptSelect adoption (some r))) := by
  by_cases guard : adoptGuard parents adoption r = true
  · simp [Op.sql, Op.first, updateWhere_some, guard]
  · simp [Op.sql, Op.first, Op.second, updateWhere_some, guard]

/-- The parent clause of the `UPDATE` is the last two checks of the chain. -/
theorem adoptGuard_iff (named : ParentNamed parents r = true) (adoption : AttemptAdoption)
    (belongs : r.executionId = adoption.expectedExecutionId)
    (isOpen : r.state ∈ COMMIT_PREDECESSOR_STATES) :
    adoptGuard parents adoption r = true ↔
      (adoption.parent.kind = rowParentKind r ∧ adoption.parent.id = rowParentId r) ∧
        attemptParentAuthority parents r = .owned adoption.parent.adoptingEpoch := by
  rw [← namesParent_iff named]
  simp [adoptGuard, belongs, isOpen, parentAdopts, parentExists_iff named]

theorem adoptAtSettlement_twins (named : ParentNamed parents r = true)
    (adoption : AttemptAdoption) :
    Twins (.adoptAtSettlement adoption) attemptId (some r) parents now := by
  by_cases belongs : r.executionId = adoption.expectedExecutionId
  · by_cases isOpen : r.state ∈ COMMIT_PREDECESSOR_STATES
    · have live : isTerminalAttemptState r.state = false := (mem_commit_iff r.state).mp isOpen
      have uncommitted : r.state ≠ .committed := fun same => by
        rw [same] at live
        exact absurd live (by decide)
      have guard_iff := adoptGuard_iff named adoption belongs isOpen
      have selected : adoptSelect adoption (some r) = .wrongParent ("the parent " ++
          adoption.parent.kind.name ++ " " ++ adoption.parent.id ++ " is not open at epoch " ++
          toString adoption.parent.adoptingEpoch) := by
        simp [adoptSelect, belongs, uncommitted, isOpen]
      -- a refusal by the parent clause is `wrongParent` on both sides
      have refused (no : ¬ adoptGuard parents adoption r = true)
          (run : ∃ reason, (Op.adoptAtSettlement adoption).run attemptId (some r)
            (authorityOf parents (some r)) now = (none, .adoption (.wrongParent reason))) :
          Twins (.adoptAtSettlement adoption) attemptId (some r) parents now := by
        obtain ⟨reason, run⟩ := run
        unfold Twins
        rw [adopt_sql, if_neg no, run, selected]
        exact ⟨rfl, trivial⟩
      by_cases names : adoption.parent.kind = rowParentKind r ∧ adoption.parent.id = rowParentId r
      · rcases attemptParentAuthority_cases parents r with closed | ⟨epoch, owned⟩
        · refine refused (by simp [guard_iff, closed]) ?_
          simp [Op.run, adoptAtSettlementUnsafe, authorityOf, belongs, uncommitted, live, isOpen,
            names, closed]
        · by_cases same : epoch = adoption.parent.adoptingEpoch
          · refine .of_eq ?_
            rw [adopt_sql, if_pos (guard_iff.mpr ⟨names, same ▸ owned⟩)]
            simp [Op.run, adoptAtSettlementUnsafe, authorityOf, belongs, uncommitted, live, isOpen,
              names, owned, same]
          · refine refused (by simp [guard_iff, owned, same]) ?_
            simp [Op.run, adoptAtSettlementUnsafe, authorityOf, belongs, uncommitted, live, isOpen,
              names, owned, same]
      · refine refused (by simp [guard_iff, names]) ?_
        have other : adoption.parent.kind ≠ rowParentKind r ∨
            adoption.parent.id ≠ rowParentId r := by
          by_contra both
          exact names (by simpa [not_or] using both)
        simp [Op.run, adoptAtSettlementUnsafe, belongs, uncommitted, live, isOpen, other]
    · have ended : isTerminalAttemptState r.state = true := by
        simpa using mt (mem_commit_iff r.state).mpr isOpen
      refine .of_eq ?_
      have refused : adoptGuard parents adoption r = false := by simp [adoptGuard, isOpen]
      rw [adopt_sql, refused]
      by_cases committed : r.state = .committed
      · simp [Op.run, adoptSelect, adoptAtSettlementUnsafe, belongs, committed]
      · simp [Op.run, adoptSelect, adoptAtSettlementUnsafe, belongs, isOpen, ended, committed]
  · refine .of_eq ?_
    have refused : adoptGuard parents adoption r = false := by simp [adoptGuard, belongs]
    rw [adopt_sql, refused]
    simp [Op.run, adoptSelect, adoptAtSettlementUnsafe, belongs]

theorem Op.twins (op : Op) (row : Option ExecutionAttempt)
    (named : ∀ r, row = some r → ParentNamed parents r = true)
    (unreserved : ∀ r, row = some r → r.state = .created → r.runtimeWork = none) :
    Twins op attemptId row parents now := by
  cases row with
  | none => exact twins_absent op
  | some r =>
      have named := named r rfl
      cases op with
      | transition target patch => exact transition_twins named target patch
      | reserveWork work => exact reserveWork_twins named work
      | activateWork work => exact activateWork_twins named (unreserved r rfl) work
      | revokeReservation => exact revokeReservation_twins
      | markUnisolated => exact .of_eq rfl
      | adoptAtSettlement adoption => exact adoptAtSettlement_twins named adoption

end Operations

/-! ## Whole sequences -/

/-- Rows go by their coordinate, and a new row has reserved nothing. -/
structure Coherent (rows : Ledger) : Prop where
  named : ∀ id r, rows.get id = some r → id = attemptIdOf r.executionId r.generation
  fresh : ∀ id r, rows.get id = some r → r.state = .created → r.runtimeWork = none

theorem Coherent.empty : Coherent .empty := ⟨by simp, by simp⟩

/-- The step condition: the addressed attempt belongs to a batch, or names a run that
has a row. -/
def AddressesNamed (rows : Ledger) : Request → Bool
  | .openAttempt .. => true
  | .apply attemptId _ parents _ => (rows.get attemptId).all (ParentNamed parents)

variable {rows rows' : Ledger} {req : Request} {reply : Reply} {log : List (Request × Reply)}

theorem Coherent.step (coherent : Coherent rows) (eq : inMemory rows req = some (rows', reply)) :
    Coherent rows' := by
  cases req with
  | openAttempt input now =>
      cases eq
      refine ⟨fun id r found => ?_, fun id r found created => ?_⟩
      · simp only [Table.get_set] at found
        split_ifs at found with hit
        · obtain rfl := Option.some.inj found
          exact hit
        · exact coherent.named id r found
      · simp only [Table.get_set] at found
        split_ifs at found with hit
        · obtain rfl := Option.some.inj found
          rfl
        · exact coherent.fresh id r found created
  | apply attemptId op parents now =>
      obtain ⟨⟨written, outcome⟩, run⟩ : ∃ p, op.run attemptId (rows.get attemptId)
          (authorityOf parents (rows.get attemptId)) now = p := ⟨_, rfl⟩
      simp only [inMemory, run, Option.some.injEq, Prod.mk.injEq] at eq
      obtain ⟨rfl, -⟩ := eq
      cases written with
      | none => exact coherent
      | some w =>
          obtain ⟨before, found, rewrites⟩ := Op.run_writes run
          refine ⟨fun id r found' => ?_, fun id r found' created => ?_⟩
          · simp only [put, Table.get_set] at found'
            split_ifs at found' with hit
            · obtain rfl := Option.some.inj found'
              rw [hit, rewrites.executionId, rewrites.generation]
              exact coherent.named attemptId before found
            · exact coherent.named id r found'
          · simp only [put, Table.get_set] at found'
            split_ifs at found' with hit
            · obtain rfl := Option.some.inj found'
              obtain ⟨was, kept⟩ := rewrites.created created
              exact kept.trans (coherent.fresh attemptId before found was)
            · exact coherent.fresh id r found' created

theorem foldl_max_eq (g : Nat) (gs : List Nat) : gs.foldl max g = max g (gs.foldr max 0) := by
  induction gs generalizing g with
  | nil => simp
  | cons g' gs ih => rw [List.foldl_cons, ih, List.foldr_cons, max_assoc]

/-- The `INSERT` computes the generation the in-process `open` computes. -/
theorem insertGeneration_eq (rows : Ledger) (executionId : String) :
    insertGeneration rows executionId = nextGeneration rows executionId := by
  unfold insertGeneration nextGeneration
  congr 1
  cases generationsOf rows executionId with
  | nil => rfl
  | cons g gs =>
      rw [List.max?_cons', Option.getD_some, foldl_max_eq, List.foldr_cons]

theorem insertNext_eq_openAttempt (coherent : Coherent rows) (input : OpenAttemptInput)
    (now : String) : insertNext rows input now = some (openAttempt rows input now) := by
  have absent := next_fresh input.executionId coherent.named
  simp only [insertNext, insertGeneration_eq, absent]
  rfl

theorem put_eq_writeRow (rows : Ledger) (attemptId : String) (written : Option ExecutionAttempt) :
    put rows attemptId written = writeRow rows attemptId written := by
  cases written <;> rfl

/-- One request leaves the same rows on both sides and gets answers that agree. -/
theorem serve_agrees (coherent : Coherent rows) (named : AddressesNamed rows req = true)
    (eq : inMemory rows req = some (rows', reply)) :
    ∃ reply', postgres rows req = some (rows', reply') ∧ reply.Agrees reply' := by
  cases req with
  | openAttempt input now =>
      refine ⟨reply, ?_, by cases eq; rfl⟩
      rw [← eq]
      simp only [postgres, insertNext_eq_openAttempt coherent, inMemory]
  | apply attemptId op parents now =>
      have twins : Twins op attemptId (rows.get attemptId) parents now :=
        op.twins _ (by simpa [AddressesNamed, Option.all_eq_true] using named)
          (coherent.fresh attemptId)
      simp only [inMemory, Option.some.injEq, Prod.mk.injEq] at eq
      obtain ⟨rfl, rfl⟩ := eq
      refine ⟨.answered (op.sql attemptId (rows.get attemptId) parents now).2, ?_, twins.2⟩
      simp only [postgres, twins.1, put_eq_writeRow]

/-- For every sequence of operations that address attempts with a named parent, the
two ledgers end in the same rows and answer alike at every step, up to the wording of a
refusal. -/
theorem ledgers_agree
    (run : Runs inMemory (fun rows req => AddressesNamed rows req = true) .empty log rows) :
    ∃ log', Runs postgres Always .empty log' rows ∧
      List.Forall₂ (fun x y => x.1 = y.1 ∧ x.2.Agrees y.2) log log' := by
  have followed : ∃ log' rows', Runs postgres Always .empty log' rows' ∧
      (rows = rows' ∧ Coherent rows) ∧
      List.Forall₂ (fun x y => x.1 = y.1 ∧ x.2.Agrees y.2) log log' := by
    refine run.simulate (R := fun rows rows' => rows = rows' ∧ Coherent rows) ⟨rfl, .empty⟩ ?_
    rintro rows _ req rows' reply ⟨rfl, coherent⟩ named eq
    obtain ⟨reply', eq', agrees⟩ := serve_agrees coherent named eq
    exact ⟨rows', reply', trivial, eq', ⟨rfl, coherent.step eq⟩, agrees⟩
  obtain ⟨log', _, run', ⟨rfl, -⟩, answers⟩ := followed
  exact ⟨log', run', answers⟩

/-- The run `1`, open. -/
def runOne : Parents := ⟨Table.empty.set "1" ⟨.running, some 2⟩, .empty⟩

def offeredJob : RuntimeWorkRef := { tenant := "t", runId := "evd-run-1", externalJobId := "a" }

def opened : Request := .openAttempt { executionId := "evd-run-1", tenant := "t" } "t0"

def offered (parents : Parents) : Request :=
  .apply "evd-run-1#g1" (.reserveWork offeredJob) parents "t1"

/-- An attempt reserved, revoked and activated. -/
def revokedAndActivated : List Request :=
  [opened, offered runOne, .apply "evd-run-1#g1" .revokeReservation runOne "t2",
    .apply "evd-run-1#g1" (.activateWork offeredJob) runOne "t3"]

theorem ledgers_agree_revokedAndActivated : ∃ os rows,
    exec inMemory (fun rows req => AddressesNamed rows req = true) .empty
      revokedAndActivated = some (os, rows) ∧
    os.map (fun reply => decide (reply = .answered (.revocation (.revoked .reserved)))) =
      [false, false, true, false] ∧
    ∃ log', Runs postgres Always .empty log' rows ∧
      List.Forall₂ (fun x y => x.1 = y.1 ∧ x.2.Agrees y.2)
        (revokedAndActivated.zip os) log' := by
  refine ⟨_, _, rfl, rfl, ?_⟩
  exact ledgers_agree (runs_of_exec inMemory (fun rows req => AddressesNamed rows req = true) .empty
    revokedAndActivated rfl)

/-- What a ledger answers last and the state it leaves the attempt in. -/
def lastOf (m : Machine Ledger Request Reply) (requests : List Request) :
    Option (Option Reply × Option AttemptState) :=
  (exec m Always .empty requests).map fun (os, rows) =>
    (os.getLast?, (rows.get "evd-run-1#g1").map ExecutionAttempt.state)

/-- A standalone attempt whose run has no row: the in-process ledger reserves the
work and the SQL ledger refuses.  With the row there, a reservation of an attempt that
is over is refused by both, in different words. -/
theorem standalone_without_run :
    lastOf inMemory [opened, offered ⟨.empty, .empty⟩] =
      some (some (.answered (.intent ⟨"evd-run-1#g1", offeredJob, "t1"⟩)), some .reserved) ∧
    lastOf postgres [opened, offered ⟨.empty, .empty⟩] =
      some (some (.answered (.thrown (reservationRefused "evd-run-1#g1"))), some .created) ∧
    lastOf inMemory [opened, .apply "evd-run-1#g1" .revokeReservation runOne "t1", offered runOne] ≠
      lastOf postgres [opened, .apply "evd-run-1#g1" .revokeReservation runOne "t1",
        offered runOne] := by
  decide

end Everdict.Attempt
