import Everdict.Attempt.Postgres

/-!
# Which statement an activation is answered by

`activateWork` moves its row by one guarded `UPDATE`.  When that misses, it reads
the row back and asks `decideActivation`, which answers `activate` for a row that
has become `reserved` in between: a row this call never wrote, and that the next
`activateWork` moves and answers `activate` for once more.

`activation_answered_by_its_row` holds of the runs whose steps are `Undisturbed`;
`reread_activates` is a run with a step that is not.
-/

namespace Everdict.Attempt

open Transition Machine

/-- The re-read of a missed activation finds no row its `UPDATE` would move by now,
and no live attempt that was activated is taken back to `reserved`. -/
def Undisturbed (d : Database) : SqlEvent → Bool
  | .resume number parents _ =>
      match d.calls.find? fun c => c.number = number with
      | some ⟨_, attemptId, .activateWork work⟩ =>
          !(d.rows.get attemptId).any (activateGuard parents work)
      | _ => true
  | .call _ attemptId (.transition .reserved _) _ _ =>
      attemptId ∉ d.activated ∨
        (d.rows.get attemptId).all fun r => isTerminalAttemptState r.state
  | _ => true

/-- The attempt an `activateWork` answered `activate` for. -/
def activatedBy : SqlEvent × SqlAnswer → Option String
  | (_, .answered attemptId _ (.activation .activate)) => some attemptId
  | _ => none

variable {d d' : Database} {ev : SqlEvent} {o : SqlAnswer} {log : List (SqlEvent × SqlAnswer)}

/-- A new row has reserved nothing, and an activated attempt is past its reservation. -/
structure Activated (d : Database) : Prop where
  fresh : ∀ id r, d.rows.get id = some r → r.state = .created → r.runtimeWork = none
  past : ∀ id ∈ d.activated, ∃ r, d.rows.get id = some r ∧ r.state ≠ .created ∧ r.state ≠ .reserved

theorem Activated.empty : Activated Database.empty :=
  ⟨by simp [Database.empty], by simp [Database.empty]⟩

/-! ## One step -/

theorem get_writeRow (rows : Ledger) (attemptId id : String) (written : Option ExecutionAttempt) :
    (writeRow rows attemptId written).get id =
      if id = attemptId then written <|> rows.get id else rows.get id := by
  cases written with
  | none => simp [writeRow]
  | some w => simp [writeRow, Table.get_set]

/-- What a statement of an attempt does to the rows. -/
structure Statement (d d' : Database) (op : Op) (attemptId : String)
    (written : Option ExecutionAttempt) : Prop where
  rows : d'.rows = writeRow d.rows attemptId written
  writes : ∀ w, written = some w → Writes op (d.rows.get attemptId) w

theorem insertNext_eq {rows rows' : Ledger} {input : OpenAttemptInput} {now id : String} {g : Nat}
    (eq : insertNext rows input now = some (rows', id, g)) :
    rows.get id = none ∧ ∃ r, rows' = rows.set id r ∧ r.state = .created ∧ r.runtimeWork = none := by
  simp only [insertNext] at eq
  split at eq
  · cases eq
  · next absent =>
      cases eq
      exact ⟨absent, _, rfl, rfl, rfl⟩

/-- A step is an insert of a new row, or a statement of one attempt. -/
theorem sqlStep_cases (eq : sqlStep d ev = some (d', o)) :
    (activatedBy (ev, o) = none ∧ d'.activated = d.activated ∧
      (d'.rows = d.rows ∨ ∃ id r, d.rows.get id = none ∧ d'.rows = d.rows.set id r ∧
        r.state = .created ∧ r.runtimeWork = none)) ∨
    (∃ number id op parents now written answer,
      ev = .call number id op parents now ∧
      op.first id (d.rows.get id) parents now = (written, answer) ∧
      Statement d d' op id written ∧
      ((answer = none ∧ d'.activated = d.activated ∧ o = .waiting) ∨
        ∃ outcome, answer = some outcome ∧ d'.activated = noteActivated d.activated id outcome ∧
          o = .answered id op outcome)) ∨
    (∃ number c parents now written outcome,
      ev = .resume number parents now ∧ d.calls.find? (fun c => c.number = number) = some c ∧
      c.op.second c.attemptId (d.rows.get c.attemptId) parents now = (written, outcome) ∧
      Statement d d' c.op c.attemptId written ∧
      d'.activated = noteActivated d.activated c.attemptId outcome ∧
      o = .answered c.attemptId c.op outcome) := by
  cases ev with
  | openAttempt input now =>
      left
      simp only [sqlStep] at eq
      split at eq
      · cases eq
        exact ⟨rfl, rfl, .inl rfl⟩
      · next inserted =>
          cases eq
          obtain ⟨absent, r, rows, fresh⟩ := insertNext_eq inserted
          exact ⟨rfl, rfl, .inr ⟨_, r, absent, rows, fresh⟩⟩
  | call number id op parents now =>
      right; left
      simp only [sqlStep] at eq
      split at eq
      · cases eq
      · obtain ⟨⟨written, answer⟩, first⟩ : ∃ p, op.first id (d.rows.get id) parents now = p :=
          ⟨_, rfl⟩
        rw [first] at eq
        have writes : ∀ w, written = some w → Writes op (d.rows.get id) w := fun w same =>
          Op.first_writes (by rw [first, same])
        refine ⟨number, id, op, parents, now, written, answer, rfl, first, ?_⟩
        cases answer with
        | none =>
            cases eq
            exact ⟨⟨rfl, writes⟩, .inl ⟨rfl, rfl, rfl⟩⟩
        | some outcome =>
            cases eq
            exact ⟨⟨rfl, writes⟩, .inr ⟨outcome, rfl, rfl, rfl⟩⟩
  | resume number parents now =>
      right; right
      simp only [sqlStep] at eq
      split at eq
      · cases eq
      · next c found =>
          obtain ⟨⟨written, outcome⟩, second⟩ :
              ∃ p, c.op.second c.attemptId (d.rows.get c.attemptId) parents now = p := ⟨_, rfl⟩
          rw [second] at eq
          cases eq
          exact ⟨number, c, parents, now, written, outcome, rfl, found, second,
            ⟨rfl, fun w same => Op.second_writes (by rw [second, same])⟩, rfl, rfl⟩

/-- The first statement that answers `activate` is the `UPDATE` that moved the row. -/
theorem first_activates {op : Op} {id now : String} {row written : Option ExecutionAttempt}
    {parents : Parents}
    (eq : op.first id row parents now = (written, some (.activation .activate))) :
    ∃ work r r', op = .activateWork work ∧ row = some r ∧ r.state = .reserved ∧
      written = some r' ∧ r'.state = .active := by
  cases op with
  | activateWork work =>
      simp only [Op.first, Prod.mk.injEq] at eq
      obtain ⟨rfl, answered⟩ := eq
      split_ifs at answered with moved
      · obtain ⟨r', write⟩ := Option.isSome_iff_exists.mp moved
        obtain ⟨r, rfl, guard, rfl⟩ := updateWhere_eq_some.mp write
        exact ⟨work, r, _, rfl, rfl, (of_activateGuard guard).1, write, rfl⟩
  | reserveWork work =>
      exfalso
      simp only [Op.first, Prod.mk.injEq] at eq
      revert eq
      cases row with
      | none => simp [reserveSelect]
      | some r =>
          cases work' : r.runtimeWork with
          | none => simp [reserveSelect, work']
          | some held =>
              simp only [reserveSelect, work', Option.map_some, Option.some.injEq]
              split_ifs <;> simp
  | adoptAtSettlement =>
      simp only [Op.first, Prod.mk.injEq] at eq
      obtain ⟨-, answered⟩ := eq
      split_ifs at answered
      cases answered
  | _ => simp [Op.first] at eq

/-- The re-read answers `activate` for a row that its `UPDATE` would move, or for one
that reserved work while it was new. -/
theorem second_activates {op : Op} {id now : String} {row written : Option ExecutionAttempt}
    {parents : Parents}
    (eq : op.second id row parents now = (written, .activation .activate)) :
    ∃ work r, op = .activateWork work ∧ row = some r ∧
      (activateGuard parents work r = true ∨ r.state = .created ∧ r.runtimeWork ≠ none) := by
  cases op with
  | activateWork work =>
      simp only [Op.second, Prod.mk.injEq, Outcome.activation.injEq] at eq
      obtain ⟨-, decided⟩ := eq
      cases row with
      | none => simp [activateSelect, noAttemptRow] at decided
      | some r =>
          obtain ⟨parentOpen, recorded, state⟩ := (decideActivation_eq_activate_iff _).mp decided
          refine ⟨work, r, rfl, rfl, ?_⟩
          rcases state with fresh | reserved
          · refine .inr ⟨fresh, fun none => ?_⟩
            simp [activationRequest, none] at recorded
          · have guard : activateGuard parents work r = true := by
              simp only [activateGuard, decide_eq_true_eq]
              exact ⟨reserved, recorded, parentOpen⟩
            exact .inl guard
  | reserveWork work =>
      simp only [Op.second, Prod.mk.injEq] at eq
      obtain ⟨-, answered⟩ := eq
      split at answered <;> cases answered
  | _ => simp [Op.second] at eq

/-- What a statement leaves of an attempt that is past its reservation. -/
theorem Statement.past {op : Op} {id id' : String} {written : Option ExecutionAttempt}
    {r : ExecutionAttempt} (statement : Statement d d' op id written)
    (keeps : id' = id → written ≠ none → isTerminalAttemptState r.state = false →
      ∀ patch, op ≠ .transition .reserved patch)
    (found : d.rows.get id' = some r) (past : r.state ≠ .created ∧ r.state ≠ .reserved) :
    ∃ r', d'.rows.get id' = some r' ∧ r'.state ≠ .created ∧ r'.state ≠ .reserved := by
  rw [statement.rows, get_writeRow]
  by_cases hit : id' = id
  · subst hit
    cases written with
    | none => exact ⟨r, by simpa using found, past⟩
    | some w =>
        obtain ⟨⟨read, seen, rewrites⟩, reserved⟩ := statement.writes w rfl
        obtain rfl : r = read := Option.some.inj (found.symm.trans seen)
        refine ⟨w, by simp, fun fresh => past.1 (rewrites.created fresh).1, fun again => ?_⟩
        rcases reserved r found again with was | was | ⟨live, patch, same⟩
        · exact past.2 was
        · exact past.1 was
        · exact keeps rfl (by simp) live patch same
  · exact ⟨r, by simpa [hit] using found, past⟩

theorem Statement.fresh {op : Op} {id : String} {written : Option ExecutionAttempt}
    (statement : Statement d d' op id written)
    (fresh : ∀ id r, d.rows.get id = some r → r.state = .created → r.runtimeWork = none) :
    ∀ id r, d'.rows.get id = some r → r.state = .created → r.runtimeWork = none := by
  intro id' r' found' created
  rw [statement.rows, get_writeRow] at found'
  by_cases hit : id' = id
  · subst hit
    cases written with
    | none => exact fresh id' r' (by simpa using found') created
    | some w =>
        obtain rfl : w = r' := by simpa using found'
        obtain ⟨⟨r, seen, rewrites⟩, -⟩ := statement.writes w rfl
        obtain ⟨before, kept⟩ := rewrites.created created
        exact kept.trans (fresh id' r seen before)
  · exact fresh id' r' (by simpa [hit] using found') created

/-- Under the step condition, an `activate` is the answer of the `UPDATE` that moved the row. -/
theorem activate_moves (inv : Activated d) (cond : Undisturbed d ev = true)
    (eq : sqlStep d ev = some (d', o)) {id : String} (activated : activatedBy (ev, o) = some id) :
    ∃ number work parents now r r', ev = .call number id (.activateWork work) parents now ∧
      d.rows.get id = some r ∧ r.state = .reserved ∧
      d'.rows.get id = some r' ∧ r'.state = .active := by
  rcases sqlStep_cases eq with ⟨other, -⟩ |
    ⟨number, id', op, parents, now, written, answer, rfl, first, statement, rest⟩ |
    ⟨number, c, parents, now, written, outcome, rfl, found, second, statement, -, rfl⟩
  · simp [other] at activated
  · rcases rest with ⟨-, -, rfl⟩ | ⟨outcome, rfl, -, rfl⟩
    · simp [activatedBy] at activated
    · obtain ⟨rfl, rfl⟩ : outcome = .activation .activate ∧ id' = id := by
        simp only [activatedBy] at activated
        split at activated
        · next same =>
            cases same
            exact ⟨rfl, Option.some.inj activated⟩
        · cases activated
      obtain ⟨work, r, r', rfl, found, reserved, rfl, active⟩ := first_activates first
      exact ⟨number, work, parents, now, r, r', rfl, found, reserved,
        by simp [statement.rows, get_writeRow], active⟩
  · exfalso
    obtain rfl : outcome = .activation .activate := by
      simp only [activatedBy] at activated
      split at activated
      · next same =>
          cases same
          rfl
      · cases activated
    obtain ⟨work, r, op, seen, guard | ⟨fresh, reserved⟩⟩ := second_activates second
    · obtain ⟨n, attemptId, op'⟩ := c
      dsimp only at op seen
      subst op
      simp [Undisturbed, found, seen, guard] at cond
    · exact reserved (inv.fresh _ r seen fresh)

/-- An activated attempt stays past its reservation. -/
theorem step_past (cond : Undisturbed d ev = true) (eq : sqlStep d ev = some (d', o)) {id : String}
    {r : ExecutionAttempt} (member : id ∈ d.activated) (found : d.rows.get id = some r)
    (past : r.state ≠ .created ∧ r.state ≠ .reserved) :
    ∃ r', d'.rows.get id = some r' ∧ r'.state ≠ .created ∧ r'.state ≠ .reserved := by
  rcases sqlStep_cases eq with ⟨-, -, rows | ⟨new, row, absent, rows, -⟩⟩ |
    ⟨number, id', op, parents, now, written, answer, rfl, first, statement, -⟩ |
    ⟨number, c, parents, now, written, outcome, rfl, -, second, statement, -⟩
  · exact ⟨r, rows ▸ found, past⟩
  · have ne : id ≠ new := fun same => by simp [← same, found] at absent
    exact ⟨r, by simp [rows, Table.get_set, ne, found], past⟩
  · refine statement.past ?_ found past
    rintro rfl - live patch rfl
    simp [Undisturbed, member, found, live] at cond
  · refine statement.past ?_ found past
    rintro - wrote - patch same
    rw [same] at second
    exact wrote (Prod.mk.inj second).1.symm

theorem mem_noteActivated {activated : List String} {attemptId id : String} {outcome : Outcome} :
    id ∈ noteActivated activated attemptId outcome ↔
      outcome = .activation .activate ∧ id = attemptId ∨ id ∈ activated := by
  unfold noteActivated
  split_ifs with same <;> simp [same]

/-- What a step adds to the activated attempts is what it answers. -/
theorem mem_activated (eq : sqlStep d ev = some (d', o)) {id : String} :
    id ∈ d'.activated ↔ activatedBy (ev, o) = some id ∨ id ∈ d.activated := by
  have noted : ∀ attemptId op outcome, o = .answered attemptId op outcome →
      d'.activated = noteActivated d.activated attemptId outcome →
      (id ∈ d'.activated ↔ activatedBy (ev, o) = some id ∨ id ∈ d.activated) := by
    rintro attemptId op outcome rfl note
    rw [note, mem_noteActivated]
    refine or_congr ⟨?_, fun activated => ?_⟩ Iff.rfl
    · rintro ⟨rfl, rfl⟩
      rfl
    · simp only [activatedBy] at activated
      split at activated
      · next same =>
          cases same
          exact ⟨rfl, (Option.some.inj activated).symm⟩
      · cases activated
  rcases sqlStep_cases eq with ⟨other, same, -⟩ |
    ⟨_, _, _, _, _, _, _, -, -, -, ⟨-, same, rfl⟩ | ⟨outcome, -, note, answered⟩⟩ |
    ⟨_, _, _, _, _, outcome, -, -, -, -, note, answered⟩
  · simp [other, same]
  · simp [activatedBy, same]
  · exact noted _ _ _ answered note
  · exact noted _ _ _ answered note

theorem Activated.step (inv : Activated d) (cond : Undisturbed d ev = true)
    (eq : sqlStep d ev = some (d', o)) : Activated d' where
  fresh := by
    rcases sqlStep_cases eq with ⟨-, -, rows | ⟨new, row, absent, rows, -, unreserved⟩⟩ |
      ⟨_, _, _, _, _, _, _, -, -, statement, -⟩ | ⟨_, _, _, _, _, _, -, -, -, statement, -⟩
    · rw [rows]
      exact inv.fresh
    · intro id r found created
      rw [rows, Table.get_set] at found
      split_ifs at found with hit
      · obtain rfl : row = r := Option.some.inj found
        exact unreserved
      · exact inv.fresh id r found created
    · exact statement.fresh inv.fresh
    · exact statement.fresh inv.fresh
  past := by
    intro id member
    rcases (mem_activated eq).mp member with now | before
    · obtain ⟨_, _, _, _, _, r', -, -, -, found, active⟩ := activate_moves inv cond eq now
      exact ⟨r', found, by simp [active], by simp [active]⟩
    · obtain ⟨r, found, past⟩ := inv.past id before
      exact step_past cond eq before found past

/-! ## Whole runs -/

/-- In a run whose steps are `Undisturbed`, an `activate` is the answer of the `UPDATE`
that moves the row from `reserved` to `active`, and an attempt is activated once. -/
theorem activation_answered_by_its_row
    (run : Runs sqlStep (fun d ev => Undisturbed d ev = true) Database.empty log d) :
    (∀ ev d' o id, Undisturbed d ev = true → sqlStep d ev = some (d', o) →
      activatedBy (ev, o) = some id →
      ∃ number work parents now r r', ev = .call number id (.activateWork work) parents now ∧
        d.rows.get id = some r ∧ r.state = .reserved ∧
        d'.rows.get id = some r' ∧ r'.state = .active) ∧
    log.Pairwise fun x y => ∀ id, activatedBy x = some id → activatedBy y ≠ some id := by
  have inv : Activated d := run.state_invariant .empty fun _ _ _ _ inv cond eq => inv.step cond eq
  refine ⟨fun ev d' o id cond eq activated => activate_moves inv cond eq activated, ?_⟩
  refine run.pairwise (I := Activated) (F := fun x d => ∀ id, activatedBy x = some id →
    id ∈ d.activated) .empty (fun _ _ _ _ inv cond eq => inv.step cond eq) ?_ ?_ ?_
  · intro d ev d' o _ _ eq id activated
    exact (mem_activated eq).mpr (.inl activated)
  · intro x d ev d' o _ mark _ eq id activated
    exact (mem_activated eq).mpr (.inr (mark id activated))
  · intro x d ev d' o inv mark cond eq id activated again
    obtain ⟨r, found, -, unreserved⟩ := inv.past id (mark id activated)
    obtain ⟨_, _, _, _, r', _, -, found', reserved, -⟩ := activate_moves inv cond eq again
    obtain rfl : r = r' := Option.some.inj (found.symm.trans found')
    exact unreserved reserved

/-- The run `1` of the attempt `evd-run-1#g1`, open. -/
def openRun : Parents := ⟨Table.empty.set "1" ⟨.running, none⟩, .empty⟩

def reservedJob : RuntimeWorkRef := { tenant := "t", runId := "evd-run-1", externalJobId := "job-1" }

def openFirst : SqlEvent := .openAttempt { executionId := "evd-run-1", tenant := "t" } "t0"

def activateCall (number : Nat) : SqlEvent :=
  .call number "evd-run-1#g1" (.activateWork reservedJob) openRun "t1"

def reserveCall (number : Nat) : SqlEvent :=
  .call number "evd-run-1#g1" (.reserveWork reservedJob) openRun "t2"

/-- A reservation, its activation, and the activation again. -/
def activatedTwice : List SqlEvent :=
  [openFirst, reserveCall 1, .resume 1 openRun "t3", activateCall 2, activateCall 3,
    .resume 3 openRun "t4"]

theorem activation_answered_by_its_row_activatedTwice : ∃ os d,
    exec sqlStep (fun d ev => Undisturbed d ev = true) Database.empty activatedTwice =
      some (os, d) ∧
    (activatedTwice.zip os).filterMap activatedBy = ["evd-run-1#g1"] ∧
    ((activatedTwice.zip os).Pairwise fun x y =>
      ∀ id, activatedBy x = some id → activatedBy y ≠ some id) := by
  refine ⟨_, _, rfl, rfl, ?_⟩
  exact (activation_answered_by_its_row
    (runs_of_exec sqlStep (fun d ev => Undisturbed d ev = true) Database.empty activatedTwice
      rfl)).2

/-- The `UPDATE` of the call `1` misses the new row, the reservation lands, and the
re-read of the call `1` answers from it. -/
def reservedInBetween : List SqlEvent :=
  [openFirst, activateCall 1, reserveCall 2, .resume 2 openRun "t3", .resume 1 openRun "t4",
    activateCall 3]

/-- The state of the attempt after some events. -/
def stateAfter (events : List SqlEvent) : Option AttemptState :=
  (exec sqlStep Always Database.empty events).bind fun (_, d) =>
    (d.rows.get "evd-run-1#g1").map ExecutionAttempt.state

/-- The call `1` answers `activate` and nothing has moved the row to `active` by then;
the call `3` moves it and answers `activate` for the same attempt. -/
theorem reread_activates : ∃ os d,
    exec sqlStep Always Database.empty reservedInBetween = some (os, d) ∧
    (reservedInBetween.zip os).map activatedBy =
      [none, none, none, none, some "evd-run-1#g1", some "evd-run-1#g1"] ∧
    (∀ n < 6, stateAfter (reservedInBetween.take n) ≠ some .active) ∧
    ¬ (reservedInBetween.zip os).Pairwise fun x y =>
      ∀ id, activatedBy x = some id → activatedBy y ≠ some id := by
  refine ⟨_, _, rfl, rfl, by decide, fun pairs => ?_⟩
  have once := List.pairwise_iff_getElem.mp pairs 4 5 (by decide) (by decide) (by decide)
  exact once "evd-run-1#g1" rfl rfl

end Everdict.Attempt
