import Everdict.Attempt.Operations
import Everdict.Transition

/-!
# The in-process attempt ledger

The ledger as a machine.  Every mutation but `open` goes through `perAttempt`,
which runs one operation at a time for each attempt: an operation reads its row
when it starts, may await the parent authority, and writes from what it read when
it finishes.  Operations on other attempts, and `open`, land in between.  Which
waiting operation starts next, when it finishes and what the authority answers
are up to the run.

`ledger_safety` holds of every run; it rests on `Consistent`, which says that a
running operation still sees its row.
-/

namespace Everdict.Attempt

open Transition Machine

/-- An operation that has read its row and has not finished. -/
structure Running where
  attemptId : String
  op : Op
  current : Option ExecutionAttempt

structure Store where
  attempts : Ledger
  running : List Running

def Store.empty : Store := ⟨.empty, []⟩

inductive Event where
  | openAttempt (input : OpenAttemptInput) (now : String)
  | start (attemptId : String) (op : Op)
  | finish (attemptId : String) (authority : Authority) (now : String)

inductive Answer where
  | opened (attemptId : String) (generation : Nat)
  | started
  | finished (op : Op) (outcome : Outcome)

/-- `Map.set` when an operation wrote. -/
def put (attempts : Ledger) (attemptId : String) : Option ExecutionAttempt → Ledger
  | none => attempts
  | some written => attempts.set attemptId written

def Store.runningOn (s : Store) (attemptId : String) : Option Running :=
  s.running.find? fun j => j.attemptId = attemptId

def step : Machine Store Event Answer
  | s, .openAttempt input now =>
      let (attempts, attemptId, generation) := openAttempt s.attempts input now
      some ({ s with attempts }, .opened attemptId generation)
  | s, .start attemptId op =>
      match s.runningOn attemptId with
      | some _ => none
      | none => some ({ s with running := ⟨attemptId, op, s.attempts.get attemptId⟩ :: s.running },
          .started)
  | s, .finish attemptId authority now =>
      match s.runningOn attemptId with
      | none => none
      | some j =>
          let (written, outcome) := j.op.run attemptId j.current authority now
          some (⟨put s.attempts attemptId written,
            s.running.filter fun j => j.attemptId ≠ attemptId⟩, .finished j.op outcome)

variable {s t : Store} {ev : Event} {o : Answer} {log : List (Event × Answer)}

/-- Rows go by their coordinate, and a running operation still sees the row it read. -/
structure Consistent (s : Store) : Prop where
  named : ∀ id r, s.attempts.get id = some r → id = attemptIdOf r.executionId r.generation
  current : ∀ j ∈ s.running, ∀ r, j.current = some r → s.attempts.get j.attemptId = some r
  single : (s.running.map Running.attemptId).Nodup

theorem Consistent.empty : Consistent Store.empty :=
  ⟨by simp [Store.empty], by simp [Store.empty], by simp [Store.empty]⟩

/-! ## One step -/

/-- The coordinate `open` mints is on no row. -/
theorem next_fresh {attempts : Ledger} (executionId : String)
    (named : ∀ id r, attempts.get id = some r → id = attemptIdOf r.executionId r.generation) :
    attempts.get (attemptIdOf executionId (nextGeneration attempts executionId)) = none := by
  by_contra there
  obtain ⟨r, found⟩ := Option.ne_none_iff_exists'.mp there
  obtain ⟨name, generation⟩ := attemptIdOf_inj (named _ _ found)
  have := lt_nextGeneration found name.symm
  omega

variable {id : String}

theorem runningOn_eq {j : Running} (found : s.runningOn id = some j) :
    j ∈ s.running ∧ j.attemptId = id :=
  ⟨List.mem_of_find?_eq_some found, by simpa using List.find?_some found⟩

/-- What finishing an operation does: the row it read is still there, and its
write, if any, is put over it. -/
theorem finish_eq {attemptId now : String} {authority : Authority} (consistent : Consistent s)
    (eq : step s (.finish attemptId authority now) = some (t, o)) :
    ∃ op outcome, o = .finished op outcome ∧
      t.running = s.running.filter (fun j => j.attemptId ≠ attemptId) ∧
      ∃ current, (∀ r, current = some r → s.attempts.get attemptId = some r) ∧
        ∃ written, op.run attemptId current authority now = (written, outcome) ∧
          t.attempts = put s.attempts attemptId written := by
  simp only [step] at eq
  split at eq
  · cases eq
  · next j running =>
      obtain ⟨mem, name⟩ := runningOn_eq running
      cases eq
      exact ⟨j.op, _, rfl, rfl, j.current, name ▸ consistent.current j mem, _, rfl, rfl⟩

/-- Each row goes through a step as `Rewrites` allows. -/
theorem step_row (consistent : Consistent s) (eq : step s ev = some (t, o)) {r : ExecutionAttempt}
    (found : s.attempts.get id = some r) :
    ∃ r', t.attempts.get id = some r' ∧ Rewrites r r' := by
  cases ev with
  | openAttempt input now =>
      cases eq
      have fresh := next_fresh input.executionId consistent.named
      have ne : id ≠ attemptIdOf input.executionId (nextGeneration s.attempts input.executionId) :=
        fun same => by simp [← same, found] at fresh
      exact ⟨r, by simp [Table.get_set, ne, found], .refl r⟩
  | start attemptId op =>
      simp only [step] at eq
      split at eq
      · cases eq
      · cases eq
        exact ⟨r, found, .refl r⟩
  | finish attemptId authority now =>
      obtain ⟨op, outcome, -, -, current, held, written, run, rows⟩ := finish_eq consistent eq
      rw [rows]
      cases written with
      | none => exact ⟨r, found, .refl r⟩
      | some w =>
          obtain ⟨read, seen, rewrites⟩ := Op.run_writes run
          by_cases hit : id = attemptId
          · subst hit
            obtain rfl : r = read := Option.some.inj (found.symm.trans (held read seen))
            exact ⟨w, by simp [put, Table.get_set], rewrites⟩
          · exact ⟨r, by simp [put, Table.get_set, hit, found], .refl r⟩

/-- A row that was not there was opened by this step. -/
theorem step_new_row (consistent : Consistent s) (eq : step s ev = some (t, o))
    {r : ExecutionAttempt} (none : s.attempts.get id = none) (found : t.attempts.get id = some r) :
    ∃ input now, ev = .openAttempt input now ∧
      id = attemptIdOf input.executionId (nextGeneration s.attempts input.executionId) ∧
      r = openedAttempt input (nextGeneration s.attempts input.executionId) now := by
  cases ev with
  | openAttempt input now =>
      cases eq
      simp only [Table.get_set] at found
      split at found
      · next name => exact ⟨input, now, rfl, name, by simpa [eq_comm] using found⟩
      · simp [none] at found
  | start attemptId op =>
      simp only [step] at eq
      split at eq
      · cases eq
      · cases eq
        simp [none] at found
  | finish attemptId authority now =>
      obtain ⟨op, outcome, -, -, current, held, written, run, rows⟩ := finish_eq consistent eq
      rw [rows] at found
      cases written with
      | none => simp [put, none] at found
      | some w =>
          obtain ⟨read, seen, -⟩ := Op.run_writes run
          have there := held read seen
          by_cases hit : id = attemptId
          · simp [← hit, none] at there
          · simp [put, Table.get_set, hit, none] at found

theorem Consistent.step (consistent : Consistent s) (eq : step s ev = some (t, o)) :
    Consistent t where
  named := by
    intro id r' found'
    cases old : s.attempts.get id with
    | none =>
        obtain ⟨input, now, rfl, name, rfl⟩ := step_new_row consistent eq old found'
        exact name
    | some r =>
        obtain ⟨r'', found'', rewrites⟩ := step_row consistent eq old
        obtain rfl : r' = r'' := Option.some.inj (found'.symm.trans found'')
        rw [rewrites.executionId, rewrites.generation]
        exact consistent.named id r old
  current := by
    intro j mem r seen
    cases ev with
    | openAttempt input now =>
        cases eq
        have there := consistent.current j mem r seen
        have fresh := next_fresh input.executionId consistent.named
        have ne : j.attemptId ≠
            attemptIdOf input.executionId (nextGeneration s.attempts input.executionId) :=
          fun same => by simp [← same, there] at fresh
        simpa [openAttempt, Table.get_set, ne] using there
    | start attemptId op =>
        simp only [Attempt.step] at eq
        split at eq
        · cases eq
        · cases eq
          rcases List.mem_cons.mp mem with rfl | old
          · exact seen
          · exact consistent.current j old r seen
    | finish attemptId authority now =>
        obtain ⟨op, outcome, -, running, current, -, written, -, rows⟩ := finish_eq consistent eq
        rw [running] at mem
        obtain ⟨old, other⟩ := List.mem_filter.mp mem
        have there := consistent.current j old r seen
        have ne : j.attemptId ≠ attemptId := by simpa using other
        rw [rows]
        cases written with
        | none => exact there
        | some w => simpa [put, Table.get_set, ne] using there
  single := by
    cases ev with
    | openAttempt =>
        cases eq
        exact consistent.single
    | start attemptId op =>
        simp only [Attempt.step] at eq
        split at eq
        · cases eq
        · next idle =>
            cases eq
            refine List.nodup_cons.mpr ⟨fun mem => ?_, consistent.single⟩
            obtain ⟨j, mem, name⟩ := List.mem_map.mp mem
            simpa [name] using List.find?_eq_none.mp idle j mem
    | finish attemptId authority now =>
        obtain ⟨op, outcome, -, running, -⟩ := finish_eq consistent eq
        rw [running]
        exact consistent.single.sublist (List.filter_sublist.map _)

theorem consistent_of_runs (consistent : Consistent s) (run : Runs step Always s log t) :
    Consistent t :=
  run.state_invariant consistent fun _ _ _ _ inv _ eq => inv.step eq

/-- Over a whole run, too, each row is rewritten as `Rewrites` allows. -/
theorem runs_row (consistent : Consistent s) (run : Runs step Always s log t)
    {r : ExecutionAttempt} (found : s.attempts.get id = some r) :
    ∃ r', t.attempts.get id = some r' ∧ Rewrites r r' := by
  have all := run.state_invariant
    (I := fun t => Consistent t ∧ ∃ r', t.attempts.get id = some r' ∧ Rewrites r r')
    ⟨consistent, r, found, .refl r⟩ ?_
  · exact all.2
  · rintro s ev t o ⟨consistent, r', found', rewrites⟩ - eq
    obtain ⟨r'', found'', more⟩ := step_row consistent eq found'
    exact ⟨consistent.step eq, r'', found'', rewrites.trans more⟩

/-! ## What the answers of a run say -/

/-- The execution and the generation an `open` answered with. -/
def openedBy : Event × Answer → Option (String × Nat)
  | (.openAttempt input _, .opened _ generation) => some (input.executionId, generation)
  | _ => none

/-- The attempt a `revokeReservation` took back. -/
def revokedBy : Event × Answer → Option String
  | (.finish attemptId _ _, .finished _ (.revocation (.revoked _))) => some attemptId
  | _ => none

/-- The attempt an `activateWork` answered `activate` or `already_active` for. -/
def authorizedBy : Event × Answer → Option String
  | (.finish attemptId _ _, .finished _ (.activation .activate)) => some attemptId
  | (.finish attemptId _ _, .finished _ (.activation .alreadyActive)) => some attemptId
  | _ => none

theorem revoked_row (consistent : Consistent s) (eq : step s ev = some (t, o))
    (revoked : revokedBy (ev, o) = some id) :
    ∃ r, t.attempts.get id = some r ∧ r.state = .revoked := by
  cases ev with
  | finish attemptId authority now =>
      obtain ⟨op, outcome, rfl, -, current, -, written, run, rows⟩ := finish_eq consistent eq
      simp only [revokedBy] at revoked
      split at revoked
      · next same =>
          cases same
          cases revoked
          obtain ⟨r, rfl, state⟩ := Op.run_revoked run
          exact ⟨r, by simp [rows, put, Table.get_set], state⟩
      · cases revoked
  | _ => simp [revokedBy] at revoked

theorem authorized_row (consistent : Consistent s) (eq : step s ev = some (t, o))
    (authorized : authorizedBy (ev, o) = some id) :
    ∃ r, s.attempts.get id = some r ∧ isTerminalAttemptState r.state = false := by
  cases ev with
  | finish attemptId authority now =>
      obtain ⟨op, outcome, rfl, -, current, held, written, run, -⟩ := finish_eq consistent eq
      have decided : ∃ decision, outcome = .activation decision ∧
          (decision = .activate ∨ decision = .alreadyActive) ∧ attemptId = id := by
        simp only [authorizedBy] at authorized
        split at authorized
        · next same =>
            cases same
            exact ⟨_, rfl, .inl rfl, Option.some.inj authorized⟩
        · next same =>
            cases same
            exact ⟨_, rfl, .inr rfl, Option.some.inj authorized⟩
        · cases authorized
      obtain ⟨decision, rfl, yes, rfl⟩ := decided
      obtain ⟨r, seen, live⟩ := Op.run_authorizes run yes
      exact ⟨r, held r seen, live⟩
  | _ => simp [authorizedBy] at authorized

/-- No activation is authorized after the reservation was taken back. -/
theorem no_activation_after_revocation (run : Runs step Always Store.empty log s) :
    log.Pairwise fun x y => ∀ id, revokedBy x = some id → authorizedBy y ≠ some id := by
  refine run.pairwise (I := Consistent)
    (F := fun x s => ∀ id, revokedBy x = some id →
      ∃ r, s.attempts.get id = some r ∧ r.state = .revoked) .empty
    (fun _ _ _ _ inv _ eq => inv.step eq) ?_ ?_ ?_
  · intro s ev t o consistent _ eq id revoked
    exact revoked_row consistent eq revoked
  · intro x s ev t o consistent mark _ eq id revoked
    obtain ⟨r, found, state⟩ := mark id revoked
    obtain ⟨r', found', rewrites⟩ := step_row consistent eq found
    exact ⟨r', found', (rewrites.terminal (by rw [state]; rfl)).trans state⟩
  · intro x s ev t o consistent mark _ eq id revoked authorized
    obtain ⟨r, found, state⟩ := mark id revoked
    obtain ⟨r', found', live⟩ := authorized_row consistent eq authorized
    obtain rfl : r = r' := Option.some.inj (found.symm.trans found')
    simp [state, isTerminalAttemptState, TERMINAL_ATTEMPT_STATES] at live

theorem opened_row (eq : step s ev = some (t, o)) {e : String} {g : Nat}
    (opened : openedBy (ev, o) = some (e, g)) :
    g = nextGeneration s.attempts e ∧
      ∃ id r, t.attempts.get id = some r ∧ r.executionId = e ∧ r.generation = g := by
  cases ev with
  | openAttempt input now =>
      cases eq
      simp only [openedBy, Option.some.injEq, Prod.mk.injEq] at opened
      obtain ⟨rfl, rfl⟩ := opened
      let g := nextGeneration s.attempts input.executionId
      exact ⟨rfl, attemptIdOf input.executionId g, openedAttempt input g now,
        (Table.get_set _ _ _).trans (if_pos rfl), rfl, rfl⟩
  | _ => simp [openedBy] at opened

/-- Each `open` answers with a generation above all earlier ones of its execution. -/
theorem generations_increase (run : Runs step Always Store.empty log s) :
    log.Pairwise fun x y => ∀ e g g', openedBy x = some (e, g) → openedBy y = some (e, g') →
      g < g' := by
  refine run.pairwise (I := Consistent)
    (F := fun x s => ∀ e g, openedBy x = some (e, g) →
      ∃ id r, s.attempts.get id = some r ∧ r.executionId = e ∧ r.generation = g) .empty
    (fun _ _ _ _ inv _ eq => inv.step eq) ?_ ?_ ?_
  · intro s ev t o _ _ eq e g opened
    exact (opened_row eq opened).2
  · intro x s ev t o consistent mark _ eq e g opened
    obtain ⟨id, r, found, name, generation⟩ := mark e g opened
    obtain ⟨r', found', rewrites⟩ := step_row consistent eq found
    exact ⟨id, r', found', rewrites.executionId.trans name,
      rewrites.generation.trans generation⟩
  · intro x s ev t o _ mark _ eq e g g' opened again
    obtain ⟨id, r, found, name, rfl⟩ := mark e g opened
    rw [(opened_row eq again).1]
    exact lt_nextGeneration found name

/-- The safety of the in-process ledger, over every interleaving: a terminal state is
not left and recorded work is not replaced; nothing is authorized for a revoked
attempt; and within one execution generations are distinct and increase. -/
theorem ledger_safety (run : Runs step Always Store.empty log s) :
    (∀ log' t, Runs step Always s log' t → ∀ id r, s.attempts.get id = some r →
      ∃ r', t.attempts.get id = some r' ∧
        (isTerminalAttemptState r.state = true → r'.state = r.state) ∧
        ∀ w, r.runtimeWork = some w → r'.runtimeWork = some w) ∧
    (log.Pairwise fun x y => ∀ id, revokedBy x = some id → authorizedBy y ≠ some id) ∧
    (∀ id id' r r', s.attempts.get id = some r → s.attempts.get id' = some r' →
      r.executionId = r'.executionId → r.generation = r'.generation → id = id') ∧
    (log.Pairwise fun x y => ∀ e g g', openedBy x = some (e, g) → openedBy y = some (e, g') →
      g < g') ∧
    (∀ ev t o e g, step s ev = some (t, o) → openedBy (ev, o) = some (e, g) →
      ∀ id r, s.attempts.get id = some r → r.executionId = e → r.generation < g) := by
  have consistent := consistent_of_runs .empty run
  refine ⟨?_, no_activation_after_revocation run, ?_, generations_increase run, ?_⟩
  · intro log' t rest id r found
    obtain ⟨r', found', rewrites⟩ := runs_row consistent rest found
    exact ⟨r', found', rewrites.terminal, rewrites.work⟩
  · intro id id' r r' found found' execution generation
    rw [consistent.named id r found, consistent.named id' r' found', execution, generation]
  · intro ev t o e g eq opened id r found name
    rw [(opened_row eq opened).1]
    exact lt_nextGeneration found name

/-- A reservation, its revocation, and the paused holder that comes back. -/
def revokedReservation : List Event :=
  let work : RuntimeWorkRef := { tenant := "t", runId := "evd-run-1", externalJobId := "job-1" }
  [.openAttempt { executionId := "evd-run-1", tenant := "t" } "t0",
    .start "evd-run-1#g1" (.reserveWork work),
    .finish "evd-run-1#g1" (.owned 0) "t1",
    .start "evd-run-1#g1" .revokeReservation,
    .finish "evd-run-1#g1" (.owned 0) "t2",
    .start "evd-run-1#g1" (.activateWork work),
    .finish "evd-run-1#g1" (.owned 0) "t3",
    .openAttempt { executionId := "evd-run-1", tenant := "t" } "t4"]

theorem ledger_safety_revokedReservation : ∃ os s,
    exec step Always Store.empty revokedReservation = some (os, s) ∧
    (revokedReservation.zip os).filterMap revokedBy = ["evd-run-1#g1"] ∧
    (revokedReservation.zip os).filterMap openedBy = [("evd-run-1", 1), ("evd-run-1", 2)] ∧
    ((revokedReservation.zip os).Pairwise fun x y =>
      ∀ id, revokedBy x = some id → authorizedBy y ≠ some id) := by
  refine ⟨_, _, rfl, rfl, rfl, ?_⟩
  exact (ledger_safety (runs_of_exec step Always Store.empty revokedReservation rfl)).2.1

end Everdict.Attempt
