import Everdict.Cancellation.Stores

/-!
# Where the two cancellation ledgers agree

`Mirrors` reads the SQL rows as the records in memory.  A call keeps it and gives the
same answer in both under `Agrees`, which names, call by call, the columns that one of
the two stores keeps and the other drops.
-/

namespace Everdict.Cancellation

open Transition Transition.Machine Sorting

/-- What a call must find for both stores to carry the same fields on. -/
def Agrees (t : OperationTable) : CancellationCall → Prop
  | .request target _ =>
      ∀ row ∈ t.get target.id, row.targetKind = target.kind ∧
        row.lastError = none ∧ row.completedAt = none ∧ row.certificate = none
  | .complete target _ _ =>
      ∀ row ∈ t.get target.id, row.targetKind = target.kind ∧
        row.verificationAttempts = 0 ∧ row.escalatedAt = none ∧ row.nextAttemptAt = none
  | .fail target _ _ state =>
      (t.get target.id = none → state = .requested) ∧
        ∀ row ∈ t.get target.id, row.targetKind = target.kind ∧
          row.escalatedAt = none ∧ row.nextAttemptAt = none
  | .escalate target _ now _ attempts =>
      attempts ≠ 0 ∧
        ∀ row ∈ t.get target.id, row.targetKind = target.kind ∧
          row.completedAt = none ∧ (row.escalatedAt = none ∨ row.escalatedAt = some now)
  | .get _ => True
  | .listIncomplete limit clock =>
      ((t.entries.filter owed).map age).Nodup ∧
        ∀ e ∈ (sortBy age (t.entries.filter owed)).take limit, due clock e = true

instance (t : OperationTable) (call : CancellationCall) : Decidable (Agrees t call) := by
  unfold Agrees
  split <;> infer_instance

/-- The records in memory are the rows. -/
def Mirrors (t : OperationTable) (m : OperationMap) : Prop :=
  ∀ target, m.get target = ((t.get target.id).filter fun row => row.targetKind = target.kind).map
    (toOperation target.id)

variable {t : OperationTable} {m : OperationMap} {target : CancellationTarget}

theorem mirrors_empty : Mirrors Table.empty Table.empty := fun _ => rfl

theorem Mirrors.get (mirrors : Mirrors t m)
    (apart : ∀ row ∈ t.get target.id, row.targetKind = target.kind) :
    m.get target = (t.get target.id).map (toOperation target.id) := by
  rw [mirrors target]
  rcases found : t.get target.id with _ | row
  · rfl
  · have own : row.targetKind = target.kind := apart row found
    simp [Option.filter, own]

/-- A write under one target leaves the others as they are, in both. -/
theorem Mirrors.set (mirrors : Mirrors t m) {row : CancellationRow}
    (own : row.targetKind = target.kind)
    (apart : ∀ row ∈ t.get target.id, row.targetKind = target.kind) :
    Mirrors (t.set target.id row) (m.set target (toOperation target.id row)) := by
  intro other
  rw [Table.get_set, Table.get_set, mirrors other]
  by_cases id : other.id = target.id
  · rw [if_pos id]
    by_cases kind : other.kind = target.kind
    · have same : other = target := by
        cases other
        cases target
        simp_all
      simp [same, Option.filter, own]
    · have different : other ≠ target := fun same => kind (congrArg _ same)
      rw [if_neg different, id]
      have skipped : row.targetKind ≠ other.kind := fun eq => kind (eq.symm.trans own)
      rcases found : t.get target.id with _ | old
      · simp [Option.filter, skipped]
      · have kept : old.targetKind ≠ other.kind := fun eq => kind (eq.symm.trans (apart old found))
        simp [Option.filter, skipped, kept]
  · have different : other ≠ target := fun same => id (congrArg _ same)
    rw [if_neg id, if_neg different]

/-! ## The writes -/

section Writes

variable {prior : Option CancellationRow}

theorem request_agrees {now : Nat} :
    InMemory.request (prior.map (toOperation target.id)) target now =
        toOperation target.id (Postgres.request prior target now) ↔
      ∀ row ∈ prior, row.lastError = none ∧ row.completedAt = none ∧ row.certificate = none := by
  rcases prior with _ | row
  · simp [InMemory.request, Postgres.request, toOperation, counted]
  · simp [InMemory.request, Postgres.request, toOperation]

theorem complete_agrees {now : Nat} {certificate : Option CancellationCertificate} :
    InMemory.complete (prior.map (toOperation target.id)) target now certificate =
        toOperation target.id (Postgres.complete prior target now certificate) ↔
      ∀ row ∈ prior, row.verificationAttempts = 0 ∧ row.escalatedAt = none ∧
        row.nextAttemptAt = none := by
  rcases prior with _ | row
  · simp [InMemory.complete, Postgres.complete, toOperation, counted]
  · simp [InMemory.complete, Postgres.complete, toOperation, eq_comm]

theorem fail_agrees {error : String} {now : Nat} {state : Reached} :
    InMemory.fail (prior.map (toOperation target.id)) target error now state =
        toOperation target.id (Postgres.fail prior target error now state) ↔
      (prior = none → state = .requested) ∧
        ∀ row ∈ prior, row.escalatedAt = none ∧ row.nextAttemptAt = none := by
  rcases prior with _ | row
  · cases state <;> simp [InMemory.fail, Postgres.fail, toOperation, Reached.attempt, counted]
  · simp [InMemory.fail, Postgres.fail, toOperation, eq_comm]

theorem escalate_agrees {reason : String} {now nextAttemptAt attempts : Nat} :
    InMemory.escalate (prior.map (toOperation target.id)) target reason now nextAttemptAt
          attempts =
        toOperation target.id
          (Postgres.escalate prior target reason now nextAttemptAt attempts) ↔
      attempts ≠ 0 ∧
        ∀ row ∈ prior, row.completedAt = none ∧
          (row.escalatedAt = none ∨ row.escalatedAt = some now) := by
  have written : some attempts = counted attempts ↔ attempts ≠ 0 := by
    rw [eq_comm, counted_eq_some]
    simp
  rcases prior with _ | row
  · simp [InMemory.escalate, Postgres.escalate, toOperation, written]
  · have alerted : now = row.escalatedAt.getD now ↔
        row.escalatedAt = none ∨ row.escalatedAt = some now := by
      rcases row.escalatedAt with _ | escalatedAt <;> simp [eq_comm]
    simp [InMemory.escalate, Postgres.escalate, toOperation, written, alerted, and_left_comm]

end Writes

/-! ## The list of what is owed -/

/-- The records in memory are the rows, each under its kind and id. -/
theorem Mirrors.entries_perm (mirrors : Mirrors t m) :
    m.entries.Perm (t.entries.map fun e => (⟨e.2.targetKind, e.1⟩, toOperation e.1 e.2)) := by
  have keys : (t.entries.map fun e : Keyed =>
      ((⟨e.2.targetKind, e.1⟩, toOperation e.1 e.2) :
        CancellationTarget × CancellationOperation)).Nodup := by
    apply List.Nodup.of_map fun x => x.1.id
    rw [List.map_map]
    exact t.nodup
  rw [List.perm_ext_iff_of_nodup m.nodup.of_map keys]
  intro x
  obtain ⟨target, op⟩ := x
  rw [← Table.get_eq_some, mirrors target]
  simp only [List.mem_map, Prod.mk.injEq, Prod.exists, ← Table.get_eq_some, Option.map_eq_some_iff,
    Option.filter_eq_some_iff, decide_eq_true_eq]
  constructor
  · intro found
    obtain ⟨row, ⟨found, kind⟩, rfl⟩ := found
    refine ⟨target.id, row, found, ?_, rfl⟩
    rw [kind]
  · intro found
    obtain ⟨id, row, found, rfl, rfl⟩ := found
    exact ⟨row, ⟨found, rfl⟩, rfl⟩

theorem Mirrors.owed_perm (mirrors : Mirrors t m) :
    (m.values.filter fun op => op.state ≠ .completed).Perm
      ((t.entries.filter owed).map fun e => toOperation e.1 e.2) := by
  have values := (mirrors.entries_perm.map Prod.snd).filter fun op =>
    decide (op.state ≠ .completed)
  rw [List.map_map] at values
  have rows : ((t.entries.map fun e => toOperation e.1 e.2).filter
      fun op => op.state ≠ .completed) = (t.entries.filter owed).map fun e => toOperation e.1 e.2 := by
    rw [List.filter_map]
    rfl
  rw [← rows]
  exact values

theorem listIncomplete_agrees {scan : List Keyed → List Keyed} (scanned : ∀ l, (scan l).Perm l)
    (mirrors : Mirrors t m) {limit clock : Nat}
    (agrees : Agrees t (.listIncomplete limit clock)) :
    m.listIncomplete limit = t.listIncomplete scan limit clock := by
  obtain ⟨ages, soon⟩ := agrees
  have inMemory : sortBy CancellationOperation.requestedAt
      (m.values.filter fun op => op.state ≠ .completed) =
        (sortBy age (t.entries.filter owed)).map fun e => toOperation e.1 e.2 := by
    rw [← sortBy_map age CancellationOperation.requestedAt (fun e => toOperation e.1 e.2)
      fun _ => rfl]
    refine sortBy_eq_of_perm ?_ mirrors.owed_perm
    rw [List.map_map]
    exact ages
  have inSql : sortBy age ((scan t.entries).filter fun e => owed e && due clock e) =
      (sortBy age (t.entries.filter owed)).filter (due clock) := by
    have dueAges : (((t.entries.filter owed).filter (due clock)).map age).Nodup :=
      ages.sublist (List.filter_sublist.map age)
    rw [← sortBy_filter ages]
    apply sortBy_eq_of_perm dueAges
    rw [List.filter_filter]
    have same := (scanned t.entries).filter fun e => owed e && due clock e
    simpa only [Bool.and_comm] using same
  unfold OperationMap.listIncomplete OperationTable.listIncomplete
  rw [inMemory, inSql, take_filter soon, List.map_take]

/-! ## Every sequence of calls -/

theorem step_agrees {scan : List Keyed → List Keyed} (scanned : ∀ l, (scan l).Perm l)
    (t : OperationTable) (m : OperationMap) (call : CancellationCall) (t' : OperationTable)
    (answer : Answer) (mirrors : Mirrors t m) (agrees : Agrees t call)
    (step : postgres scan t call = some (t', answer)) :
    ∃ m', Always m call ∧ inMemory m call = some (m', answer) ∧ Mirrors t' m' := by
  cases call with
  | request target now =>
      cases step
      have apart := fun row found => (agrees row found).1
      refine ⟨_, trivial, rfl, ?_⟩
      rw [mirrors.get apart, request_agrees.mpr fun row found => (agrees row found).2]
      refine mirrors.set ?_ apart
      rcases t.get target.id with _ | row <;> rfl
  | complete target now certificate =>
      cases step
      have apart := fun row found => (agrees row found).1
      refine ⟨_, trivial, rfl, ?_⟩
      rw [mirrors.get apart, complete_agrees.mpr fun row found => (agrees row found).2]
      refine mirrors.set ?_ apart
      rcases t.get target.id with _ | row <;> rfl
  | fail target error now state =>
      cases step
      obtain ⟨first, agrees⟩ := agrees
      have apart := fun row found => (agrees row found).1
      refine ⟨_, trivial, rfl, ?_⟩
      rw [mirrors.get apart, fail_agrees.mpr ⟨first, fun row found => (agrees row found).2⟩]
      refine mirrors.set ?_ apart
      rcases t.get target.id with _ | row <;> rfl
  | escalate target reason now nextAttemptAt attempts =>
      cases step
      obtain ⟨some_attempt, agrees⟩ := agrees
      have apart := fun row found => (agrees row found).1
      refine ⟨_, trivial, rfl, ?_⟩
      rw [mirrors.get apart,
        escalate_agrees.mpr ⟨some_attempt, fun row found => (agrees row found).2⟩]
      refine mirrors.set ?_ apart
      rcases t.get target.id with _ | row <;> rfl
  | get target =>
      cases step
      refine ⟨m, trivial, ?_, mirrors⟩
      rw [inMemory, mirrors target]
  | listIncomplete limit clock =>
      cases step
      refine ⟨m, trivial, ?_, mirrors⟩
      rw [inMemory, listIncomplete_agrees scanned mirrors agrees]

/-- Two ledgers that mirror each other after a write under one target met there a row of
the same kind, and wrote the same record. -/
theorem Mirrors.of_set (mirrors : Mirrors t m) {row : CancellationRow}
    {op : CancellationOperation} (own : row.targetKind = target.kind)
    (after : Mirrors (t.set target.id row) (m.set target op)) :
    (∀ old ∈ t.get target.id, old.targetKind = target.kind) ∧ op = toOperation target.id row := by
  constructor
  · intro old found
    by_contra other
    have different : (⟨old.targetKind, target.id⟩ : CancellationTarget) ≠ target := fun same =>
      other (congrArg CancellationTarget.kind same)
    have kept := after ⟨old.targetKind, target.id⟩
    have found : t.get target.id = some old := found
    rw [Table.get_set, Table.get_set, if_neg different, if_pos rfl, mirrors, found] at kept
    simp [Option.filter, own, Ne.symm other] at kept
  · have written := after target
    rw [Table.get_set, Table.get_set, if_pos rfl, if_pos rfl] at written
    simpa [Option.filter, own] using written

/-- A write that keeps the two ledgers mirrors found what `Agrees` asks for. -/
theorem agrees_of_mirrors {scan : List Keyed → List Keyed} {t' : OperationTable}
    {m' : OperationMap} {call : CancellationCall} {answer answer' : Answer}
    (mirrors : Mirrors t m) (step : postgres scan t call = some (t', answer))
    (step' : inMemory m call = some (m', answer')) (mirrors' : Mirrors t' m') :
    Agrees t call ∨ answer ≠ .done := by
  cases call with
  | request target now =>
      cases step
      cases step'
      have own : (Postgres.request (t.get target.id) target now).targetKind = target.kind := by
        rcases t.get target.id with _ | row <;> rfl
      obtain ⟨apart, same⟩ := mirrors.of_set own mirrors'
      rw [mirrors.get apart, request_agrees] at same
      exact Or.inl fun row found => ⟨apart row found, same row found⟩
  | complete target now certificate =>
      cases step
      cases step'
      have own : (Postgres.complete (t.get target.id) target now certificate).targetKind =
          target.kind := by
        rcases t.get target.id with _ | row <;> rfl
      obtain ⟨apart, same⟩ := mirrors.of_set own mirrors'
      rw [mirrors.get apart, complete_agrees] at same
      exact Or.inl fun row found => ⟨apart row found, same row found⟩
  | fail target error now state =>
      cases step
      cases step'
      have own : (Postgres.fail (t.get target.id) target error now state).targetKind =
          target.kind := by
        rcases t.get target.id with _ | row <;> rfl
      obtain ⟨apart, same⟩ := mirrors.of_set own mirrors'
      rw [mirrors.get apart, fail_agrees] at same
      exact Or.inl ⟨same.1, fun row found => ⟨apart row found, same.2 row found⟩⟩
  | escalate target reason now nextAttemptAt attempts =>
      cases step
      cases step'
      have own : (Postgres.escalate (t.get target.id) target reason now nextAttemptAt
          attempts).targetKind = target.kind := by
        rcases t.get target.id with _ | row <;> rfl
      obtain ⟨apart, same⟩ := mirrors.of_set own mirrors'
      rw [mirrors.get apart, escalate_agrees] at same
      exact Or.inl ⟨same.1, fun row found => ⟨apart row found, same.2 row found⟩⟩
  | get target =>
      cases step
      exact Or.inr (by simp)
  | listIncomplete limit clock =>
      cases step
      exact Or.inr (by simp)

/-- The two ledgers answer alike as long as every call finds rows that both carry on in
the same way. -/
theorem cancellation_ledgers_agree {scan : List Keyed → List Keyed} (scanned : ∀ l, (scan l).Perm l)
    {calls : List CancellationCall} {answers : List Answer}
    (run : (exec (postgres scan) Agrees Table.empty calls).map Prod.fst = some answers) :
    (exec inMemory Always Table.empty calls).map Prod.fst = some answers := by
  obtain ⟨⟨_, t⟩, ran, rfl⟩ := Option.map_eq_some_iff.mp run
  obtain ⟨m, eq, -⟩ := exec_simulate (step_agrees scanned) mirrors_empty ran
  rw [eq]
  rfl

def run1 : CancellationTarget := ⟨.run, "run-1"⟩

/-- The record of a teardown that failed before its stops and then in its readback. -/
def notQuiet : CancellationOperation where
  target := run1
  state := .verifying
  lastError := some "not quiet"
  requestedAt := 10
  verificationAttempts := some 1

theorem cancellation_ledgers_agree_on_run1 :
    (exec inMemory Always Table.empty
      [.fail run1 "stop refused" 10 .requested, .fail run1 "not quiet" 20 .verifying, .get run1,
        .listIncomplete 50 30]).map Prod.fst =
      some [.done, .done, .operation (some notQuiet), .operations [notQuiet]] :=
  cancellation_ledgers_agree List.reverse_perm (by decide +kernel)

/-- A failure after an escalation loses it in memory and keeps it in SQL. -/
theorem fail_forgets_escalation :
    ¬ ∀ scan : List Keyed → List Keyed, (∀ l, (scan l).Perm l) → ∀ calls,
      (exec (postgres scan) Always Table.empty calls).map Prod.fst =
        (exec inMemory Always Table.empty calls).map Prod.fst := by
  intro same
  exact absurd (same id (fun _ => List.Perm.refl _)
    [.request run1 0, .escalate run1 "unreachable" 10 3600 5, .fail run1 "refused" 20 .requested,
      .get run1]) (by decide +kernel)

end Everdict.Cancellation
