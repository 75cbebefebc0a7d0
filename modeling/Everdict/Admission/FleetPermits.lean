import Everdict.Table
import Everdict.Transition

/-!
# Fleet admission permits

The quota of a tenant is handed out by a counter, and every right it handed out is a
permit row with a lease.  A call of the SQL ledger is the list of the statements it
sends (`Call.statements`); a statement is atomic, and the statements of the callers of
a fleet interleave in any order.

`removeRows` is what a release and a reap have in common: the rows that go, and the
counters less as many.  From it and the claim, `rights_perm` balances the rights that
were claimed against those that are live or were taken back.
-/

namespace Everdict.FleetPermits

open Transition Transition.Machine

/-! ## The tables -/

/-- A row of `everdict_tenant_admissions`, under its permit id. -/
structure AdmissionRow where
  tenant : String
  renewedAt : Nat
  deriving DecidableEq

/-- The counters and the permits of a fleet, and the time in seconds. -/
structure AdmissionTables where
  counters : Table String Nat
  admissions : Table String AdmissionRow
  now : Nat

abbrev Permit := String × AdmissionRow

/-- What a statement answers, and the permits it wrote and deleted. -/
structure Outcome where
  answer : Option Bool
  claimed : List Permit
  removed : List Permit
  deriving DecidableEq

/-- 30 minutes -/
def ADMISSION_LEASE : Nat := 30 * 60

namespace AdmissionTables

def empty : AdmissionTables := ⟨Table.empty, Table.empty, 0⟩

/-- `in_flight` of a tenant; a tenant without a counter row has nothing in flight. -/
def inFlight (db : AdmissionTables) (tenant : String) : Nat := (db.counters.get tenant).getD 0

/-- The live permit rows of a tenant. -/
def live (db : AdmissionTables) (tenant : String) : Nat :=
  db.admissions.entries.countP fun e => e.2.tenant = tenant

def holds (db : AdmissionTables) (permitId : String) : Bool :=
  (db.admissions.get permitId).isSome

def lapsed (db : AdmissionTables) (row : AdmissionRow) : Bool :=
  row.renewedAt + ADMISSION_LEASE < db.now

/-! ## The statements -/

/-- `INSERT INTO everdict_tenant_admission_counters … ON CONFLICT (tenant) DO NOTHING` -/
def ensureCounter (db : AdmissionTables) (tenant : String) : AdmissionTables :=
  if (db.counters.get tenant).isSome then db
  else { db with counters := db.counters.set tenant 0 }

/-- The permits whose lease has lapsed are deleted, and each tenant's counter falls by
its own losses. `greatest(0, …)` is the subtraction of `Nat`. -/
def reap (db : AdmissionTables) : AdmissionTables × List Permit :=
  let reaped := db.admissions.entries.filter fun e => db.lapsed e.2
  ({ db with
      admissions := db.admissions.filter fun _ row => ¬ db.lapsed row
      counters := db.counters.update fun tenant inFlight =>
        inFlight - reaped.countP fun e => e.2.tenant = tenant },
    reaped)

/-- The counter takes one more under the quota, unless the permit is held already. -/
def claim (db : AdmissionTables) (tenant permitId : String) (quota : Nat) :
    AdmissionTables × Outcome :=
  let existing := db.holds permitId
  match db.counters.get tenant with
  | none => (db, ⟨some existing, [], []⟩)
  | some inFlight =>
      if inFlight < quota ∧ ¬ existing then
        let row : AdmissionRow := ⟨tenant, db.now⟩
        ({ db with
            counters := db.counters.set tenant (inFlight + 1)
            admissions := db.admissions.set permitId row },
          ⟨some true, [(permitId, row)], []⟩)
      else (db, ⟨some existing, [], []⟩)

def renew (db : AdmissionTables) (permitIds : List String) : AdmissionTables :=
  { db with
    admissions := db.admissions.update fun permitId row =>
      if permitId ∈ permitIds then { row with renewedAt := db.now } else row }

/-- The row is deleted and its tenant's counter falls by one; no row, no decrement. -/
def release (db : AdmissionTables) (permitId : String) : AdmissionTables × List Permit :=
  match db.admissions.get permitId with
  | none => (db, [])
  | some row =>
      ({ db with
          admissions := db.admissions.erase permitId
          counters := db.counters.modify row.tenant (· - 1) },
        [(permitId, row)])

end AdmissionTables

inductive Statement where
  | ensureCounter (tenant : String)
  | reap
  | claim (tenant permitId : String) (quota : Nat)
  | renew (permitIds : List String)
  | release (permitId : String)
  deriving DecidableEq

def Statement.run (db : AdmissionTables) : Statement → AdmissionTables × Outcome
  | .ensureCounter tenant => (db.ensureCounter tenant, ⟨none, [], []⟩)
  | .reap => (db.reap.1, ⟨none, [], db.reap.2⟩)
  | .claim tenant permitId quota => db.claim tenant permitId quota
  | .renew permitIds => (db.renew permitIds, ⟨none, [], []⟩)
  | .release permitId => ((db.release permitId).1, ⟨none, [], (db.release permitId).2⟩)

inductive Call where
  | tryAdmit (tenant permitId : String)
  | renewAdmissions (permitIds : List String)
  | releaseAdmission (permitId : String)
  deriving DecidableEq

/-- The statements a call sends, in order. -/
def Call.statements (quota : String → Nat) : Call → List Statement
  | .tryAdmit tenant permitId =>
      [.ensureCounter tenant, .reap, .claim tenant permitId (quota tenant)]
  | .renewAdmissions permitIds => if permitIds = [] then [] else [.renew permitIds]
  | .releaseAdmission permitId => [.release permitId]

/-! ## The fleet -/

/-- The tables, and what each caller's call in flight has still to send. -/
structure Fleet where
  db : AdmissionTables
  pending : Nat → List Statement

inductive FleetEvent where
  | call (caller : Nat) (call : Call)
  | send (caller : Nat)
  | die (caller : Nat)
  | elapse (seconds : Nat)
  deriving DecidableEq

def Fleet.empty : Fleet := ⟨AdmissionTables.empty, fun _ => []⟩

/-- One step of some replica's call: an idle caller takes up a call, a caller sends the
next statement of its own, or dies with the rest unsent. -/
def fleet (quota : String → Nat) : Machine Fleet FleetEvent Outcome
  | s, .call caller call =>
      if s.pending caller = [] then
        some ({ s with pending := Function.update s.pending caller (call.statements quota) },
          ⟨none, [], []⟩)
      else none
  | s, .send caller =>
      match s.pending caller with
      | [] => none
      | statement :: rest =>
          some (⟨(statement.run s.db).1, Function.update s.pending caller rest⟩,
            (statement.run s.db).2)
  | s, .die caller =>
      some ({ s with pending := Function.update s.pending caller [] }, ⟨none, [], []⟩)
  | s, .elapse seconds =>
      some ({ s with db := { s.db with now := s.db.now + seconds } }, ⟨none, [], []⟩)

/-! ## One caller at a time -/

inductive SeqEvent where
  | call (call : Call)
  | elapse (seconds : Nat)
  deriving DecidableEq

/-- No permit's lease has lapsed when an admission is asked for. -/
def Lasting (db : AdmissionTables) : SeqEvent → Prop
  | .call (.tryAdmit _ _) => ∀ e ∈ db.admissions.entries, db.lapsed e.2 = false
  | _ => True

instance (db : AdmissionTables) (e : SeqEvent) : Decidable (Lasting db e) := by
  unfold Lasting
  split <;> infer_instance

/-- The statements one after another; the answer is the last one's. -/
def runAll (db : AdmissionTables) : List Statement → AdmissionTables × Option Bool
  | [] => (db, none)
  | [statement] => ((statement.run db).1, (statement.run db).2.answer)
  | statement :: rest => runAll (statement.run db).1 rest

/-- The SQL ledger under calls that each run to their end. -/
def sequential (quota : String → Nat) : Machine AdmissionTables SeqEvent (Option Bool)
  | db, .call call => some (runAll db (call.statements quota))
  | db, .elapse seconds => some ({ db with now := db.now + seconds }, none)

/-- `InMemoryRunStore.admissionPermits`: the tenant of each permit. -/
abbrev PermitMap := Table String String

def PermitMap.tryAdmit (permits : PermitMap) (tenant permitId : String) (quota : Nat) :
    PermitMap × Bool :=
  if (permits.get permitId).isSome then (permits, true)
  else
    let held := permits.values.countP fun t => t = tenant
    if held ≥ quota then (permits, false) else (permits.set permitId tenant, true)

def inMemory (quota : String → Nat) : Machine PermitMap SeqEvent (Option Bool)
  | permits, .call (.tryAdmit tenant permitId) =>
      some ((permits.tryAdmit tenant permitId (quota tenant)).1,
        some (permits.tryAdmit tenant permitId (quota tenant)).2)
  | permits, .call (.renewAdmissions _) => some (permits, none)
  | permits, .call (.releaseAdmission permitId) => some (permits.erase permitId, none)
  | permits, .elapse _ => some (permits, none)

/-! ## What a statement does to the rights -/

/-- The permit and the tenant whose quota it takes. -/
def right (permit : Permit) : String × String := (permit.1, permit.2.tenant)

namespace AdmissionTables

variable {db : AdmissionTables}

def rights (db : AdmissionTables) : List (String × String) := db.admissions.entries.map right

variable (db : AdmissionTables)

theorem live_eq (tenant : String) :
    db.live tenant = db.rights.countP fun r => r.2 = tenant := by
  unfold live rights
  rw [List.countP_map]
  rfl

/-- Delete the permits that pass a test, and take as many from their tenants' counters. -/
def removeRows (db : AdmissionTables) (test : String → AdmissionRow → Bool) :
    AdmissionTables × List Permit :=
  let removed := db.admissions.entries.filter fun e => test e.1 e.2
  ({ db with
      admissions := db.admissions.filter fun k row => ¬ test k row
      counters := db.counters.update fun tenant inFlight =>
        inFlight - removed.countP fun e => e.2.tenant = tenant },
    removed)

theorem reap_eq : db.reap = db.removeRows fun _ row => db.lapsed row := rfl

theorem release_eq (permitId : String) :
    db.release permitId = db.removeRows fun k _ => k = permitId := by
  have kept : (db.admissions.filter fun k _ => ¬ (decide (k = permitId)) = true) =
      db.admissions.erase permitId := by
    simp [Table.erase]
  unfold release removeRows
  rw [kept]
  dsimp only
  rcases found : db.admissions.get permitId with _ | row
  · rw [Table.filter_key_of_none found, Table.erase_of_none found]
    simp [Table.update_eq_self]
  · rw [Table.filter_key found]
    have falls : (fun tenant inFlight => if tenant = row.tenant then inFlight - 1 else inFlight) =
        fun tenant (inFlight : Nat) =>
          inFlight - [(permitId, row)].countP fun e => decide (e.2.tenant = tenant) := by
      funext tenant inFlight
      by_cases own : tenant = row.tenant
      · simp [own]
      · simp [own, Ne.symm own]
    simp only [Table.modify, falls]

theorem rights_removeRows (test : String → AdmissionRow → Bool) :
    ((db.removeRows test).1.rights ++ (db.removeRows test).2.map right).Perm db.rights := by
  have split := List.filter_append_perm (fun e => test e.1 e.2) db.admissions.entries
  have swapped := List.perm_append_comm.trans split
  simpa [rights, removeRows, Table.filter, ← List.map_append] using swapped.map right

theorem inFlight_removeRows (test : String → AdmissionRow → Bool) (tenant : String) :
    (db.removeRows test).1.inFlight tenant =
      db.inFlight tenant - (db.removeRows test).2.countP fun e => e.2.tenant = tenant := by
  simp only [inFlight, removeRows, Table.get_update]
  cases db.counters.get tenant <;> simp

theorem live_removeRows (test : String → AdmissionRow → Bool) (tenant : String) :
    (db.removeRows test).1.live tenant +
      ((db.removeRows test).2.countP fun e => e.2.tenant = tenant) = db.live tenant := by
  have counts := (rights_removeRows db test).countP_eq fun r => r.2 = tenant
  rw [List.countP_append, List.countP_map] at counts
  rw [live_eq, live_eq, ← counts]
  rfl

theorem rights_renew (permitIds : List String) :
    (db.renew permitIds).rights = db.rights := by
  simp only [rights, renew, Table.update, List.map_map]
  apply List.map_congr_left
  intro e _
  dsimp only [Function.comp, right]
  split <;> rfl

theorem inFlight_ensureCounter (tenant tenant' : String) :
    (db.ensureCounter tenant).inFlight tenant' = db.inFlight tenant' := by
  unfold ensureCounter
  split
  · rfl
  · next absent =>
      rw [Bool.not_eq_true, Option.isSome_eq_false_iff, Option.isNone_iff_eq_none] at absent
      simp only [inFlight, Table.get_set]
      by_cases own : tenant' = tenant
      · rw [own, absent]
        simp
      · rw [if_neg own]

theorem rights_ensureCounter (tenant : String) :
    (db.ensureCounter tenant).rights = db.rights := by
  unfold ensureCounter
  split <;> rfl

/-- A claim leaves everything as it is, or takes one of the quota for a permit that is
not held. -/
theorem claim_cases (tenant permitId : String) (quota : Nat) :
    (db.claim tenant permitId quota = (db, ⟨some (db.holds permitId), [], []⟩)) ∨
      ∃ row inFlight, row.tenant = tenant ∧ db.counters.get tenant = some inFlight ∧
        inFlight < quota ∧ db.admissions.get permitId = none ∧
        db.claim tenant permitId quota =
          ({ db with
              counters := db.counters.set tenant (inFlight + 1)
              admissions := db.admissions.set permitId row },
            ⟨some true, [(permitId, row)], []⟩) := by
  unfold claim
  rcases found : db.counters.get tenant with _ | inFlight
  · exact Or.inl rfl
  dsimp only
  split
  · next free =>
      right
      have fresh : db.admissions.get permitId = none := by simpa [holds] using free.2
      exact ⟨⟨tenant, db.now⟩, inFlight, rfl, rfl, free.1, fresh, rfl⟩
  · exact Or.inl rfl

end AdmissionTables

/-! ## The balance of rights -/

/-- The counters count the live permits under their quotas, and what was claimed is live
or was taken back. -/
structure Balanced (quota : String → Nat) (claimed removed : List Permit)
    (db : AdmissionTables) : Prop where
  counter : ∀ tenant, db.inFlight tenant = db.live tenant
  bounded : ∀ tenant, db.inFlight tenant ≤ quota tenant
  rights : (db.rights ++ removed.map right).Perm (claimed.map right)

section Balance

variable {quota : String → Nat} {claimed removed : List Permit} {db db' : AdmissionTables}

theorem balanced_empty : Balanced quota [] [] AdmissionTables.empty where
  counter := fun _ => rfl
  bounded := fun _ => Nat.zero_le _
  rights := List.Perm.refl _

/-- A statement that moves no counter and no right keeps the balance. -/
theorem Balanced.of_same (balanced : Balanced quota claimed removed db)
    (inFlight : ∀ tenant, db'.inFlight tenant = db.inFlight tenant)
    (rights : db'.rights = db.rights) : Balanced quota claimed removed db' where
  counter := fun tenant => by
    rw [inFlight, balanced.counter, AdmissionTables.live_eq, AdmissionTables.live_eq, rights]
  bounded := fun tenant => by
    rw [inFlight]
    exact balanced.bounded tenant
  rights := by
    rw [rights]
    exact balanced.rights

theorem Balanced.removeRows (balanced : Balanced quota claimed removed db)
    (test : String → AdmissionRow → Bool) :
    Balanced quota claimed (removed ++ (db.removeRows test).2) (db.removeRows test).1 where
  counter := fun tenant => by
    have live := db.live_removeRows test tenant
    rw [db.inFlight_removeRows test tenant, balanced.counter]
    omega
  bounded := fun tenant => by
    rw [db.inFlight_removeRows test tenant]
    exact Nat.le_trans (Nat.sub_le _ _) (balanced.bounded tenant)
  rights := by
    have moved := db.rights_removeRows test
    have ordered : ((db.removeRows test).1.rights ++
          (removed.map right ++ (db.removeRows test).2.map right)).Perm
        ((db.removeRows test).1.rights ++ (db.removeRows test).2.map right ++
          removed.map right) := by
      rw [List.append_assoc]
      exact List.perm_append_comm.append_left _
    rw [List.map_append]
    exact (ordered.trans (moved.append_right _)).trans balanced.rights

theorem Balanced.claim (balanced : Balanced quota claimed removed db) (tenant permitId : String) :
    Balanced quota (claimed ++ (db.claim tenant permitId (quota tenant)).2.claimed) removed
      (db.claim tenant permitId (quota tenant)).1 := by
  rcases db.claim_cases tenant permitId (quota tenant) with
    eq | ⟨row, inFlight, own, found, free, fresh, eq⟩
  · rw [eq, List.append_nil]
    exact balanced
  rw [eq]
  have added : (db.admissions.set permitId row).entries =
      db.admissions.entries ++ [(permitId, row)] := Table.entries_set_of_none fresh row
  have before : db.inFlight tenant = inFlight := by
    unfold AdmissionTables.inFlight
    rw [found]
    rfl
  constructor
  · intro tenant'
    have counted := balanced.counter tenant'
    simp only [AdmissionTables.inFlight, AdmissionTables.live, Table.get_set, added,
      List.countP_append] at counted ⊢
    by_cases mine : tenant' = tenant
    · subst mine
      rw [found] at counted
      simp [own, ← counted]
    · simp [mine, own, Ne.symm mine, counted]
  · intro tenant'
    have bounded := balanced.bounded tenant'
    simp only [AdmissionTables.inFlight, Table.get_set] at bounded ⊢
    by_cases mine : tenant' = tenant
    · subst mine
      rw [if_pos rfl]
      exact Nat.succ_le_of_lt free
    · simpa [mine] using bounded
  · simp only [AdmissionTables.rights, added, List.map_append, List.append_assoc]
    exact (List.perm_append_comm.append_left _).trans
      ((List.append_assoc .. ▸ balanced.rights.append_right _))

/-- The claims of a statement ask for the tenant's own quota. -/
def Statement.Asks (quota : String → Nat) : Statement → Prop
  | .claim tenant _ asked => asked = quota tenant
  | _ => True

theorem Call.asks (quota : String → Nat) (call : Call) :
    ∀ statement ∈ call.statements quota, statement.Asks quota := by
  intro statement mem
  cases call with
  | tryAdmit tenant permitId =>
      simp only [statements, List.mem_cons, List.not_mem_nil, or_false] at mem
      obtain rfl | rfl | rfl := mem <;> simp [Statement.Asks]
  | renewAdmissions permitIds =>
      rw [statements] at mem
      split at mem
      · cases mem
      · obtain rfl := List.mem_singleton.mp mem
        trivial
  | releaseAdmission permitId =>
      obtain rfl := List.mem_singleton.mp mem
      trivial

theorem Balanced.run (balanced : Balanced quota claimed removed db) {statement : Statement}
    (asks : statement.Asks quota) :
    Balanced quota (claimed ++ (statement.run db).2.claimed)
      (removed ++ (statement.run db).2.removed) (statement.run db).1 := by
  cases statement with
  | ensureCounter tenant =>
      simp only [Statement.run, List.append_nil]
      exact balanced.of_same (db.inFlight_ensureCounter tenant) (db.rights_ensureCounter tenant)
  | reap =>
      simp only [Statement.run, List.append_nil, db.reap_eq]
      exact balanced.removeRows _
  | claim tenant permitId asked =>
      obtain rfl : asked = quota tenant := asks
      have nothing : (db.claim tenant permitId (quota tenant)).2.removed = [] := by
        rcases db.claim_cases tenant permitId (quota tenant) with eq | ⟨_, _, _, _, _, _, eq⟩ <;>
          rw [eq]
      simp only [Statement.run, nothing, List.append_nil]
      exact balanced.claim tenant permitId
  | renew permitIds =>
      simp only [Statement.run, List.append_nil]
      exact balanced.of_same (fun _ => rfl) (db.rights_renew permitIds)
  | release permitId =>
      simp only [Statement.run, List.append_nil, db.release_eq]
      exact balanced.removeRows _

end Balance

/-! ## Runs of the fleet -/

def claimedIn (log : List (FleetEvent × Outcome)) : List Permit := log.flatMap fun x => x.2.claimed

def removedIn (log : List (FleetEvent × Outcome)) : List Permit := log.flatMap fun x => x.2.removed

/-- What holds of the tables when the fleet has come this far. -/
structure Conserved (quota : String → Nat) (log : List (FleetEvent × Outcome))
    (db : AdmissionTables) : Prop where
  counter : ∀ tenant, db.inFlight tenant = db.live tenant
  bounded : ∀ tenant, db.inFlight tenant ≤ quota tenant
  /-- The counter of a tenant fell once for each permit that was taken back from it. -/
  spent : ∀ tenant,
    db.inFlight tenant + ((removedIn log).countP fun e => e.2.tenant = tenant) =
      (claimedIn log).countP fun e => e.2.tenant = tenant
  /-- Each admission of a permit is live, or was taken back and once. -/
  once : ∀ permitId,
    (if db.holds permitId then 1 else 0) + ((removedIn log).countP fun e => e.1 = permitId) =
      (claimedIn log).countP fun e => e.1 = permitId

theorem countP_permitId (db : AdmissionTables) (permitId : String) :
    (db.rights.countP fun r => r.1 = permitId) = if db.holds permitId then 1 else 0 := by
  unfold AdmissionTables.rights AdmissionTables.holds
  rw [List.countP_map, List.countP_eq_length_filter]
  change (db.admissions.entries.filter fun e => e.1 = permitId).length = _
  rcases found : db.admissions.get permitId with _ | row
  · rw [Table.filter_key_of_none found]
    rfl
  · rw [Table.filter_key found]
    rfl

variable {quota : String → Nat} {db : AdmissionTables}

theorem Balanced.conserved {log : List (FleetEvent × Outcome)}
    (balanced : Balanced quota (claimedIn log) (removedIn log) db) :
    Conserved quota log db where
  counter := balanced.counter
  bounded := balanced.bounded
  spent := fun tenant => by
    have counts := balanced.rights.countP_eq fun r => r.2 = tenant
    rw [List.countP_append, List.countP_map, List.countP_map] at counts
    rw [balanced.counter, AdmissionTables.live_eq]
    exact counts
  once := fun permitId => by
    have counts := balanced.rights.countP_eq fun r => r.1 = permitId
    rw [List.countP_append, List.countP_map, List.countP_map, countP_permitId] at counts
    exact counts

theorem balanced_of_runs {log : List (FleetEvent × Outcome)} {s : Fleet}
    (run : Runs (fleet quota) Always Fleet.empty log s) :
    Balanced quota (claimedIn log) (removedIn log) s.db ∧
      ∀ caller, ∀ statement ∈ s.pending caller, statement.Asks quota := by
  refine run.invariant
    (I := fun log s => Balanced quota (claimedIn log) (removedIn log) s.db ∧
      ∀ caller, ∀ statement ∈ s.pending caller, statement.Asks quota)
    ⟨balanced_empty, by simp [Fleet.empty]⟩ ?_
  intro log s e t o inv _ eq
  obtain ⟨balanced, asks⟩ := inv
  have idle : claimedIn (log ++ [(e, ⟨none, [], []⟩)]) = claimedIn log ∧
      removedIn (log ++ [(e, ⟨none, [], []⟩)]) = removedIn log := by
    simp [claimedIn, removedIn]
  cases e with
  | call caller call =>
      simp only [fleet] at eq
      split at eq
      · cases eq
        rw [idle.1, idle.2]
        refine ⟨balanced, fun caller' => ?_⟩
        by_cases own : caller' = caller
        · subst own
          simpa using call.asks quota
        · simpa [own] using asks caller'
      · cases eq
  | send caller =>
      simp only [fleet] at eq
      split at eq
      · cases eq
      · next statement rest pending =>
          cases eq
          have mine := asks caller
          rw [pending] at mine
          have claimed : claimedIn (log ++ [(.send caller, (statement.run s.db).2)]) =
              claimedIn log ++ (statement.run s.db).2.claimed := by simp [claimedIn]
          have removed : removedIn (log ++ [(.send caller, (statement.run s.db).2)]) =
              removedIn log ++ (statement.run s.db).2.removed := by simp [removedIn]
          rw [claimed, removed]
          refine ⟨balanced.run (mine statement List.mem_cons_self), fun caller' => ?_⟩
          by_cases own : caller' = caller
          · subst own
            simpa using fun other mem => mine other (List.mem_cons_of_mem _ mem)
          · simpa [own] using asks caller'
  | die caller =>
      cases eq
      rw [idle.1, idle.2]
      refine ⟨balanced, fun caller' => ?_⟩
      by_cases own : caller' = caller
      · subst own
        simp
      · simpa [own] using asks caller'
  | elapse seconds =>
      cases eq
      rw [idle.1, idle.2]
      exact ⟨balanced.of_same (fun _ => rfl) rfl, asks⟩

/-! ## Re-admission and removal -/

/-- Asking again for a permit that is held answers yes and writes nothing. -/
def ReadmitsIdly (quota : String → Nat) (db : AdmissionTables) : Prop :=
  ∀ permitId row, db.admissions.get permitId = some row → ∀ tenant,
    (Statement.claim tenant permitId (quota tenant)).run db = (db, ⟨some true, [], []⟩) ∧
      (Statement.ensureCounter row.tenant).run db = (db, ⟨none, [], []⟩)

/-- A release or a reap deletes permits and takes just as many from their tenants'
counters; the second time there is nothing to take. -/
def RemovesOnce (db : AdmissionTables) : Prop :=
  ∀ statement : Statement, (statement = .reap ∨ ∃ permitId, statement = .release permitId) →
    let after := statement.run db
    (∀ tenant, after.1.inFlight tenant + (after.2.removed.countP fun e => e.2.tenant = tenant) =
      db.inFlight tenant) ∧
    (∀ permit ∈ after.2.removed, after.1.admissions.get permit.1 = none) ∧
    statement.run after.1 = (after.1, ⟨none, [], []⟩)

theorem readmitsIdly_of_balanced {claimed removed : List Permit}
    (balanced : Balanced quota claimed removed db) :
    ReadmitsIdly quota db := by
  intro permitId row found tenant
  have held : db.holds permitId = true := by
    unfold AdmissionTables.holds
    rw [found]
    rfl
  constructor
  · rcases db.claim_cases tenant permitId (quota tenant) with eq | ⟨_, _, _, _, _, fresh, _⟩
    · rw [Statement.run, eq, held]
    · rw [found] at fresh
      cases fresh
  · have counted : 0 < db.inFlight row.tenant := by
      rw [balanced.counter, AdmissionTables.live, List.countP_pos_iff]
      exact ⟨_, Table.get_eq_some.mp found, by simp⟩
    have there : (db.counters.get row.tenant).isSome := by
      unfold AdmissionTables.inFlight at counted
      rcases counter : db.counters.get row.tenant with _ | inFlight
      · rw [counter] at counted
        exact absurd counted (Nat.lt_irrefl 0)
      · rfl
    simp only [Statement.run, AdmissionTables.ensureCounter, there, if_true]

theorem removeRows_twice (db : AdmissionTables) (test : String → AdmissionRow → Bool) :
    (db.removeRows test).1.removeRows test = ((db.removeRows test).1, []) := by
  have none_left : ((db.removeRows test).1.admissions.entries.filter fun e => test e.1 e.2) = [] := by
    rw [List.filter_eq_nil_iff]
    intro e mem
    simpa [AdmissionTables.removeRows, Table.filter] using (List.mem_filter.mp mem).2
  have kept : ((db.removeRows test).1.admissions.filter fun k row => ¬ test k row) =
      (db.removeRows test).1.admissions := by
    apply Table.filter_eq_self
    intro k row found
    simpa using List.filter_eq_nil_iff.mp none_left _ (Table.get_eq_some.mp found)
  generalize (db.removeRows test).1 = after at none_left kept
  unfold AdmissionTables.removeRows
  rw [none_left, kept]
  simp [Table.update_eq_self]

theorem removesOnce_of_balanced {claimed removed : List Permit}
    (balanced : Balanced quota claimed removed db) : RemovesOnce db := by
  have rows : ∀ test, let after := db.removeRows test
      (∀ tenant, after.1.inFlight tenant + (after.2.countP fun e => e.2.tenant = tenant) =
        db.inFlight tenant) ∧
      (∀ permit ∈ after.2, after.1.admissions.get permit.1 = none) := by
    intro test
    constructor
    · intro tenant
      have live := db.live_removeRows test tenant
      rw [(balanced.removeRows test).counter, balanced.counter]
      exact live
    · intro permit mem
      obtain ⟨member, passes⟩ := List.mem_filter.mp mem
      have found : db.admissions.get permit.1 = some permit.2 := Table.get_eq_some.mpr member
      simp only [AdmissionTables.removeRows, Table.get_filter, found]
      simp [passes]
  intro statement kind
  obtain rfl | ⟨permitId, rfl⟩ := kind
  · obtain ⟨counts, gone⟩ := rows fun _ row => db.lapsed row
    refine ⟨counts, gone, ?_⟩
    have again := removeRows_twice db fun _ row => db.lapsed row
    simp only [Statement.run, AdmissionTables.reap_eq]
    exact congrArg (fun r => (r.1, (⟨none, [], r.2⟩ : Outcome))) again
  · simp only [Statement.run, AdmissionTables.release_eq]
    obtain ⟨counts, gone⟩ := rows fun k _ => k = permitId
    have again := removeRows_twice db fun k _ => k = permitId
    exact ⟨counts, gone, congrArg (fun r => (r.1, (⟨none, [], r.2⟩ : Outcome))) again⟩

/-! ## One caller at a time, and the twin in memory -/

namespace AdmissionTables

/-- The permits as the store in memory keeps them. -/
def permitMap (db : AdmissionTables) : PermitMap where
  entries := db.rights
  nodup := by
    rw [rights, List.map_map]
    exact db.admissions.nodup

theorem get_permitMap (db : AdmissionTables) (permitId : String) :
    db.permitMap.get permitId = (db.admissions.get permitId).map AdmissionRow.tenant := by
  simp only [Table.get, permitMap, rights, List.find?_map, Option.map_map]
  rfl

theorem permitMap_congr {db db' : AdmissionTables} (rights : db'.rights = db.rights) :
    db'.permitMap = db.permitMap := by
  simp only [permitMap, rights]

theorem permitMap_set {permitId : String} (row : AdmissionRow) (counters : Table String Nat)
    (fresh : db.admissions.get permitId = none) :
    ({ db with counters, admissions := db.admissions.set permitId row } :
      AdmissionTables).permitMap = db.permitMap.set permitId row.tenant := by
  have fresh' : db.permitMap.get permitId = none := by
    rw [get_permitMap, fresh]
    rfl
  apply Table.ext_entries
  rw [Table.entries_set_of_none fresh']
  simp only [permitMap, rights, Table.entries_set_of_none fresh, List.map_append]
  rfl

theorem permitMap_release (db : AdmissionTables) (permitId : String) :
    (db.release permitId).1.permitMap = db.permitMap.erase permitId := by
  apply Table.ext_entries
  rw [release_eq]
  simp only [permitMap, rights, removeRows, Table.filter, Table.erase, List.filter_map]
  congr 1
  apply List.filter_congr
  intro e _
  by_cases hit : e.1 = permitId <;> simp [right, hit]

theorem reap_of_lasting (lasting : ∀ e ∈ db.admissions.entries, db.lapsed e.2 = false) :
    db.reap = (db, []) := by
  have nothing : (db.admissions.entries.filter fun e => db.lapsed e.2) = [] := by
    rw [List.filter_eq_nil_iff]
    intro e mem
    simp [lasting e mem]
  have kept : (db.admissions.filter fun _ row => ¬ db.lapsed row) = db.admissions := by
    apply Table.filter_eq_self
    intro k row found
    simp [lasting _ (Table.get_eq_some.mp found)]
  unfold reap
  rw [nothing, kept]
  simp [Table.update_eq_self]

end AdmissionTables

theorem balanced_runAll {statements : List Statement}
    (asks : ∀ statement ∈ statements, statement.Asks quota)
    (balanced : ∃ claimed removed, Balanced quota claimed removed db) :
    ∃ claimed removed, Balanced quota claimed removed (runAll db statements).1 := by
  induction statements generalizing db with
  | nil => exact balanced
  | cons statement rest ih =>
      obtain ⟨claimed, removed, balanced⟩ := balanced
      have after := balanced.run (asks statement List.mem_cons_self)
      cases rest with
      | nil => exact ⟨_, _, after⟩
      | cons next rest =>
          exact ih (fun other mem => asks other (List.mem_cons_of_mem _ mem)) ⟨_, _, after⟩

/-- An admission under lasting leases is the one of the twin. -/
theorem tryAdmit_inMemory {claimed removed : List Permit}
    (balanced : Balanced quota claimed removed db) (tenant permitId : String)
    (lasting : ∀ e ∈ db.admissions.entries, db.lapsed e.2 = false) :
    let after := runAll db ((Call.tryAdmit tenant permitId).statements quota)
    db.permitMap.tryAdmit tenant permitId (quota tenant) =
      (after.1.permitMap, after.2.getD false) ∧ after.2.isSome := by
  have ensured : (db.ensureCounter tenant).admissions = db.admissions ∧
      (db.ensureCounter tenant).now = db.now ∧
      (db.ensureCounter tenant).counters.get tenant = some (db.live tenant) := by
    have counted := balanced.counter tenant
    unfold AdmissionTables.inFlight at counted
    unfold AdmissionTables.ensureCounter
    rcases counter : db.counters.get tenant with _ | inFlight
    · rw [counter] at counted
      simp [Table.get_set, ← counted]
    · rw [counter] at counted
      simp [counter, ← counted]
  obtain ⟨admissions, now, counter⟩ := ensured
  have rights := db.rights_ensureCounter tenant
  have still : (db.ensureCounter tenant).reap = (db.ensureCounter tenant, []) := by
    apply AdmissionTables.reap_of_lasting
    simpa [AdmissionTables.lapsed, admissions, now] using lasting
  have held : (db.permitMap.values.countP fun t => t = tenant) = db.live tenant := by
    simp only [Table.values, AdmissionTables.permitMap, AdmissionTables.rights, List.countP_map,
      AdmissionTables.live]
    rfl
  simp only [Call.statements, runAll, Statement.run, still]
  unfold PermitMap.tryAdmit AdmissionTables.claim
  rw [counter, db.get_permitMap]
  dsimp only
  rw [held]
  have holds : (db.ensureCounter tenant).holds permitId =
      (db.admissions.get permitId).isSome := by
    unfold AdmissionTables.holds
    rw [admissions]
  rw [holds]
  rcases found : db.admissions.get permitId with _ | row
  · have fresh : (db.ensureCounter tenant).admissions.get permitId = none := by
      rw [admissions, found]
    by_cases free : db.live tenant < quota tenant
    · have added := AdmissionTables.permitMap_set ⟨tenant, (db.ensureCounter tenant).now⟩
        ((db.ensureCounter tenant).counters.set tenant (db.live tenant + 1)) fresh
      simp [free, added, AdmissionTables.permitMap_congr rights]
    · simp [free, Nat.le_of_not_lt free, AdmissionTables.permitMap_congr rights]
  · simp [AdmissionTables.permitMap_congr rights]

/-- A call under lasting leases mirrors the one of the twin. -/
theorem step_inMemory {db db' : AdmissionTables} {permits : PermitMap} {e : SeqEvent}
    {o : Option Bool}
    (related : permits = db.permitMap ∧ ∃ claimed removed, Balanced quota claimed removed db)
    (lasting : Lasting db e) (step : sequential quota db e = some (db', o)) :
    ∃ permits', Always permits e ∧ inMemory quota permits e = some (permits', o) ∧
      (permits' = db'.permitMap ∧ ∃ claimed removed, Balanced quota claimed removed db') := by
  obtain ⟨rfl, claimed, removed, balanced⟩ := related
  cases e with
  | elapse seconds =>
      cases step
      exact ⟨_, trivial, rfl, rfl, _, _, balanced.of_same (fun _ => rfl) rfl⟩
  | call call =>
      have ran : runAll db (call.statements quota) = (db', o) := Option.some.inj step
      obtain ⟨rfl, rfl⟩ : (runAll db (call.statements quota)).1 = db' ∧
          (runAll db (call.statements quota)).2 = o := by
        rw [ran]
        exact ⟨rfl, rfl⟩
      have kept := balanced_runAll (call.asks quota) ⟨_, _, balanced⟩
      cases call with
      | tryAdmit tenant permitId =>
          obtain ⟨same, answered⟩ := tryAdmit_inMemory balanced tenant permitId lasting
          refine ⟨_, trivial, ?_, rfl, kept⟩
          obtain ⟨answer, answered⟩ := Option.isSome_iff_exists.mp answered
          rw [inMemory, same, answered]
          rfl
      | renewAdmissions permitIds =>
          refine ⟨_, trivial, ?_, rfl, kept⟩
          rw [Call.statements]
          split
          · rfl
          · simp only [inMemory, runAll, Statement.run,
              AdmissionTables.permitMap_congr (db.rights_renew permitIds)]
      | releaseAdmission permitId =>
          refine ⟨_, trivial, ?_, rfl, kept⟩
          simp only [inMemory, Call.statements, runAll, Statement.run, db.permitMap_release]

theorem answers_inMemory {es : List SeqEvent} {os : List (Option Bool)}
    (eq : exec (sequential quota) Lasting AdmissionTables.empty es = some (os, db)) :
    (exec (inMemory quota) Always Table.empty es).map Prod.fst = some os := by
  obtain ⟨permits, eq', -⟩ := exec_simulate
    (R := fun db permits => permits = db.permitMap ∧
      ∃ claimed removed, Balanced quota claimed removed db)
    (fun _ _ _ _ _ related lasting step => step_inMemory related lasting step)
    ⟨rfl, _, _, balanced_empty⟩ eq
  change (exec (inMemory quota) Always AdmissionTables.empty.permitMap es).map Prod.fst = some os
  rw [eq']
  rfl

/-! ## Permits are conserved -/

/-- Whatever the callers of a fleet send and in whatever order, every counter counts its
live permits and stays within the quota, a permit that is held is not counted again, and
one that is gone is taken back once. Calls that follow one another answer as the store in
memory does while no lease lapses. -/
theorem permits_conserved (quota : String → Nat) :
    (∀ log s, Runs (fleet quota) Always Fleet.empty log s →
      Conserved quota log s.db ∧ ReadmitsIdly quota s.db ∧ RemovesOnce s.db) ∧
    ∀ es os db, exec (sequential quota) Lasting AdmissionTables.empty es = some (os, db) →
      (exec (inMemory quota) Always Table.empty es).map Prod.fst = some os := by
  refine ⟨fun log s run => ?_, fun es os db eq => answers_inMemory eq⟩
  have balanced := (balanced_of_runs run).1
  exact ⟨balanced.conserved, readmitsIdly_of_balanced balanced, removesOnce_of_balanced balanced⟩

/-- Two replicas ask for one slot; the second goes in once the first has released its own. -/
theorem permits_conserved_handover :
    (∃ log s, Runs (fleet fun _ => 1) Always Fleet.empty log s ∧
      (claimedIn log).map Prod.fst = ["p1", "p2"] ∧ (removedIn log).map Prod.fst = ["p1"] ∧
      Conserved (fun _ => 1) log s.db ∧ ReadmitsIdly (fun _ => 1) s.db ∧ RemovesOnce s.db) ∧
    (exec (inMemory fun _ => 1) Always Table.empty
      [.call (.tryAdmit "acme" "p1"), .elapse 1800, .call (.tryAdmit "acme" "p2")]).map Prod.fst =
        some [some true, none, some false] := by
  obtain ⟨conserved, answers⟩ := permits_conserved fun _ => 1
  constructor
  · obtain ⟨log, s, run, handed⟩ := exists_log_of_exec (fleet fun _ => 1) Always Fleet.empty
      [.call 0 (.tryAdmit "acme" "p1"), .call 1 (.tryAdmit "acme" "p2"), .send 0, .send 1, .send 0,
        .send 1, .send 0, .send 1, .call 0 (.releaseAdmission "p1"), .send 0,
        .call 1 (.tryAdmit "acme" "p2"), .send 1, .send 1, .send 1]
      (fun log => (claimedIn log).map Prod.fst = ["p1", "p2"] ∧
        (removedIn log).map Prod.fst = ["p1"]) (by decide +kernel)
    obtain ⟨claimed, removed⟩ := of_decide_eq_true handed
    exact ⟨log, s, run, claimed, removed, conserved log s run⟩
  · have ran : (exec (sequential fun _ => 1) Lasting AdmissionTables.empty
        [.call (.tryAdmit "acme" "p1"), .elapse 1800, .call (.tryAdmit "acme" "p2")]).map
          Prod.fst = some [some true, none, some false] := by decide +kernel
    obtain ⟨⟨os, db⟩, ran, rfl⟩ := Option.map_eq_some_iff.mp ran
    exact answers _ _ _ ran

/-- A permit that is not renewed for half an hour is reaped in SQL, and only there. -/
theorem lapsed_lease_is_not_in_memory :
    ¬ ∀ (quota : String → Nat) (es : List SeqEvent),
      (exec (sequential quota) Always AdmissionTables.empty es).map Prod.fst =
        (exec (inMemory quota) Always Table.empty es).map Prod.fst := by
  intro same
  exact absurd (same (fun _ => 1) [.call (.tryAdmit "acme" "p1"), .elapse 1801,
    .call (.tryAdmit "acme" "p2")]) (by decide +kernel)

end Everdict.FleetPermits
