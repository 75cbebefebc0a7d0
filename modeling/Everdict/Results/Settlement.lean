import Everdict.Attempt.InMemory
import Everdict.Cleanup.Ledger
import Everdict.Results.RunFence

/-!
# A settlement and its riders

`settleRun` with the attempt stamp and the artifact release that may ride it.  The SQL store
runs them in one transaction; the store in memory stamps first, writes, and takes the stamp
of a refused write back with a transition to `superseded`.  A stamp and a release are any
programs over their ledger, that may throw with part of their work done.
-/

namespace Everdict.Results

open Attempt (Ledger RunStatus transitionUnsafe applyPatch)

/-- What a program did to its ledger, and what it threw. -/
abbrev Program (σ : Type) := σ → σ × Option String

structure AttemptStamp where
  attemptId : String
  apply : Program Ledger

structure CleanupRelease where
  apply : Program Cleanup.Debts

structure Riders where
  stamp : Option AttemptStamp := none
  release : Option CleanupRelease := none

inductive Settlement where
  | record (r : RunRecord)
  /-- `undefined` -/
  | refused
  | threw (error : String)
  deriving DecidableEq

def Settlement.of : Option RunRecord → Settlement
  | some r => .record r
  | none => .refused

/-- Run a rider, if there is one. -/
def ride {σ : Type} (program : Option (Program σ)) (ledger : σ) : σ × Option String :=
  match program with
  | none => (ledger, none)
  | some program => program ledger

/-! ## In memory -/

structure MemoryStores where
  runs : InMemoryRunStore
  attempts : Ledger
  cleanup : Cleanup.Debts

/-- `stamp.attempts.transition(stamp.attemptId, "superseded")` -/
def takeBack (attempts : Ledger) (attemptId now : String) : Ledger :=
  Attempt.put attempts attemptId
    (transitionUnsafe attemptId (attempts.get attemptId) .superseded {} .unwired now).1

/-- The outbox took the facts of a write that landed, or threw after it. -/
def afterAppend (settled : Option RunRecord) (events : List String) (outbox : Option String) :
    Settlement :=
  match settled, outbox with
  | some r, some error => if events = [] then .record r else .threw error
  | some r, none => .record r
  | none, _ => .refused

namespace MemoryStores

/-- The fenced write alone. -/
def update (s : MemoryStores) (id : String) (patch : RunPatch) (events : List String)
    (guard : RunUpdateGuard) (outbox : Option String) : MemoryStores × Settlement :=
  let (runs, settled) := s.runs.update id patch events guard
  ({ s with runs }, afterAppend settled events outbox)

/-- `InMemoryRunStore.settleWith`, which has no parameter for a release. -/
def settleWith (s : MemoryStores) (id : String) (patch : RunPatch) (events : List String)
    (guard : RunUpdateGuard) (stamp : Option AttemptStamp) (outbox : Option String)
    (now : String) : MemoryStores × Settlement :=
  match stamp with
  | none => (s, .threw "Cannot read properties of undefined (reading 'apply')")
  | some stamp =>
      match stamp.apply s.attempts with
      | (attempts, some error) => ({ s with attempts }, .threw error)
      | (attempts, none) =>
          let (written, settled) := { s with attempts }.update id patch events guard outbox
          match settled with
          | .refused =>
              ({ written with attempts := takeBack attempts stamp.attemptId now }, .refused)
          | settled => (written, settled)

def settleRun (s : MemoryStores) (id : String) (patch : RunPatch) (events : List String)
    (opts : SettleOptions) (riders : Riders) (outbox : Option String) (now : String) :
    MemoryStores × Settlement :=
  if riders.stamp.isSome ∨ riders.release.isSome then
    s.settleWith id patch events opts.guard riders.stamp outbox now
  else s.update id patch events opts.guard outbox

end MemoryStores

/-! ## In the database -/

structure Database where
  runs : PgRunStore
  attempts : Ledger
  cleanup : Cleanup.Debts

namespace Database

/-- The body of the transaction: what it leaves, or the error that rolls it back. -/
def settling (db : Database) (id : String) (patch : RunPatch) (events : List String)
    (guard : RunUpdateGuard) (riders : Riders) : Database × Settlement :=
  match ride (riders.stamp.map (·.apply)) db.attempts with
  | (_, some error) => (db, .threw error)
  | (attempts, none) =>
      match db.runs.updateOn id patch events guard with
      -- the signal that rolls the stamp back
      | (_, none) => (db, .refused)
      | (runs, some settled) =>
          match ride (riders.release.map (·.apply)) db.cleanup with
          | (_, some error) => (db, .threw error)
          | (cleanup, none) => ({ runs, attempts, cleanup }, .record settled)

def settleRun (db : Database) (id : String) (patch : RunPatch) (events : List String)
    (opts : SettleOptions) (riders : Riders) : Database × Settlement :=
  if riders.stamp.isSome ∨ riders.release.isSome then db.settling id patch events opts.guard riders
  else
    let (runs, settled) := db.runs.updateOn id patch events opts.guard
    ({ db with runs }, .of settled)

end Database

/-! ## What a settlement did -/

/-- The fenced write landed in memory. -/
def Landed (before after : InMemoryRunStore) (id : String) (patch : RunPatch)
    (guard : RunUpdateGuard) (r : RunRecord) : Prop :=
  ∃ cur, before.runs.get id = some cur ∧ guard.allows before.scorecards cur = true ∧
    r = patch.spread guard.claimOwnership cur ∧ after.runs = before.runs.set id r

/-- The fenced write landed in the database. -/
def PgLanded (before after : PgRunStore) (id : String) (patch : RunPatch) (guard : RunUpdateGuard)
    (r : RunRecord) : Prop :=
  ∃ row, before.runs.get id = some row ∧ guard.fenceSql before.scorecards row = true ∧
    r = rowToRecord (patch.assign guard.claimOwnership row) ∧
    after.runs = before.runs.set id (patch.assign guard.claimOwnership row)

variable {events : List String} {patch : RunPatch} {guard : RunUpdateGuard} {id : String}

theorem update_landed {s t : InMemoryRunStore} {r : RunRecord}
    (eq : s.update id patch events guard = (t, some r)) :
    Landed s t id patch guard r := by
  unfold InMemoryRunStore.update at eq
  rcases found : s.runs.get id with _ | cur
  · rw [found] at eq
    cases eq
  · rw [found] at eq
    dsimp only at eq
    split at eq
    · next allowed =>
        obtain ⟨rfl, same⟩ := Prod.mk.inj eq
        obtain rfl := Option.some.inj same
        exact ⟨cur, found, allowed, rfl, rfl⟩
    · cases eq

theorem update_refused {s t : InMemoryRunStore} (eq : s.update id patch events guard = (t, none)) :
    t = s := by
  unfold InMemoryRunStore.update at eq
  rcases found : s.runs.get id with _ | cur
  · rw [found] at eq
    exact (Prod.mk.inj eq).1.symm
  · rw [found] at eq
    dsimp only at eq
    split at eq
    · cases eq
    · exact (Prod.mk.inj eq).1.symm

theorem updateOn_landed {db t : PgRunStore} {r : RunRecord} (sets : patch.setsColumn guard = true)
    (eq : db.updateOn id patch events guard = (t, some r)) :
    PgLanded db t id patch guard r := by
  unfold PgRunStore.updateOn at eq
  rw [if_pos sets] at eq
  rcases found : db.runs.get id with _ | row
  · rw [found] at eq
    cases eq
  · rw [found] at eq
    dsimp only at eq
    split at eq
    · next allowed =>
        obtain ⟨rfl, same⟩ := Prod.mk.inj eq
        exact ⟨row, found, allowed, (Option.some.inj same).symm, rfl⟩
    · cases eq

theorem updateOn_refused {db t : PgRunStore} (eq : db.updateOn id patch events guard = (t, none)) :
    t = db := by
  unfold PgRunStore.updateOn at eq
  split at eq
  · rcases found : db.runs.get id with _ | row
    · rw [found] at eq
      exact (Prod.mk.inj eq).1.symm
    · rw [found] at eq
      dsimp only at eq
      split at eq
      · cases eq
      · exact (Prod.mk.inj eq).1.symm
  · exact (Prod.mk.inj eq).1.symm

/-! ### In the database -/

/-- Everything took effect with the record, or nothing did. -/
structure AllOrNothing (db db' : Database) (id : String) (patch : RunPatch)
    (guard : RunUpdateGuard) (riders : Riders) (settled : Settlement) : Prop where
  record : ∀ r, settled = .record r → PgLanded db.runs db'.runs id patch guard r ∧
    ride (riders.stamp.map (·.apply)) db.attempts = (db'.attempts, none) ∧
    ride (riders.release.map (·.apply)) db.cleanup = (db'.cleanup, none)
  otherwise : (∀ r, settled ≠ .record r) → db' = db

variable {settled : Settlement}

theorem settling_allOrNothing {db db' : Database} {riders : Riders}
    (sets : patch.setsColumn guard = true)
    (eq : db.settling id patch events guard riders = (db', settled)) :
    AllOrNothing db db' id patch guard riders settled := by
  unfold Database.settling at eq
  rcases stamped : ride (riders.stamp.map (·.apply)) db.attempts with ⟨attempts, _ | error⟩
  · rw [stamped] at eq
    dsimp only at eq
    rcases written : db.runs.updateOn id patch events guard with ⟨runs, _ | r⟩
    · rw [written] at eq
      obtain ⟨rfl, rfl⟩ := Prod.mk.inj eq
      exact ⟨fun r same => Settlement.noConfusion same, fun _ => rfl⟩
    · rw [written] at eq
      dsimp only at eq
      rcases freed : ride (riders.release.map (·.apply)) db.cleanup with ⟨cleanup, _ | error⟩
      · rw [freed] at eq
        obtain ⟨rfl, rfl⟩ := Prod.mk.inj eq
        refine ⟨?_, fun none => absurd rfl (none r)⟩
        intro r' same
        obtain rfl := Settlement.record.inj same
        exact ⟨updateOn_landed sets written, stamped, freed⟩
      · rw [freed] at eq
        obtain ⟨rfl, rfl⟩ := Prod.mk.inj eq
        exact ⟨fun r same => Settlement.noConfusion same, fun _ => rfl⟩
  · rw [stamped] at eq
    obtain ⟨rfl, rfl⟩ := Prod.mk.inj eq
    exact ⟨fun r same => Settlement.noConfusion same, fun _ => rfl⟩

theorem settleRun_allOrNothing {db db' : Database} {opts : SettleOptions} {riders : Riders}
    (sets : patch.setsColumn opts.guard = true)
    (eq : db.settleRun id patch events opts riders = (db', settled)) :
    AllOrNothing db db' id patch opts.guard riders settled := by
  unfold Database.settleRun at eq
  split at eq
  · exact settling_allOrNothing sets eq
  · next alone =>
      obtain ⟨_ | stamp, _ | release⟩ := riders
      · rcases written : db.runs.updateOn id patch events opts.guard with ⟨runs, _ | r⟩
        · rw [written] at eq
          obtain ⟨rfl, rfl⟩ := Prod.mk.inj eq
          refine ⟨fun r same => Settlement.noConfusion same, fun _ => ?_⟩
          rw [updateOn_refused written]
        · rw [written] at eq
          obtain ⟨rfl, rfl⟩ := Prod.mk.inj eq
          refine ⟨?_, fun none => absurd rfl (none r)⟩
          intro r' same
          obtain rfl := Settlement.record.inj same
          exact ⟨updateOn_landed sets written, rfl, rfl⟩
      all_goals simp at alone

/-! ### In memory -/

/-- The named row was moved to `superseded` if it was still open, and no other row changed. -/
structure TakenBack (stamped attempts : Ledger) (attemptId : String) : Prop where
  others : ∀ other, other ≠ attemptId → attempts.get other = stamped.get other
  absent : stamped.get attemptId = none → attempts.get attemptId = none
  superseded : ∀ row, stamped.get attemptId = some row → ¬ isTerminalAttemptState row.state →
    ∃ row', attempts.get attemptId = some row' ∧ row'.state = .superseded

theorem takeBack_takenBack (stamped : Ledger) (attemptId now : String) :
    TakenBack stamped (takeBack stamped attemptId now) attemptId := by
  rcases found : stamped.get attemptId with _ | row
  · have same : takeBack stamped attemptId now = stamped := by
      unfold takeBack
      rw [found]
      rfl
    rw [same]
    refine ⟨fun _ _ => rfl, fun _ => found, ?_⟩
    intro row present
    rw [found] at present
    cases present
  · rcases ended : isTerminalAttemptState row.state with _ | _
    · have written : takeBack stamped attemptId now =
          stamped.set attemptId (applyPatch row .superseded {} now) := by
        unfold takeBack transitionUnsafe
        rw [found]
        simp [ended, Attempt.put]
      rw [written]
      refine ⟨?_, ?_, ?_⟩
      · intro other apart
        rw [Table.get_set, if_neg apart]
      · intro none
        rw [found] at none
        cases none
      · intro _ _ _
        exact ⟨_, by rw [Table.get_set, if_pos rfl], rfl⟩
    · have same : takeBack stamped attemptId now = stamped := by
        unfold takeBack transitionUnsafe
        rw [found]
        simp [ended, Attempt.put]
      rw [same]
      refine ⟨fun _ _ => rfl, ?_, ?_⟩
      · intro none
        rw [found] at none
        cases none
      · intro row' present alive
        rw [found] at present
        obtain rfl := Option.some.inj present
        exact absurd ended alive

/-- The stamp goes first, then the write: a record carries both, a refused write takes the
stamp back, and a stamp that throws lets no write happen. -/
structure StampThenWrite (s s' : MemoryStores) (id : String) (patch : RunPatch)
    (guard : RunUpdateGuard) (stamp : Option AttemptStamp) (settled : Settlement)
    (outbox : Option String) : Prop where
  cleanup : s'.cleanup = s.cleanup
  record : ∀ r, settled = .record r → Landed s.runs s'.runs id patch guard r ∧
    ride (stamp.map (·.apply)) s.attempts = (s'.attempts, none)
  refused : settled = .refused → s'.runs = s.runs ∧
    (stamp = none → s'.attempts = s.attempts) ∧
    ∀ rider, stamp = some rider → ∃ stamped, rider.apply s.attempts = (stamped, none) ∧
      TakenBack stamped s'.attempts rider.attemptId
  threw : ∀ error, settled = .threw error → outbox = none → s'.runs = s.runs ∧
    ∃ rider, stamp = some rider ∧ rider.apply s.attempts = (s'.attempts, some error)

theorem update_stampThenWrite {s s' : MemoryStores} {outbox : Option String}
    (eq : s.update id patch events guard outbox = (s', settled)) :
    StampThenWrite s s' id patch guard none settled outbox := by
  unfold MemoryStores.update at eq
  rcases written : s.runs.update id patch events guard with ⟨runs, _ | r⟩
  · rw [written] at eq
    obtain ⟨rfl, rfl⟩ := Prod.mk.inj eq
    refine ⟨rfl, ?_, ?_, ?_⟩
    · intro r same
      cases same
    · intro _
      refine ⟨update_refused written, fun _ => rfl, ?_⟩
      intro rider same
      cases same
    · intro error same
      cases same
  · rw [written] at eq
    obtain ⟨rfl, rfl⟩ := Prod.mk.inj eq
    refine ⟨rfl, ?_, ?_, ?_⟩
    · intro r' same
      have kept : r = r' := by
        cases outbox with
        | none => exact Settlement.record.inj same
        | some error =>
            simp only [afterAppend] at same
            split at same
            · exact Settlement.record.inj same
            · cases same
      obtain rfl := kept
      exact ⟨update_landed written, rfl⟩
    · intro same
      cases outbox with
      | none => cases same
      | some error =>
          simp only [afterAppend] at same
          split at same <;> cases same
    · intro error same none
      subst none
      cases same

theorem settleWith_stampThenWrite {s s' : MemoryStores} {rider : AttemptStamp}
    {outbox : Option String} {now : String}
    (eq : s.settleWith id patch events guard (some rider) outbox now = (s', settled)) :
    StampThenWrite s s' id patch guard (some rider) settled outbox := by
  unfold MemoryStores.settleWith at eq
  dsimp only at eq
  rcases stamped : rider.apply s.attempts with ⟨attempts, _ | error⟩
  · rw [stamped] at eq
    dsimp only at eq
    rcases written : ({ s with attempts } : MemoryStores).update id patch events guard outbox with
      ⟨after, answer⟩
    have wrote := update_stampThenWrite written
    have same : after.attempts = attempts := by
      unfold MemoryStores.update at written
      rw [← (Prod.mk.inj written).1]
    rw [written] at eq
    cases answer with
    | record r =>
        obtain ⟨rfl, rfl⟩ := Prod.mk.inj eq
        refine ⟨wrote.cleanup, ?_, ?_, ?_⟩
        · intro r' kept
          obtain ⟨landed, -⟩ := wrote.record r' kept
          refine ⟨landed, ?_⟩
          rw [same]
          exact stamped
        · intro refused
          cases refused
        · intro error threw
          cases threw
    | refused =>
        obtain ⟨rfl, rfl⟩ := Prod.mk.inj eq
        refine ⟨wrote.cleanup, ?_, ?_, ?_⟩
        · intro r kept
          cases kept
        · intro _
          refine ⟨(wrote.refused rfl).1, fun bare => (Option.some_ne_none rider bare).elim, ?_⟩
          intro rider' named
          obtain rfl := Option.some.inj named
          exact ⟨attempts, stamped, takeBack_takenBack attempts rider.attemptId now⟩
        · intro error threw
          cases threw
    | threw error =>
        obtain ⟨rfl, rfl⟩ := Prod.mk.inj eq
        refine ⟨wrote.cleanup, ?_, ?_, ?_⟩
        · intro r kept
          cases kept
        · intro refused
          cases refused
        · intro error' _ none
          obtain ⟨-, _, absurdly, -⟩ := wrote.threw error rfl none
          cases absurdly
  · rw [stamped] at eq
    obtain ⟨rfl, rfl⟩ := Prod.mk.inj eq
    refine ⟨rfl, ?_, ?_, ?_⟩
    · intro r kept
      cases kept
    · intro refused
      cases refused
    · intro error' threw _
      obtain rfl := Settlement.threw.inj threw
      exact ⟨rfl, rider, rfl, stamped⟩

theorem settleRun_stampThenWrite {s s' : MemoryStores} {opts : SettleOptions} {riders : Riders}
    {outbox : Option String} {now : String} (unreleased : riders.release = none)
    (eq : s.settleRun id patch events opts riders outbox now = (s', settled)) :
    StampThenWrite s s' id patch opts.guard riders.stamp settled outbox := by
  unfold MemoryStores.settleRun at eq
  obtain ⟨_ | rider, release⟩ := riders
  · obtain rfl : release = none := unreleased
    exact update_stampThenWrite eq
  · exact settleWith_stampThenWrite eq

/-- In the database a settlement that sets a column takes effect with its stamp and its
release or leaves every row as it was.  In memory, where nothing releases, a record carries
the write and the stamp, and otherwise no run and no debt changed and the stamp was the only
effect: taken back by `superseded` after a refusal, left as it threw. -/
theorem settles_all_or_takes_back :
    (∀ (db db' : Database) id patch events opts riders settled,
      patch.setsColumn opts.guard = true →
      db.settleRun id patch events opts riders = (db', settled) →
      AllOrNothing db db' id patch opts.guard riders settled) ∧
    (∀ (s s' : MemoryStores) id patch events opts riders outbox now settled,
      riders.release = none →
      s.settleRun id patch events opts riders outbox now = (s', settled) →
      StampThenWrite s s' id patch opts.guard riders.stamp settled outbox) := by
  refine ⟨?_, ?_⟩
  · intro db db' id patch events opts riders settled sets eq
    exact settleRun_allOrNothing sets eq
  · intro s s' id patch events opts riders outbox now settled unreleased eq
    exact settleRun_stampThenWrite unreleased eq

/-- The stamp that moves an attempt: a refused transition is its silent answer. -/
def stampTo (attemptId : String) (target : AttemptState) (now : String) : AttemptStamp where
  attemptId
  apply attempts :=
    (Attempt.put attempts attemptId
      (transitionUnsafe attemptId (attempts.get attemptId) target {} .unwired now).1, none)

def attemptIn (state : AttemptState) : Ledger :=
  Table.empty.set "a-1"
    { attemptId := "a-1", executionId := "run-1", generation := 1, tenant := "acme",
      scorecardId := none, caseId := none, trial := none, childRunId := some "run-1",
      driverEpoch := none, leaseEpoch := none, state, unisolated := false, error := none,
      runtimeWork := none, openedAt := "t0", updatedAt := "t0" }

/-- One run and one attempt of it, in both stores. -/
def memoryWith (status : RunStatus) (state : AttemptState) : MemoryStores where
  runs := { runs := Table.empty.set "run-1" { settledRun with status } }
  attempts := attemptIn state
  cleanup := Table.empty

def databaseWith (status : RunStatus) (state : AttemptState) : Database where
  runs := { runs := Table.empty.set "run-1" ({ settledRun with status } : RunRecord).row }
  attempts := attemptIn state
  cleanup := Table.empty

def failing : Riders := { stamp := some (stampTo "a-1" .failed "t2") }

theorem settles_all_or_takes_back_late :
    ((databaseWith .succeeded .executing).settleRun "run-1" lateFailure [] {} failing).1 =
        databaseWith .succeeded .executing ∧
      ((memoryWith .succeeded .executing).settleRun "run-1" lateFailure [] {} failing none
        "t3").1.runs = (memoryWith .succeeded .executing).runs := by
  obtain ⟨database, memory⟩ := settles_all_or_takes_back
  refine ⟨?_, ?_⟩
  · apply (database (databaseWith .succeeded .executing) _ "run-1" lateFailure [] {} failing _
      rfl rfl).otherwise
    intro r same
    cases same
  · apply And.left
    apply (memory (memoryWith .succeeded .executing) _ "run-1" lateFailure [] {} failing none "t3"
      _ rfl rfl).refused
    decide +kernel

/-- As the claim has it, over every ledger: a record does not say that the attempt moved, in
either store, and in memory a refusal leaves a stamped attempt superseded. -/
theorem record_over_refused_stamp :
    (¬ ∀ (db db' : Database) id patch events opts attemptId target now r,
      db.settleRun id patch events opts { stamp := some (stampTo attemptId target now) } =
        (db', .record r) →
      (db'.attempts.get attemptId).map (·.state) = some target) ∧
    (¬ ∀ (s s' : MemoryStores) id patch events opts outbox attemptId target now r,
      s.settleRun id patch events opts { stamp := some (stampTo attemptId target now) } outbox
        now = (s', .record r) →
      (s'.attempts.get attemptId).map (·.state) = some target) ∧
    (¬ ∀ (s s' : MemoryStores) id patch events opts riders outbox now,
      s.settleRun id patch events opts riders outbox now = (s', .refused) →
      s'.attempts = s.attempts) := by
  refine ⟨?_, ?_, ?_⟩
  · intro all
    have moved := all (databaseWith .running .superseded) _ "run-1" lateFailure [] {} "a-1"
      .failed "t2" _ rfl
    revert moved
    decide +kernel
  · intro all
    have moved := all (memoryWith .running .superseded) _ "run-1" lateFailure [] {} none "a-1"
      .failed "t2" _ rfl
    revert moved
    decide +kernel
  · intro all
    have kept := all (memoryWith .succeeded .reserved) _ "run-1" lateFailure [] {}
      { stamp := some (stampTo "a-1" .executing "t2") } none "t3" rfl
    have state := congrArg (fun attempts => (attempts.get "a-1").map (·.state)) kept
    revert state
    decide +kernel

end Everdict.Results
