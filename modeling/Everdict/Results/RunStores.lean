import Everdict.Attempt.Parents

/-!
# The two run stores

A run record as the store in memory keeps it, and as the SQL store keeps its columns
(`RunRecord.row`).  `update` is one write in each: the store in memory spreads the patch
over the record behind a row of conditions, the SQL store builds the assignments and the
`WHERE` clause of one statement.  JSON documents are their texts, and what is derived on
read (the usage of a result) is no part of a record.

A patch that is `Settling` assigns columns the SQL store settles, and at least one; on such
patches the two stores do the same (`update_same`).
-/

namespace Everdict.Results

open Attempt (RunStatus ownerEpochColumn)

/-! ## Records, patches and guards -/

/-- A JSON document. -/
abbrev Document := String

structure RunError where
  code : String
  message : String
  deriving DecidableEq

/-- What a run is created with, and no settlement changes. -/
structure RunCreation where
  tenant : String
  harnessId : String
  harnessVersion : String
  caseId : String
  caseSpec : Option Document := none
  parentScorecardId : Option String := none
  trigger : Option String := none
  createdBy : Option String := none
  kind : Option String := none
  «class» : Option String := none
  visibility : Option String := none
  lifetime : Option String := none
  origin : Option Document := none
  envelope : Option Document := none
  placement : Option Document := none
  attach : Option Document := none
  group : Option Document := none
  webhookUrl : Option String := none
  executionId : Option String := none
  createdAt : String
  deriving DecidableEq

structure RunRecord extends RunCreation where
  id : String
  status : RunStatus
  result : Option Document := none
  error : Option RunError := none
  runtime : Option String := none
  lineage : Option Document := none
  outputs : Option Document := none
  session : Option Document := none
  ownerReplica : Option String := none
  ownerEpoch : Option Nat := none
  updatedAt : String
  deriving DecidableEq

/-- An optional field of a patch: the key is absent, or there with a value or `undefined`. -/
abbrev Field (α : Type) := Option (Option α)

structure RunCreationPatch where
  tenant : Option String := none
  harness : Option (String × String) := none
  caseId : Option String := none
  caseSpec : Field Document := none
  parentScorecardId : Field String := none
  trigger : Field String := none
  createdBy : Field String := none
  kind : Field String := none
  «class» : Field String := none
  visibility : Field String := none
  lifetime : Field String := none
  origin : Field Document := none
  envelope : Field Document := none
  placement : Field Document := none
  attach : Field Document := none
  group : Field Document := none
  webhookUrl : Field String := none
  executionId : Field String := none
  createdAt : Option String := none
  deriving DecidableEq

/-- `Partial<RunRecord>`; the id a patch carries is never used. -/
structure RunPatch where
  creation : RunCreationPatch := {}
  status : Option RunStatus := none
  result : Field Document := none
  error : Field RunError := none
  runtime : Field String := none
  lineage : Field Document := none
  outputs : Field Document := none
  session : Field Document := none
  ownerReplica : Field String := none
  ownerEpoch : Field Nat := none
  updatedAt : Option String := none
  deriving DecidableEq

structure RunScoringFence where
  scorecardId : String
  passId : String
  deriving DecidableEq

structure ParentDriver where
  scorecardId : String
  epoch : Nat
  deriving DecidableEq

structure RunUpdateGuard where
  scoring : Option RunScoringFence := none
  expectNonTerminal : Bool := false
  expectNotCancelled : Bool := false
  expectNoResult : Bool := false
  /-- `some none` expects that there is no owner. -/
  expectOwnerReplica : Option (Option String) := none
  expectOwnerEpoch : Option Nat := none
  claimOwnership : Bool := false
  parentDriver : Option ParentDriver := none
  requestCancellation : Bool := false
  deriving DecidableEq

structure ScoringMarker where
  passId : Option String := none
  status : Option String := none
  deriving DecidableEq

/-- What the fences read of a scorecard. -/
structure ScorecardOwner where
  scoringPass : Option ScoringMarker := none
  ownerEpoch : Option Nat := none
  deriving DecidableEq

abbrev Scorecards := Table String ScorecardOwner

def TERMINAL_RUN_STATUSES : List RunStatus := [.succeeded, .failed, .suspended]

def CANCELLED_ERROR_CODE : String := "CANCELLED"

/-! ## The store in memory -/

structure InMemoryRunStore where
  runs : Table String RunRecord := Table.empty
  /-- The scorecard store it is paired with. -/
  scorecards : Option Scorecards := none
  events : List String := []
  cancellations : List String := []

/-- The pass that owns a scorecard's marker while the marker is live. -/
def scoringPassOwner (scorecards : Scorecards) (scorecardId : String) : Option String :=
  match (scorecards.get scorecardId).bind (·.scoringPass) with
  | none => none
  | some live => if live.status = some "running" then live.passId else none

def parentStillDrives (owner : Option Scorecards) (parent : ParentDriver) : Bool :=
  match owner with
  | none => true
  | some scorecards =>
      match scorecards.get parent.scorecardId with
      | none => false
      | some row => row.ownerEpoch.getD 0 = parent.epoch

/-- None of the conditions in front of the write refuses it. -/
def RunUpdateGuard.allows (guard : RunUpdateGuard) (owner : Option Scorecards) (cur : RunRecord) :
    Bool :=
  (∀ fence ∈ guard.scoring, ∀ scorecards ∈ owner,
    scoringPassOwner scorecards fence.scorecardId = some fence.passId) ∧
  (∀ parent ∈ guard.parentDriver, parentStillDrives owner parent) ∧
  ¬ (guard.expectNonTerminal ∧ cur.status ∈ TERMINAL_RUN_STATUSES) ∧
  ¬ (guard.expectNotCancelled ∧ cur.error.map (·.code) = some CANCELLED_ERROR_CODE) ∧
  ¬ (guard.expectNoResult ∧ cur.result ≠ none) ∧
  (∀ replica ∈ guard.expectOwnerReplica, cur.ownerReplica = replica) ∧
  ∀ epoch ∈ guard.expectOwnerEpoch, cur.ownerEpoch.getD 0 = epoch

def RunCreationPatch.spread (patch : RunCreationPatch) (cur : RunCreation) : RunCreation where
  tenant := patch.tenant.getD cur.tenant
  harnessId := (patch.harness.map Prod.fst).getD cur.harnessId
  harnessVersion := (patch.harness.map Prod.snd).getD cur.harnessVersion
  caseId := patch.caseId.getD cur.caseId
  caseSpec := patch.caseSpec.getD cur.caseSpec
  parentScorecardId := patch.parentScorecardId.getD cur.parentScorecardId
  trigger := patch.trigger.getD cur.trigger
  createdBy := patch.createdBy.getD cur.createdBy
  kind := patch.kind.getD cur.kind
  «class» := patch.class.getD cur.class
  visibility := patch.visibility.getD cur.visibility
  lifetime := patch.lifetime.getD cur.lifetime
  origin := patch.origin.getD cur.origin
  envelope := patch.envelope.getD cur.envelope
  placement := patch.placement.getD cur.placement
  attach := patch.attach.getD cur.attach
  group := patch.group.getD cur.group
  webhookUrl := patch.webhookUrl.getD cur.webhookUrl
  executionId := patch.executionId.getD cur.executionId
  createdAt := patch.createdAt.getD cur.createdAt

/-- `{ ...cur, ...patch, ownerEpoch: claimed, id: cur.id }` -/
def RunPatch.spread (patch : RunPatch) (claim : Bool) (cur : RunRecord) : RunRecord where
  toRunCreation := patch.creation.spread cur.toRunCreation
  id := cur.id
  status := patch.status.getD cur.status
  result := patch.result.getD cur.result
  error := patch.error.getD cur.error
  runtime := patch.runtime.getD cur.runtime
  lineage := patch.lineage.getD cur.lineage
  outputs := patch.outputs.getD cur.outputs
  session := patch.session.getD cur.session
  ownerReplica := patch.ownerReplica.getD cur.ownerReplica
  ownerEpoch :=
    if claim then some (cur.ownerEpoch.getD 0 + 1) else patch.ownerEpoch.getD cur.ownerEpoch
  updatedAt := patch.updatedAt.getD cur.updatedAt

namespace InMemoryRunStore

def update (s : InMemoryRunStore) (id : String) (patch : RunPatch) (events : List String)
    (guard : RunUpdateGuard) : InMemoryRunStore × Option RunRecord :=
  match s.runs.get id with
  | none => (s, none)
  | some cur =>
      if guard.allows s.scorecards cur then
        let next := patch.spread guard.claimOwnership cur
        ({ s with
          runs := s.runs.set id next
          events := s.events ++ events
          cancellations := s.cancellations ++ (if guard.requestCancellation then [id] else []) },
          some next)
      else (s, none)

end InMemoryRunStore

/-! ## The SQL store -/

/-- A row of `everdict_runs`; what a run is created with has its columns as they are. -/
structure RunRow where
  creation : RunCreation
  id : String
  status : RunStatus
  result : Option Document
  error : Option RunError
  runtime : Option String
  lineage : Option Document
  outputs : Option Document
  session : Option Document
  owner_replica : Option String
  /-- `NOT NULL DEFAULT 0` -/
  owner_epoch : Nat
  updated_at : String
  deriving DecidableEq

/-- The columns of a record. -/
def RunRecord.row (r : RunRecord) : RunRow where
  creation := r.toRunCreation
  id := r.id
  status := r.status
  result := r.result
  error := r.error
  runtime := r.runtime
  lineage := r.lineage
  outputs := r.outputs
  session := r.session
  owner_replica := r.ownerReplica
  owner_epoch := ownerEpochColumn r.ownerEpoch
  updated_at := r.updatedAt

/-- A text that is read only where it is not empty. -/
def truthy (text : Option String) : Option String := text.filter (· ≠ "")

def rowToRecord (row : RunRow) : RunRecord where
  toRunCreation := { row.creation with
    kind := truthy row.creation.kind
    «class» := truthy row.creation.class
    lifetime := truthy row.creation.lifetime
    webhookUrl := truthy row.creation.webhookUrl
    executionId := truthy row.creation.executionId
    visibility := truthy row.creation.visibility }
  id := row.id
  status := row.status
  result := row.result
  error := row.error
  runtime := row.runtime
  lineage := row.lineage
  outputs := row.outputs
  session := row.session
  ownerReplica := truthy row.owner_replica
  ownerEpoch := some row.owner_epoch
  updatedAt := row.updated_at

structure PgRunStore where
  runs : Table String RunRow := Table.empty
  scorecards : Scorecards := Table.empty
  events : List String := []
  cancellations : List String := []

/-- `if (patch.field !== undefined)` the column is set. -/
def defined {α : Type} (field : Field α) : Option α := field.join

/-- The assignments are not empty. -/
def RunPatch.setsColumn (patch : RunPatch) (guard : RunUpdateGuard) : Bool :=
  patch.status.isSome ∨ (defined patch.result).isSome ∨ (defined patch.error).isSome ∨
    (defined patch.runtime).isSome ∨ (defined patch.outputs).isSome ∨
    (defined patch.lineage).isSome ∨ (defined patch.session).isSome ∨
    (defined patch.ownerReplica).isSome ∨ guard.claimOwnership ∨ patch.updatedAt.isSome

/-- `UPDATE everdict_runs SET …` on a row -/
def RunPatch.assign (patch : RunPatch) (claim : Bool) (row : RunRow) : RunRow :=
  { row with
    status := patch.status.getD row.status
    result := (defined patch.result).or row.result
    error := (defined patch.error).or row.error
    runtime := (defined patch.runtime).or row.runtime
    lineage := (defined patch.lineage).or row.lineage
    outputs := (defined patch.outputs).or row.outputs
    session := (defined patch.session).or row.session
    owner_replica := (defined patch.ownerReplica).or row.owner_replica
    owner_epoch := if claim then row.owner_epoch + 1 else row.owner_epoch
    updated_at := patch.updatedAt.getD row.updated_at }

/-- A comparison with `NULL` is not true. -/
def equals (column : Option String) (value : String) : Bool := column = some value

/-- `owner_replica IS NULL`, or equal to the owner -/
def ownerReplicaClause (column : Option String) : Option String → Bool
  | none => column.isNone
  | some owner => equals column owner

/-- The `EXISTS` over the parent's row -/
def parentClause (scorecards : Scorecards) (parent : ParentDriver) : Bool :=
  scorecards.entries.any fun e =>
    e.1 = parent.scorecardId ∧ ownerEpochColumn e.2.ownerEpoch = parent.epoch

/-- The `EXISTS` over the live marker of a pass -/
def scoringClause (scorecards : Scorecards) (fence : RunScoringFence) : Bool :=
  scorecards.entries.any fun e =>
    e.1 = fence.scorecardId ∧ equals (e.2.scoringPass.bind (·.passId)) fence.passId ∧
      equals (e.2.scoringPass.bind (·.status)) "running"

/-- The `WHERE` clause after the id -/
def RunUpdateGuard.fenceSql (guard : RunUpdateGuard) (scorecards : Scorecards) (row : RunRow) :
    Bool :=
  (guard.expectNonTerminal → row.status ∉ TERMINAL_RUN_STATUSES) ∧
  -- `IS DISTINCT FROM`
  (guard.expectNotCancelled → row.error.map (·.code) ≠ some CANCELLED_ERROR_CODE) ∧
  (guard.expectNoResult → row.result = none) ∧
  (∀ owner ∈ guard.expectOwnerReplica, ownerReplicaClause row.owner_replica owner) ∧
  (∀ epoch ∈ guard.expectOwnerEpoch, row.owner_epoch = epoch) ∧
  (∀ parent ∈ guard.parentDriver, parentClause scorecards parent) ∧
  ∀ fence ∈ guard.scoring, scoringClause scorecards fence

namespace PgRunStore

def getOn (s : PgRunStore) (id : String) : Option RunRecord := (s.runs.get id).map rowToRecord

def updateOn (s : PgRunStore) (id : String) (patch : RunPatch) (events : List String)
    (guard : RunUpdateGuard) : PgRunStore × Option RunRecord :=
  if patch.setsColumn guard then
    match s.runs.get id with
    | none => (s, none)
    | some row =>
        if guard.fenceSql s.scorecards row then
          let next := patch.assign guard.claimOwnership row
          ({ s with
            runs := s.runs.set id next
            events := s.events ++ events
            cancellations := s.cancellations ++ (if guard.requestCancellation then [id] else []) },
            some (rowToRecord next))
        else (s, none)
  else (s, s.getOn id)

end PgRunStore

/-! ## Where the two stores agree -/

/-- A store in memory, paired with the scorecards, and a database with the same content. -/
structure Same (s : InMemoryRunStore) (db : PgRunStore) : Prop where
  scorecards : s.scorecards = some db.scorecards
  runs : ∀ id, db.runs.get id = (s.runs.get id).map RunRecord.row
  events : db.events = s.events
  cancellations : db.cancellations = s.cancellations

/-- The patch sets columns the SQL store settles, to values, and at least one of them. -/
structure Settling (patch : RunPatch) (guard : RunUpdateGuard) : Prop where
  creation : patch.creation = {}
  ownerEpoch : patch.ownerEpoch = none
  result : patch.result ≠ some none
  error : patch.error ≠ some none
  runtime : patch.runtime ≠ some none
  lineage : patch.lineage ≠ some none
  outputs : patch.outputs ≠ some none
  session : patch.session ≠ some none
  ownerReplica : patch.ownerReplica ≠ some none
  sets : patch.setsColumn guard = true

variable {s : InMemoryRunStore} {db : PgRunStore} {patch : RunPatch} {guard : RunUpdateGuard}

theorem spread_empty (creation : RunCreation) :
    ({} : RunCreationPatch).spread creation = creation := rfl

/-- A field that is absent or has a value is spread as the column is set. -/
theorem defined_or {α : Type} {field : Field α} (value : field ≠ some none) (cur : Option α) :
    (defined field).or cur = field.getD cur := by
  rcases field with _ | _ | v
  · rfl
  · exact absurd rfl value
  · rfl

theorem row_spread (settling : Settling patch guard) (claim : Bool) (cur : RunRecord) :
    (patch.spread claim cur).row = patch.assign claim cur.row := by
  unfold RunRecord.row RunPatch.assign RunPatch.spread
  simp only [settling.creation, spread_empty, settling.ownerEpoch, defined_or settling.result,
    defined_or settling.error, defined_or settling.runtime, defined_or settling.lineage,
    defined_or settling.outputs, defined_or settling.session, defined_or settling.ownerReplica,
    RunRow.mk.injEq, true_and, and_true]
  cases claim <;> rfl

theorem parentStillDrives_eq (scorecards : Scorecards) (parent : ParentDriver) :
    parentStillDrives (some scorecards) parent = parentClause scorecards parent := by
  have found : parentClause scorecards parent = true ↔
      ∃ row, scorecards.get parent.scorecardId = some row ∧
        ownerEpochColumn row.ownerEpoch = parent.epoch := by
    simp [parentClause, Table.get_eq_some]
  rw [Bool.eq_iff_iff, found, parentStillDrives]
  cases scorecards.get parent.scorecardId <;> simp [ownerEpochColumn]

theorem scoringPassOwner_iff (scorecards : Scorecards) (fence : RunScoringFence) :
    scoringPassOwner scorecards fence.scorecardId = some fence.passId ↔
      scoringClause scorecards fence = true := by
  have found : scoringClause scorecards fence = true ↔
      ∃ row, scorecards.get fence.scorecardId = some row ∧
        row.scoringPass.bind (·.passId) = some fence.passId ∧
        row.scoringPass.bind (·.status) = some "running" := by
    simp [scoringClause, equals, Table.get_eq_some]
  rw [found, scoringPassOwner]
  rcases scorecards.get fence.scorecardId with _ | ⟨_ | live, epoch⟩
  · simp
  · simp
  · by_cases running : live.status = some "running" <;> simp [running]

theorem ownerReplicaClause_iff (column expected : Option String) :
    ownerReplicaClause column expected = true ↔ column = expected := by
  cases expected <;> simp [ownerReplicaClause, equals]

/-- The conditions in memory are the clause, over the columns of the record. -/
theorem allows_eq (guard : RunUpdateGuard) (scorecards : Scorecards) (cur : RunRecord) :
    guard.allows (some scorecards) cur = guard.fenceSql scorecards cur.row := by
  rw [Bool.eq_iff_iff]
  simp only [RunUpdateGuard.allows, RunUpdateGuard.fenceSql, RunRecord.row, decide_eq_true_eq,
    Option.mem_some_iff, forall_eq', parentStillDrives_eq, scoringPassOwner_iff,
    ownerReplicaClause_iff, ownerEpochColumn, not_and, not_not]
  tauto

/-- What a record reads as once it has been through the columns. -/
def RunRecord.stored (r : RunRecord) : RunRecord := rowToRecord r.row

theorem Same.allows (same : Same s db) (guard : RunUpdateGuard) (cur : RunRecord) :
    guard.allows s.scorecards cur = guard.fenceSql db.scorecards cur.row := by
  rw [same.scorecards, allows_eq]

/-- A write of any patch that sets a column lands in both stores or in neither, with its facts and
its cancellation. -/
theorem update_lands (same : Same s db) (sets : patch.setsColumn guard = true) (id : String)
    (events : List String) :
    (db.updateOn id patch events guard).2.isSome = (s.update id patch events guard).2.isSome ∧
      (db.updateOn id patch events guard).1.events = (s.update id patch events guard).1.events ∧
      (db.updateOn id patch events guard).1.cancellations =
        (s.update id patch events guard).1.cancellations := by
  unfold InMemoryRunStore.update PgRunStore.updateOn
  rw [if_pos sets, same.runs id]
  rcases s.runs.get id with _ | cur
  · exact ⟨rfl, same.events, same.cancellations⟩
  simp only [Option.map_some, same.allows]
  split
  · exact ⟨rfl, congrArg (· ++ events) same.events, congrArg (· ++ _) same.cancellations⟩
  · exact ⟨rfl, same.events, same.cancellations⟩

theorem update_same (same : Same s db) (settling : Settling patch guard) (id : String)
    (events : List String) :
    Same (s.update id patch events guard).1 (db.updateOn id patch events guard).1 ∧
      (db.updateOn id patch events guard).2 =
        (s.update id patch events guard).2.map RunRecord.stored := by
  unfold InMemoryRunStore.update PgRunStore.updateOn
  rw [if_pos settling.sets, same.runs id]
  rcases found : s.runs.get id with _ | cur
  · exact ⟨same, rfl⟩
  simp only [Option.map_some, same.allows]
  split
  · rw [← row_spread settling]
    refine ⟨⟨same.scorecards, ?_, ?_, ?_⟩, rfl⟩
    · intro id'
      simp only [Table.get_set, same.runs id']
      split <;> rfl
    · simp only [same.events]
    · simp only [same.cancellations]
  · exact ⟨same, rfl⟩

end Everdict.Results
