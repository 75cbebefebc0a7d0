import Everdict.Sorting
import Everdict.Table
import Everdict.Transition

/-!
# The two ledgers of created worlds

A world the platform made is a row that moves from `creating` to `released`; a shared world
is a row under a key that the cases of a batch enter and leave.  The key is free again once
its row is released, so it names a succession of rows.

The in-memory ledger keeps its rows under `tenant::id` and points from `tenant::shared::key`
to the latest row of the key; the Postgres ledger has one table with `id` as its primary key
and finds a row by its columns.  A statement without `ORDER BY` returns its rows in the order
of the scan, which the caller of a step chooses (`Scan`).  Time is in milliseconds, and one
clock serves both.
-/

namespace Everdict.SharedWorld

open Sorting

inductive CreatedWorldState
  | creating
  | created
  | releasing
  | released
  | unknown
  deriving DecidableEq

/-- `CreatedWorldRecord`; a service is the text of its JSON. -/
structure World where
  id : String
  tenant : String
  runId : String
  environment : String
  state : CreatedWorldState
  services : List String
  target : Option String
  sharedKey : Option String
  endpoints : Option (List (String × String))
  holders : Nat
  expiresAt : Option Int
  attempts : Nat
  detail : Option String
  createdAt : Int
  updatedAt : Int
  deriving DecidableEq

/-- What `open` is given: the record less what it fills in. -/
structure OpenInput where
  id : String
  tenant : String
  runId : String
  environment : String
  services : List String
  target : Option String
  detail : Option String
  createdAt : Int
  deriving DecidableEq

structure TransitionDetail where
  detail : Option String
  bumpAttempts : Bool
  endpoints : Option (List (String × String))
  deriving DecidableEq

structure AcquireInput where
  id : String
  tenant : String
  runId : String
  environment : String
  sharedKey : String
  services : List String
  target : Option String
  expiresAt : Int
  deriving DecidableEq

/-- The row that a first acquire creates. -/
def AcquireInput.row (input : AcquireInput) (now : Int) : World where
  id := input.id
  tenant := input.tenant
  runId := input.runId
  environment := input.environment
  state := .creating
  services := input.services
  target := input.target
  sharedKey := some input.sharedKey
  endpoints := none
  holders := 1
  expiresAt := some input.expiresAt
  attempts := 0
  detail := none
  createdAt := now
  updatedAt := now

inductive Call
  | opened (record : OpenInput)
  | transition (tenant id : String) (state : CreatedWorldState) (detail : TransitionDetail)
  | get (tenant id : String)
  | acquireShared (input : AcquireInput)
  | releaseShared (tenant sharedKey : String)
  | getShared (tenant sharedKey : String)
  | due (staleBeforeMs : Int)
  deriving DecidableEq

/-- What a call answers; `threw` is an error. -/
inductive Answer
  | opened (row : World)
  | moved (done : Bool)
  | found (row : Option World)
  | acquired (row : World) (created : Bool)
  | left (row : Option (World × Nat))
  | owed (rows : List World)
  | threw
  deriving DecidableEq

namespace World

/-- The row belongs to a life of the shared world. -/
def isOf (tenant sharedKey : String) (row : World) : Bool :=
  row.tenant = tenant && row.sharedKey = some sharedKey

def live (row : World) : Bool := row.state ≠ .released

/-- What `transition` writes over a row. -/
def moved (row : World) (state : CreatedWorldState) (detail : TransitionDetail) (now : Int) :
    World :=
  { row with
    state
    attempts := row.attempts + (if detail.bumpAttempts then 1 else 0)
    detail := detail.detail.orElse fun _ => row.detail
    endpoints := detail.endpoints.orElse fun _ => row.endpoints
    updatedAt := now }

/-- What `releaseShared` writes over a row. -/
def left (row : World) (now : Int) : World :=
  { row with holders := row.holders - 1, updatedAt := now }

/-- The filter of `due`, the same in both ledgers. -/
def owed (now staleBeforeMs : Int) (row : World) : Bool :=
  let cutoff := now - staleBeforeMs
  if row.state = .released then false
  else if row.state = .unknown ∨ row.state = .releasing then true
  else if row.sharedKey.isSome then
    (row.holders = 0 && row.updatedAt ≤ cutoff) || row.expiresAt.any (· ≤ now)
  else row.updatedAt ≤ cutoff

end World

/-! ## The in-memory ledger -/

structure InMemory where
  rows : Table String World
  shared : Table String String

namespace InMemory

def empty : InMemory := ⟨Table.empty, Table.empty⟩

def key (tenant id : String) : String := tenant ++ "::" ++ id

def sharedIndex (tenant sharedKey : String) : String := tenant ++ "::shared::" ++ sharedKey

def opened (m : InMemory) (record : OpenInput) : InMemory × Answer :=
  let row : World := {
    id := record.id
    tenant := record.tenant
    runId := record.runId
    environment := record.environment
    state := .creating
    services := record.services
    target := record.target
    sharedKey := none
    endpoints := none
    holders := 0
    expiresAt := none
    attempts := 0
    detail := record.detail
    createdAt := record.createdAt
    updatedAt := record.createdAt }
  ({ m with rows := m.rows.set (key record.tenant record.id) row }, .opened row)

def transition (m : InMemory) (tenant id : String) (state : CreatedWorldState)
    (detail : TransitionDetail) (now : Int) : InMemory × Answer :=
  match m.rows.get (key tenant id) with
  | none => (m, .moved false)
  | some row =>
      if row.state = .released then (m, .moved false)
      else ({ m with rows := m.rows.set (key tenant id) (row.moved state detail now) },
        .moved true)

/-- The row the pointer of a shared key leads to. -/
def latest (m : InMemory) (tenant sharedKey : String) : Option World :=
  (m.shared.get (sharedIndex tenant sharedKey)).bind fun id => m.rows.get (key tenant id)

/-- The pointer is not followed to a row that is released; what is then created is a new row. -/
def acquireShared (m : InMemory) (input : AcquireInput) (now : Int) : InMemory × Answer :=
  let created := input.row now
  let create : InMemory × Answer :=
    (⟨m.rows.set (key created.tenant created.id) created,
      m.shared.set (sharedIndex input.tenant input.sharedKey) created.id⟩,
      .acquired created true)
  match m.latest input.tenant input.sharedKey with
  | none => create
  | some live =>
      if live.state ≠ .released then
        let row := { live with holders := live.holders + 1, expiresAt := some input.expiresAt }
        ({ m with rows := m.rows.set (key row.tenant row.id) row }, .acquired row false)
      else create

def releaseShared (m : InMemory) (tenant sharedKey : String) (now : Int) : InMemory × Answer :=
  match m.latest tenant sharedKey with
  | none => (m, .left none)
  | some row =>
      let next := row.left now
      ({ m with rows := m.rows.set (key tenant row.id) next }, .left (some (next, next.holders)))

def step (m : InMemory) (now : Int) : Call → InMemory × Answer
  | .opened record => m.opened record
  | .transition tenant id state detail => m.transition tenant id state detail now
  | .get tenant id => (m, .found (m.rows.get (key tenant id)))
  | .acquireShared input => m.acquireShared input now
  | .releaseShared tenant sharedKey => m.releaseShared tenant sharedKey now
  | .getShared tenant sharedKey => (m, .found (m.latest tenant sharedKey))
  | .due staleBeforeMs => (m, .owed (m.rows.values.filter (World.owed now staleBeforeMs)))

end InMemory

/-! ## The Postgres ledger -/

/-- The order in which a scan comes to the rows. -/
structure Scan where
  order : List World → List World
  perm : ∀ rows, (order rows).Perm rows

/-- `everdict_created_worlds`, under its primary key. -/
structure Postgres where
  rows : Table String World

namespace Postgres

def empty : Postgres := ⟨Table.empty⟩

/-- `CreatedWorldRecordSchema`: the names of a row are not empty. -/
def named (row : World) : Bool :=
  row.id ≠ "" && row.tenant ≠ "" && row.runId ≠ "" && row.environment ≠ ""

def parse (row : World) : Option World := if named row then some row else none

/-- An answer made of a row that is parsed first. -/
def answering (row : World) (answer : World → Answer) : Answer :=
  match parse row with
  | some row => answer row
  | none => .threw

/-- The columns of `open` do not have `detail`; a row of the id is a unique violation. -/
def opened (db : Postgres) (record : OpenInput) : Postgres × Answer :=
  let row : World := {
    id := record.id
    tenant := record.tenant
    runId := record.runId
    environment := record.environment
    state := .creating
    services := record.services
    target := record.target
    sharedKey := none
    endpoints := none
    holders := 0
    expiresAt := none
    attempts := 0
    detail := none
    createdAt := record.createdAt
    updatedAt := record.createdAt }
  if (db.rows.get record.id).isSome then (db, .threw)
  else (⟨db.rows.set record.id row⟩, answering row .opened)

/-- `UPDATE … WHERE tenant = $1 AND id = $2 AND state <> 'released'` -/
def transition (db : Postgres) (tenant id : String) (state : CreatedWorldState)
    (detail : TransitionDetail) (now : Int) : Postgres × Answer :=
  match (db.rows.get id).filter fun row => row.tenant = tenant with
  | none => (db, .moved false)
  | some row =>
      if row.state = .released then (db, .moved false)
      else (⟨db.rows.set id (row.moved state detail now)⟩, .moved true)

/-- `SELECT … WHERE tenant = $1 AND id = $2` -/
def get (db : Postgres) (tenant id : String) : Answer :=
  match (db.rows.get id).filter fun row => row.tenant = tenant with
  | none => .found none
  | some row => answering row (.found ∘ some)

/-- The row the arbiter index of `acquireShared` finds. -/
def conflict (db : Postgres) (tenant sharedKey : String) : Option World :=
  db.rows.values.find? fun row => row.isOf tenant sharedKey && row.live

/-- `INSERT … ON CONFLICT (tenant, shared_key) WHERE … state <> 'released' DO UPDATE` -/
def acquireShared (db : Postgres) (input : AcquireInput) (now : Int) : Postgres × Answer :=
  match db.conflict input.tenant input.sharedKey with
  | some old =>
      let row := { old with
        holders := old.holders + 1
        expiresAt := some input.expiresAt
        updatedAt := now }
      (⟨db.rows.set row.id row⟩, answering row (.acquired · false))
  | none =>
      if (db.rows.get input.id).isSome then (db, .threw)
      else
        let row := input.row now
        (⟨db.rows.set row.id row⟩, answering row (.acquired · true))

/-- `UPDATE … WHERE tenant = $1 AND shared_key = $2 RETURNING …`, and its first row -/
def releaseShared (db : Postgres) (tenant sharedKey : String) (now : Int) (scan : Scan) :
    Postgres × Answer :=
  let rows := db.rows.update fun _ row => if row.isOf tenant sharedKey then row.left now else row
  let answer := match (scan.order (rows.values.filter (World.isOf tenant sharedKey))).head? with
    | none => .left none
    | some row => answering row fun row => .left (some (row, row.holders))
  (⟨rows⟩, answer)

/-- `SELECT … WHERE tenant = $1 AND shared_key = $2`, and its first row -/
def getShared (db : Postgres) (tenant sharedKey : String) (scan : Scan) : Answer :=
  match (scan.order (db.rows.values.filter (World.isOf tenant sharedKey))).head? with
  | none => .found none
  | some row => answering row (.found ∘ some)

/-- `… ORDER BY updated_at ASC LIMIT 200` -/
def due (db : Postgres) (now staleBeforeMs : Int) (scan : Scan) : Answer :=
  let rows := sortBy World.updatedAt
    (scan.order (db.rows.values.filter (World.owed now staleBeforeMs)))
  match (rows.take 200).mapM parse with
  | some rows => .owed rows
  | none => .threw

def step (db : Postgres) (now : Int) (scan : Scan) : Call → Postgres × Answer
  | .opened record => db.opened record
  | .transition tenant id state detail => db.transition tenant id state detail now
  | .get tenant id => (db, db.get tenant id)
  | .acquireShared input => db.acquireShared input now
  | .releaseShared tenant sharedKey => db.releaseShared tenant sharedKey now scan
  | .getShared tenant sharedKey => (db, db.getShared tenant sharedKey scan)
  | .due staleBeforeMs => (db, db.due now staleBeforeMs scan)

end Postgres

/-! ## Both at once -/

/-- The two ledgers, given the same calls. -/
structure Ledgers where
  memory : InMemory
  postgres : Postgres

def Ledgers.empty : Ledgers := ⟨InMemory.empty, Postgres.empty⟩

/-- A call at a time, and the order of the scans it makes. -/
structure Event where
  call : Call
  now : Int
  scan : Scan

/-- The answers of the two ledgers. -/
structure Outcome where
  memory : Answer
  postgres : Answer
  deriving DecidableEq

def machine : Transition.Machine Ledgers Event Outcome := fun s event =>
  let (memory, fromMemory) := s.memory.step event.now event.call
  let (postgres, fromPostgres) := s.postgres.step event.now event.scan event.call
  some (⟨memory, postgres⟩, ⟨fromMemory, fromPostgres⟩)

/-! ## The condition -/

/-- No row of another tenant or id lies under the in-memory key of a call. -/
def Apart (s : Ledgers) (tenant id : String) : Prop :=
  ∀ row ∈ s.postgres.rows.values, InMemory.key row.tenant row.id = InMemory.key tenant id →
    row.tenant = tenant ∧ row.id = id

/-- No world of another tenant or key lies under the in-memory index of a call. -/
def ApartShared (s : Ledgers) (tenant sharedKey : String) : Prop :=
  ∀ row ∈ s.postgres.rows.values, ∀ k, row.sharedKey = some k →
    InMemory.sharedIndex row.tenant k = InMemory.sharedIndex tenant sharedKey →
    row.tenant = tenant ∧ k = sharedKey

def Fresh (s : Ledgers) (id : String) : Prop :=
  ∀ row ∈ s.postgres.rows.values, row.id ≠ id

/-- What the calls that write ask of the rows: ids are new and names not empty, the in-memory
keys of two rows differ, and a shared world is left only while no row of its key is released. -/
def Counting (s : Ledgers) : Call → Prop
  | .opened record =>
      Fresh s record.id ∧ Apart s record.tenant record.id ∧ record.detail = none ∧
        record.id ≠ "" ∧ record.tenant ≠ "" ∧ record.runId ≠ "" ∧ record.environment ≠ ""
  | .transition tenant id _ _ => Apart s tenant id
  | .acquireShared input =>
      Fresh s input.id ∧ Apart s input.tenant input.id ∧ ApartShared s input.tenant input.sharedKey ∧
        input.id ≠ "" ∧ input.tenant ≠ "" ∧ input.runId ≠ "" ∧ input.environment ≠ ""
  | .releaseShared tenant sharedKey =>
      ApartShared s tenant sharedKey ∧
        ∀ row ∈ s.postgres.rows.values, row.isOf tenant sharedKey = true → row.live = true
  | _ => True

/-- The rows of either ledger are as a call asks. -/
def Counts (s : Ledgers) (event : Event) : Prop :=
  Counting s event.call ∧ Counting ⟨s.memory, ⟨s.memory.rows⟩⟩ event.call

/-- The calls that both ledgers answer alike: moreover, a shared world is joined at the instant of
its last update and read while its key has one row, and `due` finds at most 200 rows, last updated
in the order in which they were made. -/
def Sound (s : Ledgers) (event : Event) : Prop :=
  Counts s event ∧
    match event.call with
    | .get tenant id => Apart s tenant id
    | .acquireShared input =>
        ∀ row ∈ s.postgres.rows.values, row.isOf input.tenant input.sharedKey = true →
          row.live = true → row.updatedAt = event.now
    | .getShared tenant sharedKey =>
        ApartShared s tenant sharedKey ∧
          ∀ row ∈ s.postgres.rows.values, ∀ row' ∈ s.postgres.rows.values,
            row.isOf tenant sharedKey = true → row'.isOf tenant sharedKey = true → row = row'
    | .due staleBeforeMs =>
        (s.memory.rows.values.filter (World.owed event.now staleBeforeMs)).length ≤ 200 ∧
          (s.memory.rows.values.filter (World.owed event.now staleBeforeMs)).Pairwise
            fun row row' => row.updatedAt < row'.updatedAt
    | _ => True

end Everdict.SharedWorld
