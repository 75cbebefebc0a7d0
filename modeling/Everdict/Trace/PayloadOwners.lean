import Everdict.Effects
import Everdict.Trace.Leaves
import Everdict.Trace.OffloadedUsage
import Everdict.Trace.PayloadKeys
import Mathlib.Data.Prod.Lex
import Mathlib.Data.Rat.Floor

/-!
# Who reads and who removes a payload object

A resolve fetches the objects that the events of one trajectory name, and the retention sweep
removes those of the runs it claimed: what their rows name first, then what lies under their
prefixes.  The refs in a row are texts of its producer, so each is checked against the owner
that the key spells.  Every object that either of them touches is owned by the trajectory it
acts for (`owned_events`, `owned_deleteOlderThan`).
-/

namespace Everdict.Trace

open Effects
open Sorting (sortBy mem_sortBy)
open Submission (JsNumber)

/-! ## The object store -/

inductive Touch where
  | get (key : String)
  | listKeys (stem : String)
  | remove (key : String)
  deriving DecidableEq

/-- The objects that a call names; a listing names all under its prefix. -/
def Touch.Names : Touch → String → Prop
  | .get key, object | .remove key, object => object = key
  | .listKeys stem, object => Text.startsWith object stem = true

/-- The stored objects, as the texts of their bytes, with the calls made so far. -/
structure ArtifactStore where
  objects : List (String × String)
  touched : List Touch := []

inductive AccessError where
  | upstream (message : String)
  | badRequest (message : String)
  | malformed
  deriving DecidableEq

abbrev Access (α : Type) := Effect AccessError ArtifactStore α

def ARTIFACT_REF_SCHEME : String := "artifact://"

def artifactKeyOf (ref : String) : Option String :=
  if !Text.startsWith ref ARTIFACT_REF_SCHEME then none
  else
    let key := Text.sliceAfter ref ARTIFACT_REF_SCHEME
    if key ≠ "" then some key else none

section Calls

-- `down` says which calls meet an outage, by the calls before them.
variable (down : List Touch → Bool)

def ArtifactStore.call (touch : Touch) : Access ArtifactStore := do
  let store ← MonadState.get
  modify fun store => { store with touched := store.touched ++ [touch] }
  if down store.touched then throw (.upstream "object storage failed") else return store

def ArtifactStore.get (key : String) : Access (Option String) := do
  let store ← call down (.get key)
  return store.objects.lookup key

def ArtifactStore.listKeys (stem : String) : Access (List String) := do
  if stem = "" then throw (.badRequest "refusing to list the whole artifact bucket")
  else
    let store ← call down (.listKeys stem)
    return (store.objects.map (·.1)).filter fun key => Text.startsWith key stem

def ArtifactStore.remove (key : String) : Access PUnit := do
  let _ ← call down (.remove key)
  modify fun store => { store with objects := store.objects.filter fun object => object.1 ≠ key }

/-! ## Resolving a page -/

def MAX_RESOLVED_PAGE_BYTES : Nat := 32 * 1024 * 1024

structure OffloadField where
  kind : String
  field : String
  ref : String
  bytes : String

def OFFLOADABLE : List OffloadField :=
  [⟨"message", "text", "textRef", "textRefBytes"⟩,
    ⟨"tool_call", "args", "argsRef", "argsRefBytes"⟩,
    ⟨"tool_result", "output", "outputRef", "outputRefBytes"⟩,
    ⟨"log", "text", "textRef", "textRefBytes"⟩,
    ⟨"span", "attributes", "attributesRef", "attributesRefBytes"⟩]

def fieldsFor (kind : String) : List OffloadField := OFFLOADABLE.filter (·.kind = kind)

/-- What the program is given: the runtime, `JSON.parse` and the size of a span as text. -/
structure Reader where
  runtime : Runtime
  parse : String → Option Value
  spanBytes : TraceSpan → Nat

variable (reader : Reader) (tenant runId : String)

def fetch (ref : String) : Access Value :=
  match artifactKeyOf ref with
  | none => throw (.upstream s!"Trace payload ref '{ref}' is not an artifact handle.")
  | some key =>
      if !ownsPayloadKey key tenant runId then
        throw (.upstream (s!"Trace payload ref '{ref}' names an object this trajectory does not "
          ++ "own — a ref is not authority over what it points at."))
      else do
        match ← ArtifactStore.get down key with
        | none =>
            throw (.upstream (s!"Trace payload '{key}' is gone from object storage — the "
              ++ "trajectory references bytes the artifact store no longer holds."))
        | some bytes =>
            match reader.parse bytes with
            | none => throw .malformed
            | some value => return value

/-- Is the declared size larger than what remains of the page? -/
def declaredOver (remaining : Int) : Option Value → Bool
  | some (.number (.finite declared)) => (remaining : ℚ) < declared
  | some (.number .infinity) => true
  | _ => false

def without (keys : List String) (bag : Attrs) : Attrs := bag.filter fun entry => entry.1 ∉ keys

def resolveFields (remaining : Int) : List OffloadField → Attrs → Bool → Access (Attrs × Bool)
  | [], next, skipped => return (next, skipped)
  | spec :: specs, next, skipped =>
      match next.lookup spec.ref with
      | some (.text ref) =>
          if declaredOver remaining (next.lookup spec.bytes) then
            resolveFields remaining specs
              (Attrs.spread next [("resolvedTooLarge", .bool true)]) true
          else do
            let value ← fetch down reader tenant runId ref
            resolveFields remaining specs
              (without [spec.ref, spec.bytes] (Attrs.spread next [(spec.field, value)])) skipped
      | _ => resolveFields remaining specs next skipped

def kindOf (event : Attrs) : String := ((event.lookup "kind").bind Value.text?).getD ""

def resolveEvent (event : Attrs) (remaining : Int) : Access (Attrs × Bool) :=
  resolveFields down reader tenant runId remaining (fieldsFor (kindOf event)) event false

def resolveSpan (span : TraceSpan) : Access TraceSpan :=
  match span.attributesRef with
  | none => return span
  | some ref => do
      let attributes ← fetch down reader tenant runId ref
      return { span with attributes := recordOf attributes, attributesRef := none }

/-- The items resolved one after the other until the budget is spent; at least one is. -/
def resolveBudgeted {T : Type} (bytes : T → Nat) (resolve : T → Int → Access (T × Bool)) :
    List T → List T → Nat → Access (List T × Bool)
  | [], kept, _ => return (kept, false)
  | item :: items, kept, spent => do
      let (value, skipped) ← resolve item (MAX_RESOLVED_PAGE_BYTES - spent)
      if skipped && kept ≠ [] then return (kept, true)
      else if kept ≠ [] ∧ MAX_RESOLVED_PAGE_BYTES < spent + bytes value then return (kept, true)
      else if skipped then return (kept ++ [value], true)
      else resolveBudgeted bytes resolve items (kept ++ [value]) (spent + bytes value)

inductive PageItems where
  | events (events : List Attrs)
  | spans (spans : List TraceSpan) (events : List TraceEvent) (batch : Option SpanBatchFacts)

structure TrajectoryEventPage where
  emitter : String
  items : PageItems
  nextAfter : Option Nat
  eventCount : Nat

inductive TrajectoryEventsResult where
  | page (page : TrajectoryEventPage)
  | absent
  | tooLarge (storedBytes limitBytes : Nat) (emitter : String)

structure TrajectoryWindow where
  after : Option ℚ := none
  resolve : Bool := false

/-- The `after` of `clampWindow`. -/
def TrajectoryWindow.start (window : TrajectoryWindow) : Nat :=
  match window.after with
  | none => 0
  | some after => if after < 0 then 0 else ⌊after⌋.toNat

/-- `result` is what the store behind it answers. -/
def events (result : TrajectoryEventsResult) (window : TrajectoryWindow) :
    Access TrajectoryEventsResult :=
  match result with
  | .page page =>
      if !window.resolve then return result
      else
        match page.items with
        | .spans spans _ batch => do
            let (kept, stopped) ← resolveBudgeted reader.spanBytes
              (fun span _ => do return (← resolveSpan down reader tenant runId span, false))
              spans [] 0
            return .page { page with
              items := .spans kept (spansToEvents reader.runtime kept { batch }) batch
              nextAfter := if stopped then some (window.start + kept.length) else page.nextAfter }
        | .events events => do
            let (kept, stopped) ← resolveBudgeted
              (fun event => serializedBytes reader.runtime (.object event))
              (resolveEvent down reader tenant runId) events [] 0
            return .page { page with
              items := .events kept
              nextAfter := if stopped then some (window.start + kept.length) else page.nextAfter }
  | result => return result

/-! ## The retention sweep -/

/-- A sealed trajectory; `contents` is all that its row holds. -/
structure TrajectoryRow where
  tenant : String
  runId : String
  sealedAt : String
  contents : List Value

/-- The rows, of which a run has one. -/
structure TrajectoryRows where
  rows : List TrajectoryRow
  unique : (rows.map (·.runId)).Nodup

structure TrajectoryPayloadRef where
  tenant : String
  runId : String
  ref : String
  deriving DecidableEq

/-- A run of a tenant. -/
structure RunOf where
  tenant : String
  runId : String
  deriving DecidableEq

def TrajectoryRow.run (row : TrajectoryRow) : RunOf := ⟨row.tenant, row.runId⟩

def TrajectoryRow.refs (row : TrajectoryRow) : List TrajectoryPayloadRef :=
  ((walkItems row.contents).filter fun text => Text.startsWith text ARTIFACT_REF_SCHEME).dedup.map
    fun ref => ⟨row.tenant, row.runId, ref⟩

/-- `(ref, tenant, run_id)` -/
def TrajectoryPayloadRef.cursor (owned : TrajectoryPayloadRef) :
    List Nat ×ₗ List Nat ×ₗ List Nat :=
  toLex (Text.utf16 owned.ref, toLex (Text.utf16 owned.tenant, Text.utf16 owned.runId))

variable (rows : TrajectoryRows)

/-- The refs of the runs, in their order. -/
def refsOf (runIds : List String) : List TrajectoryPayloadRef :=
  sortBy TrajectoryPayloadRef.cursor
    ((rows.rows.filter fun row => row.runId ∈ runIds).flatMap TrajectoryRow.refs)

def beyond (after : Option TrajectoryPayloadRef) (owned : TrajectoryPayloadRef) : Bool :=
  match after with
  | none => true
  | some after => after.cursor < owned.cursor

def payloadRefsOf (runIds : List String) (limit : Nat) (after : Option TrajectoryPayloadRef) :
    List TrajectoryPayloadRef :=
  ((refsOf rows runIds).filter (beyond after)).take limit

def expiredRuns (cutoffIso : String) (limit : Nat) : List RunOf :=
  ((sortBy (fun row => Text.utf16 row.runId) rows.rows).filter fun row =>
    Text.before row.sealedAt cutoffIso).map TrajectoryRow.run |>.take limit

/-- How many rows of the runs there were, and the rows without them. -/
def deleteRuns (runIds : List String) : Nat × List TrajectoryRow :=
  ((rows.rows.filter fun row => row.runId ∈ runIds).length,
    rows.rows.filter fun row => row.runId ∉ runIds)

def REF_SCAN_RUNS : Nat := 250

/-- `runIds.slice(i, i + REF_SCAN_RUNS)` for each `i` of the loop. -/
def scanChunks (runIds : List String) : List (List String) :=
  (List.range ((runIds.length + REF_SCAN_RUNS - 1) / REF_SCAN_RUNS)).map fun round =>
    (runIds.drop (round * REF_SCAN_RUNS)).take REF_SCAN_RUNS

/-- The object that a ref names is removed if it is its trajectory's own. -/
def removeOwned (owned : TrajectoryPayloadRef) : Access PUnit :=
  match artifactKeyOf owned.ref with
  | none => return ()
  | some key =>
      if !ownsPayloadKey key owned.tenant owned.runId then return ()
      else ArtifactStore.remove down key

theorem beyond_last {after : Option TrajectoryPayloadRef} {refs : List TrajectoryPayloadRef}
    {limit : Nat} (more : (refs.filter (beyond after)).take limit ≠ []) :
    (refs.filter (beyond (some (((refs.filter (beyond after)).take limit).getLast more)))).length <
      (refs.filter (beyond after)).length := by
  have isIn := List.mem_of_mem_take (List.getLast_mem more)
  generalize ((refs.filter (beyond after)).take limit).getLast more = last at isIn ⊢
  obtain ⟨isRef, past⟩ := List.mem_filter.mp isIn
  have fewer : refs.filter (beyond (some last)) =
      (refs.filter (beyond after)).filter (beyond (some last)) := by
    rw [List.filter_filter]
    refine List.filter_congr fun owned _ => ?_
    by_cases later : beyond (some last) owned = true
    · have : beyond after owned = true := by
        cases after with
        | none => rfl
        | some after =>
            exact decide_eq_true ((of_decide_eq_true past).trans (of_decide_eq_true later))
      rw [later, this]
      rfl
    · rw [Bool.eq_false_of_not_eq_true later]
      rfl
  rw [fewer]
  refine lt_of_le_of_ne (List.length_filter_le _ _) fun same => ?_
  have all := List.length_filter_eq_length_iff.mp same last isIn
  exact absurd (of_decide_eq_true all) (lt_irrefl _)

/-- Page after page until the refs are exhausted. -/
def drainRefs (runIds : List String) (page : Nat) (after : Option TrajectoryPayloadRef) :
    Access PUnit :=
  if more : payloadRefsOf rows runIds page after = [] then return ()
  else do
    each (removeOwned down) (payloadRefsOf rows runIds page after)
    if (payloadRefsOf rows runIds page after).length < page then return ()
    else drainRefs runIds page (some ((payloadRefsOf rows runIds page after).getLast more))
termination_by ((refsOf rows runIds).filter (beyond after)).length
decreasing_by exact beyond_last more

def deleteOlderThan (sweepLimit : Nat) (cutoffIso : String) :
    Access (Nat × List TrajectoryRow) := do
  let runs := expiredRuns rows cutoffIso sweepLimit
  if runs = [] then return (0, rows.rows)
  else
    each (fun chunk => drainRefs down rows chunk sweepLimit none)
      (scanChunks (runs.map (·.runId)))
    each (fun run => do
      let keys ← ArtifactStore.listKeys down (payloadKeyPrefix run.tenant run.runId)
      each (ArtifactStore.remove down) keys) runs
    return deleteRuns rows (runs.map (·.runId))

end Calls

/-! ## What is touched -/

/-- The call names objects of one of the runs only. -/
def ActsFor (runs : List RunOf) (touch : Touch) : Prop :=
  ∃ run ∈ runs, ∀ object, touch.Names object →
    (payloadKeyPrefix run.tenant run.runId).toList <+: object.toList

def Within (runs : List RunOf) (store : ArtifactStore) : Prop :=
  ∀ touch ∈ store.touched, ActsFor runs touch

section Touched

variable {down : List Touch → Bool} {runs : List RunOf}

theorem keeps_call {touch : Touch} (acts : ActsFor runs touch) :
    Keeps (Within runs) (ArtifactStore.call down touch) := by
  refine keeps_bind keeps_get fun store => keeps_bind (keeps_modify ?_) fun _ => ?_
  · intro store within other isIn
    rcases List.mem_append.mp isIn with isIn | isIn
    · exact within other isIn
    · rwa [List.mem_singleton.mp isIn]
  · split
    · exact keeps_throw _
    · exact keeps_pure _

theorem actsFor_key {touch : Touch} {key : String} {run : RunOf} (isIn : run ∈ runs)
    (names : ∀ object, touch.Names object → object = key)
    (starts : (payloadKeyPrefix run.tenant run.runId).toList <+: key.toList) :
    ActsFor runs touch := by
  refine ⟨run, isIn, fun object named => ?_⟩
  rwa [names object named]

theorem keeps_get_starting {key : String} {run : RunOf} (isIn : run ∈ runs)
    (starts : (payloadKeyPrefix run.tenant run.runId).toList <+: key.toList) :
    Keeps (Within runs) (ArtifactStore.get down key) :=
  keeps_bind (keeps_call (actsFor_key isIn (fun _ => id) starts)) fun _ => keeps_pure _

theorem keeps_remove_starting {key : String} {run : RunOf} (isIn : run ∈ runs)
    (starts : (payloadKeyPrefix run.tenant run.runId).toList <+: key.toList) :
    Keeps (Within runs) (ArtifactStore.remove down key) :=
  keeps_bind (keeps_call (actsFor_key isIn (fun _ => id) starts)) fun _ =>
    keeps_modify fun _ within => within

theorem keeps_listKeys {run : RunOf} (isIn : run ∈ runs) :
    Keeps (Within runs) (ArtifactStore.listKeys down (payloadKeyPrefix run.tenant run.runId)) := by
  unfold ArtifactStore.listKeys
  split
  · exact keeps_throw _
  · refine keeps_bind (keeps_call ⟨run, isIn, fun object named => ?_⟩) fun _ => keeps_pure _
    exact startsWith_iff.mp named

theorem returns_listKeys (stem : String) :
    Returns (fun keys => ∀ key ∈ keys, stem.toList <+: key.toList)
      (ArtifactStore.listKeys down stem) := by
  intro store keys returned key isIn
  unfold ArtifactStore.listKeys at returned
  split at returned
  · cases returned
  · obtain ⟨store', _, answer⟩ := returns_bind returned
    obtain rfl := Except.ok.inj answer
    exact startsWith_iff.mp (List.mem_filter.mp isIn).2

/-! ### Resolves -/

section Resolve

variable {reader : Reader} {tenant runId : String}

theorem keeps_fetch (ref : String) :
    Keeps (Within [⟨tenant, runId⟩]) (fetch down reader tenant runId ref) := by
  unfold fetch
  split
  · exact keeps_throw _
  · next key _ =>
      split
      · exact keeps_throw _
      · next owns =>
          have owns : ownsPayloadKey key tenant runId = true := by simpa using owns
          refine keeps_bind (keeps_get_starting (List.mem_singleton_self _)
            (ownsPayloadKey_startsWith owns)) fun bytes => ?_
          cases bytes with
          | none => exact keeps_throw _
          | some bytes =>
              show Keeps _ (match reader.parse bytes with | none => _ | some value => _)
              split
              · exact keeps_throw _
              · exact keeps_pure _

theorem keeps_resolveFields (remaining : Int) (specs : List OffloadField) (next : Attrs)
    (skipped : Bool) :
    Keeps (Within [⟨tenant, runId⟩])
      (resolveFields down reader tenant runId remaining specs next skipped) := by
  induction specs generalizing next skipped with
  | nil => exact keeps_pure _
  | cons spec specs ih =>
      unfold resolveFields
      split
      · split
        · exact ih _ _
        · exact keeps_bind (keeps_fetch _) fun _ => ih _ _
      · exact ih _ _

theorem keeps_resolveSpan (span : TraceSpan) :
    Keeps (Within [⟨tenant, runId⟩]) (resolveSpan down reader tenant runId span) := by
  unfold resolveSpan
  split
  · exact keeps_pure _
  · exact keeps_bind (keeps_fetch _) fun _ => keeps_pure _

end Resolve

theorem keeps_resolveBudgeted {T : Type} {bytes : T → Nat} {resolve : T → Int → Access (T × Bool)}
    (keeps : ∀ item remaining, Keeps (Within runs) (resolve item remaining)) (items kept : List T)
    (spent : Nat) : Keeps (Within runs) (resolveBudgeted bytes resolve items kept spent) := by
  induction items generalizing kept spent with
  | nil => exact keeps_pure _
  | cons item items ih =>
      refine keeps_bind (keeps item _) fun resolved => ?_
      dsimp only
      split_ifs
      · exact keeps_pure _
      · exact keeps_pure _
      · exact keeps_pure _
      · exact ih _ _

/-- A resolve touches objects of its own trajectory only. -/
theorem keeps_events (reader : Reader) (tenant runId : String) (result : TrajectoryEventsResult)
    (window : TrajectoryWindow) :
    Keeps (Within [⟨tenant, runId⟩]) (events down reader tenant runId result window) := by
  unfold events
  split
  · split
    · exact keeps_pure _
    · split
      · refine keeps_bind (keeps_resolveBudgeted (fun span _ => ?_) _ _ _) fun _ => keeps_pure _
        exact keeps_bind (keeps_resolveSpan span) fun _ => keeps_pure _
      · refine keeps_bind (keeps_resolveBudgeted (fun event remaining => ?_) _ _ _) fun _ =>
          keeps_pure _
        exact keeps_resolveFields _ _ _ _
  · exact keeps_pure _

/-! ### Sweeps -/

section Sweep

variable {rows : TrajectoryRows} {runIds : List String}

theorem mem_refs {row : TrajectoryRow} {owned : TrajectoryPayloadRef} (isIn : owned ∈ row.refs) :
    (⟨owned.tenant, owned.runId⟩ : RunOf) = row.run := by
  obtain ⟨ref, _, rfl⟩ := List.mem_map.mp isIn
  rfl

theorem mem_refsOf {owned : TrajectoryPayloadRef} (isIn : owned ∈ refsOf rows runIds) :
    ∃ row ∈ rows.rows, row.runId ∈ runIds ∧
      (⟨owned.tenant, owned.runId⟩ : RunOf) = row.run := by
  obtain ⟨row, found, isRef⟩ := List.mem_flatMap.mp (mem_sortBy.mp isIn)
  obtain ⟨isRow, wanted⟩ := List.mem_filter.mp found
  exact ⟨row, isRow, of_decide_eq_true wanted, mem_refs isRef⟩

theorem mem_of_mem_scanChunks {chunk : List String} {runId : String}
    (isChunk : chunk ∈ scanChunks runIds) (isIn : runId ∈ chunk) : runId ∈ runIds := by
  obtain ⟨round, _, rfl⟩ := List.mem_map.mp isChunk
  exact List.mem_of_mem_drop (List.mem_of_mem_take isIn)

theorem mem_expiredRuns {run : RunOf} {cutoffIso : String} {limit : Nat}
    (isIn : run ∈ expiredRuns rows cutoffIso limit) :
    ∃ row ∈ rows.rows, row.run = run ∧ Text.before row.sealedAt cutoffIso = true := by
  obtain ⟨row, found, rfl⟩ := List.mem_map.mp (List.mem_of_mem_take isIn)
  obtain ⟨isRow, expired⟩ := List.mem_filter.mp found
  exact ⟨row, mem_sortBy.mp isRow, rfl, expired⟩

/-- The row of a run that was claimed is the row of its tenant. -/
theorem run_mem_expiredRuns {row : TrajectoryRow} {cutoffIso : String} {limit : Nat}
    (isRow : row ∈ rows.rows)
    (claimed : row.runId ∈ (expiredRuns rows cutoffIso limit).map (·.runId)) :
    row.run ∈ expiredRuns rows cutoffIso limit := by
  obtain ⟨run, isIn, same⟩ := List.mem_map.mp claimed
  obtain ⟨row', isRow', rfl, -⟩ := mem_expiredRuns isIn
  rwa [List.inj_on_of_nodup_map rows.unique isRow isRow' same.symm]

theorem keeps_removeOwned {owned : TrajectoryPayloadRef}
    (isIn : (⟨owned.tenant, owned.runId⟩ : RunOf) ∈ runs) :
    Keeps (Within runs) (removeOwned down owned) := by
  unfold removeOwned
  split
  · exact keeps_pure _
  · next key _ =>
      split
      · exact keeps_pure _
      · next owns =>
          have owns : ownsPayloadKey key owned.tenant owned.runId = true := by simpa using owns
          exact keeps_remove_starting isIn (ownsPayloadKey_startsWith owns)

theorem keeps_drainRefs {page : Nat} {after : Option TrajectoryPayloadRef}
    (known : ∀ owned ∈ refsOf rows runIds, (⟨owned.tenant, owned.runId⟩ : RunOf) ∈ runs) :
    Keeps (Within runs) (drainRefs down rows runIds page after) := by
  have known_page : ∀ after, ∀ owned ∈ payloadRefsOf rows runIds page after,
      (⟨owned.tenant, owned.runId⟩ : RunOf) ∈ runs := fun after owned isIn =>
    known owned (List.mem_filter.mp (List.mem_of_mem_take isIn)).1
  fun_induction drainRefs down rows runIds page after with
  | case1 => exact keeps_pure _
  | case2 after more ih =>
      refine keeps_bind (keeps_each fun owned isIn => ?_) fun _ => ?_
      · exact keeps_removeOwned (known_page after owned isIn)
      · split_ifs
        · exact keeps_pure _
        · exact ih

/-- A sweep touches objects of the runs it claimed only. -/
theorem keeps_deleteOlderThan (rows : TrajectoryRows) (sweepLimit : Nat) (cutoffIso : String) :
    Keeps (Within (expiredRuns rows cutoffIso sweepLimit))
      (deleteOlderThan down rows sweepLimit cutoffIso) := by
  unfold deleteOlderThan
  dsimp only
  split_ifs
  · exact keeps_pure _
  refine keeps_bind (keeps_each fun chunk isChunk => keeps_drainRefs fun owned isIn => ?_)
    fun _ => keeps_bind (keeps_each fun run isIn => ?_) fun _ => keeps_pure _
  · obtain ⟨row, isRow, wanted, same⟩ := mem_refsOf isIn
    rw [same]
    exact run_mem_expiredRuns isRow (mem_of_mem_scanChunks isChunk wanted)
  · refine keeps_bind_of (keeps_listKeys isIn) (returns_listKeys _) fun keys starts => ?_
    exact keeps_each fun key isKey => keeps_remove_starting isIn (starts key isKey)

end Sweep

end Touched

/-! ## One owner -/

section Owners

variable {ν : Type} {numbers : Documents.NumberText ν} {sha256 : String → String}
  {runs : List RunOf}

/-- The minted objects that a call for some runs touches were minted for one of them. -/
theorem minted_of_actsFor {touch : Touch} (acts : ActsFor runs touch) :
    ∃ run ∈ runs, ∀ object tenant runId, touch.Names object →
      MintedFor numbers sha256 object tenant runId → tenant = run.tenant ∧ runId = run.runId := by
  obtain ⟨run, isIn, names⟩ := acts
  refine ⟨run, isIn, fun object tenant runId named minted => ?_⟩
  exact payloadKeyPrefix_inj (ownsPayloadKey_startsWith (owns_of_mintedFor minted))
    (names object named)

end Owners

/-- Every payload gets a key, which its run owns.  It has no other owner, and no one else's resolve
or sweep touches the object. -/
theorem payload_owner {ν : Type} (numbers : Documents.NumberText ν) (sha256 : String → String) :
    (∀ tenant runId emitter field value, value.isUndefined = false →
        ∃ key, offloadKey numbers sha256 tenant runId emitter field value = .ok key ∧
          ownsPayloadKey key tenant runId = true) ∧
      (∀ tenant runId emitter field value key,
        offloadKey numbers sha256 tenant runId emitter field value = .ok key →
          ownsPayloadKey key tenant runId = true) ∧
      (∀ tenant runId tenant' runId', (tenant, runId) ≠ (tenant', runId') →
        (∀ key, ¬ (ownsPayloadKey key tenant runId = true ∧
          ownsPayloadKey key tenant' runId' = true)) ∧
        Text.startsWith (payloadKeyPrefix tenant' runId') (payloadKeyPrefix tenant runId) =
          false) ∧
      (∀ down reader tenant runId result window objects,
        ∀ touch ∈ ((events down reader tenant runId result window).run.run { objects }).2.touched,
          ∀ object tenant' runId', touch.Names object →
            MintedFor numbers sha256 object tenant' runId' →
              tenant' = tenant ∧ runId' = runId) ∧
      ∀ down rows sweepLimit cutoffIso objects,
        ∀ touch ∈ ((deleteOlderThan down rows sweepLimit cutoffIso).run.run
            { objects }).2.touched,
          ∃ run ∈ expiredRuns rows cutoffIso sweepLimit, ∀ object tenant' runId',
            touch.Names object → MintedFor numbers sha256 object tenant' runId' →
              tenant' = run.tenant ∧ runId' = run.runId := by
  have untouched : ∀ runs objects, Within runs { objects } := fun _ _ _ isIn => by cases isIn
  refine ⟨?_, ?_, ?_, ?_, ?_⟩
  · intro tenant runId emitter field value isDefined
    exact exists_offloadKey numbers sha256 tenant runId emitter field isDefined
  · intro tenant runId emitter field value key minted
    exact owns_of_mintedFor ⟨emitter, field, value, minted⟩
  · intro tenant runId tenant' runId' differ
    constructor
    · rintro key ⟨owns, owns'⟩
      obtain ⟨rfl, rfl⟩ := owner_unique owns owns'
      exact differ rfl
    · refine Bool.eq_false_iff.mpr fun starts => ?_
      obtain ⟨rfl, rfl⟩ := payloadKeyPrefix_inj (startsWith_iff.mp starts) List.prefix_rfl
      exact differ rfl
  · intro down reader tenant runId result window objects touch isIn
    obtain ⟨run, isRun, minted⟩ := minted_of_actsFor
      (keeps_events reader tenant runId result window _ (untouched _ _) touch isIn)
    obtain rfl := List.mem_singleton.mp isRun
    exact minted
  · intro down rows sweepLimit cutoffIso objects touch isIn
    exact minted_of_actsFor
      (keeps_deleteOlderThan rows sweepLimit cutoffIso _ (untouched _ _) touch isIn)

/-- The rows of two runs whose unescaped names are one text; the expired one refers to the other's
payload. -/
def alikeRows (key : String) : TrajectoryRows where
  rows :=
    [{ tenant := "acme", runId := "a/b", sealedAt := "2026-06-01", contents := [] },
      { tenant := "acme/a", runId := "b", sealedAt := "2026-01-01",
        contents := [.text (ARTIFACT_REF_SCHEME ++ key)] }]
  unique := by simp

/-- Each run owns the key minted for it and not the other's, and a sweep of the one leaves the
other's object alone. -/
theorem payload_owner_alike :
    ∃ key key', offloadKey Documents.fractions id "acme" "a/b" "agent" "output" (.text "done") =
          .ok key ∧
        offloadKey Documents.fractions id "acme/a" "b" "agent" "output" (.text "done") = .ok key' ∧
        ownsPayloadKey key "acme" "a/b" = true ∧ ownsPayloadKey key' "acme/a" "b" = true ∧
        ownsPayloadKey key "acme/a" "b" = false ∧ ownsPayloadKey key' "acme" "a/b" = false ∧
        ∀ down objects, ∀ touch ∈ ((deleteOlderThan down (alikeRows key) 10 "2026-03-01").run.run
          { objects }).2.touched, ¬ touch.Names key := by
  obtain ⟨mints, -, apart, -, sweep⟩ := payload_owner Documents.fractions id
  obtain ⟨key, minted, owns⟩ := mints "acme" "a/b" "agent" "output" (.text "done") rfl
  obtain ⟨key', minted', owns'⟩ := mints "acme/a" "b" "agent" "output" (.text "done") rfl
  have other := (apart "acme" "a/b" "acme/a" "b" (by decide)).1
  refine ⟨key, key', minted, minted', owns, owns', Bool.eq_false_iff.mpr fun both =>
    other key ⟨owns, both⟩, Bool.eq_false_iff.mpr fun both => other key' ⟨both, owns'⟩, ?_⟩
  intro down objects touch isIn named
  obtain ⟨run, expired, owner⟩ := sweep down (alikeRows key) 10 "2026-03-01" objects touch isIn
  obtain ⟨row, isRow, rfl, old⟩ := mem_expiredRuns expired
  obtain ⟨tenant, -⟩ := owner key "acme" "a/b" named ⟨_, _, _, minted⟩
  simp only [alikeRows, List.mem_cons, List.not_mem_nil, or_false] at isRow
  rcases isRow with rfl | rfl
  · exact absurd old (by decide)
  · exact absurd (show "acme" = "acme/a" from tenant) (by decide)

end Everdict.Trace
