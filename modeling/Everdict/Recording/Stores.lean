import Everdict.Sorting
import Everdict.Table
import Everdict.Transition

/-!
# Two stores of replay recordings

A run has one recording for each attempt, under the attempt's generation: entries are appended
to its lanes until a seal freezes its metadata.  One store keeps the attempts of a run in an
array; the other keeps a row for each `(run_id, generation)` and derives the metadata in SQL.

Of an entry the stores read its time; the rest of it is carried as the text of its JSON, and so is
the dispatch manifest.
-/

namespace Everdict.Recording

open Sorting

inductive Track
  | frames
  | domEvents
  | network
  | console
  | nav
  | stateDeltas
  | logs
  | runtime
  | custom
  deriving DecidableEq

def Track.all : List Track :=
  [.frames, .domEvents, .network, .console, .nav, .stateDeltas, .logs, .runtime, .custom]

/-- The rungs a store derives; a recorder's other rungs are never sealed. -/
inductive Fidelity
  | final
  | frames
  deriving DecidableEq

structure Entry where
  t : Int
  data : String
  deriving DecidableEq

structure TrackEntry where
  track : Track
  entry : Entry
  deriving DecidableEq

/-- The lanes; a lane nothing was appended to is not there. -/
abbrev Tracks := Track → Option (List Entry)

def Tracks.empty : Tracks := fun _ => none

/-- The entries of all lanes. -/
def Tracks.entries (tracks : Tracks) : List Entry :=
  Track.all.flatMap fun track => (tracks track).getD []

structure RecordingSeal where
  envKind : String
  dispatch : Option String
  deriving DecidableEq

structure CaseRecording where
  runId : String
  t0 : Int
  tracks : Tracks
  envKind : String
  effectiveFidelity : Fidelity
  dispatch : Option String

inductive Call
  | openAttempt (runId : String) (generation : Option Int)
  | append (runId : String) (item : TrackEntry) (generation : Int)
  | sealAttempt (runId : String) (asked : RecordingSeal) (generation : Int)
  | get (runId : String) (generation : Option Int)
  | peek (runId : String) (generation : Option Int)
  deriving DecidableEq

/-- What a call answers; the ref of a seal is given without its scheme. -/
inductive Answer
  | opened (generation : Int)
  | appended
  | sealed (ref : Option (String × Int))
  | read (recording : Option CaseRecording)
  | threw

/-! ## The in-memory store -/

structure SealedMeta where
  t0 : Int
  envKind : String
  effectiveFidelity : Fidelity
  dispatch : Option String
  deriving DecidableEq

structure Attempt where
  generation : Int
  tracks : Tracks
  sealed : Option SealedMeta

abbrev InMemory := Table String (List Attempt)

namespace InMemory

def attemptsOf (m : InMemory) (runId : String) : List Attempt := (m.get runId).getD []

def attempt (m : InMemory) (runId : String) (generation : Int) : Option Attempt :=
  (attemptsOf m runId).find? fun a => a.generation = generation

/-- `Math.min(t0, e.t)`, where `none` is infinity. -/
def earlier (t0 : Option Int) (e : Entry) : Option Int := some ((t0.map (min · e.t)).getD e.t)

/-- The earliest time of all lanes, 0 when they are empty. -/
def earliestT (tracks : Tracks) : Int := (tracks.entries.foldl earlier none).getD 0

def fidelity (tracks : Tracks) : Fidelity :=
  if ((tracks .frames).getD []).length = 0 then .final else .frames

def appendEntry (tracks : Tracks) (item : TrackEntry) : Tracks :=
  let lane := (tracks item.track).getD []
  Function.update tracks item.track (some (lane ++ [item.entry]))

/-- `Math.max(0, ...generations) + 1` -/
def minted (attempts : List Attempt) : Int :=
  attempts.foldl (fun n a => max n a.generation) 0 + 1

def openAttempt (m : InMemory) (runId : String) : Option Int → InMemory × Answer
  | some generation =>
      if (attemptsOf m runId).any fun a => a.generation = generation then (m, .threw)
      else
        (m.set runId (sortBy Attempt.generation
          (attemptsOf m runId ++ [⟨generation, Tracks.empty, none⟩])), .opened generation)
  | none =>
      let generation := minted (attemptsOf m runId)
      (m.set runId (attemptsOf m runId ++ [⟨generation, Tracks.empty, none⟩]), .opened generation)

/-- Write over the attempt of a generation. -/
def revise (m : InMemory) (runId : String) (rec : Attempt) : InMemory :=
  m.set runId ((attemptsOf m runId).map fun a => if a.generation = rec.generation then rec else a)

def append (m : InMemory) (runId : String) (item : TrackEntry) (generation : Int) :
    InMemory × Answer :=
  match attempt m runId generation with
  | none =>
      let rec' : Attempt := ⟨generation, appendEntry Tracks.empty item, none⟩
      (m.set runId (sortBy Attempt.generation (attemptsOf m runId ++ [rec'])), .appended)
  | some rec' =>
      if rec'.sealed.isSome then (m, .appended)
      else (revise m runId { rec' with tracks := appendEntry rec'.tracks item }, .appended)

/-- `seal` -/
def sealAttempt (m : InMemory) (runId : String) (asked : RecordingSeal) (generation : Int) :
    InMemory × Answer :=
  match attempt m runId generation with
  | none => (m, .sealed none)
  | some rec' =>
      if rec'.sealed.isSome then (m, .sealed none)
      else if rec'.tracks.entries.isEmpty then (m, .sealed none)
      else
        let frozen : SealedMeta := {
          t0 := earliestT rec'.tracks
          envKind := asked.envKind
          effectiveFidelity := fidelity rec'.tracks
          dispatch := asked.dispatch }
        (revise m runId { rec' with sealed := some frozen }, .sealed (some (runId, generation)))

/-- The recording of a sealed attempt. -/
def recording (runId : String) (rec : Attempt) : Option CaseRecording :=
  rec.sealed.map fun frozen =>
    ⟨runId, frozen.t0, rec.tracks, frozen.envKind, frozen.effectiveFidelity, frozen.dispatch⟩

def get (m : InMemory) (runId : String) (generation : Option Int) : Option CaseRecording :=
  let sealed := (attemptsOf m runId).filter fun a => a.sealed.isSome
  let rec' := match generation with
    | none => sealed.getLast?
    | some generation => sealed.find? fun a => a.generation = generation
  rec'.bind (recording runId)

/-- The attempt a peek reads: the one that is named, or the newest. -/
def addressed (m : InMemory) (runId : String) : Option Int → Option Attempt
  | none => (attemptsOf m runId).getLast?
  | some generation => attempt m runId generation

def peek (m : InMemory) (runId : String) (generation : Option Int) : Option CaseRecording :=
  (addressed m runId generation).bind fun rec' =>
    if rec'.sealed.isSome then get m runId (some rec'.generation)
    else some ⟨runId, earliestT rec'.tracks, rec'.tracks, "live", fidelity rec'.tracks, none⟩

def step (m : InMemory) : Call → InMemory × Answer
  | .openAttempt runId generation => openAttempt m runId generation
  | .append runId item generation => append m runId item generation
  | .sealAttempt runId asked generation => sealAttempt m runId asked generation
  | .get runId generation => (m, .read (get m runId generation))
  | .peek runId generation => (m, .read (peek m runId generation))

end InMemory

/-! ## The Postgres store -/

/-- A row of `everdict_recordings`. -/
structure RecordingRow where
  tracks : Tracks
  t0 : Option Int
  envKind : Option String
  effectiveFidelity : Option Fidelity
  dispatch : Option String
  sealed : Bool

/-- The rows under their primary key `(run_id, generation)`. -/
abbrev Postgres := Table (String × Int) RecordingRow

namespace Postgres

/-- The range of `integer`. -/
def isInt (n : Int) : Bool := -2147483648 ≤ n && n ≤ 2147483647

/-- The range of `bigint`. -/
def isBigint (n : Int) : Bool := -9223372036854775808 ≤ n && n ≤ 9223372036854775807

def created (tracks : Tracks) : RecordingRow := ⟨tracks, none, none, none, none, false⟩

/-- The generations of a run. -/
def generations (db : Postgres) (runId : String) : List Int :=
  (db.entries.filter fun e => e.1.1 = runId).map fun e => e.1.2

/-- `INSERT … VALUES`, or `INSERT … SELECT COALESCE(MAX(generation), 0) + 1` -/
def openAttempt (db : Postgres) (runId : String) (generation : Option Int) : Postgres × Answer :=
  let generation := generation.getD ((generations db runId).max?.getD 0 + 1)
  if ¬ isInt generation then (db, .threw)
  else if (db.get (runId, generation)).isSome then (db, .threw)
  else (db.set (runId, generation) (created Tracks.empty), .opened generation)

/-- `jsonb_set(tracks, lane, COALESCE(tracks -> lane, '[]') || entry)` -/
def jsonbAppend (tracks : Tracks) (item : TrackEntry) : Tracks :=
  Function.update tracks item.track (some ((tracks item.track).getD [] ++ [item.entry]))

/-- `INSERT … ON CONFLICT (run_id, generation) DO UPDATE … WHERE sealed = false` -/
def append (db : Postgres) (runId : String) (item : TrackEntry) (generation : Int) :
    Postgres × Answer :=
  if ¬ isInt generation then (db, .threw)
  else match db.get (runId, generation) with
    | none =>
        (db.set (runId, generation) (created (Function.update Tracks.empty item.track
          (some [item.entry]))), .appended)
    | some row =>
        if row.sealed then (db, .appended)
        else (db.set (runId, generation) { row with tracks := jsonbAppend row.tracks item },
          .appended)

/-- `UPDATE … SET t0 = (SELECT MIN …), … WHERE sealed = false AND EXISTS (…)` -/
def sealAttempt (db : Postgres) (runId : String) (asked : RecordingSeal) (generation : Int) :
    Postgres × Answer :=
  if ¬ isInt generation then (db, .threw)
  else match db.get (runId, generation) with
    | none => (db, .sealed none)
    | some row =>
        if row.sealed ∨ row.tracks.entries = [] then (db, .sealed none)
        else if ¬ row.tracks.entries.all fun e => isBigint e.t then (db, .threw)
        else
          (db.set (runId, generation) { row with
            t0 := (row.tracks.entries.map Entry.t).min?
            envKind := some asked.envKind
            effectiveFidelity := some
              (if ((row.tracks .frames).getD []).length > 0 then .frames else .final)
            dispatch := asked.dispatch
            sealed := true }, .sealed (some (runId, generation)))

/-- `… WHERE run_id = $1 AND ($2 IS NULL OR generation = $2) AND … ORDER BY generation DESC
LIMIT 1` -/
def newest (db : Postgres) (runId : String) (generation : Option Int)
    (keep : RecordingRow → Bool) : Option RecordingRow :=
  let rows := db.entries.filter fun e =>
    e.1.1 = runId && generation.all (e.1.2 = ·) && keep e.2
  ((sortBy (fun e => -e.1.2) rows).head?).map Prod.snd

def named (generation : Option Int) : Bool := generation.all isInt

def get (db : Postgres) (runId : String) (generation : Option Int) : Answer :=
  if ¬ named generation then .threw
  else match newest db runId generation RecordingRow.sealed with
    | none => .read none
    | some row =>
        match row.t0, row.envKind, row.effectiveFidelity with
        | some t0, some envKind, some effectiveFidelity =>
            .read (some ⟨runId, t0, row.tracks, envKind, effectiveFidelity, row.dispatch⟩)
        | _, _, _ => .read none

def peek (db : Postgres) (runId : String) (generation : Option Int) : Answer :=
  if ¬ named generation then .threw
  else match newest db runId generation fun _ => true with
    | none => .read none
    | some row =>
        match (row.tracks.entries.map Entry.t).min? with
        | none => .read none
        | some earliest =>
            match row.sealed, row.t0, row.envKind, row.effectiveFidelity with
            | true, some t0, some envKind, some effectiveFidelity =>
                .read (some ⟨runId, t0, row.tracks, envKind, effectiveFidelity, row.dispatch⟩)
            | _, _, _, _ =>
                .read (some ⟨runId, earliest, row.tracks, "live",
                  if ((row.tracks .frames).getD []).length > 0 then .frames else .final, none⟩)

def step (db : Postgres) : Call → Postgres × Answer
  | .openAttempt runId generation => openAttempt db runId generation
  | .append runId item generation => append db runId item generation
  | .sealAttempt runId asked generation => sealAttempt db runId asked generation
  | .get runId generation => (db, get db runId generation)
  | .peek runId generation => (db, peek db runId generation)

end Postgres

/-! ## Both at once -/

/-- The two stores, given the same calls. -/
structure Stores where
  memory : InMemory
  postgres : Postgres

def Stores.empty : Stores := ⟨Table.empty, Table.empty⟩

/-- The answers of the two stores. -/
structure Outcome where
  memory : Answer
  postgres : Answer

def machine : Transition.Machine Stores Call Outcome := fun s call =>
  let (memory, fromMemory) := InMemory.step s.memory call
  let (postgres, fromPostgres) := Postgres.step s.postgres call
  some (⟨memory, postgres⟩, ⟨fromMemory, fromPostgres⟩)

/-- The attempt a peek reads, with something to scrub. -/
def Peekable (s : Stores) (runId : String) (generation : Option Int) : Prop :=
  ∀ rec', InMemory.addressed s.memory runId generation = some rec' → rec'.tracks.entries ≠ []

/-- The calls the two stores answer alike: numbers stay within the columns, a generation is
minted for a run that has none below zero alone, and what is peeked at has an entry. -/
def Sound (s : Stores) : Call → Prop
  | .openAttempt runId none =>
      (∀ a ∈ (InMemory.attemptsOf s.memory runId).getLast?, 0 ≤ a.generation) ∧
        Postgres.isInt (InMemory.minted (InMemory.attemptsOf s.memory runId)) = true
  | .openAttempt _ (some generation) => Postgres.isInt generation = true
  | .append _ _ generation => Postgres.isInt generation = true
  | .sealAttempt runId _ generation => Postgres.isInt generation = true ∧
      ∀ rec', InMemory.attempt s.memory runId generation = some rec' →
        ∀ e ∈ rec'.tracks.entries, Postgres.isBigint e.t = true
  | .get _ generation => Postgres.named generation = true
  | .peek runId generation => Postgres.named generation = true ∧ Peekable s runId generation

end Everdict.Recording
