import Everdict.NumberedLog
import Everdict.Transition

/-!
# Consumers of the event log

The log hands out a number when the insert of an append runs and shows the row when its
transaction commits, so rows of a higher number can be there first.  A runner walks the
log once for every consumer, from the cursor it has saved for it, and stops at every await: a
read of the store, a call of the handler, a write of the store.

Of an event the runner reads its number, its id and its kind; the rest of the record is the
handler's and is left out.
-/

namespace Everdict.EventLog

open NumberedLog

structure PlatformEvent where
  seq : Nat
  id : String
  kind : String
  deriving DecidableEq

/-! ## The log -/

/-- `everdict_platform_events`: the rows that are committed, the rows of open transactions and
the next value of the sequence. -/
structure Log where
  committed : List PlatformEvent
  pending : List PlatformEvent
  nextSeq : Nat
  deriving DecidableEq

namespace Log

def empty : Log := ⟨[], [], 1⟩

/-- `INSERT … RETURNING seq`, in a transaction that is still open. -/
def append (log : Log) (id kind : String) : Log where
  committed := log.committed
  pending := log.pending ++ [⟨log.nextSeq, id, kind⟩]
  nextSeq := log.nextSeq + 1

/-- The transaction of an append ends; the number of one that is rolled back stays unused. -/
def settle (log : Log) (event : PlatformEvent) (commit : Bool) : Log where
  committed := if commit then log.committed ++ [event] else log.committed
  pending := log.pending.erase event
  nextSeq := log.nextSeq

/-- `kind = ANY(kinds)`, when kinds are given -/
def wants (kinds : Option (List String)) (event : PlatformEvent) : Bool :=
  match kinds with
  | none => true
  | some kinds => kinds.contains event.kind

/-- `listAll({ afterSeq, kinds, limit, order: "asc" })` -/
def listAll (log : Log) (afterSeq : Nat) (kinds : Option (List String)) (limit : Nat) :
    List PlatformEvent :=
  page PlatformEvent.seq limit afterSeq (wants kinds) log.committed

end Log

/-! ## The runner -/

structure Consumer where
  name : String
  kinds : Option (List String)
  deriving DecidableEq

/-- The registered consumers, under names of their own, and the options of the runner. -/
structure Deps where
  consumers : List Consumer
  batch : Option Nat
  maxAttempts : Option Nat
  distinct : (consumers.map Consumer.name).Nodup

def Deps.limit (deps : Deps) : Nat := deps.batch.getD 200

def Deps.attempts (deps : Deps) : Nat := max 1 (deps.maxAttempts.getD 3)

/-- The page a runner has in hand: the event it is at, those after it, and whether the page was
full. -/
structure Page where
  event : PlatformEvent
  rest : List PlatformEvent
  full : Bool
  deriving DecidableEq

/-- The await of `runConsumer` at a consumer, before the consumers after it. -/
inductive Await
  | getCursor
  | listAll (cursor : Nat)
  | handle (attempt : Nat) (page : Page)
  | recordDeadLetter (page : Page)
  | setCursor (page : Page)
  deriving DecidableEq

/-- `idle` is `draining = false`. -/
inductive Drain
  | idle
  | consuming (consumer : Consumer) (await : Await) (later : List Consumer)
  deriving DecidableEq

/-- The loop over the consumers goes on. -/
def Drain.next : List Consumer → Drain
  | [] => .idle
  | consumer :: later => .consuming consumer .getCursor later

structure World where
  log : Log
  cursors : String → Nat
  drain : Drain

def World.empty : World := ⟨Log.empty, fun _ => 0, .idle⟩

/-- Appends run and end, a tick or a nudge calls `drain`, an await of the runner returns, a
call of a store throws, or the process crashes and a new one is started. -/
inductive Event
  | append (id kind : String)
  | settle (event : PlatformEvent) (commit : Bool)
  | drain
  | returns
  | handled (ok : Bool)
  | outage
  | crash
  deriving DecidableEq

/-- What the runner did for a consumer. -/
inductive Outcome
  | silent
  | handled (consumer : String) (event : PlatformEvent) (ok : Bool)
  | deadLettered (consumer : String) (event : PlatformEvent)
  | saved (consumer : String) (seq : Nat)
  deriving DecidableEq

/-- `deliver` retries, or parks the event after its last attempt. -/
def Await.afterHandle (deps : Deps) (attempt : Nat) (page : Page) (ok : Bool) : Await :=
  if ok then .setCursor page
  else if attempt < deps.attempts then .handle (attempt + 1) page
  else .recordDeadLetter page

/-- The next event of the page, the next page after a full one, or the next consumer. -/
def Drain.afterSave (consumer : Consumer) (page : Page) (later : List Consumer) : Drain :=
  match page.rest with
  | event :: rest => .consuming consumer (.handle 1 ⟨event, rest, page.full⟩) later
  | [] => if page.full then .consuming consumer .getCursor later else .next later

/-- What an await that returns goes on with: the statement it awaited has run. -/
def World.returns (deps : Deps) (w : World) (consumer : Consumer) (await : Await)
    (later : List Consumer) : Option (World × Outcome) :=
  match await with
  | .getCursor =>
      some ({ w with drain := .consuming consumer (.listAll (w.cursors consumer.name)) later },
        .silent)
  | .listAll cursor =>
      match w.log.listAll cursor consumer.kinds deps.limit with
      | [] => some ({ w with drain := .next later }, .silent)
      | event :: rest =>
          let full := ¬ (event :: rest).length < deps.limit
          some ({ w with drain := .consuming consumer (.handle 1 ⟨event, rest, full⟩) later },
            .silent)
  | .handle .. => none
  | .recordDeadLetter page =>
      some ({ w with drain := .consuming consumer (.setCursor page) later },
        .deadLettered consumer.name page.event)
  | .setCursor page =>
      some (⟨w.log, Function.update w.cursors consumer.name page.event.seq,
        .afterSave consumer page later⟩, .saved consumer.name page.event.seq)

/-- `consumer.handle(event)` returns or throws. -/
def World.handled (deps : Deps) (w : World) (consumer : Consumer) (await : Await)
    (later : List Consumer) (ok : Bool) : Option (World × Outcome) :=
  match await with
  | .handle attempt page =>
      let await := Await.afterHandle deps attempt page ok
      some ({ w with drain := .consuming consumer await later },
        .handled consumer.name page.event ok)
  | _ => none

/-- A call of a store throws: `drain` goes on with the next consumer, and `deliver` goes on
without its dead letter. -/
def World.outage (w : World) (consumer : Consumer) (await : Await) (later : List Consumer) :
    Option (World × Outcome) :=
  match await with
  | .handle .. => none
  | .recordDeadLetter page =>
      some ({ w with drain := .consuming consumer (.setCursor page) later }, .silent)
  | _ => some ({ w with drain := .next later }, .silent)

/-- `EventConsumerRunner` on a log that others append to. -/
def machine (deps : Deps) : Transition.Machine World Event Outcome
  | w, .append id kind => some ({ w with log := w.log.append id kind }, .silent)
  | w, .settle event commit =>
      if event ∈ w.log.pending then some ({ w with log := w.log.settle event commit }, .silent)
      else none
  | w, .drain =>
      match w.drain with
      | .idle => some ({ w with drain := .next deps.consumers }, .silent)
      | .consuming .. => some (w, .silent)
  | w, .returns =>
      match w.drain with
      | .idle => none
      | .consuming consumer await later => w.returns deps consumer await later
  | w, .handled ok =>
      match w.drain with
      | .idle => none
      | .consuming consumer await later => w.handled deps consumer await later ok
  | w, .outage =>
      match w.drain with
      | .idle => none
      | .consuming consumer await later => w.outage consumer await later
  | w, .crash => some ({ w with drain := .idle }, .silent)

/-! ## What the runner has in hand -/

def Page.events (page : Page) : List PlatformEvent := page.event :: page.rest

def Await.page : Await → Option Page
  | .getCursor | .listAll _ => none
  | .handle _ page | .recordDeadLetter page | .setCursor page => some page

def Await.events (await : Await) : List PlatformEvent :=
  (await.page.map Page.events).getD []

@[simp] theorem events_getCursor : Await.getCursor.events = [] := rfl

@[simp] theorem events_listAll (cursor : Nat) : (Await.listAll cursor).events = [] := rfl

@[simp] theorem events_handle (attempt : Nat) (page : Page) :
    (Await.handle attempt page).events = page.event :: page.rest := rfl

@[simp] theorem events_recordDeadLetter (page : Page) :
    (Await.recordDeadLetter page).events = page.event :: page.rest := rfl

@[simp] theorem events_setCursor (page : Page) :
    (Await.setCursor page).events = page.event :: page.rest := rfl

@[simp] theorem events_afterHandle (deps : Deps) (attempt : Nat) (page : Page) (ok : Bool) :
    (Await.afterHandle deps attempt page ok).events = page.event :: page.rest := by
  unfold Await.afterHandle
  split
  · rfl
  · split <;> rfl

/-- The events a consumer's runner has read and whose cursor it has still to save. -/
def Drain.inHand : Drain → String → List PlatformEvent
  | .idle, _ => []
  | .consuming consumer await _, name => if consumer.name = name then await.events else []

def Consumer.wants (consumer : Consumer) (event : PlatformEvent) : Bool :=
  Log.wants consumer.kinds event

/-- A commit lands ahead of its consumers: beyond their cursors and beyond every event they
have in hand. -/
def LandsAhead (deps : Deps) (w : World) (event : PlatformEvent) : Prop :=
  ∀ consumer ∈ deps.consumers, consumer.wants event = true →
    w.cursors consumer.name < event.seq ∧
      ∀ x ∈ w.drain.inHand consumer.name, x.seq < event.seq

/-- The steps that skip nothing: commits land ahead, and no dead letter is lost to an outage. -/
def Sound (deps : Deps) (w : World) : Event → Prop
  | .settle event true => LandsAhead deps w event
  | .outage => ∀ consumer page later, w.drain ≠ .consuming consumer (.recordDeadLetter page) later
  | _ => True

/-- The steps of a drain that runs alone. -/
def Alone (_ : World) : Event → Prop
  | .drain | .returns | .handled _ => True
  | _ => False

end Everdict.EventLog
