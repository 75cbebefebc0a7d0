import Everdict.Sorting
import Everdict.Table

/-!
# The ledger of owed publications

One row per settlement.  A settle opens it, a publisher claims it under a lease, and the
claim is what `renew`, `complete` and `release` ask for.  The two stores spell the questions
separately: the in-process one reads a row and answers, the SQL one puts the question in a
`WHERE` clause (`InMemory`, `Postgres`), and `Backend` picks one of them.

`complete` and `renew` ask for the owner and for the state, `release` for the owner alone.
-/

namespace Everdict.Publication

open Sorting (sortBy)

inductive PublicationOperationState where
  | pending
  | claimed
  | published
  | unverifiable
  deriving DecidableEq

/-- Closed: no sweep picks the row up again. -/
def PublicationOperationState.closed : PublicationOperationState → Bool
  | .published | .unverifiable => true
  | .pending | .claimed => false

structure SettlementRef where
  scorecardId : String
  scoringRevision : Nat
  passId : String
  deriving DecidableEq

def publicationOperationId (settlement : SettlementRef) : String :=
  let scorecardId := settlement.scorecardId
  let scoringRevision := settlement.scoringRevision
  let passId := settlement.passId
  s!"{scorecardId}#r{scoringRevision}#{passId}"

/-- Where a settlement's export bytes are. -/
inductive ExportPayloadSource where
  | frozen (key : String)
  | inline (bytes reason : String)
  | unfrozen (reason : String)
  deriving DecidableEq

structure PublicationEffect where
  idempotencyKey : String
  payloadDigest : String
  payload : ExportPayloadSource
  deriving DecidableEq

structure PublicationOperation where
  id : String
  settlement : SettlementRef
  state : PublicationOperationState
  effects : List PublicationEffect
  plannedAt : Nat
  publishedAt : Option Nat := none
  lastError : Option String := none
  claimedBy : Option String := none
  leaseUntil : Option Nat := none
  deriving DecidableEq

/-- The operation a settle plans; `none` where it owes no export. -/
def planPublicationOperation (settlement : SettlementRef) (exports : List PublicationEffect)
    (now : Nat) : Option PublicationOperation :=
  if exports.length = 0 then none
  else
    some { id := publicationOperationId settlement, settlement, state := .pending,
           effects := exports, plannedAt := now }

/-! ## The in-process store -/

namespace InMemory

variable (current : PublicationOperation)

def claim (owner : String) (leaseSeconds now : Nat) : Option PublicationOperation :=
  if current.state = .published || current.state = .unverifiable then none
  else if current.state = .claimed && current.leaseUntil.any (fun lease => now < lease) then none
  else
    some { current with
      state := .claimed, claimedBy := some owner, leaseUntil := some (now + leaseSeconds * 1000) }

def renew (owner : String) (leaseSeconds now : Nat) : Option PublicationOperation :=
  if current.claimedBy ≠ some owner || current.state ≠ .claimed then none
  else some { current with leaseUntil := some (now + leaseSeconds * 1000) }

def complete (owner : String) (now : Nat) : Option PublicationOperation :=
  if current.claimedBy ≠ some owner || current.state ≠ .claimed then none
  else some { current with state := .published, publishedAt := some now }

def release (owner error : String) (owed : Bool) (now : Nat) : Option PublicationOperation :=
  if current.claimedBy ≠ some owner then none
  else
    some { current with
      state := if owed then .pending else .unverifiable
      claimedBy := none
      leaseUntil := none
      lastError := some error
      publishedAt := if owed then current.publishedAt else some now }

def owed (now : Nat) : Bool :=
  current.state = .pending ||
    (current.state = .claimed && current.leaseUntil.all (fun lease => lease ≤ now))

end InMemory

/-! ## The SQL store -/

namespace Postgres

variable (row : PublicationOperation)

/-- `SET … WHERE …`: the row where the clause is true, with NULL never equal to a value. -/
def updating (clause : Bool) (next : PublicationOperation) : Option PublicationOperation :=
  if clause then some next else none

def claim (owner : String) (leaseSeconds now : Nat) : Option PublicationOperation :=
  updating
    ((row.state = .pending || row.state = .claimed) &&
      (row.state = .pending || row.leaseUntil.isNone ||
        row.leaseUntil.any (fun lease => lease ≤ now)))
    { row with
      state := .claimed, claimedBy := some owner, leaseUntil := some (now + leaseSeconds * 1000) }

def renew (owner : String) (leaseSeconds now : Nat) : Option PublicationOperation :=
  updating (row.claimedBy = some owner && row.state = .claimed)
    { row with leaseUntil := some (now + leaseSeconds * 1000) }

def complete (owner : String) (now : Nat) : Option PublicationOperation :=
  updating (row.claimedBy = some owner && row.state = .claimed)
    { row with state := .published, publishedAt := some now, lastError := none }

def release (owner error : String) (owed : Bool) (now : Nat) : Option PublicationOperation :=
  updating (row.claimedBy = some owner)
    { row with
      state := if owed then .pending else .unverifiable
      lastError := some error
      claimedBy := none
      leaseUntil := none
      publishedAt := if owed then row.publishedAt else some now }

def owed (now : Nat) : Bool :=
  row.state = .pending ||
    (row.state = .claimed &&
      (row.leaseUntil.isNone || row.leaseUntil.any (fun lease => lease ≤ now)))

end Postgres

/-! ## Either store -/

inductive Backend where
  | memory
  | postgres
  deriving DecidableEq

namespace Backend

def claim : Backend → PublicationOperation → String → Nat → Nat → Option PublicationOperation
  | memory => InMemory.claim
  | postgres => Postgres.claim

def renew : Backend → PublicationOperation → String → Nat → Nat → Option PublicationOperation
  | memory => InMemory.renew
  | postgres => Postgres.renew

def complete : Backend → PublicationOperation → String → Nat → Option PublicationOperation
  | memory => InMemory.complete
  | postgres => Postgres.complete

def release :
    Backend → PublicationOperation → String → String → Bool → Nat → Option PublicationOperation
  | memory => InMemory.release
  | postgres => Postgres.release

def owed : Backend → PublicationOperation → Nat → Bool
  | memory => InMemory.owed
  | postgres => Postgres.owed

end Backend

/-- `ON CONFLICT (id) DO NOTHING`, and the in-process store's early return. -/
def openOperation (operations : Table String PublicationOperation)
    (operation : PublicationOperation) : Table String PublicationOperation :=
  if (operations.get operation.id).isSome then operations
  else operations.set operation.id operation

def listOwed (backend : Backend) (operations : Table String PublicationOperation)
    (limit now : Nat) : List PublicationOperation :=
  (sortBy (·.plannedAt) (operations.values.filter (backend.owed · now))).take limit

def listForScorecard (operations : Table String PublicationOperation) (scorecardId : String) :
    List PublicationOperation :=
  sortBy (·.settlement.scoringRevision)
    (operations.values.filter (·.settlement.scorecardId = scorecardId))

/-! ## What an update says about its row -/

variable {backend : Backend} {row next : PublicationOperation} {owner error : String}
  {leaseSeconds now : Nat} {owed : Bool}

/-- An update keeps what the settle wrote. -/
def SameDecision (row next : PublicationOperation) : Prop :=
  next.id = row.id ∧ next.settlement = row.settlement ∧ next.effects = row.effects

theorem claim_cases (granted : backend.claim row owner leaseSeconds now = some next) :
    row.state.closed = false ∧ next.state = .claimed ∧ next.claimedBy = some owner ∧
      SameDecision row next := by
  cases backend with
  | memory =>
      simp only [Backend.claim, InMemory.claim] at granted
      split at granted
      · cases granted
      · next notClosed =>
          split at granted
          · cases granted
          · obtain rfl := Option.some.inj granted
            refine ⟨?_, rfl, rfl, rfl, rfl, rfl⟩
            rcases state : row.state <;>
              simp [state, PublicationOperationState.closed] at notClosed ⊢
  | postgres =>
      simp only [Backend.claim, Postgres.claim, Postgres.updating] at granted
      split at granted
      · next clause =>
          obtain rfl := Option.some.inj granted
          refine ⟨?_, rfl, rfl, rfl, rfl, rfl⟩
          rcases state : row.state <;>
            simp [state, PublicationOperationState.closed] at clause ⊢
      · cases granted

theorem renew_cases (renewed : backend.renew row owner leaseSeconds now = some next) :
    row.state = .claimed ∧ next.state = .claimed ∧ SameDecision row next := by
  cases backend with
  | memory =>
      simp only [Backend.renew, InMemory.renew] at renewed
      split at renewed
      · cases renewed
      · next held =>
          obtain rfl := Option.some.inj renewed
          have held : row.state = .claimed := by simp at held; exact held.2
          exact ⟨held, held, rfl, rfl, rfl⟩
  | postgres =>
      simp only [Backend.renew, Postgres.renew, Postgres.updating] at renewed
      split at renewed
      · next held =>
          obtain rfl := Option.some.inj renewed
          have held : row.state = .claimed := by simp at held; exact held.2
          exact ⟨held, held, rfl, rfl, rfl⟩
      · cases renewed

theorem complete_cases (completed : backend.complete row owner now = some next) :
    row.state = .claimed ∧ next.state = .published ∧ SameDecision row next := by
  cases backend with
  | memory =>
      simp only [Backend.complete, InMemory.complete] at completed
      split at completed
      · cases completed
      · next held =>
          obtain rfl := Option.some.inj completed
          have held : row.state = .claimed := by simp at held; exact held.2
          exact ⟨held, rfl, rfl, rfl, rfl⟩
  | postgres =>
      simp only [Backend.complete, Postgres.complete, Postgres.updating] at completed
      split at completed
      · next held =>
          obtain rfl := Option.some.inj completed
          have held : row.state = .claimed := by simp at held; exact held.2
          exact ⟨held, rfl, rfl, rfl, rfl⟩
      · cases completed

/-- The release reads the owner and nothing else. -/
theorem release_cases (released : backend.release row owner error owed now = some next) :
    row.claimedBy = some owner ∧ next.state = (if owed then .pending else .unverifiable) ∧
      SameDecision row next := by
  cases backend with
  | memory =>
      simp only [Backend.release, InMemory.release] at released
      split at released
      · cases released
      · next held =>
          obtain rfl := Option.some.inj released
          exact ⟨by simpa using held, rfl, rfl, rfl, rfl⟩
  | postgres =>
      simp only [Backend.release, Postgres.release, Postgres.updating] at released
      split at released
      · next held =>
          obtain rfl := Option.some.inj released
          exact ⟨by simpa using held, rfl, rfl, rfl, rfl⟩
      · cases released

end Everdict.Publication
