import Everdict.Transition
import Mathlib.Logic.Function.Basic

/-!
# The control plane's leader

`PgLeaderElector` over one lease row.  A statement is sent, executed by the database and
answered at three different instants, in any order with the other statements, and a query may
fail before or after its execution.  Every local clock is the database clock and an offset.

The lease runs from the execution of a claim; the belief of an elector runs from the arrival
of the answer.  `Timely` is what the second leaves to chance.
-/

namespace Everdict.Leadership

open Function (update)
open Transition (Machine)

/-- The options every elector of a role shares. -/
structure Timing where
  ttlMs : Nat
  renewMs : Nat
  renewMs_pos : 0 < renewMs
  renewMs_lt : renewMs < ttlMs

/-- The lease row; an elector's holder is its number. -/
structure Lease where
  holder : Nat
  expiresAt : Nat
  deriving DecidableEq

inductive Statement where
  | claim
  | release
  deriving DecidableEq

inductive Progress where
  | sent
  /-- The database ran it at this instant; `won` is whether it returned a row. -/
  | executed (won : Bool) (instant : Nat)
  /-- Answered or failed. -/
  | closed
  deriving DecidableEq

structure Query where
  sender : Nat
  statement : Statement
  progress : Progress
  deriving DecidableEq

structure Elector where
  heldUntil : Nat := 0
  /-- `start` awaits this query, its first renewal. -/
  starting : Option Nat := none
  timer : Bool := false
  started : Bool := false
  stopped : Bool := false
  deriving DecidableEq

structure World where
  now : Nat
  lease : Option Lease
  queries : Nat → Option Query
  electors : Nat → Elector

inductive Event where
  | tick (elapsed : Nat)
  | start (elector query : Nat)
  /-- The interval of a started elector. -/
  | renew (elector query : Nat)
  | stop (elector query : Nat)
  | execute (query : Nat)
  | answer (query : Nat)
  | fail (query : Nat)
  deriving DecidableEq

/-- What `CLAIM_SQL` leaves of the row, if it returns one. -/
def claimSql (ttlMs : Nat) (lease : Option Lease) (holder now : Nat) : Option Lease :=
  match lease with
  | none => some ⟨holder, now + ttlMs⟩
  | some row =>
      if row.holder = holder ∨ row.expiresAt < now then some ⟨holder, now + ttlMs⟩ else none

/-- `RELEASE_SQL` -/
def releaseSql (lease : Option Lease) (holder : Nat) : Option Lease :=
  lease.filter fun row => row.holder ≠ holder

namespace World

def empty : World := ⟨0, none, fun _ => none, fun _ => {}⟩

def send (w : World) (q sender : Nat) (statement : Statement) : World :=
  { w with queries := update w.queries q (some ⟨sender, statement, .sent⟩) }

def advance (w : World) (q : Nat) (query : Query) (progress : Progress) : World :=
  { w with queries := update w.queries q (some { query with progress }) }

def setElector (w : World) (i : Nat) (elector : Elector) : World :=
  { w with electors := update w.electors i elector }

end World

section Machine

-- the options, and how far each local clock is ahead of the database's
variable (τ : Timing) (offset : Nat → Nat)

def clock (w : World) (i : Nat) : Nat := w.now + offset i

def isLeader (w : World) (i : Nat) : Prop := clock offset w i < (w.electors i).heldUntil

instance (w : World) (i : Nat) : Decidable (isLeader offset w i) :=
  inferInstanceAs (Decidable (_ < _))

/-- `start` goes on once its first renewal returned. -/
def Elector.returned (elector : Elector) (q : Nat) : Elector :=
  if elector.starting = some q then { elector with starting := none, timer := true }
  else elector

/-- The answer of a claim. -/
def Elector.answered (elector : Elector) (won : Bool) (now : Nat) : Elector :=
  { elector with heldUntil := if won then now + τ.ttlMs - τ.renewMs else 0 }

def execute (w : World) (q : Nat) (query : Query) : World :=
  match query.statement with
  | .claim =>
      match claimSql τ.ttlMs w.lease query.sender w.now with
      | none => w.advance q query (.executed false w.now)
      | some lease => { w.advance q query (.executed true w.now) with lease := some lease }
  | .release =>
      { w.advance q query (.executed false w.now) with
        lease := releaseSql w.lease query.sender }

def answer (w : World) (q : Nat) (query : Query) (won : Bool) : World :=
  let elector := w.electors query.sender
  let w := w.advance q query .closed
  match query.statement with
  | .claim =>
      w.setElector query.sender
        ((elector.answered τ won (clock offset w query.sender)).returned q)
  | .release => w

def machine : Machine World Event Unit := fun w event =>
  match event with
  | .tick elapsed => some ({ w with now := w.now + elapsed }, ())
  | .start i q =>
      let elector := w.electors i
      if elector.started ∨ elector.stopped ∨ (w.queries q).isSome then none
      else
        some ((w.send q i .claim).setElector i
          { elector with started := true, starting := some q }, ())
  | .renew i q =>
      if (w.electors i).timer ∧ (w.queries q).isNone then some (w.send q i .claim, ()) else none
  | .stop i q =>
      let elector := w.electors i
      if (w.queries q).isSome then none
      else
        let stopped := w.setElector i { elector with timer := false, stopped := true, heldUntil := 0 }
        some (if isLeader offset w i then stopped.send q i .release else stopped, ())
  | .execute q =>
      match w.queries q with
      | some query => if query.progress = .sent then some (execute τ w q query, ()) else none
      | none => none
  | .answer q =>
      match w.queries q with
      | some ⟨sender, statement, .executed won instant⟩ =>
          some (answer τ offset w q ⟨sender, statement, .executed won instant⟩ won, ())
      | _ => none
  | .fail q =>
      match w.queries q with
      | some query =>
          if query.progress = .closed then none
          else
            some ((w.advance q query .closed).setElector query.sender
              ((w.electors query.sender).returned q), ())
      | none => none

end Machine

/-! ## What is claimed -/

/-- The row holds an unexpired lease of the elector. -/
def Live (w : World) (i : Nat) : Prop :=
  ∃ lease, w.lease = some lease ∧ lease.holder = i ∧ w.now ≤ lease.expiresAt

/-- No statement of the elector is outstanding. -/
def Quiet (w : World) (i : Nat) : Prop :=
  ∀ q query, w.queries q = some query → query.sender = i → query.progress = .closed

/-- At most one leader, and nothing left of a stopped elector. -/
structure Safe (offset : Nat → Nat) (w : World) : Prop where
  one_leader : ∀ i j, isLeader offset w i → isLeader offset w j → i = j
  retired : ∀ i, (w.electors i).stopped = true → ¬ isLeader offset w i
  released : ∀ i, (w.electors i).stopped = true → Quiet w i → ¬ Live w i

/-- An unexecuted release of the elector is outstanding. -/
def Releasing (w : World) (i : Nat) : Prop := ∃ q, w.queries q = some ⟨i, .release, .sent⟩

/-- What every step has to meet: the answer of a won claim arrives within `renewMs` of its
execution, and before the elector is stopped; a claim of a stopped elector wins only while the
release is still to come; an elector is stopped as leader, or without a live lease; and no
release of a live lease fails unexecuted. -/
def Timely (τ : Timing) (offset : Nat → Nat) (w : World) : Event → Prop
  | .answer q => ∀ i instant, w.queries q = some ⟨i, .claim, .executed true instant⟩ →
      (w.electors i).stopped = false ∧ w.now ≤ instant + τ.renewMs
  | .execute q => ∀ i, w.queries q = some ⟨i, .claim, .sent⟩ →
      (w.electors i).stopped = true → claimSql τ.ttlMs w.lease i w.now ≠ none → Releasing w i
  | .stop i _ => isLeader offset w i ∨ ¬ Live w i
  | .fail q => ∀ i, w.queries q = some ⟨i, .release, .sent⟩ → ¬ Live w i
  | _ => True

end Everdict.Leadership
