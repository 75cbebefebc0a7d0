import Everdict.Cleanup.Ledger
import Everdict.Transition
import Mathlib.Logic.Function.Basic

/-!
# Writers and sweeps over one object store

Writers that owe a row, put the object and confirm it, releases at settlement, the
collection of what a release freed and the ticks of the reconciler, split where they
wait for the ledger or for the object store.  The object of a key remembers the row under
which it was last put.

`Invariant` says why no object is left behind: an object that is present has a writer that
still has to confirm it, or an open row that knows it was written; and a sweep that may
still close its row has seen every written object of that row gone, or put again by a writer
whose confirmation will open the row.
-/

namespace Everdict.Cleanup

open Transition Transition.Machine IntermediateCleanupDebt

/-! ## The machine -/

/-- A writer inside `stageAgentHalf` or `stageVerifierVerdict`, after its `owe`. -/
structure Writer where
  tenant : String
  executionId : String
  key : String
  /-- The put returned, and the confirmation is still to come. -/
  put : Bool := false
  deriving DecidableEq

def Writer.row (w : Writer) : String := rowKey w.tenant w.executionId

/-- What a sweep decides over: what a release freed, or a row of the worklist. -/
structure Claimed where
  operationId : String
  tenant : String
  executionId : String
  refs : List ArtifactRef
  revision : Nat
  deriving DecidableEq

def Claimed.row (c : Claimed) : String := rowKey c.tenant c.executionId

def ReleasedCleanup.claimed (freed : ReleasedCleanup) (tenant executionId : String) : Claimed :=
  ⟨freed.operationId, tenant, executionId, freed.refs, freed.revision⟩

def IntermediateCleanupDebt.claimed (debt : IntermediateCleanupDebt) : Claimed :=
  ⟨debt.operationId, debt.tenant, debt.executionId, debt.refs, debt.revision⟩

/-- A sweep between two awaits: the claim at hand with the refs still to look at, and the
claims after it. -/
structure Sweep where
  claim : Claimed
  rest : List Claimed
  refs : List ArtifactRef
  /-- The first of `refs` was probed and is present. -/
  seen : Bool := false
  failures : List String := []
  deriving DecidableEq

/-- The loop goes on with the next claim. -/
def nextClaim : List Claimed → Option Sweep
  | [] => none
  | claim :: rest => some { claim, rest, refs := claim.refs }

/-- `collectReleased` does nothing where the release freed no ref. -/
def collectReleased (freed : ReleasedCleanup) (tenant executionId : String) : Option Sweep :=
  if freed.refs = [] then none else nextClaim [freed.claimed tenant executionId]

inductive Probed where
  | present
  | absent
  | unknown
  deriving DecidableEq

inductive CleanupEvent where
  | owe (i : Nat) (tenant executionId key digest : String)
  | put (i : Nat)
  /-- The put threw, and nothing was stored. -/
  | putFails (i : Nat)
  | confirm (i : Nat)
  /-- A settlement releases; `collector` collects what it freed, or nobody does. -/
  | release (tenant executionId : String) (collector : Option Nat)
  | tick (i now batch : Nat)
  | probe (i : Nat) (answer : Probed)
  | remove (i : Nat)
  /-- The removal threw, whether or not the object is gone. -/
  | removeFails (i : Nat) (error : String) (gone : Bool)
  /-- Every ref was looked at. -/
  | finish (i nextAttemptAt : Nat)
  deriving DecidableEq

structure World where
  debts : Debts := Table.empty
  /-- For each key whose object is present, the row under which it was last put. -/
  objects : String → Option String := fun _ => none
  /-- The rows and keys of the puts so far. -/
  puts : List (String × String) := []
  writers : Nat → Option Writer := fun _ => none
  sweeps : Nat → Option Sweep := fun _ => none

namespace World

def withDebts (s : World) (debts : Debts) : World := { s with debts := debts }

def setWriter (s : World) (i : Nat) (w : Option Writer) : World :=
  { s with writers := Function.update s.writers i w }

def setSweep (s : World) (i : Nat) (w : Option Sweep) : World :=
  { s with sweeps := Function.update s.sweeps i w }

def putObject (s : World) (row key : String) : World :=
  { s with
    objects := Function.update s.objects key (some row)
    puts := (row, key) :: s.puts }

def removeObject (s : World) (key : String) : World :=
  { s with objects := Function.update s.objects key none }

end World

def unreadable (ref : ArtifactRef) : String :=
  s!"{ref.key}: never confirmed written, and the store would not say whether it exists"

/-- What a probe of the first ref lets the sweep do, if the store can answer so. -/
def Sweep.probed (w : Sweep) (ref : ArtifactRef) (more : List ArtifactRef) (isPresent : Bool) :
    Probed → Option Sweep
  | .present => if isPresent then some { w with seen := true } else none
  | .absent => if isPresent then none else some { w with refs := more }
  | .unknown => some { w with refs := more, failures := w.failures ++ [unreadable ref] }

/-- The ledger after a sweep's last ref. -/
def Sweep.settle (w : Sweep) (debts : Debts) (nextAttemptAt : Nat) : Debts :=
  if w.failures = [] then
    (complete debts w.claim.tenant w.claim.executionId w.claim.revision).1
  else
    deferred debts w.claim.operationId ("; ".intercalate w.failures) nextAttemptAt

def step : Machine World CleanupEvent Unit
  | s, .owe i tenant executionId key digest =>
      match s.writers i with
      | some _ => none
      | none =>
          let debts := (owe s.debts tenant executionId [{ key, digest := some digest }]).1
          some ((s.withDebts debts).setWriter i (some { tenant, executionId, key }), ())
  | s, .put i =>
      match s.writers i with
      | none => none
      | some w =>
          if w.put then none
          else some ((s.putObject w.row w.key).setWriter i (some { w with put := true }), ())
  | s, .putFails i =>
      match s.writers i with
      | none => none
      | some w => if w.put then none else some (s.setWriter i none, ())
  | s, .confirm i =>
      match s.writers i with
      | none => none
      | some w =>
          if w.put then
            let debts := confirm s.debts w.tenant w.executionId [w.key]
            some ((s.withDebts debts).setWriter i none, ())
          else none
  | s, .release tenant executionId collector =>
      match releaseForGc s.debts tenant executionId with
      | (debts, freed) =>
          match collector, freed with
          | some i, some freed =>
              if s.sweeps i = none then
                some ((s.withDebts debts).setSweep i
                  (collectReleased freed tenant executionId), ())
              else none
          | _, _ => some (s.withDebts debts, ())
  | s, .tick i now batch =>
      if s.sweeps i = none then
        some (s.setSweep i (nextClaim ((due s.debts now batch).map (·.claimed))), ())
      else none
  | s, .probe i answer =>
      match s.sweeps i with
      | none => none
      | some w =>
          match w.refs with
          | [] => none
          | ref :: more =>
              -- a written ref is not probed, and none is probed again while its removal is under way
              if ref.written ∨ w.seen then none
              else
                (w.probed ref more (s.objects ref.key).isSome answer).map
                  fun w' => (s.setSweep i (some w'), ())
  | s, .remove i =>
      match s.sweeps i with
      | none => none
      | some w =>
          match w.refs with
          | [] => none
          | ref :: more =>
              if ref.written ∨ w.seen then
                some ((s.removeObject ref.key).setSweep i
                  (some { w with refs := more, seen := false }), ())
              else none
  | s, .removeFails i error gone =>
      match s.sweeps i with
      | none => none
      | some w =>
          match w.refs with
          | [] => none
          | ref :: more =>
              if ref.written ∨ w.seen then
                let s' := if gone then s.removeObject ref.key else s
                let failures := w.failures ++ [s!"{ref.key}: {error}"]
                some (s'.setSweep i (some { w with refs := more, seen := false, failures }), ())
              else none
  | s, .finish i nextAttemptAt =>
      match s.sweeps i with
      | none => none
      | some w =>
          match w.refs with
          | _ :: _ => none
          | [] => some ((s.withDebts (w.settle s.debts nextAttemptAt)).setSweep i
              (nextClaim w.rest), ())

/-- No writer and no sweep is under way. -/
def World.Idle (s : World) : Prop := (∀ i, s.writers i = none) ∧ ∀ i, s.sweeps i = none

/-! ## The invariant -/

/-- A writer of this row has put the object and still has to confirm it. -/
def Pending (s : World) (row key : String) : Prop :=
  ∃ i w, s.writers i = some w ∧ w.put = true ∧ w.row = row ∧ w.key = key

/-- What a claim says of its row.  Where the revision still is the claim's, so are the refs. -/
def Snapshot (debts : Debts) (c : Claimed) : Prop :=
  ∃ debt, debts.get c.row = some debt ∧ debt.state ≠ .retained ∧ c.revision ≤ debt.revision ∧
    (debt.revision = c.revision → debt.refs = c.refs) ∧ ∀ ref ∈ c.refs, debt.Names ref.key

/-- A written object a sweep is done with is gone, or was put again and is not confirmed yet. -/
def Swept (s : World) (row : String) (ref : ArtifactRef) : Prop :=
  ref.written = true → s.objects ref.key = some row → Pending s row ref.key

/-- While its row has the claim's revision, a sweep without failures is done with every ref
it looked at. -/
def Progress (s : World) (w : Sweep) : Prop :=
  ∃ looked, w.claim.refs = looked ++ w.refs ∧
    (w.failures = [] → ∀ debt, s.debts.get w.claim.row = some debt →
      debt.revision = w.claim.revision → ∀ ref ∈ looked, Swept s w.claim.row ref)

structure SweepOk (s : World) (w : Sweep) : Prop where
  claim : Snapshot s.debts w.claim
  rest : ∀ c ∈ w.rest, Snapshot s.debts c
  progress : Progress s w

/-- Where an object is present, somebody still answers for it. -/
def Answered (s : World) : Prop :=
  ∀ key row, s.objects key = some row → Pending s row key ∨
    ∃ debt, s.debts.get row = some debt ∧ debt.Written key ∧ debt.state ≠ .completed

/-- An object that was put for a retained row is present while every row that owes it is retained. -/
def KeepsRetained (s : World) : Prop :=
  ∀ row debt key, s.debts.get row = some debt → debt.state = .retained → (row, key) ∈ s.puts →
    (∀ row' debt', s.debts.get row' = some debt' → debt'.Names key → debt'.state = .retained) →
    s.objects key ≠ none

structure Invariant (s : World) : Prop where
  keyed : Keyed s.debts
  writers : ∀ i w, s.writers i = some w → ∃ debt, s.debts.get w.row = some debt ∧ debt.Names w.key
  puts : ∀ row key, (row, key) ∈ s.puts → ∃ debt, s.debts.get row = some debt ∧ debt.Names key
  answered : Answered s
  keeps : KeepsRetained s
  sweeps : ∀ i w, s.sweeps i = some w → SweepOk s w

theorem invariant_start : Invariant {} where
  keyed := by
    intro row debt found
    cases found
  writers := by
    intro i w found
    cases found
  puts := by
    intro row key mem
    cases mem
  answered := by
    intro key row found
    cases found
  keeps := by
    intro row debt key found
    cases found
  sweeps := by
    intro i w found
    cases found

variable {s : World} {debts : Debts}

theorem Snapshot.evolve {c : Claimed} (snapshot : Snapshot s.debts c)
    (evolve : Evolve s.debts debts) : Snapshot debts c := by
  obtain ⟨debt, found, free, bound, same, names⟩ := snapshot
  obtain ⟨next, found', evolves⟩ := evolve _ _ found
  refine ⟨next, found', evolves.released free, ?_, ?_, ?_⟩
  · rcases evolves.revision with rfl | later
    · exact bound
    · omega
  · rcases evolves.revision with rfl | later
    · exact same
    · intro eq
      omega
  · intro ref mem
    exact evolves.names _ (names ref mem)

/-- A write that changes a row ends the promise of the sweeps that claimed it. -/
theorem Progress.evolve {w : Sweep} (progress : Progress s w) (claim : Snapshot s.debts w.claim)
    (evolve : Evolve s.debts debts) : Progress (s.withDebts debts) w := by
  obtain ⟨looked, split, swept⟩ := progress
  refine ⟨looked, split, ?_⟩
  intro clean next found' current
  obtain ⟨debt, found, -, bound, -⟩ := claim
  obtain ⟨next', there, evolves⟩ := evolve _ _ found
  obtain rfl : next' = next := Option.some.inj (there.symm.trans found')
  rcases evolves.revision with rfl | later
  · exact swept clean _ found current
  · omega

theorem SweepOk.evolve {w : Sweep} (ok : SweepOk s w) (evolve : Evolve s.debts debts) :
    SweepOk (s.withDebts debts) w :=
  ⟨ok.claim.evolve evolve, fun c mem => (ok.rest c mem).evolve evolve,
    ok.progress.evolve ok.claim evolve⟩

/-- A write to the ledger, where the objects still have somebody who answers for them. -/
theorem Invariant.withDebts (inv : Invariant s) (evolve : Evolve s.debts debts)
    (keyed : Keyed debts) (answered : Answered (s.withDebts debts)) :
    Invariant (s.withDebts debts) where
  keyed := keyed
  writers := by
    intro i w found
    obtain ⟨debt, there, names⟩ := inv.writers i w found
    obtain ⟨next, there', evolves⟩ := evolve _ _ there
    exact ⟨next, there', evolves.names _ names⟩
  puts := by
    intro row key mem
    obtain ⟨debt, there, names⟩ := inv.puts row key mem
    obtain ⟨next, there', evolves⟩ := evolve _ _ there
    exact ⟨next, there', evolves.names _ names⟩
  answered := answered
  keeps := by
    intro row next key found' retained mem all
    obtain ⟨debt, found, -⟩ := inv.puts row key mem
    obtain ⟨next', there, evolves⟩ := evolve _ _ found
    obtain rfl : next' = next := Option.some.inj (there.symm.trans found')
    have before : debt.state = .retained := by
      by_contra free
      exact evolves.released free retained
    refine inv.keeps row debt key found before mem ?_
    intro row' other there names
    obtain ⟨next, there', evolves⟩ := evolve _ _ there
    by_contra free
    exact evolves.released free (all row' next there' (evolves.names _ names))
  sweeps := by
    intro i w found
    exact (inv.sweeps i w found).evolve evolve

/-- A write that closes no row. -/
theorem Invariant.answered_keepsOpen (inv : Invariant s) (evolve : Evolve s.debts debts)
    (keeps : KeepsOpen s.debts debts) : Answered (s.withDebts debts) := by
  intro key row present
  rcases inv.answered key row present with pending | ⟨debt, found, written, isOpen⟩
  · exact .inl pending
  · obtain ⟨next, found', evolves⟩ := evolve _ _ found
    exact .inr ⟨next, found', evolves.written _ written, keeps _ _ _ found found' isOpen⟩

/-! ## Writers -/

/-- The pending writers are the same, whatever became of the others. -/
theorem Invariant.sameWriters {t : World} (inv : Invariant s) (debts : t.debts = s.debts)
    (objects : t.objects = s.objects) (puts : t.puts = s.puts) (sweeps : t.sweeps = s.sweeps)
    (writers : ∀ i w, t.writers i = some w →
      ∃ debt, s.debts.get w.row = some debt ∧ debt.Names w.key)
    (pending : ∀ row key, Pending s row key → Pending t row key) : Invariant t where
  keyed := by
    rw [debts]
    exact inv.keyed
  writers := by
    rw [debts]
    exact writers
  puts := by
    rw [debts, puts]
    exact inv.puts
  answered := by
    intro key row present
    rw [objects] at present
    rw [debts]
    exact (inv.answered key row present).imp_left (pending row key)
  keeps := by
    unfold KeepsRetained
    rw [debts, puts, objects]
    exact inv.keeps
  sweeps := by
    intro i w found
    rw [sweeps] at found
    obtain ⟨claim, rest, looked, split, swept⟩ := inv.sweeps i w found
    refine ⟨by rwa [debts], by rwa [debts], looked, split, ?_⟩
    intro clean debt there current ref mem written present
    rw [debts] at there
    rw [objects] at present
    exact pending _ _ (swept clean debt there current ref mem written present)

theorem setWriter_eq_some {i j : Nat} {new : Option Writer} {w : Writer} :
    (s.setWriter i new).writers j = some w ↔ j = i ∧ new = some w ∨ j ≠ i ∧ s.writers j = some w := by
  unfold World.setWriter
  by_cases hit : j = i
  · subst hit
    simp
  · simp [hit]

/-- A writer that had put nothing was nobody's pending writer. -/
theorem pending_setWriter {i : Nat} {new : Option Writer} {row key : String}
    (idle : ∀ w, s.writers i = some w → w.put = false) (pending : Pending s row key) :
    Pending (s.setWriter i new) row key := by
  obtain ⟨j, w, found, put, rest⟩ := pending
  refine ⟨j, w, setWriter_eq_some.mpr (.inr ⟨?_, found⟩), put, rest⟩
  rintro rfl
  rw [idle w found] at put
  cases put

/-- A writer that has put nothing comes or goes. -/
theorem Invariant.setWriter (inv : Invariant s) {i : Nat} {new : Option Writer}
    (idle : ∀ w, s.writers i = some w → w.put = false)
    (named : ∀ w, new = some w → ∃ debt, s.debts.get w.row = some debt ∧ debt.Names w.key) :
    Invariant (s.setWriter i new) := by
  refine inv.sameWriters rfl rfl rfl rfl ?_ fun _ _ => pending_setWriter idle
  intro j w found
  rcases setWriter_eq_some.mp found with ⟨-, eq⟩ | ⟨-, there⟩
  · exact named w eq
  · exact inv.writers j w there

theorem invariant_owe (inv : Invariant s) {i : Nat} {tenant executionId key : String}
    (digest : Option String) (free : s.writers i = none) :
    Invariant ((s.withDebts (owe s.debts tenant executionId [{ key, digest }]).1).setWriter i
      (some { tenant, executionId, key })) := by
  have evolve : Evolve s.debts (owe s.debts tenant executionId [{ key, digest }]).1 := owe_evolve _
  have opened := inv.withDebts evolve (owe_keyed inv.keyed _)
    (inv.answered_keepsOpen evolve (owe_keepsOpen _))
  apply opened.setWriter
  · intro w found
    rw [World.withDebts, free] at found
    cases found
  · intro w eq
    obtain rfl := Option.some.inj eq
    obtain ⟨debt, found, names⟩ := owe_names (List.mem_singleton_self
      ({ key, digest } : ArtifactRef))
    exact ⟨debt, found, names⟩

theorem invariant_put (inv : Invariant s) {i : Nat} {w : Writer} (found : s.writers i = some w)
    (early : w.put = false) :
    Invariant ((s.putObject w.row w.key).setWriter i (some { w with put := true })) := by
  have idle : ∀ w', s.writers i = some w' → w'.put = false := by
    intro w' found'
    obtain rfl : w = w' := Option.some.inj (found.symm.trans found')
    exact early
  have stays : ∀ row key, Pending s row key →
      Pending ((s.putObject w.row w.key).setWriter i (some { w with put := true })) row key :=
    fun row key pending => pending_setWriter (s := s.putObject w.row w.key) idle pending
  have own : Pending ((s.putObject w.row w.key).setWriter i (some { w with put := true }))
      w.row w.key :=
    ⟨i, { w with put := true }, setWriter_eq_some.mpr (.inl ⟨rfl, rfl⟩), rfl, rfl, rfl⟩
  have object : ∀ key row, (s.putObject w.row w.key).objects key = some row →
      key = w.key ∧ row = w.row ∨ s.objects key = some row := by
    intro key row present
    change Function.update s.objects w.key (some w.row) key = some row at present
    by_cases hit : key = w.key
    · subst hit
      rw [Function.update_self] at present
      exact .inl ⟨rfl, (Option.some.inj present).symm⟩
    · rw [Function.update_of_ne hit] at present
      exact .inr present
  refine ⟨inv.keyed, ?_, ?_, ?_, ?_, ?_⟩
  · intro j w' found'
    rcases setWriter_eq_some.mp found' with ⟨-, eq⟩ | ⟨-, there⟩
    · obtain rfl := Option.some.inj eq
      exact inv.writers i w found
    · exact inv.writers j w' there
  · intro row key mem
    rcases List.mem_cons.mp mem with eq | old
    · obtain ⟨rfl, rfl⟩ := Prod.mk.inj eq
      exact inv.writers i w found
    · exact inv.puts row key old
  · intro key row present
    rcases object key row present with ⟨rfl, rfl⟩ | before
    · exact .inl own
    · exact (inv.answered key row before).imp_left (stays row key)
  · intro row debt key there retained mem all
    show Function.update s.objects w.key (some w.row) key ≠ none
    by_cases hit : key = w.key
    · rw [hit, Function.update_self]
      simp
    · rw [Function.update_of_ne hit]
      rcases List.mem_cons.mp mem with eq | old
      · exact absurd (Prod.mk.inj eq).2 hit
      · exact inv.keeps row debt key there retained old all
  · intro j sweep there
    obtain ⟨claim, rest, looked, split, swept⟩ := inv.sweeps j sweep there
    refine ⟨claim, rest, looked, split, ?_⟩
    intro clean debt row current ref mem written present
    rcases object ref.key _ present with ⟨key, same⟩ | before
    · rw [key, same]
      exact own
    · exact stays _ _ (swept clean debt row current ref mem written before)

/-- The confirmation leaves an open row that knows the object was written, and its new
revision ends the promise of every sweep that claimed the row. -/
theorem invariant_confirm (inv : Invariant s) {i : Nat} {w : Writer}
    (found : s.writers i = some w) :
    Invariant ((s.withDebts (confirm s.debts w.tenant w.executionId [w.key])).setWriter i none) := by
  obtain ⟨debt, row, names⟩ := inv.writers i w found
  have after : (confirm s.debts w.tenant w.executionId [w.key]).get w.row =
      some (confirmed [w.key] debt) := get_confirm row
  have evolve : Evolve s.debts (confirm s.debts w.tenant w.executionId [w.key]) := confirm_evolve _
  have opened := inv.withDebts evolve (confirm_keyed inv.keyed _)
    (inv.answered_keepsOpen evolve (confirm_keepsOpen _))
  have others : ∀ row key, ¬ (row = w.row ∧ key = w.key) → Pending s row key →
      Pending ((s.withDebts (confirm s.debts w.tenant w.executionId [w.key])).setWriter i none)
        row key := by
    intro row key other ⟨j, w', found', put, hrow, hkey⟩
    refine ⟨j, w', setWriter_eq_some.mpr (.inr ⟨?_, found'⟩), put, hrow, hkey⟩
    rintro rfl
    obtain rfl : w = w' := Option.some.inj (found.symm.trans found')
    exact other ⟨hrow.symm, hkey.symm⟩
  refine ⟨opened.keyed, ?_, opened.puts, ?_, opened.keeps, ?_⟩
  · intro j w' found'
    rcases setWriter_eq_some.mp found' with ⟨-, eq⟩ | ⟨-, there⟩
    · cases eq
    · exact opened.writers j w' there
  · intro key row' present
    by_cases own : row' = w.row ∧ key = w.key
    · obtain ⟨rfl, rfl⟩ := own
      exact .inr ⟨_, after, confirmed_written names (by simp), confirmed_open _ _⟩
    · exact (opened.answered key row' present).imp_left (others row' key own)
  · intro j sweep there
    obtain ⟨claim, rest, looked, split, swept⟩ := opened.sweeps j sweep there
    refine ⟨claim, rest, looked, split, ?_⟩
    intro clean next row' current ref mem written present
    apply others _ _ _ (swept clean next row' current ref mem written present)
    intro ⟨same, _⟩
    obtain ⟨prior, before, -, bound, -⟩ := (inv.sweeps j sweep there).claim
    rw [same] at before row'
    obtain rfl : debt = prior := Option.some.inj (row.symm.trans before)
    obtain rfl := Option.some.inj (after.symm.trans row')
    simp only [confirmed] at current
    omega

/-! ## Sweeps -/

theorem Invariant.setSweep (inv : Invariant s) {i : Nat} {new : Option Sweep}
    (ok : ∀ w, new = some w → SweepOk s w) : Invariant (s.setSweep i new) where
  keyed := inv.keyed
  writers := inv.writers
  puts := inv.puts
  answered := inv.answered
  keeps := inv.keeps
  sweeps := by
    intro j w found
    have ok : SweepOk s w := by
      unfold World.setSweep at found
      by_cases hit : j = i
      · subst hit
        simp only [Function.update_self] at found
        exact ok w found
      · simp only [Function.update_of_ne hit] at found
        exact inv.sweeps j w found
    exact ⟨ok.claim, ok.rest, ok.progress⟩

/-- A loop that starts on a claim has looked at none of its refs. -/
theorem sweepOk_nextClaim {claims : List Claimed} {w : Sweep}
    (snapshots : ∀ c ∈ claims, Snapshot s.debts c) (eq : nextClaim claims = some w) :
    SweepOk s w := by
  cases claims with
  | nil => cases eq
  | cons claim rest =>
      obtain rfl := Option.some.inj eq
      refine ⟨snapshots claim (by simp), fun c mem => snapshots c (by simp [mem]), [], rfl, ?_⟩
      intro _ _ _ _ ref mem
      cases mem

theorem invariant_release (inv : Invariant s) (tenant executionId : String) :
    Invariant (s.withDebts (releaseForGc s.debts tenant executionId).1) :=
  inv.withDebts releaseForGc_evolve (releaseForGc_keyed inv.keyed)
    (inv.answered_keepsOpen releaseForGc_evolve releaseForGc_keepsOpen)

theorem snapshot_released {tenant executionId : String} {freed : ReleasedCleanup}
    (eq : (releaseForGc debts tenant executionId).2 = some freed) :
    Snapshot (releaseForGc debts tenant executionId).1 (freed.claimed tenant executionId) := by
  obtain ⟨debt, found, state, refs, revision⟩ := of_releaseForGc eq
  refine ⟨debt, found, by simp [state], Nat.le_of_eq revision.symm, fun _ => refs, ?_⟩
  intro ref mem
  exact ⟨ref, refs ▸ mem, rfl⟩

theorem snapshot_due (keyed : Keyed debts) {now batch : Nat} {debt : IntermediateCleanupDebt}
    (mem : debt ∈ due debts now batch) : Snapshot debts debt.claimed := by
  obtain ⟨row, found, free⟩ := of_mem_due mem
  have own : debt.claimed.row = row := (keyed row debt found).symm
  exact ⟨debt, own ▸ found, free, Nat.le_refl _, fun _ => rfl, fun ref there => ⟨ref, there, rfl⟩⟩

/-- A sweep goes on to its next ref.  Without a failure, the ref it leaves is swept. -/
theorem SweepOk.look {w : Sweep} (ok : SweepOk s w) {ref : ArtifactRef} {more : List ArtifactRef}
    (refs : w.refs = ref :: more) {failures : List String}
    (swept : failures = [] → w.failures = [] ∧ Swept s w.claim.row ref) (seen : Bool) :
    SweepOk s { w with refs := more, seen, failures } := by
  obtain ⟨claim, rest, looked, split, before⟩ := ok
  refine ⟨claim, rest, looked ++ [ref], ?_, ?_⟩
  · rw [split, refs, List.append_assoc]
    rfl
  · intro clean debt found current r mem
    obtain ⟨clean, last⟩ := swept clean
    rcases List.mem_append.mp mem with early | late
    · exact before clean debt found current r early
    · rw [List.mem_singleton.mp late]
      exact last

/-- A removal takes no object that only retained rows owe: the sweep's row is released and owes the
object. -/
theorem Invariant.removeObject (inv : Invariant s) {row key : String}
    {debt : IntermediateCleanupDebt} (found : s.debts.get row = some debt)
    (free : debt.state ≠ .retained) (names : debt.Names key) :
    Invariant (s.removeObject key) := by
  have object : ∀ key' row', (s.removeObject key).objects key' = some row' →
      s.objects key' = some row' := by
    intro key' row' present
    change Function.update s.objects key none key' = some row' at present
    by_cases hit : key' = key
    · rw [hit, Function.update_self] at present
      cases present
    · rwa [Function.update_of_ne hit] at present
  refine ⟨inv.keyed, inv.writers, inv.puts, ?_, ?_, ?_⟩
  · intro key' row' present
    exact inv.answered key' row' (object key' row' present)
  · intro row' debt' key' found' retained mem all
    have other : key' ≠ key := by
      rintro rfl
      exact free (all row debt found names)
    change Function.update s.objects key none key' ≠ none
    rw [Function.update_of_ne other]
    exact inv.keeps row' debt' key' found' retained mem all
  · intro i w there
    obtain ⟨claim, rest, looked, split, swept⟩ := inv.sweeps i w there
    refine ⟨claim, rest, looked, split, ?_⟩
    intro clean debt row current ref mem written present
    exact swept clean debt row current ref mem written (object _ _ present)

theorem swept_removeObject (row : String) (ref : ArtifactRef) :
    Swept (s.removeObject ref.key) row ref := by
  intro _ present
  change Function.update s.objects ref.key none ref.key = some row at present
  rw [Function.update_self] at present
  cases present

/-- The row of the claim at hand is released and owes every ref still to look at. -/
theorem Invariant.remove (inv : Invariant s) {i : Nat} {w : Sweep} (found : s.sweeps i = some w)
    {ref : ArtifactRef} {more : List ArtifactRef} (refs : w.refs = ref :: more) :
    Invariant (s.removeObject ref.key) := by
  obtain ⟨⟨debt, row, free, -, -, names⟩, -, looked, split, -⟩ := inv.sweeps i w found
  refine inv.removeObject row free (names ref ?_)
  rw [split, refs]
  simp

/-- A sweep that closes its row leaves no object behind: what the row had written is gone or
has a pending writer. -/
theorem Invariant.answered_complete (inv : Invariant s) {w : Sweep} (ok : SweepOk s w)
    (last : w.refs = []) (clean : w.failures = []) :
    Answered (s.withDebts (complete s.debts w.claim.tenant w.claim.executionId
      w.claim.revision).1) := by
  intro key row present
  rcases inv.answered key row present with pending | ⟨debt, found, written, isOpen⟩
  · exact .inl pending
  have evolve : Evolve s.debts (complete s.debts w.claim.tenant w.claim.executionId
    w.claim.revision).1 := complete_evolve _
  obtain ⟨next, found', evolves⟩ := evolve row debt found
  rcases get_complete found found' with rfl | ⟨own, current, -⟩
  · exact .inr ⟨next, found', written, isOpen⟩
  obtain ⟨⟨debt', row', -, -, same, -⟩, -, looked, split, swept⟩ := ok
  obtain rfl : row = w.claim.row := own
  obtain rfl : debt = debt' := Option.some.inj (found.symm.trans row')
  obtain ⟨ref, mem, rfl, hit⟩ := written
  rw [last, List.append_nil] at split
  rw [same current, split] at mem
  exact .inl (swept clean debt found current ref mem hit present)

theorem Invariant.settle (inv : Invariant s) {w : Sweep} (ok : SweepOk s w) (last : w.refs = [])
    (nextAttemptAt : Nat) :
    Evolve s.debts (w.settle s.debts nextAttemptAt) ∧
      Invariant (s.withDebts (w.settle s.debts nextAttemptAt)) := by
  unfold Sweep.settle
  split
  · next clean =>
      have evolve : Evolve s.debts (complete s.debts w.claim.tenant w.claim.executionId
        w.claim.revision).1 := complete_evolve _
      exact ⟨evolve, inv.withDebts evolve (complete_keyed inv.keyed _)
        (inv.answered_complete ok last clean)⟩
  · have evolve : Evolve s.debts (deferred s.debts w.claim.operationId
      ("; ".intercalate w.failures) nextAttemptAt) := deferred_evolve _ _ _
    exact ⟨evolve, inv.withDebts evolve (deferred_keyed inv.keyed _ _ _)
      (inv.answered_keepsOpen evolve (deferred_keepsOpen _ _ _))⟩

/-! ## One step -/

theorem step_preserves {e : CleanupEvent} {t : World} {o : Unit} (inv : Invariant s)
    (eq : step s e = some (t, o)) : Invariant t ∧ Evolve s.debts t.debts := by
  cases e with
  | owe i tenant executionId key digest =>
      simp only [step] at eq
      split at eq
      · cases eq
      · next free =>
          obtain ⟨rfl, -⟩ := Prod.mk.inj (Option.some.inj eq)
          exact ⟨invariant_owe inv (some digest) free, owe_evolve _⟩
  | put i =>
      simp only [step] at eq
      split at eq
      · cases eq
      · next w found =>
          split at eq
          · cases eq
          · next early =>
              obtain ⟨rfl, -⟩ := Prod.mk.inj (Option.some.inj eq)
              exact ⟨invariant_put inv found (by simpa using early), Evolve.rfl⟩
  | putFails i =>
      simp only [step] at eq
      split at eq
      · cases eq
      · next w found =>
          split at eq
          · cases eq
          · next early =>
              obtain ⟨rfl, -⟩ := Prod.mk.inj (Option.some.inj eq)
              refine ⟨inv.setWriter ?_ (by simp), Evolve.rfl⟩
              intro w' found'
              obtain rfl : w = w' := Option.some.inj (found.symm.trans found')
              simpa using early
  | confirm i =>
      simp only [step] at eq
      split at eq
      · cases eq
      · next w found =>
          split at eq
          · obtain ⟨rfl, -⟩ := Prod.mk.inj (Option.some.inj eq)
            exact ⟨invariant_confirm inv found, confirm_evolve _⟩
          · cases eq
  | release tenant executionId collector =>
      simp only [step] at eq
      have freeing := invariant_release inv tenant executionId
      have evolve : Evolve s.debts (releaseForGc s.debts tenant executionId).1 :=
        releaseForGc_evolve
      split at eq
      · next i freed some =>
          split at eq
          · obtain ⟨rfl, -⟩ := Prod.mk.inj (Option.some.inj eq)
            refine ⟨freeing.setSweep ?_, evolve⟩
            intro w started
            unfold collectReleased at started
            split at started
            · cases started
            · refine sweepOk_nextClaim ?_ started
              intro c mem
              rw [List.mem_singleton.mp mem]
              exact snapshot_released some
          · cases eq
      · obtain ⟨rfl, -⟩ := Prod.mk.inj (Option.some.inj eq)
        exact ⟨freeing, evolve⟩
  | tick i now batch =>
      simp only [step] at eq
      split at eq
      · obtain ⟨rfl, -⟩ := Prod.mk.inj (Option.some.inj eq)
        refine ⟨inv.setSweep fun w started => sweepOk_nextClaim ?_ started, Evolve.rfl⟩
        intro c mem
        obtain ⟨debt, due, rfl⟩ := List.mem_map.mp mem
        exact snapshot_due inv.keyed due
      · cases eq
  | probe i answer =>
      simp only [step] at eq
      split at eq
      · cases eq
      · next w found =>
          split at eq
          · cases eq
          · next ref more refs =>
              split at eq
              · cases eq
              · next unwritten =>
                  rw [not_or] at unwritten
                  obtain ⟨w', probed, same⟩ := Option.map_eq_some_iff.mp eq
                  obtain ⟨rfl, -⟩ := Prod.mk.inj same
                  have ok := inv.sweeps i w found
                  refine ⟨inv.setSweep ?_, Evolve.rfl⟩
                  intro w'' eq
                  obtain rfl := Option.some.inj eq
                  cases answer with
                  | present =>
                      simp only [Sweep.probed] at probed
                      split at probed
                      · obtain rfl := Option.some.inj probed
                        exact ⟨ok.claim, ok.rest, ok.progress⟩
                      · cases probed
                  | absent =>
                      simp only [Sweep.probed] at probed
                      split at probed
                      · cases probed
                      · obtain rfl := Option.some.inj probed
                        -- an unwritten ref found absent is swept as it is
                        exact ok.look refs (fun clean => ⟨clean, fun written =>
                          absurd written unwritten.1⟩) w.seen
                  | unknown =>
                      obtain rfl := Option.some.inj probed
                      exact ok.look refs (fun clean => by simp at clean) w.seen
  | remove i =>
      simp only [step] at eq
      split at eq
      · cases eq
      · next w found =>
          split at eq
          · cases eq
          · next ref more refs =>
              split at eq
              · obtain ⟨rfl, -⟩ := Prod.mk.inj (Option.some.inj eq)
                have removed := inv.remove found refs
                refine ⟨removed.setSweep ?_, Evolve.rfl⟩
                intro w' eq
                obtain rfl := Option.some.inj eq
                have ok := removed.sweeps i w found
                exact ok.look refs (fun clean => ⟨clean, swept_removeObject _ _⟩) false
              · cases eq
  | removeFails i error gone =>
      simp only [step] at eq
      split at eq
      · cases eq
      · next w found =>
          split at eq
          · cases eq
          · next ref more refs =>
              split at eq
              · obtain ⟨rfl, -⟩ := Prod.mk.inj (Option.some.inj eq)
                have removed : Invariant (if gone then s.removeObject ref.key else s) := by
                  split
                  · exact inv.remove found refs
                  · exact inv
                have same : (if gone then s.removeObject ref.key else s).sweeps i = some w := by
                  split <;> exact found
                refine ⟨removed.setSweep ?_, ?_⟩
                · intro w' eq
                  obtain rfl := Option.some.inj eq
                  exact (removed.sweeps i w same).look refs (fun clean => by simp at clean) false
                · cases gone <;> exact Evolve.rfl
              · cases eq
  | finish i nextAttemptAt =>
      simp only [step] at eq
      split at eq
      · cases eq
      · next w found =>
          split at eq
          · cases eq
          · next last =>
              obtain ⟨rfl, -⟩ := Prod.mk.inj (Option.some.inj eq)
              have ok := inv.sweeps i w found
              obtain ⟨evolve, settled⟩ := inv.settle ok last nextAttemptAt
              refine ⟨settled.setSweep fun w' started => sweepOk_nextClaim ?_ started, evolve⟩
              intro c mem
              exact (ok.rest c mem).evolve evolve

theorem invariant_of_reachable (reached : Reachable step Always {} s) : Invariant s := by
  obtain ⟨log, run⟩ := reached
  exact run.state_invariant invariant_start fun _ _ _ _ inv _ eq => (step_preserves inv eq).1

/-- Over any run, every row is still there as what it may have become, and none is retained again. -/
theorem stays_released {log : List (CleanupEvent × Unit)} {t : World} (inv : Invariant s)
    (run : Runs step Always s log t) {row : String} {debt : IntermediateCleanupDebt}
    (found : s.debts.get row = some debt) (free : debt.state ≠ .retained) :
    ∃ debt', t.debts.get row = some debt' ∧ debt'.state ≠ .retained := by
  have both : Invariant t ∧ ∃ debt', t.debts.get row = some debt' ∧ debt'.state ≠ .retained := by
    refine run.state_invariant (I := fun t => Invariant t ∧ ∃ debt', t.debts.get row = some debt' ∧
      debt'.state ≠ .retained) ⟨inv, debt, found, free⟩ ?_
    intro s e t o ⟨inv, debt, found, free⟩ _ eq
    obtain ⟨inv', evolve⟩ := step_preserves inv eq
    obtain ⟨debt', found', evolves⟩ := evolve row debt found
    exact ⟨inv', debt', found', evolves.released free⟩
  exact both.2

/-- Once nobody is under way, an object that is present has an open row that owes it. -/
theorem Invariant.owned_of_idle (inv : Invariant s) (idle : s.Idle) {key : String}
    (present : s.objects key ≠ none) :
    ∃ row debt, s.debts.get row = some debt ∧ debt.Names key ∧ debt.state ≠ .completed := by
  obtain ⟨row, eq⟩ := Option.ne_none_iff_exists'.mp present
  rcases inv.answered key row eq with ⟨i, w, found, -⟩ | ⟨debt, found, written, isOpen⟩
  · rw [idle.1 i] at found
    cases found
  · exact ⟨row, debt, found, written.names, isOpen⟩

/-- Whatever the order of writers, releases, collections and ticks: an object that was put for a
retained row is there while every row that owes it is retained, no row is retained again after its
release, and at rest every object has an open row that owes it. -/
theorem kept_while_retained_and_owned_at_rest (reached : Reachable step Always {} s) :
    (∀ row debt key, s.debts.get row = some debt → debt.state = .retained → (row, key) ∈ s.puts →
      (∀ row' debt', s.debts.get row' = some debt' → debt'.Names key → debt'.state = .retained) →
      s.objects key ≠ none) ∧
    (∀ log t row debt, Runs step Always s log t → s.debts.get row = some debt →
      debt.state ≠ .retained → ∃ debt', t.debts.get row = some debt' ∧ debt'.state ≠ .retained) ∧
    (s.Idle → ∀ key, s.objects key ≠ none →
      ∃ row debt, s.debts.get row = some debt ∧ debt.Names key ∧ debt.state ≠ .completed) := by
  have inv := invariant_of_reachable reached
  refine ⟨inv.keeps, ?_, ?_⟩
  · intro log t row debt run found free
    exact stays_released inv run found free
  · intro idle key present
    exact inv.owned_of_idle idle present

/-- A writer that is confirmed after its row was released and collected. -/
def lateWriter : List CleanupEvent :=
  [.owe 0 "acme" "evd-run-1" "k" "d", .release "acme" "evd-run-1" (some 0), .probe 0 .absent,
    .finish 0 0, .put 0, .confirm 0]

theorem kept_while_retained_and_owned_at_rest_lateWriter :
    ∃ s, Reachable step Always {} s ∧ s.Idle ∧ s.objects "k" ≠ none ∧
      ∃ row debt, s.debts.get row = some debt ∧ debt.Names "k" ∧ debt.state ≠ .completed := by
  obtain ⟨s, reached, idle, present⟩ :
      ∃ s, Reachable step Always {} s ∧ s.Idle ∧ (s.objects "k").isSome = true := by
    refine ⟨_, ⟨_, runs_of_exec step Always {} lateWriter rfl⟩, ⟨fun i => ?_, fun i => ?_⟩, rfl⟩
    · cases i <;> rfl
    · cases i <;> rfl
  have present := Option.isSome_iff_ne_none.mp present
  exact ⟨s, reached, idle, present,
    (kept_while_retained_and_owned_at_rest reached).2.2 idle "k" present⟩

/-- Two executions stage one object; the first is settled and its sweep deletes the object
while the second still retains it. -/
def sharedKey : List CleanupEvent :=
  [.owe 0 "acme" "evd-run-1" "k" "d", .put 0, .confirm 0,
    .owe 1 "acme" "evd-run-2" "k" "d", .put 1, .confirm 1,
    .release "acme" "evd-run-1" (some 0), .remove 0, .finish 0 0]

/-- A row is retained and put its object, and the object is gone. -/
def lost (row key : String) (s : World) : Bool :=
  (s.debts.get row).any (·.state = .retained) && decide ((row, key) ∈ s.puts) &&
    (s.objects key).isNone

theorem shared_object_is_deleted :
    ¬ ∀ s, Reachable step Always {} s → ∀ row debt key, s.debts.get row = some debt →
      debt.state = .retained → (row, key) ∈ s.puts → s.objects key ≠ none := by
  intro all
  obtain ⟨log, s, run, found⟩ := exists_run_of_exec step Always {} sharedKey
    (lost (rowKey "acme" "evd-run-2") "k") (by decide +kernel)
  simp only [lost, Bool.and_eq_true, Option.any_eq_true_iff_get, decide_eq_true_eq,
    Option.isNone_iff_eq_none] at found
  obtain ⟨⟨⟨some, retained⟩, put⟩, gone⟩ := found
  exact all s ⟨log, run⟩ _ _ _ (Option.some_get some).symm retained put gone

end Everdict.Cleanup
