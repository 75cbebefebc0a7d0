import Everdict.Table

/-!
# The ledger of intermediate artifacts

One row for each execution: which staged objects it owes, whether it still retains them,
and a revision that every write raises.  What a write may do to a row is said once
(`Debt.Evolves`): it forgets no object, unwrites none, takes no row back into retention and
raises the revision; only `complete` closes a row (`get_complete`).
-/

namespace Everdict.Cleanup

structure ArtifactRef where
  key : String
  digest : Option String := none
  written : Bool := false
  deriving DecidableEq

inductive IntermediateLifecycle where
  | retained
  | gc_owed
  | retry_wait
  | completed
  deriving DecidableEq

structure IntermediateCleanupDebt where
  operationId : String
  tenant : String
  executionId : String
  refs : List ArtifactRef
  state : IntermediateLifecycle
  attempts : Nat
  revision : Nat
  nextAttemptAt : Option Nat := none
  lastError : Option String := none
  deriving DecidableEq

structure ReleasedCleanup where
  operationId : String
  refs : List ArtifactRef
  revision : Nat
  deriving DecidableEq

inductive Completion where
  | completed
  | changed
  | absent
  deriving DecidableEq

/-! ## The store in memory -/

abbrev Debts := Table String IntermediateCleanupDebt

/-- The row of an execution. -/
def rowKey (tenant executionId : String) : String :=
  tenant ++ "\x00" ++ executionId

/-- The refs a row has, and those of a call it does not have yet. -/
def accumulate (refs : List ArtifactRef) (input : List ArtifactRef) : List ArtifactRef :=
  input.foldl (fun refs ref => if refs.any (·.key = ref.key) then refs else refs ++ [ref]) refs

def owed (prior : Option IntermediateCleanupDebt) (tenant executionId : String)
    (refs : List ArtifactRef) : IntermediateCleanupDebt where
  operationId := (prior.map (·.operationId)).getD s!"gc-{executionId}"
  tenant := tenant
  executionId := executionId
  refs := accumulate ((prior.map (·.refs)).getD []) refs
  state := if prior.any (·.state ≠ .retained) then .gc_owed else .retained
  attempts := (prior.map (·.attempts)).getD 0
  revision := (prior.map (·.revision)).getD 0 + 1

def owe (debts : Debts) (tenant executionId : String) (refs : List ArtifactRef) :
    Debts × IntermediateCleanupDebt :=
  let debt := owed (debts.get (rowKey tenant executionId)) tenant executionId refs
  (debts.set (rowKey tenant executionId) debt, debt)

def markWritten (keys : List String) (ref : ArtifactRef) : ArtifactRef :=
  if ref.key ∈ keys then { ref with written := true } else ref

def confirmed (keys : List String) (debt : IntermediateCleanupDebt) : IntermediateCleanupDebt :=
  { debt with
    revision := debt.revision + 1
    state := if debt.state ≠ .retained then .gc_owed else debt.state
    refs := debt.refs.map (markWritten keys) }

def confirm (debts : Debts) (tenant executionId : String) (keys : List String) : Debts :=
  match debts.get (rowKey tenant executionId) with
  | none => debts
  | some debt => debts.set (rowKey tenant executionId) (confirmed keys debt)

def released (debt : IntermediateCleanupDebt) : IntermediateCleanupDebt :=
  { debt with state := .gc_owed, revision := debt.revision + 1 }

def releaseForGc (debts : Debts) (tenant executionId : String) :
    Debts × Option ReleasedCleanup :=
  match debts.get (rowKey tenant executionId) with
  | none => (debts, none)
  | some debt =>
      if debt.state = .completed then (debts, none)
      else
        (debts.set (rowKey tenant executionId) (released debt),
          some ⟨debt.operationId, debt.refs, debt.revision + 1⟩)

def completed (debt : IntermediateCleanupDebt) : IntermediateCleanupDebt :=
  { debt with state := .completed, revision := debt.revision + 1 }

def complete (debts : Debts) (tenant executionId : String) (expectedRevision : Nat) :
    Debts × Completion :=
  match debts.get (rowKey tenant executionId) with
  | none => (debts, .absent)
  | some debt =>
      if debt.revision ≠ expectedRevision then (debts, .changed)
      else if debt.state = .completed ∨ debt.state = .retained then (debts, .changed)
      else (debts.set (rowKey tenant executionId) (completed debt), .completed)

def isDue (now : Nat) (debt : IntermediateCleanupDebt) : Bool :=
  (debt.state = .gc_owed ∨ debt.state = .retry_wait) ∧ ∀ t ∈ debt.nextAttemptAt, t ≤ now

def due (debts : Debts) (now limit : Nat) : List IntermediateCleanupDebt :=
  (debts.values.filter (isDue now)).take limit

def staleRetained (debts : Debts) (limit : Nat) : List IntermediateCleanupDebt :=
  (debts.values.filter (·.state = .retained)).take limit

def retried (error : String) (nextAttemptAt : Nat) (debt : IntermediateCleanupDebt) :
    IntermediateCleanupDebt :=
  { debt with
    state := .retry_wait
    attempts := debt.attempts + 1
    lastError := some error
    nextAttemptAt := some nextAttemptAt
    revision := debt.revision + 1 }

def deferred (debts : Debts) (operationId error : String) (nextAttemptAt : Nat) : Debts :=
  debts.update fun _ debt =>
    if debt.operationId = operationId then retried error nextAttemptAt debt else debt

/-! ## What a write does to a row -/

namespace IntermediateCleanupDebt

/-- The row owes the object of this key. -/
def Names (debt : IntermediateCleanupDebt) (key : String) : Prop :=
  ∃ ref ∈ debt.refs, ref.key = key

/-- The row owes the object, and its write was confirmed. -/
def Written (debt : IntermediateCleanupDebt) (key : String) : Prop :=
  ∃ ref ∈ debt.refs, ref.key = key ∧ ref.written = true

/-- What a row may become. -/
structure Evolves (debt next : IntermediateCleanupDebt) : Prop where
  names : ∀ key, debt.Names key → next.Names key
  written : ∀ key, debt.Written key → next.Written key
  released : debt.state ≠ .retained → next.state ≠ .retained
  revision : next = debt ∨ debt.revision < next.revision

theorem Evolves.rfl {debt : IntermediateCleanupDebt} : Evolves debt debt :=
  ⟨fun _ h => h, fun _ h => h, fun h => h, .inl (by trivial)⟩

theorem Written.names {debt : IntermediateCleanupDebt} {key : String} (written : debt.Written key) :
    debt.Names key := by
  obtain ⟨ref, mem, eq, -⟩ := written
  exact ⟨ref, mem, eq⟩

end IntermediateCleanupDebt

open IntermediateCleanupDebt

variable {debts : Debts} {row tenant executionId : String} {debt : IntermediateCleanupDebt}

theorem subset_accumulate (refs input : List ArtifactRef) : refs ⊆ accumulate refs input := by
  unfold accumulate
  induction input generalizing refs with
  | nil => exact List.Subset.refl refs
  | cons ref input ih =>
      rw [List.foldl_cons]
      refine List.Subset.trans ?_ (ih _)
      split
      · exact List.Subset.refl refs
      · exact List.subset_append_left refs [ref]

theorem exists_accumulate {refs input : List ArtifactRef} {ref : ArtifactRef} (mem : ref ∈ input) :
    ∃ r ∈ accumulate refs input, r.key = ref.key := by
  induction input generalizing refs with
  | nil => cases mem
  | cons first input ih =>
      rcases List.mem_cons.mp mem with rfl | later
      · have kept := subset_accumulate
          (if refs.any (·.key = ref.key) then refs else refs ++ [ref]) input
        by_cases known : refs.any (·.key = ref.key)
        · obtain ⟨r, there, same⟩ := List.any_eq_true.mp known
          rw [if_pos known] at kept
          refine ⟨r, ?_, of_decide_eq_true same⟩
          rw [accumulate, List.foldl_cons, if_pos known]
          exact kept there
        · rw [if_neg known] at kept
          refine ⟨ref, ?_, rfl⟩
          rw [accumulate, List.foldl_cons, if_neg known]
          exact kept (by simp)
      · exact ih later

theorem owed_evolves (refs : List ArtifactRef) :
    debt.Evolves (owed (some debt) tenant executionId refs) := by
  have kept := subset_accumulate debt.refs refs
  refine ⟨?_, ?_, ?_, .inr (Nat.lt_succ_self _)⟩
  · intro key ⟨ref, mem, eq⟩
    exact ⟨ref, kept mem, eq⟩
  · intro key ⟨ref, mem, eq⟩
    exact ⟨ref, kept mem, eq⟩
  · intro free
    simp [owed, free]

theorem confirmed_evolves (keys : List String) : debt.Evolves (confirmed keys debt) := by
  refine ⟨?_, ?_, ?_, .inr (Nat.lt_succ_self _)⟩
  · intro key ⟨ref, mem, eq⟩
    refine ⟨markWritten keys ref, List.mem_map_of_mem mem, ?_⟩
    unfold markWritten
    split <;> exact eq
  · intro key ⟨ref, mem, eq, written⟩
    refine ⟨markWritten keys ref, List.mem_map_of_mem mem, ?_⟩
    unfold markWritten
    split
    · exact ⟨eq, rfl⟩
    · exact ⟨eq, written⟩
  · intro free
    simp [confirmed, free]

theorem confirmed_written {keys : List String} {key : String} (named : debt.Names key)
    (mem : key ∈ keys) : (confirmed keys debt).Written key := by
  obtain ⟨ref, there, rfl⟩ := named
  refine ⟨markWritten keys ref, List.mem_map_of_mem there, ?_⟩
  simp [markWritten, mem]

theorem confirmed_open (keys : List String) (debt : IntermediateCleanupDebt) :
    (confirmed keys debt).state ≠ .completed := by
  unfold confirmed
  by_cases free : debt.state = .retained
  · simp [free]
  · simp [free]

theorem released_evolves : debt.Evolves (released debt) :=
  ⟨fun _ h => h, fun _ h => h, fun _ => by simp [released], .inr (Nat.lt_succ_self _)⟩

theorem completed_evolves : debt.Evolves (completed debt) :=
  ⟨fun _ h => h, fun _ h => h, fun _ => by simp [completed], .inr (Nat.lt_succ_self _)⟩

theorem retried_evolves (error : String) (nextAttemptAt : Nat) :
    debt.Evolves (retried error nextAttemptAt debt) :=
  ⟨fun _ h => h, fun _ h => h, fun _ => by simp [retried], .inr (Nat.lt_succ_self _)⟩

/-! ## What a call does to every row -/

/-- Every row is still there, as what it may have become. -/
def Evolve (debts next : Debts) : Prop :=
  ∀ row debt, debts.get row = some debt → ∃ debt', next.get row = some debt' ∧ debt.Evolves debt'

/-- No row was closed. -/
def KeepsOpen (debts next : Debts) : Prop :=
  ∀ row debt debt', debts.get row = some debt → next.get row = some debt' →
    debt.state ≠ .completed → debt'.state ≠ .completed

theorem Evolve.rfl : Evolve debts debts := fun _ debt found => ⟨debt, found, Evolves.rfl⟩

theorem KeepsOpen.rfl : KeepsOpen debts debts := by
  intro row debt debt' found found' isOpen
  obtain rfl : debt = debt' := Option.some.inj (found.symm.trans found')
  exact isOpen

theorem evolve_set {next : IntermediateCleanupDebt}
    (evolves : ∀ debt, debts.get row = some debt → debt.Evolves next) :
    Evolve debts (debts.set row next) := by
  intro row' debt found
  rw [Table.get_set]
  by_cases hit : row' = row
  · subst hit
    exact ⟨next, if_pos rfl, evolves debt found⟩
  · exact ⟨debt, by rw [if_neg hit, found], Evolves.rfl⟩

theorem keepsOpen_set {next : IntermediateCleanupDebt} (isOpen : next.state ≠ .completed) :
    KeepsOpen debts (debts.set row next) := by
  intro row' debt debt' found found' was
  rw [Table.get_set] at found'
  split at found'
  · obtain rfl : next = debt' := Option.some.inj found'
    exact isOpen
  · obtain rfl : debt = debt' := Option.some.inj (found.symm.trans found')
    exact was

theorem owe_evolve (refs : List ArtifactRef) :
    Evolve debts (owe debts tenant executionId refs).1 := by
  apply evolve_set
  intro debt found
  rw [found]
  exact owed_evolves refs

theorem owe_keepsOpen (refs : List ArtifactRef) :
    KeepsOpen debts (owe debts tenant executionId refs).1 := by
  apply keepsOpen_set
  unfold owed
  simp only
  split <;> simp

/-- The row of an `owe` names what was owed. -/
theorem owe_names {refs : List ArtifactRef} {ref : ArtifactRef} (mem : ref ∈ refs) :
    ∃ debt, (owe debts tenant executionId refs).1.get (rowKey tenant executionId) = some debt ∧
      debt.Names ref.key := by
  refine ⟨_, by rw [owe, Table.get_set, if_pos rfl], ?_⟩
  exact exists_accumulate mem

theorem confirm_evolve (keys : List String) :
    Evolve debts (confirm debts tenant executionId keys) := by
  unfold confirm
  split
  · exact Evolve.rfl
  · next debt found =>
      apply evolve_set
      intro debt' found'
      obtain rfl : debt = debt' := Option.some.inj (found.symm.trans found')
      exact confirmed_evolves keys

theorem confirm_keepsOpen (keys : List String) :
    KeepsOpen debts (confirm debts tenant executionId keys) := by
  unfold confirm
  split
  · exact KeepsOpen.rfl
  · exact keepsOpen_set (confirmed_open keys _)

theorem get_confirm {keys : List String}
    (found : debts.get (rowKey tenant executionId) = some debt) :
    (confirm debts tenant executionId keys).get (rowKey tenant executionId) =
      some (confirmed keys debt) := by
  simp [confirm, found, Table.get_set]

theorem releaseForGc_evolve : Evolve debts (releaseForGc debts tenant executionId).1 := by
  unfold releaseForGc
  split
  · exact Evolve.rfl
  · next debt found =>
      split
      · exact Evolve.rfl
      · apply evolve_set
        intro debt' found'
        obtain rfl : debt = debt' := Option.some.inj (found.symm.trans found')
        exact released_evolves

theorem releaseForGc_keepsOpen : KeepsOpen debts (releaseForGc debts tenant executionId).1 := by
  unfold releaseForGc
  split
  · exact KeepsOpen.rfl
  · split
    · exact KeepsOpen.rfl
    · exact keepsOpen_set (by simp [released])

/-- What a release hands over is the row as the release left it. -/
theorem of_releaseForGc {freed : ReleasedCleanup}
    (eq : (releaseForGc debts tenant executionId).2 = some freed) :
    ∃ debt, (releaseForGc debts tenant executionId).1.get (rowKey tenant executionId) = some debt ∧
      debt.state = .gc_owed ∧ debt.refs = freed.refs ∧ debt.revision = freed.revision := by
  unfold releaseForGc at eq ⊢
  split at eq
  · cases eq
  · next debt found =>
      by_cases closed : debt.state = .completed
      · rw [if_pos closed] at eq
        cases eq
      · rw [if_neg closed] at eq ⊢
        obtain rfl := Option.some.inj eq
        refine ⟨released debt, ?_, rfl, rfl, rfl⟩
        rw [Table.get_set, if_pos rfl]

theorem complete_evolve (expectedRevision : Nat) :
    Evolve debts (complete debts tenant executionId expectedRevision).1 := by
  unfold complete
  split
  · exact Evolve.rfl
  · next debt found =>
      split
      · exact Evolve.rfl
      · split
        · exact Evolve.rfl
        · apply evolve_set
          intro debt' found'
          obtain rfl : debt = debt' := Option.some.inj (found.symm.trans found')
          exact completed_evolves

/-- A call that closes a row closes the row it names, at the revision it expects. -/
theorem get_complete {expectedRevision : Nat} {debt' : IntermediateCleanupDebt}
    (found : debts.get row = some debt)
    (found' : (complete debts tenant executionId expectedRevision).1.get row = some debt') :
    debt' = debt ∨ row = rowKey tenant executionId ∧ debt.revision = expectedRevision ∧
      debt' = completed debt := by
  unfold complete at found'
  split at found'
  · exact .inl (Option.some.inj (found'.symm.trans found))
  · next own there =>
      split at found'
      · exact .inl (Option.some.inj (found'.symm.trans found))
      · next same =>
          split at found'
          · exact .inl (Option.some.inj (found'.symm.trans found))
          · rw [Table.get_set] at found'
            split at found'
            · next hit =>
                subst hit
                obtain rfl : own = debt := Option.some.inj (there.symm.trans found)
                exact .inr ⟨rfl, not_not.mp same, (Option.some.inj found').symm⟩
            · exact .inl (Option.some.inj (found'.symm.trans found))

theorem deferred_evolve (operationId error : String) (nextAttemptAt : Nat) :
    Evolve debts (deferred debts operationId error nextAttemptAt) := by
  intro row debt found
  rw [deferred, Table.get_update, found]
  refine ⟨_, rfl, ?_⟩
  dsimp only
  split
  · exact retried_evolves error nextAttemptAt
  · exact Evolves.rfl

theorem deferred_keepsOpen (operationId error : String) (nextAttemptAt : Nat) :
    KeepsOpen debts (deferred debts operationId error nextAttemptAt) := by
  intro row debt debt' found found' isOpen
  rw [deferred, Table.get_update, found] at found'
  obtain rfl := Option.some.inj found'
  dsimp only
  split
  · simp [retried]
  · exact isOpen

/-- Every row stands under the key of the execution it names. -/
def Keyed (debts : Debts) : Prop :=
  ∀ row debt, debts.get row = some debt → row = rowKey debt.tenant debt.executionId

theorem keyed_set {next : IntermediateCleanupDebt} (keyed : Keyed debts)
    (own : row = rowKey next.tenant next.executionId) : Keyed (debts.set row next) := by
  intro row' debt found
  rw [Table.get_set] at found
  split at found
  · next hit =>
      obtain rfl := Option.some.inj found
      rw [hit, own]
  · exact keyed row' debt found

theorem owe_keyed (keyed : Keyed debts) (refs : List ArtifactRef) :
    Keyed (owe debts tenant executionId refs).1 :=
  keyed_set keyed rfl

theorem confirm_keyed (keyed : Keyed debts) (keys : List String) :
    Keyed (confirm debts tenant executionId keys) := by
  unfold confirm
  split
  · exact keyed
  · next debt found => exact keyed_set keyed (keyed _ debt found)

theorem releaseForGc_keyed (keyed : Keyed debts) :
    Keyed (releaseForGc debts tenant executionId).1 := by
  unfold releaseForGc
  split
  · exact keyed
  · next debt found =>
      split
      · exact keyed
      · exact keyed_set keyed (keyed _ debt found)

theorem complete_keyed (keyed : Keyed debts) (expectedRevision : Nat) :
    Keyed (complete debts tenant executionId expectedRevision).1 := by
  unfold complete
  split
  · exact keyed
  · next debt found =>
      split
      · exact keyed
      · split
        · exact keyed
        · exact keyed_set keyed (keyed _ debt found)

theorem deferred_keyed (keyed : Keyed debts) (operationId error : String) (nextAttemptAt : Nat) :
    Keyed (deferred debts operationId error nextAttemptAt) := by
  intro row debt found
  rw [deferred, Table.get_update, Option.map_eq_some_iff] at found
  obtain ⟨prior, there, rfl⟩ := found
  rw [keyed row prior there]
  split <;> rfl

/-- A worklist holds rows as they are, and released ones. -/
theorem of_mem_due {now limit : Nat} (mem : debt ∈ due debts now limit) :
    ∃ row, debts.get row = some debt ∧ debt.state ≠ .retained := by
  obtain ⟨there, ready⟩ := List.mem_filter.mp (List.mem_of_mem_take mem)
  obtain ⟨row, found⟩ := Table.mem_values.mp there
  refine ⟨row, found, ?_⟩
  intro kept
  simp [isDue, kept] at ready

end Everdict.Cleanup
