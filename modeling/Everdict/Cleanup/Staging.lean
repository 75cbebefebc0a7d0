import Everdict.Cleanup.Sweeps
import Everdict.Text

/-!
# Objects under the keys the stage functions mint

A key of `agentHalfKey` or `verifierVerdictKey` spells the tenant and the run it belongs
to, so no two rows owe it (`Owned`), and a sweep of one execution leaves the objects of every
other where they are.
-/

namespace Everdict.Cleanup

open Transition Transition.Machine IntermediateCleanupDebt

def agentHalfKey (tenant runId agentResultDigest : String) : String :=
  s!"agent-half/{tenant}/{runId}/{agentResultDigest}.json"

def verifierVerdictKey (tenant runId agentResultDigest verifierAttemptId : String) : String :=
  s!"verifier-verdict/{tenant}/{runId}/{agentResultDigest}/{verifierAttemptId}.json"

/-- A text that can stand between two slashes. -/
def Segment (s : String) : Prop := '/' ∉ s.toList

instance (s : String) : Decidable (Segment s) := inferInstanceAs (Decidable (_ ∉ _))

/-- The key of an object of this run. -/
def Minted (tenant runId key : String) : Prop :=
  (∃ digest, key = agentHalfKey tenant runId digest) ∨
    ∃ digest attempt, key = verifierVerdictKey tenant runId digest attempt

/-- What stands before the first slash, and after it. -/
theorem segment_inj {x x' : String} {d d' : List Char} (segment : Segment x)
    (segment' : Segment x') (eq : x.toList ++ '/' :: d = x'.toList ++ '/' :: d') :
    x = x' ∧ d = d' := by
  have turned : d.reverse ++ '/' :: x.toList.reverse = d'.reverse ++ '/' :: x'.toList.reverse := by
    simpa using congrArg List.reverse eq
  have unmarked : ∀ {y : String}, Segment y → '/' ∉ y.toList.reverse := by
    intro y segment mem
    exact segment (List.mem_reverse.mp mem)
  obtain ⟨rest, same⟩ := Text.append_mark_inj (unmarked segment) (unmarked segment') turned
  exact ⟨String.toList_inj.mp (List.reverse_inj.mp same), List.reverse_inj.mp rest⟩

theorem agentHalfKey_eq (tenant runId digest : String) :
    agentHalfKey tenant runId digest =
      "agent-half/" ++ (tenant ++ "/" ++ (runId ++ "/" ++ (digest ++ ".json"))) := by
  have parts : ∀ a b c d e f g : String, a ++ b ++ c ++ d ++ e ++ f ++ g =
      a ++ (b ++ c ++ (d ++ e ++ (f ++ g))) := by
    intro a b c d e f g
    simp only [String.append_assoc]
  exact parts _ _ _ _ _ _ _

theorem verifierVerdictKey_eq (tenant runId digest attempt : String) :
    verifierVerdictKey tenant runId digest attempt =
      "verifier-verdict/" ++ (tenant ++ "/" ++ (runId ++ "/" ++
        (digest ++ "/" ++ attempt ++ ".json"))) := by
  have parts : ∀ a b c d e f g h i : String, a ++ b ++ c ++ d ++ e ++ f ++ g ++ h ++ i =
      a ++ (b ++ c ++ (d ++ e ++ (f ++ g ++ h ++ i))) := by
    intro a b c d e f g h i
    simp only [String.append_assoc]
  exact parts _ _ _ _ _ _ _ _ _

theorem toList_slash (x y : String) : (x ++ "/" ++ y).toList = x.toList ++ '/' :: y.toList := by
  simp

/-- The path under a stem names the tenant and the run. -/
theorem minted_path {tenant runId key : String} (minted : Minted tenant runId key) :
    ∃ stem tail, (stem = "agent-half/" ∨ stem = "verifier-verdict/") ∧
      key.toList = stem.toList ++ (tenant.toList ++ '/' :: (runId.toList ++ '/' :: tail)) := by
  rcases minted with ⟨digest, rfl⟩ | ⟨digest, attempt, rfl⟩
  · refine ⟨"agent-half/", (digest ++ ".json").toList, by simp, ?_⟩
    rw [agentHalfKey_eq, String.toList_append, toList_slash, toList_slash]
  · refine ⟨"verifier-verdict/", (digest ++ "/" ++ attempt ++ ".json").toList, by simp, ?_⟩
    rw [verifierVerdictKey_eq, String.toList_append, toList_slash, toList_slash]

theorem stem_inj {stem stem' : String} {x x' : List Char}
    (known : stem = "agent-half/" ∨ stem = "verifier-verdict/")
    (known' : stem' = "agent-half/" ∨ stem' = "verifier-verdict/")
    (eq : stem.toList ++ x = stem'.toList ++ x') : x = x' := by
  rcases known with rfl | rfl <;> rcases known' with rfl | rfl
  · exact List.append_cancel_left eq
  · have first := congrArg List.head? eq
    simp at first
  · have first := congrArg List.head? eq
    simp at first
  · exact List.append_cancel_left eq

/-- A minted key belongs to one run of one tenant. -/
theorem minted_inj {tenant runId tenant' runId' key : String} (segments : Segment tenant ∧ Segment runId)
    (segments' : Segment tenant' ∧ Segment runId') (minted : Minted tenant runId key)
    (minted' : Minted tenant' runId' key) : tenant = tenant' ∧ runId = runId' := by
  obtain ⟨stem, tail, known, path⟩ := minted_path minted
  obtain ⟨stem', tail', known', path'⟩ := minted_path minted'
  have under := stem_inj known known' (path.symm.trans path')
  obtain ⟨tenants, under⟩ := segment_inj segments.1 segments'.1 under
  exact ⟨tenants, (segment_inj segments.2 segments'.2 under).1⟩

/-! ## What a call lets a row owe -/

/-- A row owes only what it owed before, and what the call says. -/
def NamesFrom (debts next : Debts) (extra : String → String → Prop) : Prop :=
  ∀ row debt key, next.get row = some debt → debt.Names key →
    (∃ prior, debts.get row = some prior ∧ prior.Names key) ∨ extra row key

abbrev Nothing : String → String → Prop := fun _ _ => False

variable {debts : Debts} {row tenant executionId : String} {extra : String → String → Prop}

theorem namesFrom_rfl : NamesFrom debts debts extra :=
  fun _ debt _ found names => .inl ⟨debt, found, names⟩

theorem namesFrom_set {next : IntermediateCleanupDebt}
    (names : ∀ key, next.Names key →
      (∃ prior, debts.get row = some prior ∧ prior.Names key) ∨ extra row key) :
    NamesFrom debts (debts.set row next) extra := by
  intro row' debt key found named
  rw [Table.get_set] at found
  split at found
  · next hit =>
      obtain rfl := Option.some.inj found
      rw [hit]
      exact names key named
  · exact .inl ⟨debt, found, named⟩

theorem mem_accumulate {refs input : List ArtifactRef} {ref : ArtifactRef}
    (mem : ref ∈ accumulate refs input) : ref ∈ refs ∨ ref ∈ input := by
  induction input generalizing refs with
  | nil => exact .inl mem
  | cons first input ih =>
      rw [accumulate, List.foldl_cons] at mem
      rcases ih mem with early | late
      · split at early
        · exact .inl early
        · rcases List.mem_append.mp early with old | new
          · exact .inl old
          · exact .inr (by simp [List.mem_singleton.mp new])
      · exact .inr (by simp [late])

theorem owe_namesFrom (ref : ArtifactRef) :
    NamesFrom debts (owe debts tenant executionId [ref]).1
      (fun row key => row = rowKey tenant executionId ∧ key = ref.key) := by
  apply namesFrom_set
  intro key ⟨r, mem, same⟩
  rcases mem_accumulate mem with old | new
  · rcases found : debts.get (rowKey tenant executionId) with _ | prior
    · rw [found] at old
      cases old
    · rw [found] at old
      exact .inl ⟨prior, rfl, r, old, same⟩
  · rw [List.mem_singleton.mp new] at same
    exact .inr ⟨rfl, same.symm⟩

theorem confirm_namesFrom (keys : List String) :
    NamesFrom debts (confirm debts tenant executionId keys) Nothing := by
  unfold confirm
  split
  · exact namesFrom_rfl
  · next prior found =>
      apply namesFrom_set
      intro key ⟨ref, mem, same⟩
      obtain ⟨r, there, rfl⟩ := List.mem_map.mp mem
      refine .inl ⟨prior, found, r, there, ?_⟩
      rw [← same]
      unfold markWritten
      split <;> rfl

theorem releaseForGc_namesFrom :
    NamesFrom debts (releaseForGc debts tenant executionId).1 Nothing := by
  unfold releaseForGc
  split
  · exact namesFrom_rfl
  · next prior found =>
      split
      · exact namesFrom_rfl
      · exact namesFrom_set fun key names => .inl ⟨prior, found, names⟩

theorem complete_namesFrom (expectedRevision : Nat) :
    NamesFrom debts (complete debts tenant executionId expectedRevision).1 Nothing := by
  unfold complete
  split
  · exact namesFrom_rfl
  · next prior found =>
      split
      · exact namesFrom_rfl
      · split
        · exact namesFrom_rfl
        · exact namesFrom_set fun key names => .inl ⟨prior, found, names⟩

theorem deferred_namesFrom (operationId error : String) (nextAttemptAt : Nat) :
    NamesFrom debts (deferred debts operationId error nextAttemptAt) Nothing := by
  intro row debt key found names
  rw [deferred, Table.get_update, Option.map_eq_some_iff] at found
  obtain ⟨prior, there, rfl⟩ := found
  refine .inl ⟨prior, there, ?_⟩
  split at names <;> exact names

/-! ## Runs -/

/-- The keys owed in this step are the ones the stage functions mint. -/
def Staged : World → CleanupEvent → Prop
  | _, .owe _ tenant executionId key _ =>
      (Segment tenant ∧ Segment executionId) ∧ Minted tenant executionId key
  | _, _ => True

/-- Every key a row owes is minted for the run of the row. -/
def Owned (debts : Debts) : Prop :=
  ∀ row debt key, debts.get row = some debt → debt.Names key →
    ∃ tenant runId, (Segment tenant ∧ Segment runId) ∧ row = rowKey tenant runId ∧
      Minted tenant runId key

theorem Owned.sole (owned : Owned debts) {row row' key : String}
    {debt debt' : IntermediateCleanupDebt} (found : debts.get row = some debt)
    (names : debt.Names key) (found' : debts.get row' = some debt') (names' : debt'.Names key) :
    row' = row := by
  obtain ⟨tenant, runId, segments, rfl, minted⟩ := owned row debt key found names
  obtain ⟨tenant', runId', segments', rfl, minted'⟩ := owned row' debt' key found' names'
  obtain ⟨rfl, rfl⟩ := minted_inj segments segments' minted minted'
  rfl

theorem Owned.next {next : Debts} (owned : Owned debts) (names : NamesFrom debts next extra)
    (minted : ∀ row key, extra row key → ∃ tenant runId, (Segment tenant ∧ Segment runId) ∧
      row = rowKey tenant runId ∧ Minted tenant runId key) : Owned next := by
  intro row debt key found named
  rcases names row debt key found named with ⟨prior, before, old⟩ | new
  · exact owned row prior key before old
  · exact minted row key new

/-- What a step does to the ledger. -/
theorem of_step {s t : World} {e : CleanupEvent} {o : Unit} (eq : step s e = some (t, o)) :
    t.debts = s.debts ∨
    (∃ i tenant executionId key digest, e = .owe i tenant executionId key digest ∧
      t.debts = (owe s.debts tenant executionId [{ key, digest := some digest }]).1) ∨
    (∃ tenant executionId keys, t.debts = confirm s.debts tenant executionId keys) ∨
    (∃ tenant executionId, t.debts = (releaseForGc s.debts tenant executionId).1) ∨
    ∃ w nextAttemptAt, t.debts = Sweep.settle w s.debts nextAttemptAt := by
  cases e with
  | owe i tenant executionId key digest =>
      simp only [step] at eq
      split at eq
      · cases eq
      · obtain ⟨rfl, -⟩ := Prod.mk.inj (Option.some.inj eq)
        exact .inr (.inl ⟨i, tenant, executionId, key, digest, rfl, rfl⟩)
  | confirm i =>
      simp only [step] at eq
      split at eq
      · cases eq
      · next w _ =>
          split at eq
          · obtain ⟨rfl, -⟩ := Prod.mk.inj (Option.some.inj eq)
            exact .inr (.inr (.inl ⟨w.tenant, w.executionId, [w.key], rfl⟩))
          · cases eq
  | release tenant executionId collector =>
      simp only [step] at eq
      refine .inr (.inr (.inr (.inl ⟨tenant, executionId, ?_⟩)))
      split at eq
      · split at eq
        · obtain ⟨rfl, -⟩ := Prod.mk.inj (Option.some.inj eq)
          rfl
        · cases eq
      · obtain ⟨rfl, -⟩ := Prod.mk.inj (Option.some.inj eq)
        rfl
  | finish i nextAttemptAt =>
      simp only [step] at eq
      split at eq
      · cases eq
      · next w _ =>
          split at eq
          · cases eq
          · obtain ⟨rfl, -⟩ := Prod.mk.inj (Option.some.inj eq)
            exact .inr (.inr (.inr (.inr ⟨w, nextAttemptAt, rfl⟩)))
  | put i | putFails i =>
      simp only [step] at eq
      split at eq
      · cases eq
      · split at eq
        · cases eq
        · obtain ⟨rfl, -⟩ := Prod.mk.inj (Option.some.inj eq)
          exact .inl rfl
  | tick i now batch =>
      simp only [step] at eq
      split at eq
      · obtain ⟨rfl, -⟩ := Prod.mk.inj (Option.some.inj eq)
        exact .inl rfl
      · cases eq
  | probe i answer =>
      simp only [step] at eq
      split at eq
      · cases eq
      · split at eq
        · cases eq
        · split at eq
          · cases eq
          · obtain ⟨w, -, same⟩ := Option.map_eq_some_iff.mp eq
            obtain ⟨rfl, -⟩ := Prod.mk.inj same
            exact .inl rfl
  | remove i =>
      simp only [step] at eq
      split at eq
      · cases eq
      · split at eq
        · cases eq
        · split at eq
          · obtain ⟨rfl, -⟩ := Prod.mk.inj (Option.some.inj eq)
            exact .inl rfl
          · cases eq
  | removeFails i error gone =>
      simp only [step] at eq
      split at eq
      · cases eq
      · split at eq
        · cases eq
        · split at eq
          · obtain ⟨rfl, -⟩ := Prod.mk.inj (Option.some.inj eq)
            cases gone <;> exact .inl rfl
          · cases eq

theorem Owned.step {s t : World} {e : CleanupEvent} {o : Unit} (owned : Owned s.debts)
    (staged : Staged s e) (eq : step s e = some (t, o)) : Owned t.debts := by
  have none : ∀ row key, Nothing row key → ∃ tenant runId, (Segment tenant ∧ Segment runId) ∧
      row = rowKey tenant runId ∧ Minted tenant runId key := fun _ _ h => h.elim
  rcases of_step eq with same | ⟨i, tenant, executionId, key, digest, rfl, same⟩ |
    ⟨tenant, executionId, keys, same⟩ | ⟨tenant, executionId, same⟩ | ⟨w, nextAttemptAt, same⟩
  · rw [same]
    exact owned
  · rw [same]
    refine owned.next (owe_namesFrom { key, digest := some digest }) ?_
    intro row key' ⟨own, hit⟩
    exact ⟨tenant, executionId, staged.1, own, hit ▸ staged.2⟩
  · rw [same]
    exact owned.next (confirm_namesFrom keys) none
  · rw [same]
    exact owned.next releaseForGc_namesFrom none
  · rw [same, Sweep.settle]
    split
    · exact owned.next (complete_namesFrom _) none
    · exact owned.next (deferred_namesFrom _ _ _) none

theorem Owned.empty : Owned Table.empty := by
  intro row debt key found
  cases found

/-- Where writers stage under the keys the stage functions mint, no sweep takes an object
that was put for a row that is still retained. -/
theorem staged_objects_kept {s : World} (reached : Reachable step Staged {} s) {row key : String}
    {debt : IntermediateCleanupDebt} (found : s.debts.get row = some debt)
    (retained : debt.state = .retained) (put : (row, key) ∈ s.puts) : s.objects key ≠ none := by
  obtain ⟨log, run⟩ := reached
  have owned : Owned s.debts :=
    run.state_invariant (I := fun s => Owned s.debts) Owned.empty
      fun _ _ _ _ owned staged eq => owned.step staged eq
  have inv := invariant_of_reachable ⟨log, run.mono fun _ _ _ => trivial⟩
  obtain ⟨debt', found', names⟩ := inv.puts row key put
  apply inv.keeps row debt key found retained put
  intro row' other there names'
  obtain rfl := owned.sole found' names there names'
  rwa [Option.some.inj (there.symm.trans found)]

end Everdict.Cleanup
