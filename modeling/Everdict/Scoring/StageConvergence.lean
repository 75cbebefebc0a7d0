import Everdict.Scoring.Stage

/-!
# Staged scores converge

Whatever the batches, the store in memory keeps the maximal claim of each key and
accepts what became current.  The SQL store does the same and answers the same exactly
when no batch brings two entries of one key, except behind a claim that beats both
(`Apart`).
-/

namespace Everdict.ScoringStage

open Arbitration

def writes (batches : List StageBatch) : List Write := batches.flatMap StageBatch.writes

/-- The claims of one key are pairwise distinct. -/
def Distinct (batches : List StageBatch) : Prop :=
  (writes batches).Pairwise fun w w' => w.key = w'.key → w.2.held ≠ w'.2.held

/-- The entries of each batch that no write before them beats. -/
def acceptances (earlier : List Write) : List StageBatch → List (Option (List StagedJudgment))
  | [] => []
  | batch :: batches =>
      some ((accepts Write.key Write.rank earlier batch.writes).map Prod.snd) ::
        acceptances (earlier ++ batch.writes) batches

/-- What a store is left with, and what it answered on the way. -/
structure Converged (batches : List StageBatch) (answers : List (Option (List StagedJudgment)))
    (row : StageKey → Option StageRow) : Prop where
  maximal : ∀ key r, row key = some r → ∃ w ∈ writes batches, w.key = key ∧ w.2.row = r ∧
    ∀ w' ∈ writes batches, w'.key = key → w' = w ∨ Below w'.2.held w.2.held
  kept : ∀ w ∈ writes batches, (row w.key).isSome
  reported : answers = acceptances [] batches

/-- Two entries of one key come in one batch only where an earlier batch brought a claim
that beats both. -/
def Apart (earlier : List Write) : List StageBatch → Prop
  | [] => True
  | batch :: batches =>
      (batch.writes.Pairwise fun w w' => w.key = w'.key →
        current Write.key Write.rank earlier w = false ∧
          current Write.key Write.rank earlier w' = false) ∧
      Apart (earlier ++ batch.writes) batches

instance decidableApart (earlier : List Write) :
    (batches : List StageBatch) → Decidable (Apart earlier batches)
  | [] => isTrue trivial
  | batch :: batches =>
      have := decidableApart (earlier ++ batch.writes) batches
      inferInstanceAs (Decidable (List.Pairwise _ _ ∧ _))

instance (batches : List StageBatch) : Decidable (Distinct batches) :=
  inferInstanceAs (Decidable (List.Pairwise _ _))

section Runs

variable {held : StageKey → Option Write} {earlier : List Write}

theorem settled_iff (holds : Holds Write.key Write.rank held earlier) (batch : StageBatch) :
    Settled Write.key Write.rank held batch.writes ↔
      batch.writes.Pairwise fun w w' => w.key = w'.key →
        current Write.key Write.rank earlier w = false ∧
          current Write.key Write.rank earlier w' = false := by
  unfold Settled
  simp only [holds.takes_eq]

theorem stageAll_inMemory (holds : Holds Write.key Write.rank held earlier)
    {staged : InMemoryStage} (shows : Shows staged.row held) (batches : List StageBatch) :
    (stageAll InMemoryStage.stage staged batches).1 = acceptances earlier batches ∧
      ∃ held', Holds Write.key Write.rank held' (earlier ++ writes batches) ∧
        Shows (stageAll InMemoryStage.stage staged batches).2.row held' := by
  induction batches generalizing staged held earlier with
  | nil =>
      refine ⟨rfl, held, ?_, shows⟩
      simpa [writes] using holds
  | cons batch batches ih =>
      obtain ⟨answer, shows'⟩ := stage_inMemory shows batch
      obtain ⟨accepted, holds'⟩ := arbitrate_eq holds batch.writes
      obtain ⟨answers, held', after, final⟩ := ih holds' shows'
      have split : earlier ++ writes (batch :: batches) =
          earlier ++ batch.writes ++ writes batches := by
        simp [writes]
      rw [split]
      refine ⟨?_, held', after, final⟩
      rw [stageAll, acceptances, answer, accepted, answers]

/-- The writes of a batch are told by their entries. -/
theorem pairs_of_writes {batch : StageBatch} {l : List Write} (sub : l.Sublist batch.writes) :
    (l.map Prod.snd).map (fun entry => (batch.key entry, entry)) = l := by
  rw [List.map_map]
  conv_rhs => rw [← List.map_id l]
  apply List.map_congr_left
  intro w mem
  obtain ⟨entry, -, rfl⟩ := List.mem_map.mp (sub.subset mem)
  rfl

/-- A batch is accepted as it should be exactly when its entries are settled. -/
theorem stage_postgres {table : StageTable} (shows : Shows table.get held) (batch : StageBatch) :
    let after := arbitrate Write.key Write.rank held batch.writes
    ((table.stage batch).1 = some (after.1.map Prod.snd) ↔
      Settled Write.key Write.rank held batch.writes) ∧
    (Settled Write.key Write.rank held batch.writes → Shows (table.stage batch).2.get after.2) := by
  have rows : (batch.entries.map fun entry => (batch.key entry, entry.row)) =
      batch.writes.map fun w => (w.1, w.2.row) := by
    unfold StageBatch.writes
    rw [List.map_map]
    rfl
  unfold StageTable.stage
  by_cases empty : batch.entries = []
  · have none_written : batch.writes = [] := by
      unfold StageBatch.writes
      rw [empty]
      rfl
    rw [if_pos empty, none_written]
    exact ⟨iff_of_true rfl List.Pairwise.nil, fun _ => shows⟩
  rw [if_neg empty, rows]
  rcases upsertRows_eq shows [] batch.writes with
    ⟨refused, failed⟩ | ⟨after, wrote, table', inserted, upserted, shows'⟩
  · have unsettled : ¬ Settled Write.key Write.rank held batch.writes := by
      intro settled
      obtain ⟨wrote, eq, -⟩ := insertRows_iff.mpr settled
      rw [refused] at eq
      cases eq
    rw [failed]
    exact ⟨iff_of_false (by simp) unsettled, fun settled => absurd settled unsettled⟩
  · rw [upserted]
    have accepted : (batch.entries.filter fun entry => batch.key entry ∈ wrote) =
        (batch.writes.filter (named Write.key wrote)).map Prod.snd := by
      unfold StageBatch.writes
      rw [List.filter_map, List.map_map]
      exact (List.map_id _).symm
    have found : ∀ settled : Settled Write.key Write.rank held batch.writes,
        after = (arbitrate Write.key Write.rank held batch.writes).2 ∧
          batch.writes.filter (named Write.key wrote) =
            (arbitrate Write.key Write.rank held batch.writes).1 := by
      intro settled
      obtain ⟨wrote', eq, names⟩ := insertRows_iff.mpr settled
      rw [inserted, Option.some.injEq, Prod.mk.injEq] at eq
      obtain ⟨rfl, rfl⟩ := eq
      exact ⟨rfl, names⟩
    constructor
    · dsimp only
      rw [accepted, Option.some.injEq]
      constructor
      · intro same
        have names := congrArg (List.map fun entry => (batch.key entry, entry)) same
        rw [pairs_of_writes List.filter_sublist, pairs_of_writes (arbitrate_sublist _ _)] at names
        exact (settled_of_insertRows inserted names).1
      · intro settled
        rw [(found settled).2]
    · intro settled
      rw [← (found settled).1]
      exact shows'

theorem stageAll_postgres (holds : Holds Write.key Write.rank held earlier) {table : StageTable}
    (shows : Shows table.get held) (batches : List StageBatch) :
    ((stageAll StageTable.stage table batches).1 = acceptances earlier batches ↔
      Apart earlier batches) ∧
    (Apart earlier batches → ∃ held', Holds Write.key Write.rank held' (earlier ++ writes batches) ∧
      Shows (stageAll StageTable.stage table batches).2.get held') := by
  induction batches generalizing table held earlier with
  | nil =>
      refine ⟨iff_of_true rfl trivial, fun _ => ⟨held, ?_, shows⟩⟩
      simpa [writes] using holds
  | cons batch batches ih =>
      obtain ⟨answer, shows'⟩ := stage_postgres shows batch
      obtain ⟨accepted, holds'⟩ := arbitrate_eq holds batch.writes
      rw [accepted, settled_iff holds] at answer
      rw [settled_iff holds] at shows'
      have split : earlier ++ writes (batch :: batches) =
          earlier ++ batch.writes ++ writes batches := by
        simp [writes]
      rw [split]
      simp only [stageAll, acceptances, Apart, List.cons.injEq]
      constructor
      · rw [answer]
        exact and_congr_right fun apart => (ih holds' (shows' apart)).1
      · intro apart
        exact (ih holds' (shows' apart.1)).2 apart.2

theorem Shows.converged {batches : List StageBatch} {row : StageKey → Option StageRow}
    (distinct : Distinct batches) (holds : Holds Write.key Write.rank held (writes batches))
    (shows : Shows row held) : Converged batches (acceptances [] batches) row where
  maximal := fun key r found => by
    rw [shows key, Option.map_eq_some_iff] at found
    obtain ⟨w, found, rfl⟩ := found
    obtain ⟨mem, own⟩ := holds.source key w found
    refine ⟨w, mem, own, rfl, fun w' mem' own' => ?_⟩
    obtain ⟨top, found', below⟩ := holds.highest w' mem'
    rw [own', found] at found'
    cases found'
    have : Std.Symm fun a b : Write => a.key = b.key → a.2.held ≠ b.2.held :=
      ⟨fun _ _ pair same eq => pair same.symm eq.symm⟩
    by_cases same : w' = w
    · exact Or.inl same
    · have differ := List.Pairwise.forall distinct mem' mem same (own'.trans own.symm)
      refine Or.inr (below_iff.mpr (lt_of_le_of_ne below ?_))
      exact fun eq => differ (rank_inj eq)
  kept := fun w mem => by
    obtain ⟨top, found, -⟩ := holds.highest w mem
    rw [shows w.key, found]
    rfl
  reported := rfl

end Runs

theorem shows_empty_inMemory : Shows (InMemoryStage.row Table.empty) fun _ => none := fun _ => rfl

theorem shows_empty_postgres : Shows (Table.get (Table.empty : StageTable)) fun _ => none :=
  fun _ => rfl

/-- Both stages start empty and take the same batches. -/
theorem staged_scores_converge (batches : List StageBatch) (distinct : Distinct batches) :
    let memory := stageAll InMemoryStage.stage Table.empty batches
    let sql := stageAll StageTable.stage Table.empty batches
    IsStrictTotalOrder JudgmentClaim Below ∧
      Converged batches memory.1 memory.2.row ∧
      ((Converged batches sql.1 sql.2.get ∧ sql.1 = memory.1) ↔ Apart [] batches) := by
  intro memory sql
  obtain ⟨answers, held, holds, shows⟩ :=
    stageAll_inMemory holds_nil shows_empty_inMemory batches
  rw [List.nil_append] at holds
  have inMemory := shows.converged distinct holds
  rw [← answers] at inMemory
  refine ⟨inferInstance, inMemory, ?_⟩
  obtain ⟨same, rest⟩ := stageAll_postgres holds_nil shows_empty_postgres batches
  constructor
  · intro converged
    exact same.mp converged.1.reported
  · intro apart
    obtain ⟨held, holds, shows⟩ := rest apart
    rw [List.nil_append] at holds
    have converged := shows.converged distinct holds
    rw [← same.mpr apart] at converged
    exact ⟨converged, (same.mpr apart).trans answers.symm⟩

/-- A round that starts over at its first attempt supersedes the retry before it. -/
def rotated : List StageBatch :=
  [⟨"sc-1", "pass-A", [⟨"c1#0", "q", some ⟨0, 2⟩, []⟩]⟩,
    ⟨"sc-1", "pass-A", [⟨"c1#0", "q", some ⟨1, 1⟩, []⟩, ⟨"c1#0", "safety", none, []⟩]⟩]

theorem staged_scores_converge_rotated :
    let memory := stageAll InMemoryStage.stage Table.empty rotated
    let sql := stageAll StageTable.stage Table.empty rotated
    Converged rotated sql.1 sql.2.get ∧ sql.1 = memory.1 :=
  (staged_scores_converge rotated (by decide)).2.2.mpr (by decide)

/-- Two attempts at one judgment in one batch: the upsert would affect a row twice. -/
theorem second_entry_fails_batch :
    ¬ ∀ batches, Distinct batches →
      (stageAll StageTable.stage Table.empty batches).1 =
        (stageAll InMemoryStage.stage Table.empty batches).1 := by
  intro same
  have differ := same [⟨"sc-1", "pass-A",
    [⟨"c1#0", "q", some ⟨0, 1⟩, []⟩, ⟨"c1#0", "q", some ⟨0, 2⟩, []⟩]⟩] (by decide)
  exact absurd differ (by decide)

end Everdict.ScoringStage
