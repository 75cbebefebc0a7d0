import Everdict.Arbitration
import Everdict.Contracts.Score
import Everdict.Table
import Mathlib.Data.Prod.Lex

/-!
# The scoring stage

One judge's judgment of one case is staged under the claim of the invocation that made
it, and the current claim of a key wins.  The store in memory compares claims with
`claimSupersedes` entry by entry; the SQL store sends a batch as one multi-row upsert,
with the row comparison in the `WHERE` of its conflict clause.

`arbitrate_inMemory` and `insertRows_postgres` read both as the arbitration of
`Everdict.Arbitration` by the claim's rank.
-/

namespace Everdict.ScoringStage

open Arbitration

structure JudgmentClaim where
  generation : Nat
  attempt : Nat
  deriving DecidableEq

def INITIAL_CLAIM : JudgmentClaim := ⟨0, 1⟩

/-- Is `next` at least as current as `prior`? -/
def claimSupersedes (prior : Option JudgmentClaim) (next : JudgmentClaim) : Bool :=
  match prior with
  | none => true
  | some prior =>
      if prior.generation ≠ next.generation then prior.generation < next.generation
      else prior.attempt ≤ next.attempt

structure StagedJudgment where
  caseKey : String
  judgeId : String
  claim : Option JudgmentClaim
  scores : List Score
  deriving DecidableEq

/-- `entry.claim ?? INITIAL_CLAIM` -/
def StagedJudgment.held (entry : StagedJudgment) : JudgmentClaim := entry.claim.getD INITIAL_CLAIM

/-- The arguments of one `stage` call. -/
structure StageBatch where
  scorecardId : String
  passId : String
  entries : List StagedJudgment
  deriving DecidableEq

structure StageRow where
  scores : List Score
  claim : JudgmentClaim
  deriving DecidableEq

def StagedJudgment.row (entry : StagedJudgment) : StageRow := ⟨entry.scores, entry.held⟩

/-! ## In memory -/

/-- The rows of each pass, under the case and the judge. -/
abbrev InMemoryStage := Table (String × String) (Table (String × String) StageRow)

def stageEntries (existing : Table (String × String) StageRow) :
    List StagedJudgment → List StagedJudgment × Table (String × String) StageRow
  | [] => ([], existing)
  | entry :: entries =>
      let ek := (entry.caseKey, entry.judgeId)
      let claim := entry.held
      let prior := existing.get ek
      if ¬ claimSupersedes (prior.map StageRow.claim) claim then stageEntries existing entries
      else
        let rest := stageEntries (existing.set ek ⟨entry.scores, claim⟩) entries
        (entry :: rest.1, rest.2)

def InMemoryStage.stage (staged : InMemoryStage) (batch : StageBatch) :
    Option (List StagedJudgment) × InMemoryStage :=
  let k := (batch.scorecardId, batch.passId)
  let existing := (staged.get k).getD Table.empty
  let result := stageEntries existing batch.entries
  (some result.1, staged.set k result.2)

/-! ## In SQL -/

/-- The primary key of `everdict_scoring_stage`. -/
structure StageKey where
  scorecardId : String
  passId : String
  caseKey : String
  judgeId : String
  deriving DecidableEq

abbrev StageTable := Table StageKey StageRow

/-- `(generation, attempt) <= (EXCLUDED.generation, EXCLUDED.attempt)` -/
def claimLe (prior next : JudgmentClaim) : Bool :=
  prior.generation < next.generation ∨
    prior.generation = next.generation ∧ prior.attempt ≤ next.attempt

/-- The proposed rows in order, with the keys the command has inserted or updated. A row
that conflicts with one of those fails the command: "cannot affect row a second time". -/
def upsertRows (table : StageTable) (touched : List StageKey) :
    List (StageKey × StageRow) → Option (StageTable × List StageKey)
  | [] => some (table, touched)
  | (key, row) :: rows =>
      if key ∈ touched then none
      else
        match table.get key with
        | none => upsertRows (table.set key row) (key :: touched) rows
        | some prior =>
            if claimLe prior.claim row.claim then
              upsertRows (table.set key row) (key :: touched) rows
            else upsertRows table touched rows

def StageBatch.key (batch : StageBatch) (entry : StagedJudgment) : StageKey :=
  ⟨batch.scorecardId, batch.passId, entry.caseKey, entry.judgeId⟩

/-- The accepted entries are those whose key the command returned; a failed command
throws and writes nothing. -/
def StageTable.stage (table : StageTable) (batch : StageBatch) :
    Option (List StagedJudgment) × StageTable :=
  if batch.entries = [] then (some [], table)
  else
    match upsertRows table [] (batch.entries.map fun entry => (batch.key entry, entry.row)) with
    | none => (none, table)
    | some (table, won) => (some (batch.entries.filter fun entry => batch.key entry ∈ won), table)

/-! ## Batches one after another -/

/-- The answers of a store, `none` where it threw, and the store after them. -/
def stageAll {σ : Type} (stage : σ → StageBatch → Option (List StagedJudgment) × σ) (store : σ) :
    List StageBatch → List (Option (List StagedJudgment)) × σ
  | [] => ([], store)
  | batch :: batches =>
      ((stage store batch).1 :: (stageAll stage (stage store batch).2 batches).1,
        (stageAll stage (stage store batch).2 batches).2)

/-- The row a store holds under a key. -/
def InMemoryStage.row (staged : InMemoryStage) (key : StageKey) : Option StageRow :=
  (staged.get (key.scorecardId, key.passId)).bind fun rows => rows.get (key.caseKey, key.judgeId)

/-! ## The order on claims -/

def JudgmentClaim.rank (claim : JudgmentClaim) : ℕ ×ₗ ℕ := toLex (claim.generation, claim.attempt)

/-- `next` is another claim and supersedes `prior`. -/
def Below (prior next : JudgmentClaim) : Prop :=
  prior ≠ next ∧ claimSupersedes (some prior) next = true

theorem rank_le_iff {a b : JudgmentClaim} : a.rank ≤ b.rank ↔
    a.generation < b.generation ∨ a.generation = b.generation ∧ a.attempt ≤ b.attempt :=
  Prod.Lex.toLex_le_toLex

theorem rank_inj {a b : JudgmentClaim} (eq : a.rank = b.rank) : a = b := by
  have pairs : (a.generation, a.attempt) = (b.generation, b.attempt) := eq
  cases a
  cases b
  simpa using pairs

theorem claimLe_iff {prior next : JudgmentClaim} :
    claimLe prior next = true ↔ prior.rank ≤ next.rank := by
  rw [rank_le_iff, claimLe, decide_eq_true_eq]

theorem claimSupersedes_iff {prior next : JudgmentClaim} :
    claimSupersedes (some prior) next = true ↔ prior.rank ≤ next.rank := by
  rw [rank_le_iff]
  simp only [claimSupersedes]
  split
  · next ne =>
      rw [decide_eq_true_eq]
      exact ⟨Or.inl, fun le => le.resolve_right fun same => ne same.1⟩
  · next same =>
      rw [not_not] at same
      rw [decide_eq_true_eq, same]
      simp

theorem below_iff {prior next : JudgmentClaim} : Below prior next ↔ prior.rank < next.rank := by
  rw [Below, claimSupersedes_iff, lt_iff_le_and_ne]
  constructor
  · intro below
    exact ⟨below.2, fun eq => below.1 (rank_inj eq)⟩
  · intro below
    exact ⟨fun eq => below.2 (congrArg _ eq), below.1⟩

instance : IsStrictTotalOrder JudgmentClaim Below where
  trichotomous a b notBelow notAbove := by
    rw [below_iff] at notBelow notAbove
    exact rank_inj (le_antisymm (not_lt.mp notAbove) (not_lt.mp notBelow))
  irrefl a below := below.1 rfl
  trans a b c ab bc := by
    rw [below_iff] at ab bc ⊢
    exact lt_trans ab bc

/-! ## Both stores arbitrate -/

/-- An entry under the key it is staged for. -/
abbrev Write := StageKey × StagedJudgment

def StageBatch.writes (batch : StageBatch) : List Write :=
  batch.entries.map fun entry => (batch.key entry, entry)

def Write.key (w : Write) : StageKey := w.1

def Write.rank (w : Write) : ℕ ×ₗ ℕ := w.2.held.rank

/-- The rows of a store are those of the entries that hold their keys. -/
def Shows (row : StageKey → Option StageRow) (held : StageKey → Option Write) : Prop :=
  ∀ key, row key = (held key).map fun w => w.2.row

section Stores

variable {held : StageKey → Option Write}

/-- An entry supersedes the row of its key when it outranks the entry that holds it. -/
theorem supersedes_eq {prior : Option StageRow} {key : StageKey} (entry : StagedJudgment)
    (shows : prior = (held key).map fun w => w.2.row) :
    claimSupersedes (prior.map StageRow.claim) entry.held =
      Arbitration.takes Write.key Write.rank held (key, entry) := by
  subst shows
  unfold Arbitration.takes
  change _ = (held key).all _
  rcases held key with _ | top
  · rfl
  · rw [Bool.eq_iff_iff, Option.all_some, decide_eq_true_iff]
    exact claimSupersedes_iff

theorem row_holder (key key' : StageKey) (entry : StagedJudgment) :
    ((holder Write.key held (key, entry) key').map fun w => w.2.row) =
      if key' = key then some entry.row else (held key').map fun w => w.2.row := by
  unfold holder
  change (Function.update held key _ key').map _ = _
  by_cases own : key' = key
  · rw [own, if_pos rfl, Function.update_self]
    rfl
  · rw [if_neg own, Function.update_of_ne own]

/-- The loop over one pass's rows. -/
theorem stageEntries_eq (batch : StageBatch) (entries : List StagedJudgment)
    {existing : Table (String × String) StageRow}
    (shows : ∀ ek : String × String, existing.get ek =
      (held ⟨batch.scorecardId, batch.passId, ek.1, ek.2⟩).map fun w => w.2.row) :
    let after := arbitrate Write.key Write.rank held
      (entries.map fun entry => (batch.key entry, entry))
    (stageEntries existing entries).1 = after.1.map Prod.snd ∧
      ∀ ek : String × String, (stageEntries existing entries).2.get ek =
        (after.2 ⟨batch.scorecardId, batch.passId, ek.1, ek.2⟩).map fun w => w.2.row := by
  induction entries generalizing existing held with
  | nil => exact ⟨rfl, shows⟩
  | cons entry entries ih =>
      have won : claimSupersedes
          ((existing.get (entry.caseKey, entry.judgeId)).map StageRow.claim) entry.held =
            Arbitration.takes Write.key Write.rank held (batch.key entry, entry) :=
        supersedes_eq entry (shows (entry.caseKey, entry.judgeId))
      rcases taken : Arbitration.takes Write.key Write.rank held (batch.key entry, entry) with _ | _
      · rw [taken] at won
        simp only [stageEntries, List.map_cons, arbitrate, won, taken]
        exact ih shows
      · rw [taken] at won
        have shows' : ∀ ek : String × String,
            (existing.set (entry.caseKey, entry.judgeId) ⟨entry.scores, entry.held⟩).get ek =
              (holder Write.key held (batch.key entry, entry)
                ⟨batch.scorecardId, batch.passId, ek.1, ek.2⟩).map fun w => w.2.row := by
          intro ek
          rw [Table.get_set, row_holder, shows ek]
          have same : ek = (entry.caseKey, entry.judgeId) ↔
              (⟨batch.scorecardId, batch.passId, ek.1, ek.2⟩ : StageKey) = batch.key entry := by
            simp [StageBatch.key, Prod.ext_iff]
          simp only [same]
          rfl
        obtain ⟨through, rows⟩ := ih shows'
        simp only [stageEntries, List.map_cons, arbitrate, won, taken, not_true_eq_false, if_false,
          if_true]
        exact ⟨congrArg (entry :: ·) through, rows⟩

theorem stage_inMemory {staged : InMemoryStage} (shows : Shows staged.row held)
    (batch : StageBatch) :
    let after := arbitrate Write.key Write.rank held batch.writes
    (staged.stage batch).1 = some (after.1.map Prod.snd) ∧
      Shows (staged.stage batch).2.row after.2 := by
  have pass : ∀ ek : String × String,
      ((staged.get (batch.scorecardId, batch.passId)).getD Table.empty).get ek =
        (held ⟨batch.scorecardId, batch.passId, ek.1, ek.2⟩).map fun w => w.2.row := by
    intro ek
    rw [← shows]
    unfold InMemoryStage.row
    rcases staged.get (batch.scorecardId, batch.passId) with _ | rows <;> rfl
  obtain ⟨through, rows⟩ := stageEntries_eq batch batch.entries pass
  refine ⟨congrArg some through, fun key => ?_⟩
  unfold InMemoryStage.row InMemoryStage.stage
  dsimp only
  rw [Table.get_set]
  by_cases own : (key.scorecardId, key.passId) = (batch.scorecardId, batch.passId)
  · rw [if_pos own, Option.bind_some, rows]
    have same : (⟨batch.scorecardId, batch.passId, key.caseKey, key.judgeId⟩ : StageKey) = key := by
      rw [← (Prod.mk.inj own).1, ← (Prod.mk.inj own).2]
    rw [same]
    rfl
  · rw [if_neg own, arbitrate_of_not_mem]
    · exact shows key
    · intro w mem same
      obtain ⟨entry, -, rfl⟩ := List.mem_map.mp mem
      exact own (by rw [← same]; rfl)

/-- The command does to the rows what `insertRows` does to the entries. -/
theorem upsertRows_eq {table : StageTable} (shows : Shows table.get held)
    (touched : List StageKey) (ws : List Write) :
    (insertRows Write.key Write.rank held touched ws = none ∧
      upsertRows table touched (ws.map fun w => (w.1, w.2.row)) = none) ∨
    ∃ after wrote table', insertRows Write.key Write.rank held touched ws = some (after, wrote) ∧
      upsertRows table touched (ws.map fun w => (w.1, w.2.row)) = some (table', wrote) ∧
      Shows table'.get after := by
  induction ws generalizing table held touched with
  | nil => exact Or.inr ⟨held, touched, table, rfl, rfl, shows⟩
  | cons w ws ih =>
      obtain ⟨key, entry⟩ := w
      have shows' : Shows (table.set key entry.row).get (holder Write.key held (key, entry)) := by
        intro key'
        rw [Table.get_set, row_holder, shows key']
      have won := supersedes_eq entry (shows key)
      unfold insertRows
      rw [← won, List.map_cons, upsertRows]
      change (if key ∈ touched then none else _) = none ∧ _ ∨
        ∃ after wrote table', (if key ∈ touched then none else _) = _ ∧ _
      by_cases again : key ∈ touched
      · rw [if_pos again, if_pos again]
        exact Or.inl ⟨rfl, rfl⟩
      rw [if_neg again, if_neg again]
      rcases found : table.get key with _ | prior
      · exact ih shows' (key :: touched)
      · have same : claimSupersedes (some prior.claim) entry.held =
            claimLe prior.claim entry.row.claim := by
          rw [Bool.eq_iff_iff, claimSupersedes_iff, claimLe_iff]
          rfl
        simp only [Option.map_some, same]
        split
        · exact ih shows' (key :: touched)
        · exact ih shows touched

end Stores

end Everdict.ScoringStage
