import Everdict.Scoring.Promotion
import Mathlib.Data.List.TakeWhile

/-!
# What an approved promotion changes

When the parity observation of a plane approves its promotion, every staged row stands for
the same reading as the carrier rows it replaces (`SameReading`), so case by case the rows
read the same.  The digest is the same too, unless rows of different owners tie in its order
or a row's judgment is not the one it reads back as; there the promotion itself refuses.
-/

namespace Everdict.Scoring

open Sorting (sortBy)
open Submission (ScoreRow)

variable {runtime : Runtime}

/-! ## Owners of rows -/

theorem takeWhile_of_own {metric judgeId : String} (plain : ':' ∉ judgeId.toList)
    (own : Submission.isJudgeMetricOf metric judgeId = true) :
    ((metric.toList.drop 6).takeWhile (· ≠ ':')) = judgeId.toList := by
  have passes : ∀ c ∈ judgeId.toList, decide (c ≠ ':') = true := by
    intro c mem
    exact decide_eq_true fun eq => plain (eq ▸ mem)
  simp only [Submission.isJudgeMetricOf, Submission.JUDGE_METRIC_ROOT, Bool.or_eq_true,
    Text.startsWith, List.isPrefixOf_iff_prefix, String.toList_append] at own
  rcases own with same | ⟨rest, eq⟩
  · have chars : metric.toList = "judge:".toList ++ judgeId.toList := by
      rw [of_decide_eq_true same]
      simp
    rw [chars, List.drop_append_of_le_length (by decide)]
    have none : List.drop 6 "judge:".toList = [] := by decide
    rw [none, List.nil_append, List.takeWhile_eq_self_iff.mpr passes]
  · have chars : metric.toList = "judge:".toList ++ (judgeId.toList ++ ':' :: rest) := by
      rw [← eq]
      simp
    rw [chars, List.drop_append_of_le_length (by decide)]
    have none : List.drop 6 "judge:".toList = [] := by decide
    rw [none, List.nil_append, List.takeWhile_append_of_pos passes]
    simp

/-- A row has one owner among judges whose ids hold no colon. -/
theorem owner_unique {row : ScoreRow} {judgeId judgeId' : String} (plain : ':' ∉ judgeId.toList)
    (plain' : ':' ∉ judgeId'.toList) (own : isJudgeMetricOf row judgeId = true)
    (own' : isJudgeMetricOf row judgeId' = true) : judgeId = judgeId' := by
  unfold isJudgeMetricOf at own own'
  rcases coordinates : row.measurement with _ | measurement
  · rw [coordinates] at own own'
    apply String.toList_inj.mp
    rw [← takeWhile_of_own plain own, ← takeWhile_of_own plain' own']
  · rw [coordinates] at own own'
    simp only [Bool.and_eq_true, decide_eq_true_eq] at own own'
    exact own.2.symm.trans own'.2

/-- The ids are distinct and hold no colon, as their schema has it. -/
structure Selection (judges : List String) : Prop where
  nodup : judges.Nodup
  plain : ∀ judgeId ∈ judges, ':' ∉ judgeId.toList

/-- The rows left by a strip and the rows of each stripped judge are all the rows. -/
theorem strip_append_perm {judges : List String} (selection : Selection judges)
    (scores : List ScoreRow) :
    (stripJudgeScores scores judges
      ++ judges.flatMap fun judgeId => scores.filter (isJudgeMetricOf · judgeId)).Perm scores := by
  induction judges with
  | nil => simp [stripJudgeScores]
  | cons judgeId judges ih =>
      obtain ⟨outside, nodup⟩ := List.nodup_cons.mp selection.nodup
      have plain := List.forall_mem_cons.mp selection.plain
      have rest : stripJudgeScores scores (judgeId :: judges) =
          (stripJudgeScores scores judges).filter fun row => !isJudgeMetricOf row judgeId := by
        unfold stripJudgeScores
        rw [List.filter_filter]
        apply List.filter_congr
        intro row _
        rw [List.any_cons, Bool.not_or]
      have mine : (stripJudgeScores scores judges).filter (isJudgeMetricOf · judgeId) =
          scores.filter (isJudgeMetricOf · judgeId) := by
        unfold stripJudgeScores
        rw [List.filter_filter]
        apply List.filter_congr
        intro row _
        rcases own : isJudgeMetricOf row judgeId with _ | _
        · rfl
        · have others : judges.any (isJudgeMetricOf row) = false := by
            rw [List.any_eq_false]
            intro other mem own'
            exact outside (owner_unique plain.1 (plain.2 other mem) own own' ▸ mem)
          rw [others]
          rfl
      have split := List.filter_append_perm (isJudgeMetricOf · judgeId)
        (stripJudgeScores scores judges)
      rw [mine] at split
      rw [rest, List.flatMap_cons, ← List.append_assoc]
      refine (List.Perm.append_right _ (List.perm_append_comm.trans ?_)).trans
        (ih ⟨nodup, plain.2⟩)
      simpa using split

/-! ## Rows that read the same -/

/-- Both lists of rows parse, and the parsed rows are the same in the order of their metrics. -/
def SameReading (runtime : Runtime) (rows rows' : List ScoreRow) : Prop :=
  ∃ parsed parsed', rows.mapM ScoreRow.reread = some parsed ∧
    rows'.mapM ScoreRow.reread = some parsed' ∧
    sortBy (fun row => runtime.collation row.metric) parsed =
      sortBy (fun row => runtime.collation row.metric) parsed'

/-- The digest tells the two lists of rows apart if they read differently. -/
def Told (runtime : Runtime) (rows rows' : List ScoreRow) : Prop :=
  ∀ parsed parsed', rows.mapM ScoreRow.reread = some parsed →
    rows'.mapM ScoreRow.reread = some parsed' →
    runtime.scoresDigest (sortBy (fun row => runtime.collation row.metric) parsed) =
      runtime.scoresDigest (sortBy (fun row => runtime.collation row.metric) parsed') →
    sortBy (fun row => runtime.collation row.metric) parsed =
      sortBy (fun row => runtime.collation row.metric) parsed'

variable {rows rows' : List ScoreRow}

theorem sameReading_of_digest (told : Told runtime rows rows') {digest : String}
    (read : canonicalJudgmentScores runtime rows = some digest)
    (read' : canonicalJudgmentScores runtime rows' = some digest) :
    SameReading runtime rows rows' := by
  unfold canonicalJudgmentScores at read read'
  obtain ⟨parsed, mapped, rfl⟩ := Option.map_eq_some_iff.mp read
  obtain ⟨parsed', mapped', same⟩ := Option.map_eq_some_iff.mp read'
  exact ⟨parsed, parsed', mapped, mapped', told _ _ mapped mapped' same.symm⟩

theorem map_reread_of_mapM {rows parsed : List ScoreRow}
    (mapped : rows.mapM ScoreRow.reread = some parsed) :
    rows.map ScoreRow.reread = parsed.map some :=
  (map_eq_of_forall₂ (fun _ _ read => read.symm) (mapM_eq_some.mp mapped)).symm

theorem SameReading.perm (same : SameReading runtime rows rows') :
    (rows.map ScoreRow.reread).Perm (rows'.map ScoreRow.reread) := by
  obtain ⟨parsed, parsed', mapped, mapped', sorted⟩ := same
  rw [map_reread_of_mapM mapped, map_reread_of_mapM mapped']
  have perm := Sorting.sortBy_perm (fun row : ScoreRow => runtime.collation row.metric) parsed
  rw [sorted] at perm
  exact (perm.symm.trans (Sorting.sortBy_perm _ parsed')).map some

/-! ## What approval says -/

theorem observeEntry_agrees {passId : String} {produced : Table String Produced}
    {tally tally' : Tally} {entry : StagedJudgmentRow}
    (eq : observeEntry runtime passId produced tally entry = some tally')
    (unmismatched : tally'.mismatched = []) (unorphaned : tally'.orphaned = []) :
    tally.mismatched = [] ∧ tally.orphaned = [] ∧
      ∃ live digest, produced.get entry.unit = some live ∧
        canonicalJudgmentScores runtime live.scores = some digest ∧
        canonicalJudgmentScores runtime entry.scores = some digest := by
  unfold observeEntry at eq
  rcases found : produced.get entry.unit with _ | live
  · rw [found] at eq
    obtain rfl := Option.some.inj eq
    simp at unorphaned
  · rw [found] at eq
    obtain ⟨digest, read, rest⟩ := Option.bind_eq_some_iff.mp eq
    obtain ⟨staged, read', rfl⟩ := Option.map_eq_some_iff.mp rest
    dsimp only at unmismatched unorphaned
    split at unmismatched
    · next same =>
        rw [if_pos same] at unorphaned
        subst same
        exact ⟨unmismatched, unorphaned, live, digest, rfl, read, read'⟩
    · simp at unmismatched

theorem observe_agrees {passId : String} {produced : Table String Produced}
    {staged : List StagedJudgmentRow} {tally : Tally}
    (eq : staged.foldlM (observeEntry runtime passId produced) {} = some tally)
    (unmismatched : tally.mismatched = []) (unorphaned : tally.orphaned = []) :
    ∀ entry ∈ staged, ∃ live digest, produced.get entry.unit = some live ∧
      canonicalJudgmentScores runtime live.scores = some digest ∧
      canonicalJudgmentScores runtime entry.scores = some digest := by
  induction staged using List.reverseRecOn generalizing tally with
  | nil =>
      intro entry mem
      cases mem
  | append_singleton staged last ih =>
      rw [List.foldlM_append] at eq
      obtain ⟨before, first, rest⟩ := Option.bind_eq_some_iff.mp eq
      obtain ⟨after, step, same⟩ := Option.bind_eq_some_iff.mp rest
      obtain rfl : after = tally := Option.some.inj same
      obtain ⟨unmismatched', unorphaned', agrees⟩ :=
        observeEntry_agrees step unmismatched unorphaned
      intro entry mem
      rcases List.mem_append.mp mem with earlier | here
      · exact ih first unmismatched' unorphaned' entry earlier
      · obtain rfl := List.mem_singleton.mp here
        exact agrees

theorem produced_origin {settled : List CaseResult} {judges : List String}
    {caseKey judgeId : String} {live : Produced}
    (found : (producedUnits settled judges).get (judgmentUnit caseKey judgeId) = some live) :
    ∃ result ∈ settled, result.key = caseKey ∧ judgeId ∈ judges ∧
      live.scores = result.delta judgeId := by
  obtain ⟨result, mem, entry⟩ := List.mem_flatMap.mp (Table.mem_of_get_ofEntries found)
  unfold CaseResult.produced at entry
  split at entry
  · obtain ⟨judgeId', selected, minted⟩ := List.mem_filterMap.mp entry
    split at minted
    · cases minted
    · obtain ⟨unit, rfl⟩ := Prod.mk.inj (Option.some.inj minted)
      obtain ⟨key, rfl⟩ := judgmentUnit_inj unit
      exact ⟨result, mem, key, selected, rfl⟩
  · cases entry

/-- Every staged row reads as the carrier's own rows of its judge. -/
def Agrees (runtime : Runtime) (carrier : List CaseResult) (staged : List StagedJudgmentRow)
    (judges : List String) : Prop :=
  ∀ entry ∈ staged, entry.judgeId ∈ judges ∧
    ∃ result ∈ carrier, result.key = entry.caseKey ∧
      SameReading runtime (result.delta entry.judgeId) entry.scores

theorem safe_of_unrefused {parity : ScoringStageParity} {basis : Option String}
    (unrefused : stagePromotionRefusal parity basis = none) : stagePromotionSafe parity = true := by
  unfold stagePromotionRefusal at unrefused
  split at unrefused
  · cases unrefused
  · dsimp only at unrefused
    split at unrefused
    · cases unrefused
    · split at unrefused
      · assumption
      · cases unrefused

/-- The digest tells the staged rows from the carrier's. -/
def Distinguishes (runtime : Runtime) (carrier : List CaseResult)
    (staged : List StagedJudgmentRow) (judges : List String) : Prop :=
  ∀ result ∈ carrier, ∀ judgeId ∈ judges, ∀ entry ∈ staged,
    Told runtime (result.delta judgeId) entry.scores

theorem agrees_of_approved
    {schemaError scorecardId passId : String} {carrier : List CaseResult} {judges : List String}
    {read : Option (Except String (List StagedJudgmentRow))} {observation : StageObservation}
    {basis : Option String}
    (observed : stageObservationOf runtime schemaError scorecardId passId carrier judges read =
      some observation)
    (distinguishes : Distinguishes runtime carrier observation.staged judges)
    (approved : stagePromotionRefusal observation.parity basis = none) :
    Agrees runtime carrier observation.staged judges := by
  have safe := safe_of_unrefused approved
  simp only [stagePromotionSafe, Bool.and_eq_true, decide_eq_true_eq, List.length_eq_zero_iff]
    at safe
  obtain ⟨⟨⟨⟨⟨completed, -⟩, -⟩, -⟩, unmismatched⟩, unorphaned⟩ := safe
  rcases read with _ | (failure | staged)
  · cases observed
  · obtain rfl := Option.some.inj observed
    cases completed
  · simp only [stageObservationOf] at observed
    split at observed
    · obtain rfl := Option.some.inj observed
      cases completed
    · next tally folded =>
        obtain rfl := Option.some.inj observed
        intro entry mem
        obtain ⟨live, digest, found, here, there⟩ :=
          observe_agrees folded unmismatched unorphaned entry mem
        obtain ⟨result, on, key, selected, scores⟩ := produced_origin found
        rw [scores] at here
        have told := distinguishes result on _ selected entry mem
        exact ⟨selected, result, on, key, sameReading_of_digest told here there⟩

/-! ## The promoted rows of a case -/

section Promoted

variable {carrier : List CaseResult} {staged : List StagedJudgmentRow} {judges : List String}
variable {result : CaseResult}

/-- The keys of a plane are distinct, and so are those of the stage. -/
structure Keyed (carrier : List CaseResult) (staged : List StagedJudgmentRow) : Prop where
  cases : (carrier.map CaseResult.key).Nodup
  rows : (staged.map fun row => (row.caseKey, row.judgeId)).Nodup

theorem sameReading_of_mem (keyed : Keyed carrier staged)
    (agrees : Agrees runtime carrier staged judges) (on : result ∈ carrier)
    {row : StagedJudgmentRow} (mem : row ∈ promotedRows runtime staged judges result) :
    row.judgeId ∈ judges ∧ SameReading runtime (result.delta row.judgeId) row.scores := by
  obtain ⟨there, here⟩ := List.mem_filter.mp (Sorting.mem_sortBy.mp mem)
  simp only [Bool.and_eq_true, decide_eq_true_eq] at here
  obtain ⟨selected, result', on', key, same⟩ := agrees row there
  have one : result' = result :=
    List.inj_on_of_nodup_map keyed.cases on' on (key.trans here.2)
  rw [one] at same
  exact ⟨selected, same⟩

theorem nodup_promoted (keyed : Keyed carrier staged) :
    ((promotedRows runtime staged judges result).map (·.judgeId)).Nodup := by
  have sorted := (Sorting.sortBy_perm (fun row : StagedJudgmentRow => runtime.collation row.judgeId)
    (staged.filter fun row => row.judgeId ∈ judges && row.caseKey = result.key)).map (·.judgeId)
  refine sorted.nodup_iff.mpr ?_
  refine List.Nodup.map_on ?_ ((List.Nodup.of_map _ keyed.rows).filter _)
  intro row mem row' mem' same
  obtain ⟨there, here⟩ := List.mem_filter.mp mem
  obtain ⟨there', here'⟩ := List.mem_filter.mp mem'
  simp only [Bool.and_eq_true, decide_eq_true_eq] at here here'
  refine List.inj_on_of_nodup_map keyed.rows there there' ?_
  rw [same, here.2, here'.2]

theorem selection_promoted (keyed : Keyed carrier staged) (selection : Selection judges)
    (agrees : Agrees runtime carrier staged judges) (on : result ∈ carrier) :
    Selection ((promotedRows runtime staged judges result).map (·.judgeId)) := by
  refine ⟨nodup_promoted keyed, ?_⟩
  intro judgeId mem
  obtain ⟨row, there, rfl⟩ := List.mem_map.mp mem
  exact selection.plain _ (sameReading_of_mem keyed agrees on there).1

theorem promoteResult_key (result : CaseResult) :
    (promoteResult runtime staged judges result).key = result.key := by
  unfold promoteResult
  dsimp only
  split <;> rfl

/-- The rows of a promoted case, the staged ones read as lists for each promoted judge. -/
theorem promoteResult_scores (result : CaseResult) :
    (promoteResult runtime staged judges result).scores =
      stripJudgeScores result.scores
          ((promotedRows runtime staged judges result).map (·.judgeId))
        ++ (promotedRows runtime staged judges result).flatMap (·.scores) := by
  unfold promoteResult
  dsimp only
  split
  · next bare =>
      rw [List.isEmpty_iff.mp bare]
      simp [stripJudgeScores]
  · rfl

/-- Case by case a promotion keeps the rows up to what they read as. -/
theorem promoteResult_perm (keyed : Keyed carrier staged) (selection : Selection judges)
    (agrees : Agrees runtime carrier staged judges) (on : result ∈ carrier) :
    ((promoteResult runtime staged judges result).scores.map ScoreRow.reread).Perm
      (result.scores.map ScoreRow.reread) := by
  have whole := strip_append_perm (selection_promoted keyed selection agrees on) result.scores
  refine List.Perm.trans ?_ (whole.map ScoreRow.reread)
  rw [promoteResult_scores, List.map_append, List.map_append, List.map_flatMap,
    List.map_flatMap, List.flatMap_map]
  refine List.Perm.append_left _ (List.Perm.flatMap_left _ ?_)
  intro row mem
  exact (sameReading_of_mem keyed agrees on mem).2.perm.symm

/-! ### Its digest -/

/-- A row whose judgment is the one it reads back as. -/
def Steady (row : ScoreRow) : Prop :=
  ∀ row', row.reread = some row' → judgmentOf row' = judgmentOf row

/-- No row of a selected judge ties, in the order of the digest, with a row of another owner. -/
def Untied (runtime : Runtime) (judges : List String) (result : CaseResult) : Prop :=
  ∀ judgeId ∈ judges, ∀ row ∈ result.scores, ∀ row' ∈ result.scores,
    isJudgeMetricOf row judgeId = true → runtime.rowKey row = runtime.rowKey row' →
    isJudgeMetricOf row' judgeId = true

def judgmentKey (runtime : Runtime) : Judgment → List Nat ×ₗ List Nat
  | .measured graderId metric _ _ _ => toLex (runtime.collation metric, runtime.collation graderId)
  | .unmeasured graderId metric _ => toLex (runtime.collation metric, runtime.collation graderId)
  | .invalid graderId metric => toLex (runtime.collation metric, runtime.collation graderId)

theorem judgmentKey_judgmentOf (row : ScoreRow) :
    judgmentKey runtime (judgmentOf row) = runtime.rowKey row := by
  cases row <;> rfl

/-- The judgments of the rows of one class of ties. -/
def tied (runtime : Runtime) (key : List Nat ×ₗ List Nat) (rows : List ScoreRow) :
    List Judgment :=
  (rows.filter (runtime.rowKey · = key)).map judgmentOf

theorem tied_append (key : List Nat ×ₗ List Nat) (rows rows' : List ScoreRow) :
    tied runtime key (rows ++ rows') = tied runtime key rows ++ tied runtime key rows' := by
  simp [tied]

theorem tied_flatMap {α : Type*} (key : List Nat ×ₗ List Nat) (f : α → List ScoreRow)
    (xs : List α) :
    tied runtime key (xs.flatMap f) = xs.flatMap fun x => tied runtime key (f x) := by
  induction xs with
  | nil => rfl
  | cons x xs ih => rw [List.flatMap_cons, tied_append, ih, List.flatMap_cons]

theorem tied_eq_filter (key : List Nat ×ₗ List Nat) (rows : List ScoreRow) :
    tied runtime key rows = (rows.map judgmentOf).filter (judgmentKey runtime · = key) := by
  unfold tied
  rw [List.filter_map]
  congr 1
  apply List.filter_congr
  intro row _
  simp [judgmentKey_judgmentOf]

/-- The digest's view of the rows depends on each class of ties alone. -/
theorem sorted_judgments_eq (same : ∀ key, tied runtime key rows = tied runtime key rows') :
    (sortBy runtime.rowKey rows).map judgmentOf = (sortBy runtime.rowKey rows').map judgmentOf := by
  have keeps : ∀ row, judgmentKey runtime (judgmentOf row) = runtime.rowKey row :=
    judgmentKey_judgmentOf
  rw [← Sorting.sortBy_map runtime.rowKey (judgmentKey runtime) judgmentOf keeps,
    ← Sorting.sortBy_map runtime.rowKey (judgmentKey runtime) judgmentOf keeps]
  apply Sorting.sortBy_eq_of_classes
  intro key
  have classes := same key
  rw [tied_eq_filter, tied_eq_filter] at classes
  convert classes

theorem map_judgmentOf_of_steady {rows parsed : List ScoreRow} (steady : ∀ row ∈ rows, Steady row)
    (mapped : rows.mapM ScoreRow.reread = some parsed) :
    rows.map judgmentOf = parsed.map judgmentOf := by
  have each := mapM_eq_some.mp mapped
  clear mapped
  induction each with
  | nil => rfl
  | cons head _ ih =>
      obtain ⟨first, rest⟩ := List.forall_mem_cons.mp steady
      rw [List.map_cons, List.map_cons, first _ head, ih rest]

/-- Rows that read the same, and as the judgments they are, agree in every class of ties. -/
theorem SameReading.tied_eq (same : SameReading runtime rows rows')
    (steady : ∀ row ∈ rows, Steady row) (steady' : ∀ row ∈ rows', Steady row)
    (key : List Nat ×ₗ List Nat) : tied runtime key rows = tied runtime key rows' := by
  obtain ⟨parsed, parsed', mapped, mapped', sorted⟩ := same
  rw [tied_eq_filter, tied_eq_filter, map_judgmentOf_of_steady steady mapped,
    map_judgmentOf_of_steady steady' mapped', ← tied_eq_filter, ← tied_eq_filter]
  have metric : ∀ row : ScoreRow, decide (runtime.rowKey row = key) = true →
      runtime.collation row.metric = (ofLex key).1 := by
    intro row eq
    rw [← of_decide_eq_true eq]
    rfl
  unfold tied
  rw [← Sorting.sortBy_filter_class metric parsed, ← Sorting.sortBy_filter_class metric parsed',
    sorted]

theorem flatMap_eq_single {α β : Type*} {xs : List α} {f : α → List β} {x : α}
    (nodup : xs.Nodup) (mem : x ∈ xs) (others : ∀ y ∈ xs, y ≠ x → f y = []) :
    xs.flatMap f = f x := by
  obtain ⟨before, after, rfl⟩ := List.append_of_mem mem
  have apart := List.nodup_middle.mp nodup
  rw [List.nodup_cons, List.mem_append, not_or] at apart
  obtain ⟨⟨unbefore, unafter⟩, -⟩ := apart
  have first : before.flatMap f = [] := by
    rw [List.flatMap_eq_nil_iff]
    intro y there
    exact others y (by simp [there]) fun eq => unbefore (eq ▸ there)
  have last : after.flatMap f = [] := by
    rw [List.flatMap_eq_nil_iff]
    intro y there
    exact others y (by simp [there]) fun eq => unafter (eq ▸ there)
  rw [List.flatMap_append, List.flatMap_cons, first, last, List.nil_append, List.append_nil]

/-- A class of ties has one owner, so a promotion leaves it as it was. -/
theorem tied_strip_append {ids : List String} (selection : Selection ids)
    (untied : Untied runtime ids result) (key : List Nat ×ₗ List Nat) :
    tied runtime key (stripJudgeScores result.scores ids)
        ++ ids.flatMap (fun judgeId => tied runtime key (result.delta judgeId)) =
      tied runtime key result.scores := by
  by_cases owned : ∃ judgeId ∈ ids, ∃ row ∈ result.scores,
      isJudgeMetricOf row judgeId = true ∧ runtime.rowKey row = key
  · -- all the rows of the class are this judge's
    obtain ⟨judgeId, selected, row, on, own, rfl⟩ := owned
    have all : ∀ row' ∈ result.scores, runtime.rowKey row' = runtime.rowKey row →
        isJudgeMetricOf row' judgeId = true := fun row' on' same =>
      untied judgeId selected row on row' on' own same.symm
    have stripped : tied runtime (runtime.rowKey row) (stripJudgeScores result.scores ids) = [] := by
      unfold tied stripJudgeScores
      rw [List.map_eq_nil_iff, List.filter_filter, List.filter_eq_nil_iff]
      intro row' on' both
      simp only [Bool.and_eq_true, decide_eq_true_eq, Bool.not_eq_true'] at both
      have any : ids.any (isJudgeMetricOf row') = true :=
        List.any_eq_true.mpr ⟨judgeId, selected, all row' on' both.1⟩
      rw [both.2] at any
      cases any
    have others : ∀ other ∈ ids, other ≠ judgeId →
        tied runtime (runtime.rowKey row) (result.delta other) = [] := by
      intro other mem apart
      unfold tied CaseResult.delta
      rw [List.map_eq_nil_iff, List.filter_filter, List.filter_eq_nil_iff]
      intro row' on' both
      simp only [Bool.and_eq_true, decide_eq_true_eq] at both
      exact apart (owner_unique (selection.plain other mem) (selection.plain judgeId selected)
        both.2 (all row' on' both.1))
    rw [stripped, flatMap_eq_single selection.nodup selected others, List.nil_append]
    unfold tied CaseResult.delta
    rw [List.filter_filter]
    congr 1
    apply List.filter_congr
    intro row' on'
    by_cases same : runtime.rowKey row' = runtime.rowKey row
    · simp [same, all row' on' same]
    · simp [same]
  · -- no promoted row is in the class
    have free : ∀ judgeId ∈ ids, ∀ row ∈ result.scores, runtime.rowKey row = key →
        isJudgeMetricOf row judgeId = false := by
      intro judgeId selected row on same
      rw [← Bool.not_eq_true]
      exact fun own => owned ⟨judgeId, selected, row, on, own, same⟩
    have none : ids.flatMap (fun judgeId => tied runtime key (result.delta judgeId)) = [] := by
      rw [List.flatMap_eq_nil_iff]
      intro judgeId selected
      unfold tied CaseResult.delta
      rw [List.map_eq_nil_iff, List.filter_filter, List.filter_eq_nil_iff]
      intro row on both
      simp only [Bool.and_eq_true, decide_eq_true_eq] at both
      rw [free judgeId selected row on both.1] at both
      cases both.2
    rw [none, List.append_nil]
    unfold tied stripJudgeScores
    rw [List.filter_filter]
    congr 1
    apply List.filter_congr
    intro row on
    by_cases same : runtime.rowKey row = key
    · have kept : ids.any (isJudgeMetricOf row) = false := by
        rw [List.any_eq_false]
        intro judgeId selected own
        rw [free judgeId selected row on same] at own
        cases own
      simp [same, kept]
    · simp [same]

theorem promoteResult_tied (keyed : Keyed carrier staged) (selection : Selection judges)
    (agrees : Agrees runtime carrier staged judges) (on : result ∈ carrier)
    (untied : Untied runtime judges result)
    (steady : ∀ judgeId ∈ judges, ∀ row ∈ result.delta judgeId, Steady row)
    (staged_steady : ∀ entry ∈ staged, ∀ row ∈ entry.scores, Steady row)
    (key : List Nat ×ₗ List Nat) :
    tied runtime key (promoteResult runtime staged judges result).scores =
      tied runtime key result.scores := by
  have promoted := selection_promoted keyed selection agrees on
  have narrower : Untied runtime ((promotedRows runtime staged judges result).map (·.judgeId))
      result := by
    intro judgeId mem
    obtain ⟨row, there, rfl⟩ := List.mem_map.mp mem
    exact untied _ (sameReading_of_mem keyed agrees on there).1
  rw [← tied_strip_append promoted narrower key, promoteResult_scores, tied_append, tied_flatMap,
    List.flatMap_map]
  congr 1
  apply List.flatMap_congr
  intro row mem
  obtain ⟨selected, same⟩ := sameReading_of_mem keyed agrees on mem
  have there : row ∈ staged := (List.mem_filter.mp (Sorting.mem_sortBy.mp mem)).1
  exact (same.tied_eq (steady _ selected) (staged_steady row there) key).symm

theorem promote_digest (keyed : Keyed carrier staged) (selection : Selection judges)
    (agrees : Agrees runtime carrier staged judges)
    (untied : ∀ result ∈ carrier, Untied runtime judges result)
    (steady : ∀ result ∈ carrier, ∀ judgeId ∈ judges, ∀ row ∈ result.delta judgeId, Steady row)
    (staged_steady : ∀ entry ∈ staged, ∀ row ∈ entry.scores, Steady row) :
    scorePlaneDigest runtime (promoteStagedJudgments runtime carrier staged judges) =
      scorePlaneDigest runtime carrier := by
  unfold scorePlaneDigest scorePlane promoteStagedJudgments
  simp only [List.map_map, Function.comp_def]
  have entries : ∀ result ∈ carrier,
      ((promoteResult runtime staged judges result).key,
        (sortBy runtime.rowKey (promoteResult runtime staged judges result).scores).map
          judgmentOf) =
      (result.key, (sortBy runtime.rowKey result.scores).map judgmentOf) := by
    intro result on
    rw [promoteResult_key, sorted_judgments_eq fun key => promoteResult_tied keyed selection agrees
      on (untied result on) (steady result on) staged_steady key]
  rw [List.map_congr_left entries]

end Promoted

/-- Whatever the observation says, the plane that a pass certifies has the carrier's digest. -/
theorem promoteFromStage_digest (scoringStageAuthoritative : Bool) (carrier : List CaseResult)
    (observation : Option StageObservation) (judges : List String) :
    scorePlaneDigest runtime (promoteFromStage runtime scoringStageAuthoritative carrier
      observation judges).results = scorePlaneDigest runtime carrier := by
  unfold promoteFromStage
  split
  · rfl
  · split
    · rfl
    · split
      · rfl
      · dsimp only
        split
        · rfl
        · next same => exact not_not.mp same

/-- An approved promotion keeps every case and, up to what the schema makes of them, its rows.
It keeps the digest when no row of a selected judge ties with another owner's row and every
judge row is steady; in any case the plane that is certified has the carrier's digest. -/
theorem approved_promotion_keeps (runtime : Runtime) (schemaError scorecardId passId : String)
    (carrier : List CaseResult) (judges : List String)
    (read : Option (Except String (List StagedJudgmentRow))) (observation : StageObservation)
    (observed : stageObservationOf runtime schemaError scorecardId passId carrier judges read =
      some observation)
    (keyed : Keyed carrier observation.staged) (selection : Selection judges)
    (distinguishes : Distinguishes runtime carrier observation.staged judges)
    (approved : stagePromotionRefusal observation.parity
      (some (scorePlaneDigest runtime carrier)) = none) :
    List.Forall₂ (fun result promoted => promoted.caseId = result.caseId ∧
        promoted.trial = result.trial ∧
        (promoted.scores.map ScoreRow.reread).Perm (result.scores.map ScoreRow.reread))
      carrier (promoteStagedJudgments runtime carrier observation.staged judges) ∧
    ((∀ result ∈ carrier, Untied runtime judges result) →
      (∀ result ∈ carrier, ∀ judgeId ∈ judges, ∀ row ∈ result.delta judgeId, Steady row) →
      (∀ entry ∈ observation.staged, ∀ row ∈ entry.scores, Steady row) →
      scorePlaneDigest runtime (promoteStagedJudgments runtime carrier observation.staged judges) =
        scorePlaneDigest runtime carrier) ∧
    (∀ scoringStageAuthoritative, scorePlaneDigest runtime (promoteFromStage runtime
      scoringStageAuthoritative carrier (some observation) judges).results =
        scorePlaneDigest runtime carrier) := by
  have agrees := agrees_of_approved observed distinguishes approved
  refine ⟨?_, promote_digest keyed selection agrees, ?_⟩
  · unfold promoteStagedJudgments
    rw [List.forall₂_map_right_iff, List.forall₂_same]
    intro result on
    refine ⟨?_, ?_, promoteResult_perm keyed selection agrees on⟩
    · unfold promoteResult
      dsimp only
      split <;> rfl
    · unfold promoteResult
      dsimp only
      split <;> rfl
  · intro scoringStageAuthoritative
    exact promoteFromStage_digest scoringStageAuthoritative carrier (some observation) judges

theorem told_self (rows : List ScoreRow) : Told runtime rows rows := by
  intro parsed parsed' mapped mapped' _
  rw [mapped] at mapped'
  rw [Option.some.inj mapped']

/-! ### Promotions that move a digest -/

/-- A stage of these rows approves its promotion. -/
def approves (runtime : Runtime) (carrier : List CaseResult) (judges : List String)
    (staged : List StagedJudgmentRow) : Bool :=
  (stageObservationOf runtime "" "card-1" "pass-1" carrier judges (some (.ok staged))).any
    fun observation =>
      (stagePromotionRefusal observation.parity
        (some (scorePlaneDigest runtime carrier))).isNone

/-- A runtime whose digest tells one plane from the others. -/
def telling (plane : List (String × List Judgment)) : Runtime where
  collation := Text.utf16
  planeDigest document := if document = plane then "sha256:0" else "sha256:1"
  receiptsDigest _ := ""
  scoresDigest rows := String.join (rows.map (·.metric))

def stagedFor (judgeId : String) (scores : List ScoreRow) : StagedJudgmentRow where
  caseKey := childKey "c1" none
  judgeId
  scores

def judgeRow (judgeId : String) : ScoreRow :=
  .measured
    { graderId := judgeId, metric := "judge:" ++ judgeId, value := .finite 1, stamped := true }

/-- A grader's row among those of two judges. -/
def panelCase : CaseResult where
  caseId := "c1"
  scores := [judgeRow "b",
    .measured { graderId := "g", metric := "tests", value := .finite 0, stamped := true },
    judgeRow "a"]

/-- A runtime that tells the plane of `panelCase` from the others. -/
def panel : Runtime := telling (scorePlane (telling []) [panelCase]).entries

def panelStage : List StagedJudgmentRow :=
  [stagedFor "b" [judgeRow "b"], stagedFor "a" [judgeRow "a"]]

theorem approved_promotion_keeps_panelCase :
    (promoteStagedJudgments panel [panelCase] panelStage ["a", "b"]).map
        (·.scores.map (·.metric)) = [["tests", "judge:a", "judge:b"]] ∧
      scorePlaneDigest panel (promoteStagedJudgments panel [panelCase] panelStage ["a", "b"]) =
        scorePlaneDigest panel [panelCase] := by
  obtain ⟨observation, observed, staged, approved⟩ : ∃ observation,
      stageObservationOf panel "" "card-1" "pass-1" [panelCase] ["a", "b"]
        (some (.ok panelStage)) = some observation ∧ observation.staged = panelStage ∧
      stagePromotionRefusal observation.parity
        (some (scorePlaneDigest panel [panelCase])) = none :=
    ⟨_, rfl, rfl, by decide +kernel⟩
  have own : panelCase.delta "a" = [judgeRow "a"] ∧ panelCase.delta "b" = [judgeRow "b"] :=
    ⟨rfl, rfl⟩
  have keyed : Keyed [panelCase] observation.staged := by
    rw [staged]
    exact ⟨by decide +kernel, by decide +kernel⟩
  have distinguishes : Distinguishes panel [panelCase] observation.staged ["a", "b"] := by
    rw [staged]
    simp only [Distinguishes, panelStage, stagedFor, List.forall_mem_cons, List.not_mem_nil, own,
      false_imp_iff, implies_true, and_true, told_self]
    refine ⟨?_, trivial, ?_⟩ <;> intro parsed parsed' mapped mapped' same
    all_goals
      obtain rfl := Option.some.inj mapped
      obtain rfl := Option.some.inj mapped'
      exact absurd same (by decide +kernel)
  have steady : Steady (judgeRow "a") ∧ Steady (judgeRow "b") := by
    constructor <;> intro row' read <;> obtain rfl := Option.some.inj read <;> rfl
  have kept := (approved_promotion_keeps panel "" "card-1" "pass-1" [panelCase] ["a", "b"] _
    observation observed keyed ⟨by decide, by decide⟩ distinguishes approved).2.1
  rw [staged] at kept
  refine ⟨by decide +kernel, kept ?_ ?_ ?_⟩
  · simp only [List.forall_mem_singleton, Untied]
    decide +kernel
  · simp [own, steady]
  · simp [panelStage, stagedFor, steady]

/-- A row that judge `a` has measured under a grader's name, and the grader's own. -/
def sharedRow (producer : Producer) (value : ℚ) : ScoreRow :=
  .measured
    { measurement := some { producer, metric := "quality" }, graderId := "g", metric := "quality",
      value := .finite value, stamped := true }

def tiedCase : CaseResult where
  caseId := "c1"
  scores := [sharedRow ⟨.judge, "a"⟩ 1, sharedRow ⟨.grader, "g"⟩ 0]

/-- A measurement that reads back as a skipped one. -/
def sentinelRow : ScoreRow :=
  .measured
    { graderId := "a", metric := "judge:a", detail := some (.text "skipped: no budget"),
      value := .finite 1 }

def skippedRow : ScoreRow :=
  .unmeasured
    { graderId := "a", metric := "judge:a", detail := some (.text "skipped: no budget"),
      reason := .unsupported, retryable := false }

def skippedCase : CaseResult where
  caseId := "c1"
  scores := [skippedRow]

/-- A verdict of judge `a:b`, or a criterion of judge `a`. -/
def criterionRow : ScoreRow :=
  .measured { graderId := "a", metric := "judge:a:b", value := .finite 1, stamped := true }

def criterionCase : CaseResult where
  caseId := "c1"
  scores := [criterionRow]

/-- As the claim has it, over any rows and any distinct ids: a promotion that parity approves
moves the digest where rows of two owners tie, and where a staged row only reads back as the
carrier's; and with ids that hold a colon it doubles a row. -/
theorem approved_promotions_differ :
    (¬ ∀ runtime carrier judges staged, Keyed carrier staged → judges.Nodup →
      approves runtime carrier judges staged = true →
      scorePlaneDigest runtime (promoteStagedJudgments runtime carrier staged judges) =
        scorePlaneDigest runtime carrier) ∧
    (¬ ∀ runtime carrier judges staged, Keyed carrier staged → judges.Nodup →
      (∀ result ∈ carrier, Untied runtime judges result) →
      approves runtime carrier judges staged = true →
      scorePlaneDigest runtime (promoteStagedJudgments runtime carrier staged judges) =
        scorePlaneDigest runtime carrier) ∧
    (¬ ∀ runtime carrier judges staged, Keyed carrier staged → judges.Nodup →
      approves runtime carrier judges staged = true →
      List.Forall₂ (fun result promoted =>
        promoted.scores.length = result.scores.length)
        carrier (promoteStagedJudgments runtime carrier staged judges)) := by
  refine ⟨?_, ?_, ?_⟩
  · intro all
    have kept := all
      (telling [("c1#0", [.measured "g" "quality" (some 1) none none,
        .measured "g" "quality" (some 0) none none])])
      [tiedCase] ["a"] [stagedFor "a" [sharedRow ⟨.judge, "a"⟩ 1]]
      ⟨by decide +kernel, by decide +kernel⟩ (by decide) (by decide +kernel)
    revert kept
    decide +kernel
  · intro all
    have kept := all (telling [("c1#0", [.unmeasured "a" "judge:a" .unsupported])])
      [skippedCase] ["a"] [stagedFor "a" [sentinelRow]]
      ⟨by decide +kernel, by decide +kernel⟩ (by decide) ?_ (by decide +kernel)
    · revert kept
      decide +kernel
    · unfold Untied
      simp only [List.forall_mem_singleton, skippedCase]
      exact fun own _ => own
  · intro all
    have kept := all (telling []) [criterionCase] ["a", "a:b"]
      [stagedFor "a" [criterionRow], stagedFor "a:b" [criterionRow]]
      ⟨by decide +kernel, by decide +kernel⟩ (by decide) (by decide +kernel)
    have doubled := (List.forall₂_cons.mp kept).1
    revert doubled
    decide +kernel

end Everdict.Scoring
