import Everdict.Scoring.Promotion
import Everdict.Transition
import Mathlib.Data.List.Find

/-!
# The retry budget of a judge

A scoring round on one case strips, invokes and stamps the judges that still have work
there.  How far a judge has got is read from the row that wears its name, what it has tried
from the row that is its verdict by its coordinates.  As long as these are one row, a judge
is invoked at most `MAX_JUDGE_ATTEMPTS_PER_PASS` times (`budget_binds`).
-/

namespace Everdict.Scoring

open Submission (ScoreRow)
open Transition (Machine)
open Transition.Machine (Always Reachable Runs)

/-! ## The plan of a round -/

inductive JudgeProgress where
  | absent
  | retryableUnmeasured
  | terminalUnmeasured
  | measured
  deriving DecidableEq

def MAX_JUDGE_ATTEMPTS_PER_PASS : Nat := 3

/-- `judge:<id>` -/
def overallName (judgeId : String) : String := "judge:" ++ judgeId

/-- What a judge's verdict row says of its progress. -/
def progressOf : Option ScoreRow → JudgeProgress
  | none => .absent
  | some (.measured _) => .measured
  | some (.invalid _) => .terminalUnmeasured
  | some (.unmeasured row) =>
      if !row.retryable then .terminalUnmeasured
      else if row.attempts.getD 0 ≥ MAX_JUDGE_ATTEMPTS_PER_PASS then .terminalUnmeasured
      else .retryableUnmeasured

def judgeProgress (scores : List ScoreRow) (judgeId : String) : JudgeProgress :=
  progressOf (scores.find? fun row => row.metric = overallName judgeId)

def pendingJudgesFor (scores : List ScoreRow) (judges : List String) : List String :=
  judges.filter fun judgeId =>
    judgeProgress scores judgeId = .absent || judgeProgress scores judgeId = .retryableUnmeasured

/-- Is the row the judge's verdict, not one of its criteria? -/
def isOverallRow (judgeId : String) (row : ScoreRow) : Bool :=
  isJudgeMetricOf row judgeId &&
    match row.measurement with
    | some measurement => measurement.criterion.isNone
    | none => row.metric = overallName judgeId

def attemptsOf : Option ScoreRow → Option Nat
  | some (.unmeasured row) => some (row.attempts.getD 0)
  | _ => none

/-- The map is read by its lookups. -/
def judgeAttemptsOf (scores : List ScoreRow) (judges : List String) (judgeId : String) :
    Option Nat :=
  if judgeId ∈ judges then attemptsOf (scores.find? (isOverallRow judgeId)) else none

/-! ## A round -/

def stampRow (judges : List String) (priorAttempts : String → Option Nat) : ScoreRow → ScoreRow
  | .unmeasured row =>
      match judges.find? fun judgeId => row.metric = overallName judgeId with
      | none => .unmeasured row
      | some judgeId =>
          .unmeasured { row with attempts := some ((priorAttempts judgeId).getD 0 + 1) }
  | row => row

def stampJudgeAttempts (scores : List ScoreRow) (judges : List String)
    (priorAttempts : String → Option Nat) : List ScoreRow :=
  scores.map (stampRow judges priorAttempts)

/-- The row without the events it carried. -/
def drained : ScoreRow → ScoreRow
  | .measured row => .measured { row with traceEvents := none }
  | .unmeasured row => .unmeasured { row with traceEvents := none }
  | .invalid identity => .invalid { identity with traceEvents := none }

def replaceJudgeRows (scores : List ScoreRow) (judgeId : String) (rows : List ScoreRow) :
    List ScoreRow :=
  stripJudgeScores scores [judgeId] ++ rows

/-- A judge and the rows it returned. -/
structure Invocation where
  judgeId : String
  rows : List ScoreRow

/-- The invoked judges one after the other, in the order in which they ran. -/
def applyJudges (scores : List ScoreRow) (invocations : List Invocation) : List ScoreRow :=
  invocations.foldl
    (fun scores invocation =>
      replaceJudgeRows scores invocation.judgeId (invocation.rows.map drained))
    scores

/-- The judges that `scoreCase` invokes. -/
def invokedOn (judges : List String) (result : CaseResult) : List String :=
  if judgeGradeable result then pendingJudgesFor result.scores judges else []

def scoreCase (judges : List String) (result : CaseResult) (invocations : List Invocation) :
    CaseResult :=
  if invokedOn judges result = [] then result
  else
    let pending := invokedOn judges result
    let priorAttempts := judgeAttemptsOf result.scores pending
    let single := applyJudges (stripJudgeScores result.scores pending) invocations
    { result with scores := stampJudgeAttempts single pending priorAttempts }

/-- Every pending judge ran, and returned rows of its own family. -/
def Answered (pending : List String) (invocations : List Invocation) : Bool :=
  (invocations.map (·.judgeId)).isPerm pending
    && invocations.all fun invocation =>
      !invocation.rows.isEmpty
        && invocation.rows.all (isJudgeMetricOf · invocation.judgeId)

/-- The rounds on one case; a step answers with the judges it invoked. -/
def rounds (judges : List String) : Machine CaseResult (List Invocation) (List String) :=
  fun result invocations =>
    if Answered (invokedOn judges result) invocations then
      some (scoreCase judges result invocations, invokedOn judges result)
    else none

/-! ## What a round leaves alone -/

section Coordinates

variable {row row' : ScoreRow}

theorem family_congr (metric : row'.metric = row.metric)
    (measurement : row'.measurement = row.measurement) (judgeId : String) :
    isJudgeMetricOf row' judgeId = isJudgeMetricOf row judgeId := by
  rw [isJudgeMetricOf, isJudgeMetricOf, metric, measurement]

theorem isOverallRow_congr (metric : row'.metric = row.metric)
    (measurement : row'.measurement = row.measurement) (judgeId : String) :
    isOverallRow judgeId row' = isOverallRow judgeId row := by
  rw [isOverallRow, isOverallRow, family_congr metric measurement, metric, measurement]

theorem drained_metric (row : ScoreRow) : (drained row).metric = row.metric := by
  cases row <;> rfl

theorem drained_measurement (row : ScoreRow) : (drained row).measurement = row.measurement := by
  cases row <;> rfl

variable (judges : List String) (priorAttempts : String → Option Nat)

theorem stampRow_metric (row : ScoreRow) :
    (stampRow judges priorAttempts row).metric = row.metric := by
  unfold stampRow
  split
  · split <;> rfl
  · rfl

theorem stampRow_measurement (row : ScoreRow) :
    (stampRow judges priorAttempts row).measurement = row.measurement := by
  unfold stampRow
  split
  · split <;> rfl
  · rfl

/-- A row that no judge's verdict is named after is not stamped. -/
theorem stampRow_of_unnamed (unnamed : ∀ judgeId ∈ judges, row.metric ≠ overallName judgeId) :
    stampRow judges priorAttempts row = row := by
  unfold stampRow
  split
  · next unmeasured =>
      have none' : judges.find? (fun judgeId => unmeasured.metric = overallName judgeId) =
          none := by
        rw [List.find?_eq_none]
        intro judgeId mem
        have differs : unmeasured.metric ≠ overallName judgeId := unnamed judgeId mem
        simpa using differs
      rw [none']
  · rfl

end Coordinates

/-- The rows that no pending judge owns: those of the other judges and of the graders. -/
def outside (pending : List String) (row : ScoreRow) : Bool :=
  !pending.any (isJudgeMetricOf row)

theorem strip_eq (scores : List ScoreRow) (pending : List String) :
    stripJudgeScores scores pending = scores.filter (outside pending) := rfl

/-- The row named after a judge is its verdict, and no row has two judges. -/
def Clear (judges : List String) (row : ScoreRow) : Prop :=
  ∀ judgeId ∈ judges, (row.metric = overallName judgeId ↔ isOverallRow judgeId row = true) ∧
    ∀ other ∈ judges, isJudgeMetricOf row judgeId = true → isJudgeMetricOf row other = true →
      judgeId = other

/-- What every judge returned has its verdict, and is clear. -/
def ClearRound (judges : List String) (_ : CaseResult) (invocations : List Invocation) : Prop :=
  ∀ invocation ∈ invocations, (∀ row ∈ invocation.rows, Clear judges row) ∧
    ∃ row ∈ invocation.rows, isOverallRow invocation.judgeId row = true

theorem family_of_isOverallRow {judgeId : String} {row : ScoreRow}
    (overall : isOverallRow judgeId row = true) : isJudgeMetricOf row judgeId = true :=
  (Bool.and_eq_true_iff.mp overall).1

theorem Clear.congr {judges : List String} {row row' : ScoreRow} (clear : Clear judges row)
    (metric : row'.metric = row.metric) (measurement : row'.measurement = row.measurement) :
    Clear judges row' := by
  intro judgeId mem
  rw [isOverallRow_congr metric measurement, metric]
  refine ⟨(clear judgeId mem).1, ?_⟩
  intro other mem'
  rw [family_congr metric measurement, family_congr metric measurement]
  exact (clear judgeId mem).2 other mem'

section Apply

variable {judges pending : List String} {scores : List ScoreRow} {invocations : List Invocation}
  {invocation : Invocation} {judgeId : String} {row : ScoreRow}

theorem applyJudges_cons :
    applyJudges scores (invocation :: invocations) =
      applyJudges (replaceJudgeRows scores invocation.judgeId (invocation.rows.map drained))
        invocations := rfl

theorem mem_applyJudges (isIn : row ∈ applyJudges scores invocations) :
    row ∈ scores ∨ ∃ invocation ∈ invocations, ∃ returned ∈ invocation.rows,
      row = drained returned := by
  induction invocations generalizing scores with
  | nil => exact .inl isIn
  | cons invocation invocations ih =>
      rcases ih isIn with isIn | ⟨later, mem, rest⟩
      · rcases List.mem_append.mp isIn with kept | returned
        · exact .inl (List.mem_filter.mp kept).1
        · obtain ⟨row, mem, rfl⟩ := List.mem_map.mp returned
          exact .inr ⟨invocation, List.mem_cons_self, row, mem, rfl⟩
      · exact .inr ⟨later, List.mem_cons_of_mem _ mem, rest⟩

/-- The rows that belong to none of the pending judges come through the invocations. -/
theorem applyJudges_outside
    (own : ∀ invocation ∈ invocations, invocation.judgeId ∈ pending ∧
      ∀ row ∈ invocation.rows, isJudgeMetricOf row invocation.judgeId = true) :
    (applyJudges scores invocations).filter (outside pending) =
      scores.filter (outside pending) := by
  induction invocations generalizing scores with
  | nil => rfl
  | cons invocation invocations ih =>
      obtain ⟨⟨mem, rows⟩, rest⟩ := List.forall_mem_cons.mp own
      have returned : (invocation.rows.map drained).filter (outside pending) = [] := by
        rw [List.filter_eq_nil_iff]
        intro _ isIn
        obtain ⟨row, mem', rfl⟩ := List.mem_map.mp isIn
        have family : isJudgeMetricOf (drained row) invocation.judgeId = true := by
          rw [family_congr (drained_metric row) (drained_measurement row)]
          exact rows row mem'
        have found : pending.any (isJudgeMetricOf (drained row)) = true :=
          List.any_eq_true.mpr ⟨_, mem, family⟩
        simp [outside, found]
      have kept : (stripJudgeScores scores [invocation.judgeId]).filter (outside pending) =
          scores.filter (outside pending) := by
        rw [strip_eq, List.filter_filter]
        refine List.filter_congr fun row _ => ?_
        by_cases family : isJudgeMetricOf row invocation.judgeId = true
        · have found : pending.any (isJudgeMetricOf row) = true :=
            List.any_eq_true.mpr ⟨_, mem, family⟩
          simp [outside, found]
        · simp [outside, family]
      rw [applyJudges_cons, ih rest, replaceJudgeRows, List.filter_append, kept, returned,
        List.append_nil]

theorem clear_replaced (clearRows : ∀ row ∈ invocation.rows, Clear judges row)
    (clearScores : ∀ row ∈ scores, Clear judges row) :
    ∀ row ∈ replaceJudgeRows scores invocation.judgeId (invocation.rows.map drained),
      Clear judges row := by
  intro row isIn
  rcases List.mem_append.mp isIn with isIn | isIn
  · exact clearScores row (List.mem_filter.mp isIn).1
  · obtain ⟨row, mem, rfl⟩ := List.mem_map.mp isIn
    exact (clearRows row mem).congr (drained_metric row) (drained_measurement row)

/-- The rows of a judge that is not invoked come through the invocations. -/
theorem applyJudges_family_absent (selected : judgeId ∈ judges)
    (absent : judgeId ∉ invocations.map (·.judgeId))
    (own : ∀ invocation ∈ invocations, invocation.judgeId ∈ judges ∧
      ∀ row ∈ invocation.rows, isJudgeMetricOf row invocation.judgeId = true)
    (clear : ∀ invocation ∈ invocations, ∀ row ∈ invocation.rows, Clear judges row)
    (clearScores : ∀ row ∈ scores, Clear judges row) :
    (applyJudges scores invocations).filter (isJudgeMetricOf · judgeId) =
      scores.filter (isJudgeMetricOf · judgeId) := by
  induction invocations generalizing scores with
  | nil => rfl
  | cons invocation invocations ih =>
      obtain ⟨⟨mem, rows⟩, rest⟩ := List.forall_mem_cons.mp own
      obtain ⟨clearRows, clearRest⟩ := List.forall_mem_cons.mp clear
      rw [List.map_cons, List.mem_cons, not_or] at absent
      have returned : (invocation.rows.map drained).filter (isJudgeMetricOf · judgeId) = [] := by
        rw [List.filter_eq_nil_iff]
        intro _ isIn family
        obtain ⟨row, mem', rfl⟩ := List.mem_map.mp isIn
        rw [family_congr (drained_metric row) (drained_measurement row)] at family
        exact absent.1 ((clearRows row mem' _ selected).2 _ mem family (rows row mem'))
      have kept : (stripJudgeScores scores [invocation.judgeId]).filter
          (isJudgeMetricOf · judgeId) = scores.filter (isJudgeMetricOf · judgeId) := by
        rw [strip_eq, List.filter_filter]
        refine List.filter_congr fun row isIn => ?_
        by_cases family : isJudgeMetricOf row judgeId = true
        · have other : isJudgeMetricOf row invocation.judgeId ≠ true := fun family' =>
            absent.1 ((clearScores row isIn _ selected).2 _ mem family family')
          simp [outside, family, other]
        · simp [family]
      rw [applyJudges_cons, ih absent.2 rest clearRest (clear_replaced clearRows clearScores),
        replaceJudgeRows,
        List.filter_append, kept, returned, List.append_nil]

/-- An invoked judge has the rows that it returned. -/
theorem applyJudges_family (distinct : (invocations.map (·.judgeId)).Nodup)
    (isIn : invocation ∈ invocations)
    (own : ∀ invocation ∈ invocations, invocation.judgeId ∈ judges ∧
      ∀ row ∈ invocation.rows, isJudgeMetricOf row invocation.judgeId = true)
    (clear : ∀ invocation ∈ invocations, ∀ row ∈ invocation.rows, Clear judges row)
    (clearScores : ∀ row ∈ scores, Clear judges row) :
    (applyJudges scores invocations).filter (isJudgeMetricOf · invocation.judgeId) =
      invocation.rows.map drained := by
  induction invocations generalizing scores with
  | nil => cases isIn
  | cons first invocations ih =>
      obtain ⟨⟨mem, rows⟩, rest⟩ := List.forall_mem_cons.mp own
      obtain ⟨clearRows, clearRest⟩ := List.forall_mem_cons.mp clear
      rw [List.map_cons, List.nodup_cons] at distinct
      have clearReplaced := clear_replaced clearRows clearScores
      rw [applyJudges_cons]
      rcases List.mem_cons.mp isIn with rfl | isIn
      · have kept : (stripJudgeScores scores [invocation.judgeId]).filter
            (isJudgeMetricOf · invocation.judgeId) = [] := by
          rw [strip_eq, List.filter_filter, List.filter_eq_nil_iff]
          intro row _
          simp [outside]
        have returned : (invocation.rows.map drained).filter
            (isJudgeMetricOf · invocation.judgeId) = invocation.rows.map drained := by
          rw [List.filter_eq_self]
          intro _ isIn
          obtain ⟨row, mem', rfl⟩ := List.mem_map.mp isIn
          rw [family_congr (drained_metric row) (drained_measurement row)]
          exact rows row mem'
        rw [applyJudges_family_absent mem distinct.1 rest clearRest clearReplaced,
          replaceJudgeRows, List.filter_append, kept, returned, List.nil_append]
      · exact ih distinct.2 isIn rest clearRest clearReplaced

end Apply

/-! ## One round -/

/-- The verdict row of a judge. -/
def overallRow (judgeId : String) (result : CaseResult) : Option ScoreRow :=
  result.scores.find? (isOverallRow judgeId)

def AllClear (judges : List String) (result : CaseResult) : Prop :=
  ∀ row ∈ result.scores, Clear judges row

theorem overallName_inj {judgeId other : String} (eq : overallName judgeId = overallName other) :
    judgeId = other := by
  have chars := congrArg String.toList eq
  simp only [overallName, String.toList_append, List.append_cancel_left_eq] at chars
  exact String.toList_inj.mp chars

/-- An unmeasured verdict is stamped with one attempt more than its judge had. -/
theorem attempts_stampRow {pending : List String} {prior : String → Option Nat} {row : ScoreRow}
    {judgeId : String} (isIn : judgeId ∈ pending) (named : row.metric = overallName judgeId)
    {n : Nat} (eq : attemptsOf (some (stampRow pending prior row)) = some n) :
    n = (prior judgeId).getD 0 + 1 := by
  cases row with
  | measured row => cases eq
  | invalid identity => cases eq
  | unmeasured row =>
      have named : row.metric = overallName judgeId := named
      have some' : (pending.find? fun judgeId => row.metric = overallName judgeId).isSome :=
        List.find?_isSome.mpr ⟨judgeId, isIn, by simpa using named⟩
      obtain ⟨found, eq'⟩ := Option.isSome_iff_exists.mp some'
      have same : found = judgeId := by
        have named' : row.metric = overallName found := by simpa using List.find?_some eq'
        exact overallName_inj (named'.symm.trans named)
      subst same
      rw [stampRow, eq'] at eq
      exact (Option.some.inj eq).symm

section Round

variable {judges : List String} {s t : CaseResult} {invocations : List Invocation}
  {invoked : List String} {judgeId : String}

/-- By its name or by its coordinates, the verdict row is the same. -/
theorem judgeProgress_eq (clear : AllClear judges s) (selected : judgeId ∈ judges) :
    judgeProgress s.scores judgeId = progressOf (overallRow judgeId s) := by
  have same : s.scores.find? (fun row => row.metric = overallName judgeId) =
      s.scores.find? (isOverallRow judgeId) := by
    refine List.find?_congr fun row isIn => ?_
    have named := (clear row isIn judgeId selected).1
    rcases overall : isOverallRow judgeId row with _ | _
    · rw [overall] at named
      simpa using named
    · simpa using named.mpr overall
  rw [judgeProgress, same]
  rfl

theorem overallRow_eq (judgeId : String) (result : CaseResult) :
    overallRow judgeId result =
      (result.scores.filter (isJudgeMetricOf · judgeId)).find? (isOverallRow judgeId) := by
  rw [overallRow, List.find?_filter]
  refine List.find?_congr fun row _ => ?_
  rcases overall : isOverallRow judgeId row with _ | _
  · simp
  · simp [family_of_isOverallRow overall]

theorem mem_invoked (isIn : judgeId ∈ invokedOn judges s) :
    judgeId ∈ judges ∧ (judgeProgress s.scores judgeId = .absent ∨
      judgeProgress s.scores judgeId = .retryableUnmeasured) := by
  unfold invokedOn at isIn
  split at isIn
  · simpa [pendingJudgesFor] using isIn
  · cases isIn

/-- What a round that happens is. -/
structure IsRound (judges : List String) (s : CaseResult) (invocations : List Invocation)
    (t : CaseResult) (invoked : List String) : Prop where
  invoked_eq : invoked = invokedOn judges s
  ids : (invocations.map (·.judgeId)).Perm invoked
  own : ∀ invocation ∈ invocations, invocation.judgeId ∈ invoked ∧
    ∀ row ∈ invocation.rows, isJudgeMetricOf row invocation.judgeId = true
  scores : t.scores = (applyJudges (stripJudgeScores s.scores invoked) invocations).map
    (stampRow invoked (judgeAttemptsOf s.scores invoked))

theorem stampRow_nil (prior : String → Option Nat) : stampRow [] prior = id := by
  funext row
  cases row <;> rfl

theorem round_cases (step : rounds judges s invocations = some (t, invoked)) :
    IsRound judges s invocations t invoked := by
  unfold rounds at step
  split at step
  · next answered =>
      obtain ⟨rfl, rfl⟩ := Prod.mk.inj (Option.some.inj step)
      unfold Answered at answered
      rw [Bool.and_eq_true, List.isPerm_iff, List.all_eq_true] at answered
      obtain ⟨ids, returned⟩ := answered
      refine ⟨rfl, ids, ?_, ?_⟩
      · intro invocation isIn
        refine ⟨ids.mem_iff.mp (List.mem_map.mpr ⟨invocation, isIn, rfl⟩), ?_⟩
        have rows := returned invocation isIn
        rw [Bool.and_eq_true, List.all_eq_true] at rows
        exact rows.2
      · unfold scoreCase
        split
        · next none' =>
            -- nobody is pending: the round does nothing
            have empty : invocations = [] := by
              rw [none'] at ids
              exact List.map_eq_nil_iff.mp (List.perm_nil.mp ids)
            rw [none', empty, stampRow_nil]
            simp [applyJudges, stripJudgeScores]
        · rfl
  · cases step

theorem IsRound.mem (round : IsRound judges s invocations t invoked) (isIn : judgeId ∈ invoked) :
    judgeId ∈ judges := by
  rw [round.invoked_eq] at isIn
  exact (mem_invoked isIn).1

theorem IsRound.ownSelected (round : IsRound judges s invocations t invoked) :
    ∀ invocation ∈ invocations, invocation.judgeId ∈ judges ∧
      ∀ row ∈ invocation.rows, isJudgeMetricOf row invocation.judgeId = true := by
  intro invocation isIn
  obtain ⟨mem, rows⟩ := round.own invocation isIn
  exact ⟨round.mem mem, rows⟩

variable (allClear : AllClear judges s) (round : IsRound judges s invocations t invoked)

include allClear

theorem clear_strip : ∀ row ∈ stripJudgeScores s.scores invoked, Clear judges row :=
  fun row isIn => allClear row (List.mem_filter.mp isIn).1

include round

theorem IsRound.allClear_after (answered : ClearRound judges s invocations) :
    AllClear judges t := by
  intro _ isIn
  rw [round.scores] at isIn
  obtain ⟨row, applied, rfl⟩ := List.mem_map.mp isIn
  refine Clear.congr ?_ (stampRow_metric ..) (stampRow_measurement ..)
  rcases mem_applyJudges applied with kept | ⟨invocation, mem, returned, isReturned, rfl⟩
  · exact clear_strip allClear row kept
  · exact ((answered invocation mem).1 returned isReturned).congr (drained_metric returned)
      (drained_measurement returned)

/-- A round changes no row of a judge that is not pending, and none of a grader. -/
theorem IsRound.outside_eq :
    t.scores.filter (outside invoked) = s.scores.filter (outside invoked) := by
  have kept : (applyJudges (stripJudgeScores s.scores invoked) invocations).filter
      (outside invoked) = s.scores.filter (outside invoked) := by
    rw [applyJudges_outside round.own, strip_eq, List.filter_filter]
    simp
  have same : outside invoked ∘ stampRow invoked (judgeAttemptsOf s.scores invoked) =
      outside invoked := by
    funext row
    have family : isJudgeMetricOf (stampRow invoked (judgeAttemptsOf s.scores invoked) row) =
        isJudgeMetricOf row :=
      funext fun judgeId => family_congr (stampRow_metric ..) (stampRow_measurement ..) judgeId
    simp only [Function.comp_apply, outside, family]
  rw [round.scores, List.filter_map, same, kept]
  refine (List.map_congr_left fun row isIn => ?_).trans (List.map_id _)
  obtain ⟨mem, apart⟩ := List.mem_filter.mp isIn
  refine stampRow_of_unnamed _ _ fun judgeId pending named => ?_
  have overall := (allClear row mem judgeId (round.mem pending)).1.mp named
  have found : invoked.any (isJudgeMetricOf row) = true :=
    List.any_eq_true.mpr ⟨judgeId, pending, family_of_isOverallRow overall⟩
  rw [outside, found] at apart
  cases apart

/-- The verdict of a judge that is not pending stays. -/
theorem IsRound.overallRow_of_not_invoked (answered : ClearRound judges s invocations)
    (selected : judgeId ∈ judges) (idle : judgeId ∉ invoked) :
    overallRow judgeId t = overallRow judgeId s := by
  have afterClear := round.allClear_after allClear answered
  have family : ∀ {result : CaseResult}, AllClear judges result →
      result.scores.filter (isJudgeMetricOf · judgeId) =
        (result.scores.filter (outside invoked)).filter (isJudgeMetricOf · judgeId) := by
    intro result allClear
    rw [List.filter_filter]
    refine List.filter_congr fun row isIn => ?_
    by_cases own : isJudgeMetricOf row judgeId = true
    · have apart : invoked.any (isJudgeMetricOf row) = false := by
        rw [List.any_eq_false]
        intro other pending own'
        have same := (allClear row isIn judgeId selected).2 other (round.mem pending) own own'
        exact idle (same ▸ pending)
      simp [own, outside, apart]
    · simp [own]
  rw [overallRow_eq, overallRow_eq, family afterClear, family allClear,
    round.outside_eq allClear]

/-- The verdict of an invoked judge is one that it returned, and counts one attempt more. -/
theorem IsRound.overallRow_of_invoked (distinct : judges.Nodup)
    (answered : ClearRound judges s invocations) (pending : judgeId ∈ invoked) :
    ∃ row, overallRow judgeId t = some row ∧ ∀ n, attemptsOf (some row) = some n →
      n = (attemptsOf (overallRow judgeId s)).getD 0 + 1 := by
  have ids : (invocations.map (·.judgeId)).Nodup := by
    rw [round.ids.nodup_iff, round.invoked_eq]
    unfold invokedOn
    split
    · exact distinct.filter _
    · exact List.nodup_nil
  obtain ⟨invocation, isIn, rfl⟩ := List.mem_map.mp (round.ids.mem_iff.mpr pending)
  obtain ⟨clearRows, verdict⟩ := answered invocation isIn
  have returned : (applyJudges (stripJudgeScores s.scores invoked) invocations).filter
      (isJudgeMetricOf · invocation.judgeId) = invocation.rows.map drained :=
    applyJudges_family ids isIn round.ownSelected
      (fun invocation isIn => (answered invocation isIn).1) (clear_strip allClear)
  have stamped : isOverallRow invocation.judgeId ∘
      stampRow invoked (judgeAttemptsOf s.scores invoked) = isOverallRow invocation.judgeId :=
    funext fun row => isOverallRow_congr (stampRow_metric ..) (stampRow_measurement ..) _
  have emptied : isOverallRow invocation.judgeId ∘ drained = isOverallRow invocation.judgeId :=
    funext fun row => isOverallRow_congr (drained_metric row) (drained_measurement row) _
  obtain ⟨row, first⟩ := Option.isSome_iff_exists.mp (List.find?_isSome.mpr verdict)
  have overall : isOverallRow invocation.judgeId row = true := by
    simpa using List.find?_some first
  have applied : (applyJudges (stripJudgeScores s.scores invoked) invocations).find?
      (isOverallRow invocation.judgeId) = some (drained row) := by
    have eq := overallRow_eq invocation.judgeId
      { s with scores := applyJudges (stripJudgeScores s.scores invoked) invocations }
    rw [overallRow] at eq
    rw [eq, returned, List.find?_map, emptied, first]
    rfl
  refine ⟨stampRow invoked (judgeAttemptsOf s.scores invoked) (drained row), ?_, ?_⟩
  · rw [overallRow, round.scores, List.find?_map, stamped, applied]
    rfl
  · intro n attempts
    have named : (drained row).metric = overallName invocation.judgeId := by
      rw [drained_metric]
      exact (clearRows row (List.mem_of_find?_eq_some first) _ (round.mem pending)).1.mpr overall
    rw [attempts_stampRow pending named attempts, judgeAttemptsOf, if_pos pending]
    rfl

end Round

/-! ## The budget -/

/-- How often a judge was invoked. -/
def spent (judgeId : String) (log : List (List Invocation × List String)) : Nat :=
  log.countP fun entry => judgeId ∈ entry.2

/-- A judge whose verdict is measured, or will not be tried again. -/
def Finished (judgeId : String) (result : CaseResult) : Prop :=
  progressOf (overallRow judgeId result) = .measured ∨
    progressOf (overallRow judgeId result) = .terminalUnmeasured

/-- The promises of the budget about every run of rounds from a result. -/
structure Bounded (judges : List String) (ok : CaseResult → List Invocation → Prop)
    (start : CaseResult) : Prop where
  budget : ∀ log s, Runs (rounds judges) ok start log s →
    ∀ judgeId, spent judgeId log ≤ MAX_JUDGE_ATTEMPTS_PER_PASS
  finished : ∀ s, Reachable (rounds judges) ok start s → ∀ judgeId, Finished judgeId s →
    ∀ log t, Runs (rounds judges) ok s log t → ∀ entry ∈ log, judgeId ∉ entry.2
  untouched : ∀ s, Reachable (rounds judges) ok start s → ∀ invocations t invoked,
    ok s invocations → rounds judges s invocations = some (t, invoked) →
      t.scores.filter (outside invoked) = s.scores.filter (outside invoked)

/-- What has been tried is counted on the verdict. -/
structure Counted (judges : List String) (log : List (List Invocation × List String))
    (s : CaseResult) : Prop where
  allClear : AllClear judges s
  within : ∀ judgeId ∈ judges, spent judgeId log ≤ MAX_JUDGE_ATTEMPTS_PER_PASS
  recorded : ∀ judgeId ∈ judges, 0 < spent judgeId log → ∃ row, overallRow judgeId s = some row ∧
    ∀ n, attemptsOf (some row) = some n → spent judgeId log ≤ n

theorem spent_snoc (judgeId : String) (log : List (List Invocation × List String))
    (entry : List Invocation × List String) :
    spent judgeId (log ++ [entry]) =
      spent judgeId log + if judgeId ∈ entry.2 then 1 else 0 := by
  simp [spent, List.countP_append, List.countP_singleton]

section Run

variable {judges : List String} {start s t : CaseResult} {invocations : List Invocation}
  {invoked : List String} {log : List (List Invocation × List String)} {judgeId : String}

/-- A judge that is invoked has attempts left, and has used no more than its verdict says. -/
theorem Counted.room (counted : Counted judges log s)
    (round : IsRound judges s invocations t invoked) (pending : judgeId ∈ invoked) :
    spent judgeId log ≤ (attemptsOf (overallRow judgeId s)).getD 0 ∧
      (attemptsOf (overallRow judgeId s)).getD 0 < MAX_JUDGE_ATTEMPTS_PER_PASS := by
  rw [round.invoked_eq] at pending
  obtain ⟨selected, progress⟩ := mem_invoked pending
  rw [judgeProgress_eq counted.allClear selected] at progress
  have recorded := counted.recorded judgeId selected
  rcases verdict : overallRow judgeId s with _ | row
  · rw [verdict] at recorded
    have none' : spent judgeId log = 0 := by
      by_contra some'
      obtain ⟨_, eq, -⟩ := recorded (Nat.pos_of_ne_zero some')
      cases eq
    rw [none']
    decide
  · rw [verdict] at recorded progress
    cases row with
    | measured row => rcases progress with progress | progress <;> cases progress
    | invalid identity => rcases progress with progress | progress <;> cases progress
    | unmeasured row =>
        have attempts : attemptsOf (some (ScoreRow.unmeasured row)) =
            some (row.attempts.getD 0) := rfl
        have left : row.attempts.getD 0 < MAX_JUDGE_ATTEMPTS_PER_PASS := by
          by_contra used
          have final : progressOf (some (.unmeasured row)) = .terminalUnmeasured := by
            simp only [progressOf, ge_iff_le, if_pos (Nat.le_of_not_lt used), ite_self]
          rw [final] at progress
          rcases progress with progress | progress <;> cases progress
        rw [attempts, Option.getD_some]
        refine ⟨?_, left⟩
        by_contra exceeded
        obtain ⟨_, eq, counts⟩ := recorded (by omega)
        cases eq
        exact exceeded (counts _ attempts)

theorem Counted.step (distinct : judges.Nodup) (counted : Counted judges log s)
    (answered : ClearRound judges s invocations)
    (step : rounds judges s invocations = some (t, invoked)) :
    Counted judges (log ++ [(invocations, invoked)]) t := by
  have round := round_cases step
  have allClear := counted.allClear
  refine ⟨round.allClear_after allClear answered, ?_, ?_⟩
  · intro judgeId selected
    rw [spent_snoc]
    split
    · next pending =>
        have room := counted.room round pending
        omega
    · exact counted.within judgeId selected
  · intro judgeId selected some'
    rw [spent_snoc] at some' ⊢
    split
    · next pending =>
        obtain ⟨row, verdict, counts⟩ :=
          round.overallRow_of_invoked allClear distinct answered pending
        refine ⟨row, verdict, fun n attempts => ?_⟩
        have room := counted.room round pending
        have := counts n attempts
        omega
    · next idle =>
        rw [if_neg idle, Nat.add_zero] at some'
        rw [Nat.add_zero, round.overallRow_of_not_invoked allClear answered selected idle]
        exact counted.recorded judgeId selected some'

theorem counted_of_runs (distinct : judges.Nodup) (clear : AllClear judges start)
    (run : Runs (rounds judges) (ClearRound judges) start log s) : Counted judges log s := by
  refine run.invariant (I := fun log s => Counted judges log s) ⟨clear, ?_, ?_⟩ ?_
  · exact fun _ _ => Nat.zero_le _
  · exact fun _ _ some' => absurd some' (Nat.lt_irrefl 0)
  · intro log s invocations t invoked counted answered step
    exact counted.step distinct answered step

/-- A judge that has finished is not pending. -/
theorem Finished.not_invoked (allClear : AllClear judges s) (finished : Finished judgeId s)
    (round : IsRound judges s invocations t invoked) : judgeId ∉ invoked := by
  intro pending
  rw [round.invoked_eq] at pending
  obtain ⟨selected, progress⟩ := mem_invoked pending
  rw [judgeProgress_eq allClear selected] at progress
  rcases finished with finished | finished <;> rw [finished] at progress <;>
    rcases progress with progress | progress <;> cases progress

theorem invoked_of_selected (step : rounds judges s invocations = some (t, invoked))
    (pending : judgeId ∈ invoked) : judgeId ∈ judges :=
  (round_cases step).mem pending

/-- From where a judge has finished it stays so, and is in no round. -/
theorem finished_runs (allClear : AllClear judges s) (selected : judgeId ∈ judges)
    (finished : Finished judgeId s)
    (run : Runs (rounds judges) (ClearRound judges) s log t) :
    (AllClear judges t ∧ Finished judgeId t) ∧ ∀ entry ∈ log, judgeId ∉ entry.2 := by
  induction run with
  | refl => exact ⟨⟨allClear, finished⟩, fun _ isIn => by cases isIn⟩
  | tail _ answered step ih =>
      obtain ⟨⟨allClear, finished⟩, idle⟩ := ih
      have round := round_cases step
      have rests := finished.not_invoked allClear round
      have stays := round.overallRow_of_not_invoked allClear answered selected rests
      refine ⟨⟨round.allClear_after allClear answered, ?_⟩, ?_⟩
      · unfold Finished
        rwa [stays]
      · intro entry isIn
        rcases List.mem_append.mp isIn with isIn | isIn
        · exact idle entry isIn
        · rw [List.mem_singleton.mp isIn]
          exact rests

theorem selected_of_spent {ok : CaseResult → List Invocation → Prop}
    (run : Runs (rounds judges) ok start log s) {entry : List Invocation × List String}
    (isIn : entry ∈ log) (invoked : judgeId ∈ entry.2) : judgeId ∈ judges := by
  induction run with
  | refl => cases isIn
  | tail _ _ step ih =>
      rcases List.mem_append.mp isIn with isIn | isIn
      · exact ih isIn
      · rw [List.mem_singleton.mp isIn] at invoked
        exact invoked_of_selected step invoked

/-- As long as the row named after a judge is its verdict, and every invocation returns one,
the budget binds. -/
theorem budget_binds (distinct : judges.Nodup) (clear : AllClear judges start) :
    Bounded judges (ClearRound judges) start where
  budget log s run judgeId := by
    by_cases selected : judgeId ∈ judges
    · exact (counted_of_runs distinct clear run).within judgeId selected
    · have none' : spent judgeId log = 0 := by
        rw [spent, List.countP_eq_zero]
        intro entry isIn invoked
        exact selected (selected_of_spent run isIn (by simpa using invoked))
      rw [none']
      exact Nat.zero_le _
  finished s reachable judgeId finished log t run entry isIn invoked := by
    obtain ⟨_, before⟩ := reachable
    have allClear := (counted_of_runs distinct clear before).allClear
    have selected := selected_of_spent run isIn invoked
    exact (finished_runs allClear selected finished run).2 entry isIn invoked
  untouched s reachable invocations t invoked _ step := by
    obtain ⟨_, before⟩ := reachable
    have allClear := (counted_of_runs distinct clear before).allClear
    exact (round_cases step).outside_eq allClear

end Run

/-! ## A verdict that never comes -/

instance {judges : List String} {row : ScoreRow} : Decidable (Clear judges row) :=
  inferInstanceAs (Decidable (∀ _ ∈ _, _))

instance {judges : List String} (s : CaseResult) (invocations : List Invocation) :
    Decidable (ClearRound judges s invocations) :=
  inferInstanceAs (Decidable (∀ _ ∈ _, _))

theorem runs_of_answers {judges : List String} {ok : CaseResult → List Invocation → Prop}
    [∀ s invocations, Decidable (ok s invocations)] {start : CaseResult}
    {calls : List (List Invocation)} {answers : List (List String)}
    (eq : (Machine.exec (rounds judges) ok start calls).map Prod.fst = some answers) :
    ∃ s, Runs (rounds judges) ok start (calls.zip answers) s := by
  obtain ⟨⟨_, s⟩, run, rfl⟩ := Option.map_eq_some_iff.mp eq
  exact ⟨s, Machine.runs_of_exec _ _ _ _ run⟩

/-- What judge `quality` returns under a metric. -/
def unmeasuredAs (metric : String) : List Invocation :=
  [⟨"quality", [.unmeasured { graderId := "quality", metric, reason := .graderError
                              retryable := true }]⟩]

/-- A case with a grader's row. -/
def graded : CaseResult :=
  ⟨"c1", none, [.measured { graderId := "g", metric := "tests", value := .finite 1 }], none⟩

/-- Three rounds without a measurement use the budget up. -/
theorem budget_binds_spent :
    (∃ log s, Runs (rounds ["quality"]) (ClearRound ["quality"]) graded log s ∧
      spent "quality" log = MAX_JUDGE_ATTEMPTS_PER_PASS) ∧
    Bounded ["quality"] (ClearRound ["quality"]) graded := by
  refine ⟨?_, budget_binds (by simp) (by unfold AllClear; decide +kernel)⟩
  obtain ⟨s, run⟩ : ∃ s, Runs (rounds ["quality"]) (ClearRound ["quality"]) graded
      ((List.replicate 3 (unmeasuredAs "judge:quality")).zip (List.replicate 3 ["quality"])) s :=
    runs_of_answers (by decide +kernel)
  exact ⟨_, s, run, rfl⟩

/-- Without a verdict row nothing is counted. -/
theorem verdictless_judge_is_unbounded :
    ¬ ∀ judges : List String, judges.Nodup → ∀ start, Bounded judges Always start := by
  intro claimed
  have bounded := claimed ["quality"] (by simp) graded
  obtain ⟨s, run⟩ : ∃ s, Runs (rounds ["quality"]) Always graded
      ((List.replicate 4 (unmeasuredAs "judge:quality:style")).zip
        (List.replicate 4 ["quality"])) s :=
    runs_of_answers (by decide +kernel)
  exact absurd (bounded.budget _ s run "quality") (by decide)

end Everdict.Scoring
