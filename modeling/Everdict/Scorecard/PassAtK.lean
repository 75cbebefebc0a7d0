import Everdict.Hypergeometric
import Everdict.Scorecard.Trials

/-!
# pass@k

`passAtK` runs up a product in place of two binomial coefficients.  In exact arithmetic it is the
chance that a sample of the trials holds a pass (`passAtK_eq`), and `summarizeTrials` averages
it over the cases from their counts alone, so the order of the rows does not show
(`summarizeTrials_eq`).
-/

namespace Everdict.Scorecard

open Hypergeometric

structure BadRequestError where
  extra : List (String × ℚ)
  message : String
  deriving DecidableEq

/-- `for (let i = …; i <= n; i++) prod *= 1 - kk / i`, with the rounds that are left. -/
def passProduct (kk : ℚ) : ℕ → ℚ → ℚ → ℚ
  | 0, _, prod => prod
  | rounds + 1, i, prod => passProduct kk rounds (i + 1) (prod * (1 - kk / i))

def passAtK (n c k : ℚ) : Except BadRequestError ℚ :=
  if n.den ≠ 1 ∨ c.den ≠ 1 ∨ k.den ≠ 1 then
    .error ⟨[("n", n), ("c", c), ("k", k)], "passAtK expects integer n, c, k."⟩
  else if n ≤ 0 then .error ⟨[("n", n)], "passAtK needs at least one trial (n>0)."⟩
  else if c < 0 ∨ c > n then .error ⟨[("n", n), ("c", c)], "passAtK needs 0 <= c <= n."⟩
  else if k ≤ 0 then .error ⟨[("k", k)], "passAtK needs k > 0."⟩
  else
    let kk := min k n
    -- every sample of this size must include a pass
    if n - c < kk then .ok 1
    -- from `n - c + 1` to `n` there are `c` rounds
    else .ok (1 - passProduct kk c.num.toNat (n - c + 1) 1)

structure ScorecardTrialSummary where
  cases : ℕ
  minTrials : ℕ
  maxTrials : ℕ
  passAt1 : ℚ
  k : ℚ
  passAtK : ℚ
  flakyCases : ℕ
  flakeRate : ℚ
  deriving DecidableEq

structure SummaryOptions where
  k : Option ℚ := none
  policy : Option VerdictPolicy := none

/-- The statistics of the cases with a scored trial. -/
def scoredStats (sc : Scorecard) (policy : VerdictPolicy) : List CaseTrialStats :=
  ((groupTrials sc).entries.map fun e => caseTrialStats e.1 e.2 policy).filter fun s => s.trials > 0

def summarizeTrials (sc : Scorecard) (opts : SummaryOptions) :
    Except BadRequestError ScorecardTrialSummary := do
  let stats := scoredStats sc (opts.policy.getD DEFAULT_VERDICT_POLICY)
  if stats.length = 0 then
    return ⟨0, 0, 0, 0, opts.k.getD 0, 0, 0, 0⟩
  let minTrials := (stats.map CaseTrialStats.trials).min?.getD 0
  let maxTrials := (stats.map CaseTrialStats.trials).max?.getD 0
  let kk := opts.k.getD minTrials
  let passAt1 := stats.foldl (fun (a : ℚ) s => a + s.passRate) 0 / stats.length
  let total ← stats.foldlM (fun (a : ℚ) s => do
    let p ← passAtK s.trials s.passes (min kk s.trials)
    return a + p) 0
  let flakyCases := (stats.filter CaseTrialStats.flaky).length
  return ⟨stats.length, minTrials, maxTrials, passAt1, kk, total / stats.length, flakyCases,
    flakyCases / stats.length⟩

/-! ## The estimator -/

theorem passProduct_eq {kk m : ℕ} (size : kk ≤ m) (c : ℕ) (prod : ℚ) :
    passProduct kk c (m + 1) prod = prod * (m.choose kk / (m + c).choose kk) := by
  induction c generalizing m prod with
  | zero =>
      have positive : (m.choose kk : ℚ) ≠ 0 := by exact_mod_cast (Nat.choose_pos size).ne'
      rw [passProduct, Nat.add_zero, div_self positive, mul_one]
  | succ c ih =>
      have next := ih (show kk ≤ m + 1 by omega) (prod * (1 - kk / (m + 1)))
      push_cast at next
      rw [passProduct, next, ← choose_factor size, Nat.add_right_comm m 1 c, Nat.add_assoc m c 1]
      ring

/-- The estimator is the chance that a sample of the trials holds a pass. -/
theorem passAtK_eq {n c k : ℕ} (some' : 1 ≤ n) (le : c ≤ n) (positive : 1 ≤ k) :
    passAtK n c k = .ok (1 - miss n c (min k n)) := by
  have whole : ¬ ((n : ℚ).den ≠ 1 ∨ (c : ℚ).den ≠ 1 ∨ (k : ℚ).den ≠ 1) := by
    simp only [Rat.den_natCast, ne_eq, not_true_eq_false, or_self, not_false_eq_true]
  have trials : ¬ (n : ℚ) ≤ 0 := by
    rw [not_le]
    exact_mod_cast some'
  have passes : ¬ ((c : ℚ) < 0 ∨ (c : ℚ) > n) := by
    rw [not_or, not_lt, not_lt]
    exact ⟨by positivity, by exact_mod_cast le⟩
  have size : ¬ (k : ℚ) ≤ 0 := by
    rw [not_le]
    exact_mod_cast positive
  rw [passAtK, if_neg whole, if_neg trials, if_neg passes, if_neg size]
  have clamp : min (k : ℚ) n = (min k n : ℕ) := by push_cast; rfl
  have failing : (n : ℚ) - c = (n - c : ℕ) := (Nat.cast_sub le).symm
  simp only [clamp, failing, Rat.num_natCast, Int.toNat_natCast, Nat.cast_lt]
  split
  next few => rw [miss_of_lt few, sub_zero]
  next enough =>
      rw [passProduct_eq (not_lt.mp enough), one_mul, Nat.sub_add_cancel le, miss]

/-- One minus the share of the samples without a pass. -/
def estimate (n c k : ℕ) : ℚ := 1 - ((n - c).choose (min k n) : ℚ) / n.choose (min k n)

theorem estimate_eq (n c k : ℕ) : estimate n c k = 1 - miss n c (min k n) := rfl

theorem estimate_clamp (n c k : ℕ) : estimate n c (min k n) = estimate n c k := by
  rw [estimate_eq, estimate_eq, min_assoc, min_self]

theorem estimate_mem (n c k : ℕ) : 0 ≤ estimate n c k ∧ estimate n c k ≤ 1 := by
  have low := miss_nonneg n c (min k n)
  have high := miss_le_one n c (min k n)
  rw [estimate_eq]
  constructor <;> linarith

theorem estimate_mono_passes {n c c' k : ℕ} (le : c ≤ c') : estimate n c k ≤ estimate n c' k := by
  rw [estimate_eq, estimate_eq]
  linarith [miss_antitone_successes (n := n) (k := min k n) le]

theorem estimate_mono_size {n c k k' : ℕ} (le : k ≤ k') : estimate n c k ≤ estimate n c k' := by
  have size : min k n ≤ min k' n := min_le_min_right n le
  rw [estimate_eq, estimate_eq]
  linarith [miss_antitone_size (c := c) size (min_le_right k' n)]

theorem estimate_one {n c : ℕ} (some' : 1 ≤ n) (le : c ≤ n) : estimate n c 1 = c / n := by
  rw [estimate_eq, min_eq_left some', miss_one some' le]
  ring

/-! ## The counts of a case -/

section Counts

variable {sc sc' : Scorecard} {policy : VerdictPolicy}

def trialsOf (sc : Scorecard) (policy : VerdictPolicy) (caseId : String) : ℕ :=
  sc.results.countP fun r => r.caseId = caseId ∧ (caseVerdict r policy).isSome

def passesOf (sc : Scorecard) (policy : VerdictPolicy) (caseId : String) : ℕ :=
  sc.results.countP fun r => r.caseId = caseId ∧ caseVerdict r policy = some true

/-- The cases with a judged trial. -/
def judgedCases (sc : Scorecard) (policy : VerdictPolicy) : Finset String :=
  ((sc.results.filter fun r => (caseVerdict r policy).isSome).map CaseResult.caseId).toFinset

def statsOf (sc : Scorecard) (policy : VerdictPolicy) (caseId : String) : CaseTrialStats :=
  caseTrialStats caseId (rowsOf sc caseId) policy

theorem statsOf_trials (caseId : String) :
    (statsOf sc policy caseId).trials = trialsOf sc policy caseId := by
  rw [statsOf, caseTrialStats, trialsOf, rowsOf, List.length_filterMap_eq_countP,
    List.countP_filter]
  refine List.countP_congr fun r _ => ?_
  simp only [Bool.and_eq_true, decide_eq_true_eq, and_comm]

theorem statsOf_passes (caseId : String) :
    (statsOf sc policy caseId).passes = passesOf sc policy caseId := by
  rw [statsOf, caseTrialStats, passesOf, rowsOf]
  dsimp only
  rw [List.countP_filterMap, List.countP_filter]
  refine List.countP_congr fun r _ => ?_
  cases verdict : caseVerdict r policy with
  | none => simp
  | some passed => simp [and_comm]

theorem trialsOf_pos_iff {caseId : String} :
    0 < trialsOf sc policy caseId ↔ caseId ∈ judgedCases sc policy := by
  rw [trialsOf, List.countP_pos_iff, judgedCases, List.mem_toFinset, List.mem_map]
  simp only [List.mem_filter, decide_eq_true_eq]
  constructor
  · rintro ⟨r, isIn, same, judged⟩
    exact ⟨r, ⟨isIn, judged⟩, same⟩
  · rintro ⟨r, ⟨isIn, judged⟩, same⟩
    exact ⟨r, isIn, same, judged⟩

theorem passesOf_le (caseId : String) :
    passesOf sc policy caseId ≤ trialsOf sc policy caseId := by
  refine List.countP_mono_left fun r _ passed => ?_
  simp only [decide_eq_true_eq] at passed ⊢
  exact ⟨passed.1, by rw [passed.2]; rfl⟩

theorem mem_scoredStats {s : CaseTrialStats} :
    s ∈ scoredStats sc policy ↔ ∃ caseId ∈ judgedCases sc policy, statsOf sc policy caseId = s := by
  rw [scoredStats, List.mem_filter, List.mem_map, decide_eq_true_eq]
  constructor
  · rintro ⟨⟨⟨caseId, rows⟩, isIn, rfl⟩, some'⟩
    have found := Table.get_eq_some.mpr isIn
    rw [get_groupTrials] at found
    split at found
    · cases found
    · obtain rfl := Option.some.inj found
      refine ⟨caseId, ?_, rfl⟩
      rw [← trialsOf_pos_iff, ← statsOf_trials]
      exact some'
  · rintro ⟨caseId, judged, rfl⟩
    have some' : 0 < (statsOf sc policy caseId).trials := by
      rw [statsOf_trials]
      exact trialsOf_pos_iff.mpr judged
    have rows : rowsOf sc caseId ≠ [] := by
      intro none'
      rw [statsOf, none'] at some'
      exact Nat.lt_irrefl 0 some'
    refine ⟨⟨(caseId, rowsOf sc caseId), Table.get_eq_some.mp ?_, rfl⟩, some'⟩
    rw [get_groupTrials, if_neg rows]

theorem nodup_scoredStats (sc : Scorecard) (policy : VerdictPolicy) :
    ((scoredStats sc policy).map CaseTrialStats.caseId).Nodup := by
  have keys : ((groupTrials sc).entries.map fun e => caseTrialStats e.1 e.2 policy).map
      CaseTrialStats.caseId = (groupTrials sc).entries.map Prod.fst := by
    rw [List.map_map]
    rfl
  have nodup := (groupTrials sc).nodup
  rw [← keys] at nodup
  exact nodup.sublist (List.filter_sublist.map _)

/-- The statistics of permuted rows are a permutation. -/
theorem scoredStats_perm (perm : sc'.results.Perm sc.results) :
    (scoredStats sc' policy).Perm (scoredStats sc policy) := by
  have same : ∀ caseId, statsOf sc' policy caseId = statsOf sc policy caseId := by
    intro caseId
    have verdicts : ((rowsOf sc' caseId).filterMap fun r => caseVerdict r policy).Perm
        ((rowsOf sc caseId).filterMap fun r => caseVerdict r policy) :=
      (perm.filter _).filterMap _
    simp only [statsOf, caseTrialStats, verdicts.length_eq, verdicts.countP_eq]
  rw [List.perm_ext_iff_of_nodup (nodup_scoredStats sc' policy).of_map
    (nodup_scoredStats sc policy).of_map]
  intro s
  have cases : judgedCases sc' policy = judgedCases sc policy := by
    ext caseId
    rw [← trialsOf_pos_iff, ← trialsOf_pos_iff, ← statsOf_trials, ← statsOf_trials, same]
  simp only [mem_scoredStats, cases, same]

/-! ## The roll-up -/

theorem foldl_add {ι : Type} (f : ι → ℚ) (l : List ι) (a : ℚ) :
    l.foldl (fun a s => a + f s) a = a + (l.map f).sum := by
  induction l generalizing a with
  | nil => simp
  | cons s l ih =>
      rw [List.foldl_cons, ih, List.map_cons, List.sum_cons]
      ring

/-- Where every call of a fold answers, the fold adds the answers up. -/
theorem foldlM_add {ι ε : Type} {g : ι → Except ε ℚ} {f : ι → ℚ} {l : List ι}
    (answers : ∀ s ∈ l, g s = .ok (f s)) (a : ℚ) :
    l.foldlM (fun (a : ℚ) s => do let p ← g s; return a + p) a = .ok (a + (l.map f).sum) := by
  induction l generalizing a with
  | nil => simp [pure, Except.pure]
  | cons s l ih =>
      obtain ⟨first, later⟩ := List.forall_mem_cons.mp answers
      rw [List.foldlM_cons, first]
      have next := ih later (a + f s)
      rw [List.map_cons, List.sum_cons, ← add_assoc, ← next]
      rfl

theorem min?_perm {l l' : List ℕ} (perm : l'.Perm l) : l'.min? = l.min? := by
  refine Option.ext fun a => ?_
  rw [List.min?_eq_some_iff, List.min?_eq_some_iff]
  simp only [perm.mem_iff]

theorem max?_perm {l l' : List ℕ} (perm : l'.Perm l) : l'.max? = l.max? := by
  refine Option.ext fun a => ?_
  rw [List.max?_eq_some_iff, List.max?_eq_some_iff]
  simp only [perm.mem_iff]

/-- The roll-up in closed form; with no case all of it is zero. -/
def summaryOf (stats : List CaseTrialStats) (k : Option ℕ) : ScorecardTrialSummary :=
  let minTrials := (stats.map CaseTrialStats.trials).min?.getD 0
  let flakyCases := (stats.filter CaseTrialStats.flaky).length
  { cases := stats.length
    minTrials
    maxTrials := (stats.map CaseTrialStats.trials).max?.getD 0
    passAt1 := (stats.map CaseTrialStats.passRate).sum / stats.length
    k := (k.getD minTrials : ℕ)
    passAtK := (stats.map fun s => estimate s.trials s.passes (k.getD minTrials)).sum / stats.length
    flakyCases
    flakeRate := flakyCases / stats.length }

theorem summaryOf_perm {stats stats' : List CaseTrialStats} (perm : stats'.Perm stats)
    (k : Option ℕ) : summaryOf stats' k = summaryOf stats k := by
  have least := min?_perm (perm.map CaseTrialStats.trials)
  have greatest := max?_perm (perm.map CaseTrialStats.trials)
  have rates := (perm.map CaseTrialStats.passRate).sum_eq
  have flaky := (perm.filter CaseTrialStats.flaky).length_eq
  have estimates : ∀ k : ℕ, (stats'.map fun s => estimate s.trials s.passes k).sum =
      (stats.map fun s => estimate s.trials s.passes k).sum := fun k => (perm.map _).sum_eq
  simp only [summaryOf, least, greatest, rates, flaky, estimates, perm.length_eq]

/-- With a size of at least one, or none, the roll-up answers. -/
theorem summarizeTrials_ok (sc : Scorecard) (policy : Option VerdictPolicy) {k : Option ℕ}
    (positive : ∀ k' ∈ k, 1 ≤ k') :
    summarizeTrials sc ⟨k.map fun k => (k : ℚ), policy⟩ =
      .ok (summaryOf (scoredStats sc (policy.getD DEFAULT_VERDICT_POLICY)) k) := by
  have each : ∀ s ∈ scoredStats sc (policy.getD DEFAULT_VERDICT_POLICY),
      1 ≤ s.trials ∧ s.passes ≤ s.trials := by
    intro s isIn
    obtain ⟨caseId, judged, rfl⟩ := mem_scoredStats.mp isIn
    rw [statsOf_trials, statsOf_passes]
    exact ⟨trialsOf_pos_iff.mpr judged, passesOf_le caseId⟩
  rw [summarizeTrials]
  generalize scoredStats sc (policy.getD DEFAULT_VERDICT_POLICY) = stats at each
  dsimp only
  by_cases none' : stats = []
  · subst none'
    cases k <;> simp [summaryOf, pure, Except.pure]
  · have least : 1 ≤ (stats.map CaseTrialStats.trials).min?.getD 0 := by
      cases found : (stats.map CaseTrialStats.trials).min? with
      | none => exact absurd (List.map_eq_nil_iff.mp (List.min?_eq_none_iff.mp found)) none'
      | some m =>
          obtain ⟨s, isIn, rfl⟩ := List.mem_map.mp (List.min?_eq_some_iff.mp found).1
          exact (each s isIn).1
    have size : (k.map fun k => (k : ℚ)).getD ((stats.map CaseTrialStats.trials).min?.getD 0 : ℕ)
        = (k.getD ((stats.map CaseTrialStats.trials).min?.getD 0) : ℕ) := by
      cases k <;> rfl
    have some' : 1 ≤ k.getD ((stats.map CaseTrialStats.trials).min?.getD 0) := by
      cases k with
      | none => exact least
      | some k => exact positive k rfl
    have answers : ∀ s ∈ stats,
        passAtK s.trials s.passes
          (min (k.getD ((stats.map CaseTrialStats.trials).min?.getD 0) : ℕ) s.trials : ℚ) =
            .ok (estimate s.trials s.passes
              (k.getD ((stats.map CaseTrialStats.trials).min?.getD 0))) := by
      intro s isIn
      obtain ⟨trials, passes⟩ := each s isIn
      rw [← Nat.cast_min, passAtK_eq trials passes (le_min some' trials), ← estimate_eq,
        estimate_clamp]
    rw [if_neg (by simpa using none'), size, foldlM_add answers 0, foldl_add]
    simp [summaryOf, bind, Except.bind, pure, Except.pure]

end Counts

/-- pass@k is the hypergeometric estimator, and the roll-up averages it over the cases from
their counts. -/
theorem passAtK_hypergeometric :
    (∀ n c k : ℕ, 1 ≤ n → c ≤ n → 1 ≤ k → passAtK n c k = .ok (estimate n c k)) ∧
    (∀ n c k : ℕ, 0 ≤ estimate n c k ∧ estimate n c k ≤ 1) ∧
    (∀ n c c' k : ℕ, c ≤ c' → estimate n c k ≤ estimate n c' k) ∧
    (∀ n c k k' : ℕ, k ≤ k' → estimate n c k ≤ estimate n c k') ∧
    (∀ n c : ℕ, 1 ≤ n → c ≤ n → estimate n c 1 = c / n) ∧
    ∀ (sc : Scorecard) (policy : VerdictPolicy) (k : Option ℕ), (∀ k' ∈ k, 1 ≤ k') →
      ∃ summary, summarizeTrials sc ⟨k.map fun k => (k : ℚ), some policy⟩ = .ok summary ∧
        summary.cases = (judgedCases sc policy).card ∧
        (∀ m, IsLeast {n | ∃ caseId ∈ judgedCases sc policy, trialsOf sc policy caseId = n} m →
          summary.minTrials = m) ∧
        summary.passAtK =
          (∑ caseId ∈ judgedCases sc policy, estimate (trialsOf sc policy caseId)
            (passesOf sc policy caseId) (k.getD summary.minTrials)) / summary.cases ∧
        ∀ sc' : Scorecard, sc'.results.Perm sc.results →
          summarizeTrials sc' ⟨k.map fun k => (k : ℚ), some policy⟩ = .ok summary := by
  refine ⟨fun n c k some' le positive => passAtK_eq some' le positive, estimate_mem,
    fun n c c' k le => estimate_mono_passes le, fun n c k k' le => estimate_mono_size le,
    fun n c some' le => estimate_one some' le, fun sc policy k positive => ?_⟩
  have ids : ((scoredStats sc policy).map CaseTrialStats.caseId).toFinset
      = judgedCases sc policy := by
    ext caseId
    rw [List.mem_toFinset, List.mem_map]
    constructor
    · rintro ⟨s, isIn, rfl⟩
      obtain ⟨caseId, judged, rfl⟩ := mem_scoredStats.mp isIn
      exact judged
    · exact fun judged => ⟨_, mem_scoredStats.mpr ⟨caseId, judged, rfl⟩, rfl⟩
  have named : ∀ s ∈ scoredStats sc policy, s.caseId ∈ judgedCases sc policy ∧
      s.trials = trialsOf sc policy s.caseId ∧ s.passes = passesOf sc policy s.caseId := by
    intro s isIn
    obtain ⟨caseId, judged, rfl⟩ := mem_scoredStats.mp isIn
    exact ⟨judged, statsOf_trials caseId, statsOf_passes caseId⟩
  refine ⟨_, summarizeTrials_ok sc (some policy) positive, ?_, fun m least => ?_, ?_,
    fun sc' perm => ?_⟩
  · rw [← ids, List.toFinset_card_of_nodup (nodup_scoredStats sc policy), List.length_map]
    rfl
  · have found : ((scoredStats sc policy).map CaseTrialStats.trials).min? = some m := by
      rw [List.min?_eq_some_iff, List.mem_map]
      obtain ⟨⟨caseId, judged, count⟩, below⟩ := least
      refine ⟨⟨_, mem_scoredStats.mpr ⟨caseId, judged, rfl⟩,
        (statsOf_trials caseId).trans count⟩, fun n isIn => ?_⟩
      obtain ⟨s, isStat, rfl⟩ := List.mem_map.mp isIn
      obtain ⟨judged, trials, _⟩ := named s isStat
      exact below ⟨s.caseId, judged, trials.symm⟩
    exact congrArg (Option.getD · 0) found
  · rw [← ids, List.sum_toFinset _ (nodup_scoredStats sc policy), List.map_map]
    refine congrArg (· / _) (congrArg List.sum (List.map_congr_left fun s isIn => ?_))
    obtain ⟨_, trials, passes⟩ := named s isIn
    rw [trials, passes]
    rfl
  · rw [summarizeTrials_ok sc' (some policy) positive, summaryOf_perm (scoredStats_perm perm)]

end Everdict.Scorecard
