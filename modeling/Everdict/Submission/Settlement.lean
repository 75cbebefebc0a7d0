import Everdict.Submission.Rereading

/-!
# What settlement leaves of a submitted result

`sanitizeSubmittedResult` gives each row the producer that the declaration knows under
its grader id.  A row that settlement has left is `Settled`: it is invalid, or it wears a
name that its producer owns and the coordinates of that producer.  Settling again and
reading back keep a settled row settled, and settling leaves it as it is.
-/

namespace Everdict.Submission

/-! ## The settlement of a result -/

structure SubmittedResult where
  caseId : String
  scores : List ScoreRow

def settleScore (toText : ℚ → String) (declaration : SettleDeclaration) (score : ScoreRow) :
    ScoreRow :=
  sanitizeScore toText score (some (scoreProducer declaration score.graderId score.metric))

def sanitizeSubmittedResult (toText : ℚ → String) (result : SubmittedResult)
    (declaration : SettleDeclaration) : SubmittedResult :=
  if result.scores.length = 0 then result
  else { result with scores := result.scores.map (settleScore toText declaration) }

/-- A write and a read of the whole result. -/
def SubmittedResult.reread (result : SubmittedResult) : Option SubmittedResult :=
  (result.scores.mapM ScoreRow.reread).map fun scores => { result with scores }

theorem sanitized_scores (toText : ℚ → String) (result : SubmittedResult)
    (declaration : SettleDeclaration) :
    (sanitizeSubmittedResult toText result declaration).scores =
      result.scores.map (settleScore toText declaration) := by
  unfold sanitizeSubmittedResult
  split
  · next empty => rw [List.length_eq_zero_iff.mp empty, List.map_nil]
  · rfl

/-! ## Owners of a name -/

/-- Does the row name this grader? -/
def GraderSpec.Names (spec : GraderSpec) (graderId : String) : Prop :=
  spec.id = graderId ∨ spec.config.id = some graderId

/-- Who may write a metric that carries authority. -/
inductive Owns (declaration : SettleDeclaration) (graderId metric : String) : Prop where
  /-- a declared grader, whose implementation measures that metric -/
  | grader (spec : GraderSpec) (declared : spec ∈ declaration.graders)
      (named : spec.Names graderId) (own : metric ∈ builtInOwnedMetrics spec.id)
  /-- a declared inline judge, or a declaration of judge authority -/
  | judge (spec : GraderSpec) (declared : spec ∈ declaration.graders)
      (named : spec.Names graderId)
      (judges : spec.id ∈ BUILTIN_JUDGE_GRADER_IDS ∨ declaredJudgeAuthority spec = true)
      (family : isJudgeFamilyMetric metric = true)
  /-- a judge that the platform applied, in its own family -/
  | platformJudge (applied : graderId ∈ declaration.judges)
      (own : isJudgeMetricOf metric graderId = true)

section Owners

variable {declaration : SettleDeclaration} {graderId metric : String}

theorem names_of_specProducing {graders : List GraderSpec} {spec : GraderSpec}
    (found : specProducing graders graderId = some spec) :
    spec ∈ graders ∧ spec.Names graderId := by
  refine ⟨List.mem_of_find?_eq_some found, ?_⟩
  simpa [GraderSpec.Names] using List.find?_some found

/-- The three producers that a settlement knows. -/
theorem scoreProducer_cases (declaration : SettleDeclaration) (graderId metric : String) :
    (graderId ∈ declaration.judges ∧ isJudgeMetricOf metric graderId = true ∧
        scoreProducer declaration graderId metric = .judge graderId) ∨
      scoreProducer declaration graderId metric = .grader graderId [] false false ∨
      ∃ spec ∈ declaration.graders, spec.Names graderId ∧
        scoreProducer declaration graderId metric =
          .grader graderId (builtInOwnedMetrics spec.id ++ declaredOwnedMetrics spec)
            (spec.id ∈ BUILTIN_JUDGE_GRADER_IDS || declaredJudgeAuthority spec)
            (specNamespacesJudgeCriteria spec) := by
  unfold scoreProducer
  rcases found : specProducing declaration.graders graderId with _ | spec
  · rcases applied : declaration.judges.find? fun id =>
        id = graderId && isJudgeMetricOf metric id with _ | id
    · exact Or.inr (Or.inl rfl)
    · have own := List.find?_some applied
      simp only [Bool.and_eq_true, decide_eq_true_eq] at own
      obtain ⟨rfl, own⟩ := own
      exact Or.inl ⟨List.mem_of_find?_eq_some applied, own, rfl⟩
  · obtain ⟨declared, named⟩ := names_of_specProducing found
    refine Or.inr (Or.inr ⟨spec, declared, named, ?_⟩)
    cases declaration.judges.find? fun id => id = graderId && isJudgeMetricOf metric id <;> rfl

theorem owner_scoreProducer :
    (scoreProducer declaration graderId metric).owner.id = graderId := by
  rcases scoreProducer_cases declaration graderId metric with
    ⟨_, _, eq⟩ | eq | ⟨_, _, _, eq⟩ <;> rw [eq] <;> rfl

theorem not_constitutional_of_declared {spec : GraderSpec}
    (granted : metric ∈ declaredOwnedMetrics spec) : isConstitutionalMetric metric = false := by
  simpa using (List.mem_filter.mp granted).2

/-- A name with authority that is not refused belongs to its producer. -/
theorem owns_of_unforged (constitutional : isConstitutionalMetric metric = true)
    (unforged : forgedMetricReason metric (scoreProducer declaration graderId metric) = none) :
    Owns declaration graderId metric := by
  rcases scoreProducer_cases declaration graderId metric with
    ⟨applied, own, eq⟩ | eq | ⟨spec, declared, named, eq⟩
  · exact .platformJudge applied own
  · rw [eq] at unforged
    simp only [isConstitutionalMetric, Bool.or_eq_true, decide_eq_true_eq] at constitutional
    by_cases family : isJudgeFamilyMetric metric = true
    · simp [forgedMetricReason, family] at unforged
    · have reserved := constitutional.resolve_right family
      simp [forgedMetricReason, family, reserved] at unforged
  · rw [eq] at unforged
    by_cases family : isJudgeFamilyMetric metric = true
    · refine .judge spec declared named ?_ family
      simp only [forgedMetricReason, family, if_true] at unforged
      split at unforged
      · cases unforged
      · next judges => exact or_iff_not_imp_left.mpr (by simpa using judges)
    · have reserved : metric ∈ RESERVED_AUTHORITY_METRICS := by
        simpa [isConstitutionalMetric, family] using constitutional
      have own : metric ∈ builtInOwnedMetrics spec.id ++ declaredOwnedMetrics spec := by
        by_contra other
        simp [forgedMetricReason, family, reserved, other] at unforged
      rcases List.mem_append.mp own with own | granted
      · exact .grader spec declared named own
      · rw [not_constitutional_of_declared granted] at constitutional
        cases constitutional

end Owners

/-! ## Settled rows -/

/-- A row that a settlement under this declaration has left. -/
structure Settled (declaration : SettleDeclaration) (row : ScoreRow) : Prop where
  named : row.idsBroken = false
  stamped : row.isInvalid = true ∨
    row.valueBroken = false ∧
      forgedMetricReason row.metric (scoreProducer declaration row.graderId row.metric) = none ∧
      row.measurement = some (measurementIdentityOf row.metric
        (scoreProducer declaration row.graderId row.metric))

section Settle

variable {toText : ℚ → String} {declaration : SettleDeclaration} {row : ScoreRow}
  (m : Option MeasurementIdentity)

@[simp]
theorem claiming_graderId :
    (row.claiming m).graderId = row.graderId := by
  cases row <;> rfl

@[simp]
theorem claiming_metric :
    (row.claiming m).metric = row.metric := by
  cases row <;> rfl

@[simp]
theorem claiming_measurement :
    (row.claiming m).measurement = m := by
  cases row <;> rfl

@[simp]
theorem claiming_idsBroken :
    (row.claiming m).idsBroken = row.idsBroken := by
  cases row <;> rfl

@[simp]
theorem claiming_valueBroken :
    (row.claiming m).valueBroken = row.valueBroken := by
  cases row <;> rfl

@[simp]
theorem claiming_isInvalid :
    (row.claiming m).isInvalid = row.isInvalid := by
  cases row <;> rfl

@[simp]
theorem claiming_claiming (m m' : Option MeasurementIdentity) :
    (row.claiming m').claiming m = row.claiming m := by
  cases row <;> rfl

theorem claiming_self : row.claiming row.measurement = row := by
  cases row <;> rfl

/-- What settling does with a row: an invalid one stays, one that breaks the contract
becomes invalid, and the others are stamped. -/
theorem settleScore_cases (toText : ℚ → String) (declaration : SettleDeclaration)
    (row : ScoreRow) :
    (row.isInvalid = true ∧ row.idsBroken = false ∧ settleScore toText declaration row = row) ∨
      (row.isInvalid = false ∧ row.idsBroken = false ∧ row.valueBroken = false ∧
        forgedMetricReason row.metric (scoreProducer declaration row.graderId row.metric) = none ∧
        settleScore toText declaration row = row.claiming (some (measurementIdentityOf row.metric
          (scoreProducer declaration row.graderId row.metric)))) ∨
      ∃ forged,
        settleScore toText declaration row = .invalid (contractViolation toText row forged) := by
  unfold settleScore sanitizeScore
  by_cases kept : (row.isInvalid && !row.idsBroken) = true
  · rw [if_pos kept]
    simp only [Bool.and_eq_true, Bool.not_eq_true'] at kept
    exact Or.inl ⟨kept.1, kept.2, rfl⟩
  · rw [if_neg kept]
    dsimp only [Option.bind_some]
    split
    · next good =>
        simp only [Bool.and_eq_true, Bool.not_eq_true', decide_eq_true_eq] at good
        obtain ⟨⟨named, whole⟩, unforged⟩ := good
        have valid : row.isInvalid = false := by simpa [named] using kept
        exact Or.inr (Or.inl ⟨valid, named, whole, unforged, rfl⟩)
    · exact Or.inr (Or.inr ⟨_, rfl⟩)

theorem contractViolation_named (forged : Option String) :
    (ScoreRow.invalid (contractViolation toText row forged)).idsBroken = false := by
  have grader : (contractViolation toText row forged).graderId ≠ "" := by
    dsimp only [contractViolation]
    split
    · decide
    · next named => exact named
  have metric : (contractViolation toText row forged).metric ≠ "" := by
    dsimp only [contractViolation]
    split
    · split
      · decide
      · next named => exact named
    · next named => exact named
  simp [ScoreRow.idsBroken, ScoreRow.metric, ScoreRow.graderId, ScoreRow.identity, grader, metric]

theorem settled_settleScore (toText : ℚ → String) (declaration : SettleDeclaration)
    (row : ScoreRow) : Settled declaration (settleScore toText declaration row) := by
  rcases settleScore_cases toText declaration row with
    ⟨invalid, named, eq⟩ | ⟨_, named, whole, unforged, eq⟩ | ⟨forged, eq⟩
  · rw [eq]
    exact ⟨named, Or.inl invalid⟩
  · rw [eq]
    exact ⟨by simpa using named, Or.inr (by simpa using ⟨whole, unforged⟩)⟩
  · rw [eq]
    exact ⟨contractViolation_named forged, Or.inl rfl⟩

/-- Settling leaves a settled row as it is. -/
theorem Settled.settleScore_eq (settled : Settled declaration row) :
    settleScore toText declaration row = row := by
  unfold settleScore sanitizeScore
  rcases settled.stamped with invalid | ⟨whole, unforged, stamp⟩
  · simp [invalid, settled.named]
  · by_cases invalid : row.isInvalid = true
    · simp [invalid, settled.named]
    · simp only [invalid, settled.named, whole, Option.bind_some, unforged, Bool.false_and,
        Bool.false_eq_true, if_false, Bool.not_false, Bool.and_self, decide_true, if_true]
      rw [← stamp, claiming_self]

/-- Reading back keeps a settled row settled. -/
theorem Settled.reread {row' : ScoreRow} (settled : Settled declaration row)
    (read : row.reread = some row') : Settled declaration row' := by
  obtain ⟨grader, metric, measurement⟩ := reread_keeps read
  have named : row'.idsBroken = false := by
    unfold ScoreRow.idsBroken
    rw [grader, metric]
    exact settled.named
  refine ⟨named, ?_⟩
  rcases settled.stamped with invalid | ⟨_, unforged, stamp⟩
  · exact Or.inl (reread_invalid read invalid)
  · rw [grader, metric, measurement]
    exact Or.inr ⟨(canonical_of_normalize read).valueBroken, unforged, stamp⟩

/-! ## Rows that the reader produced -/

theorem wellFormed_measurementIdentityOf {metric : String} {producer : ScoreProducer}
    (grader : producer.owner.id ≠ "") (named : metric ≠ "") :
    WellFormed (measurementIdentityOf metric producer) := by
  have root : JUDGE_METRIC_ROOT ≠ "" := by decide
  have of_criterion : ∀ criterion : String,
      WellFormed (if criterion ≠ "" then
        ⟨producer.owner, JUDGE_METRIC_ROOT, some criterion⟩ else ⟨producer.owner, metric, none⟩) := by
    intro criterion
    split
    · next given => exact ⟨grader, root, by simpa using given⟩
    · exact ⟨grader, named, by simp⟩
  unfold measurementIdentityOf
  dsimp only
  split
  · exact ⟨grader, named, by simp⟩
  · split
    · exact ⟨grader, root, by simp⟩
    · exact of_criterion _

theorem RowIdentity.Canonical.stamp {identity : RowIdentity} {m : MeasurementIdentity}
    (canonical : identity.Canonical) (wf : WellFormed m) :
    ({ identity with measurement := some m } : RowIdentity).Canonical :=
  ⟨fun _ eq => Option.some.inj eq ▸ wf, canonical.events⟩

theorem ScoreRow.Canonical.claiming {m : MeasurementIdentity} (canonical : row.Canonical)
    (wf : WellFormed m) : (row.claiming (some m)).Canonical := by
  cases row with
  | invalid identity => exact RowIdentity.Canonical.stamp canonical wf
  | unmeasured row => exact RowIdentity.Canonical.stamp canonical wf
  | measured row =>
      obtain ⟨identity, stamped, finite, named, assessed⟩ := canonical
      exact ⟨identity.stamp wf, stamped, finite, named, fun a found => ⟨rfl, (assessed a found).2⟩⟩

/-- Settling keeps the shape of a row that the reader produced. -/
theorem canonical_settleScore (canonical : row.Canonical) :
    (settleScore toText declaration row).Canonical := by
  rcases settleScore_cases toText declaration row with
    ⟨_, _, eq⟩ | ⟨_, named, _, _, eq⟩ | ⟨forged, eq⟩
  · rwa [eq]
  · rw [eq]
    simp only [ScoreRow.idsBroken, Bool.or_eq_false_iff, decide_eq_false_iff_not] at named
    apply canonical.claiming
    exact wellFormed_measurementIdentityOf (by rw [owner_scoreProducer]; exact named.2) named.1
  · rw [eq]
    have unstamped : (contractViolation toText row forged).measurement = none := rfl
    refine ⟨fun m found => absurd (unstamped.symm.trans found) (by simp), ?_⟩
    intro empty
    have kept := (Option.filter_eq_some_iff.mp empty).2
    simp at kept

/-! ## Any later passes -/

/-- What happens to a row that is stored. -/
inductive Pass where
  | settle (declaration : SettleDeclaration)
  | reread

def Pass.run (toText : ℚ → String) : Pass → ScoreRow → Option ScoreRow
  | .settle declaration, row => some (settleScore toText declaration row)
  | .reread, row => row.reread

def runPasses (toText : ℚ → String) (passes : List Pass) (row : ScoreRow) : Option ScoreRow :=
  passes.foldlM (fun row pass => pass.run toText row) row

theorem invalid_settleScore (invalid : row.isInvalid = true) :
    (settleScore toText declaration row).isInvalid = true := by
  rcases settleScore_cases toText declaration row with
    ⟨_, _, eq⟩ | ⟨valid, _, _, _, _⟩ | ⟨forged, eq⟩
  · rw [eq, invalid]
  · rw [invalid] at valid
    cases valid
  · rw [eq]
    rfl

/-- A row that is invalid stays so, whatever is declared later. -/
theorem invalid_runPasses {passes : List Pass} {row' : ScoreRow} (invalid : row.isInvalid = true)
    (run : runPasses toText passes row = some row') : row'.isInvalid = true := by
  induction passes generalizing row with
  | nil =>
      cases run
      exact invalid
  | cons pass passes ih =>
      unfold runPasses at run
      rw [List.foldlM_cons] at run
      obtain ⟨next, first, rest⟩ := Option.bind_eq_some_iff.mp run
      refine ih ?_ rest
      cases pass with
      | settle declaration =>
          cases first
          exact invalid_settleScore invalid
      | reread => exact reread_invalid first invalid

/-- The measurement that a row came with decides nothing. -/
theorem settleScore_claiming (valid : (settleScore toText declaration row).isInvalid = false) :
    settleScore toText declaration (row.claiming m) = settleScore toText declaration row := by
  rcases settleScore_cases toText declaration row with
    ⟨invalid, _, eq⟩ | ⟨fresh, named, whole, unforged, eq⟩ | ⟨forged, eq⟩
  · rw [eq, invalid] at valid
    cases valid
  · rw [eq]
    unfold settleScore sanitizeScore
    simp [fresh, named, whole, unforged]
  · rw [eq] at valid
    cases valid

end Settle

theorem exists_of_mem_mapM {α : Type*} {f : α → Option α} {xs ys : List α} {y : α}
    (mapped : xs.mapM f = some ys) (mem : y ∈ ys) : ∃ x ∈ xs, f x = some y := by
  induction xs generalizing ys with
  | nil =>
      cases mapped
      cases mem
  | cons x xs ih =>
      rw [List.mapM_cons] at mapped
      obtain ⟨y', head, mapped⟩ := Option.bind_eq_some_iff.mp mapped
      obtain ⟨ys', tail, eq⟩ := Option.bind_eq_some_iff.mp mapped
      cases eq
      rcases List.mem_cons.mp mem with rfl | mem
      · exact ⟨x, List.mem_cons_self, head⟩
      · obtain ⟨x', there, read⟩ := ih tail mem
        exact ⟨x', List.mem_cons_of_mem _ there, read⟩

theorem mapM_eq_self {α : Type*} {f : α → Option α} {xs : List α}
    (fixed : ∀ x ∈ xs, f x = some x) : xs.mapM f = some xs := by
  induction xs with
  | nil => rfl
  | cons x xs ih =>
      rw [List.mapM_cons, fixed x List.mem_cons_self,
        ih fun x' mem => fixed x' (List.mem_cons_of_mem _ mem)]
      rfl

/-- A result of settled rows is settled. -/
theorem settled_result {toText : ℚ → String} {declaration : SettleDeclaration}
    {result : SubmittedResult} (settled : ∀ row ∈ result.scores, Settled declaration row) :
    sanitizeSubmittedResult toText result declaration = result := by
  unfold sanitizeSubmittedResult
  split
  · rfl
  · have same : result.scores.map (settleScore toText declaration) = result.scores := by
      rw [List.map_congr_left fun row mem => (settled row mem).settleScore_eq]
      exact List.map_id' _
    rw [same]

/-- After settlement a metric with authority stands only on the rows of its owners, each
row that is not invalid has the coordinates of its producer whatever it came with, an
invalid row stays invalid through all later settlements and readings, and settling again
changes nothing, be it at once or after a write and a read; a result that came through the
reader is also read back as it was settled. -/
theorem no_forged_authority (toText : ℚ → String) (declaration : SettleDeclaration)
    (result : SubmittedResult) :
    (∀ row ∈ (sanitizeSubmittedResult toText result declaration).scores,
      (row.isMeasured = true → isConstitutionalMetric row.metric = true →
        Owns declaration row.graderId row.metric) ∧
      (row.isInvalid = false →
        row.measurement = some (measurementIdentityOf row.metric
          (scoreProducer declaration row.graderId row.metric)))) ∧
    (∀ row ∈ result.scores, (settleScore toText declaration row).isInvalid = false →
      ∀ claimed, settleScore toText declaration (row.claiming claimed) =
        settleScore toText declaration row) ∧
    (∀ row, row.isInvalid = true → ∀ passes row', runPasses toText passes row = some row' →
      row'.isInvalid = true) ∧
    sanitizeSubmittedResult toText (sanitizeSubmittedResult toText result declaration)
      declaration = sanitizeSubmittedResult toText result declaration ∧
    (∀ read, (sanitizeSubmittedResult toText result declaration).reread = some read →
      sanitizeSubmittedResult toText read declaration = read) ∧
    ((∀ row ∈ result.scores, ∃ raw, normalizeScore raw = some row) →
      (sanitizeSubmittedResult toText result declaration).reread =
        some (sanitizeSubmittedResult toText result declaration)) := by
  have settled : ∀ row ∈ (sanitizeSubmittedResult toText result declaration).scores,
      Settled declaration row := by
    rw [sanitized_scores]
    intro row mem
    obtain ⟨submitted, _, rfl⟩ := List.mem_map.mp mem
    exact settled_settleScore toText declaration submitted
  refine ⟨?_, fun row _ valid claimed => settleScore_claiming claimed valid,
    fun row invalid passes row' run => invalid_runPasses invalid run, ?_, ?_, ?_⟩
  · intro row mem
    constructor
    · intro measured constitutional
      rcases (settled row mem).stamped with invalid | ⟨_, unforged, _⟩
      · cases row with
        | measured row => cases invalid
        | unmeasured row => cases measured
        | invalid identity => cases measured
      · exact owns_of_unforged constitutional unforged
    · intro valid
      rcases (settled row mem).stamped with invalid | ⟨_, _, stamp⟩
      · rw [valid] at invalid
        cases invalid
      · exact stamp
  · exact settled_result settled
  · intro read found
    obtain ⟨scores, rows, rfl⟩ := Option.map_eq_some_iff.mp found
    apply settled_result
    intro row mem
    obtain ⟨written, there, read⟩ := exists_of_mem_mapM rows mem
    exact (settled written there).reread read
  · intro came
    have back : ∀ row ∈ (sanitizeSubmittedResult toText result declaration).scores,
        row.reread = some row := by
      rw [sanitized_scores]
      intro row mem
      obtain ⟨submitted, there, rfl⟩ := List.mem_map.mp mem
      obtain ⟨raw, read⟩ := came submitted there
      exact reread_of_canonical (canonical_settleScore (canonical_of_normalize read))
    unfold SubmittedResult.reread
    rw [mapM_eq_self back]
    rfl

end Everdict.Submission
