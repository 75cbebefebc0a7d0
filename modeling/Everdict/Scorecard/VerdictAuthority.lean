import Everdict.Scorecard.VerdictOrder

/-!
# Evidence of lower authority

What a structured evaluation decides at a rung is not changed by further rows of a lower
authority, and rows that may not decide can be left out, as long as they share no key with
a row that decides and no required metric rests on them.
-/

namespace Everdict.Scorecard

open Election

variable {policy : VerdictPolicy} {scores merged : List Score} {failure : Option CaseFailure}
  {rows rows' : List Decider} {k : String} {l : Nat}

/-! ## Rows by their own definition -/

def scoreIdentity : Score → ScoreIdentity
  | .measured score => score.toScoreIdentity
  | .unmeasured identity => identity
  | .invalid identity => identity

/-- A row by its coordinates, which is what the definitions look at. -/
def coordinates (score : Score) : Decider where
  metric := (scoreIdentity score).metric
  graderId := (scoreIdentity score).graderId
  pass := false
  measurement := (scoreIdentity score).measurement

theorem coordinates_of_vote {score : Score} {c : Decider} (vote : voteOf true score = some c) :
    c.metric = (coordinates score).metric ∧ c.measurement = (coordinates score).measurement := by
  rcases score with row | identity | identity
  · simp only [voteOf, Score.measured?, Option.bind_some, if_true, Option.map_eq_some_iff] at vote
    obtain ⟨pass, -, rfl⟩ := vote
    exact ⟨rfl, rfl⟩
  · cases vote
  · cases vote

theorem standing_of_vote {score : Score} {c : Decider} (vote : voteOf true score = some c) :
    standing policy c = standing policy (coordinates score) := by
  obtain ⟨metric, measurement⟩ := coordinates_of_vote vote
  exact standing_congr metric measurement

/-- Is the first definition of the row of a lower rung, or one that never decides, or is
there none? -/
def Lower (policy : VerdictPolicy) (authority : DecidingAuthority) (score : Score) : Prop :=
  (rungOrder policy).idxOf authority < level policy (coordinates score)

instance (policy : VerdictPolicy) (authority : DecidingAuthority) (score : Score) :
    Decidable (Lower policy authority score) := inferInstanceAs (Decidable (_ < _))

/-- Is the first definition of the row diagnostic or excluded? -/
def inert (policy : VerdictPolicy) (score : Score) : Bool :=
  !isCandidate policy true (coordinates score)

theorem level_of_inert {score : Score} (isInert : inert policy score = true) :
    level policy (coordinates score) = 4 := by
  have notCandidate : isCandidate policy true (coordinates score) = false := by
    simpa [inert] using isInert
  rw [level]
  rcases stands : standing policy (coordinates score) with ⟨a, index⟩ | _ | _
  · rw [(standing_eq_rung.mp stands).1] at notCandidate
    cases notCandidate
  · rw [(standing_eq_undeclared.mp stands).1] at notCandidate
    cases notCandidate
  · rfl

theorem rank_lt_of_level_lt {c d : Decider} (less : level policy c < level policy d) :
    rank policy c < rank policy d := by
  rw [rank, rank, Standing.rank, Standing.rank, Prod.Lex.toLex_lt_toLex]
  exact Or.inl less

/-! ## Further rows behind the leaders -/

/-- Rows behind a level, under no key of a row of that level. -/
def Behind (policy : VerdictPolicy) (rows : List Decider) (l : Nat) (c : Decider) : Prop :=
  l < level policy c ∧ ∀ x ∈ rows, level policy x = l → c.key ≠ x.key

theorem leads_of_behind (inserted : Inserted (Behind policy rows l) rows rows')
    (leading : Leads Decider.key (rank policy) levelOf rows k l) (k' : String) (l' : Nat) :
    Leads Decider.key (rank policy) levelOf rows' k' l' ↔
      Leads Decider.key (rank policy) levelOf rows k' l' := by
  apply inserted.leads_iff ?_ leading
  intro c behind x mem atLevel
  rw [levelOf_rank] at atLevel
  exact ⟨behind.2 x mem atLevel, rank_lt_of_level_lt (by rw [atLevel]; exact behind.1)⟩

theorem unanimous_of_behind (inserted : Inserted (Behind policy rows l) rows rows')
    (leading : Leads Decider.key (rank policy) levelOf rows k l) :
    unanimous Decider.key Decider.pass rows' k = unanimous Decider.key Decider.pass rows k := by
  obtain ⟨x, isFirst, atLevel, -⟩ := leading
  obtain ⟨mem, rfl⟩ := mem_of_first isFirst
  apply inserted.unanimous_eq
  intro c behind
  exact behind.2 x mem atLevel

/-- Rows behind the deciding level change nothing of the decision. -/
theorem same_of_behind (inserted : Inserted (Behind policy rows l) rows rows')
    (leading : Leads Decider.key (rank policy) levelOf rows k l) (small : l < 4)
    (opens : l = 3 → policy.fallback = some .priority → opener policy rows' = opener policy rows) :
    SameDecision (decision policy (groups rows')) (decision policy (groups rows)) := by
  have leads := leads_of_behind inserted leading
  obtain ⟨deciders, decides⟩ := decides_of_leads leading small
  obtain ⟨deciders', decides'⟩ := decides_of_leads ((leads k l).mpr leading) small
  apply decides'.same decides (fun k => leads k l)
  · intro k' leading'
    exact unanimous_of_behind inserted ((leads k' l).mp leading')
  · intro isThree fallback
    obtain ⟨c, isOpener, verdict⟩ := decides.opened isThree fallback
    obtain ⟨c', isOpener', verdict'⟩ := decides'.opened isThree fallback
    rw [opens isThree fallback, isOpener, Option.some.injEq] at isOpener'
    subst isThree isOpener'
    rw [verdict, verdict', unanimous_of_behind inserted (opener_leads isOpener leading)]

/-! ## Rows that may not decide -/

/-- Rows that never decide, under no key of a row that may. -/
def Inert (policy : VerdictPolicy) (rows : List Decider) (c : Decider) : Prop :=
  level policy c = 4 ∧ ∀ x ∈ rows, level policy x < 4 → c.key ≠ x.key

theorem Inert.behind {c : Decider} (isInert : Inert policy rows c) (small : l < 4) :
    Behind policy rows l c := by
  refine ⟨by rw [isInert.1]; exact small, ?_⟩
  intro x mem atLevel
  exact isInert.2 x mem (by rw [atLevel]; exact small)

theorem level_of_undeclared {c : Decider} (fallback : policy.fallback = some .priority)
    (stands : standing policy c = .undeclared) : level policy c = 3 := by
  simp [level, stands, Standing.level, fallback]

/-- Inert rows open no fallback and keep none from opening. -/
theorem opener_of_inert (inserted : Inserted (Inert policy rows) rows rows')
    (fallback : policy.fallback = some .priority) : opener policy rows' = opener policy rows := by
  have kept : ∀ k z, first Decider.key rows' k = some z → standing policy z = .undeclared →
      first Decider.key rows k = some z := by
    intro k z found stands
    rcases inserted.first_or found with old | new
    · exact old
    · have three := level_of_undeclared fallback stands
      rw [new.1] at three
      cases three
  rw [opener, opener, ← List.head?_filter, ← List.head?_filter, inserted.filter_eq]
  · congr 1
    apply List.filter_congr
    intro x _
    rw [Bool.eq_iff_iff, Option.any_eq_true, Option.any_eq_true]
    simp only [decide_eq_true_eq]
    constructor
    · intro opens
      obtain ⟨z, found, stands⟩ := opens
      exact ⟨z, kept _ z found stands, stands⟩
    · intro opens
      obtain ⟨z, found, stands⟩ := opens
      have isThree := level_of_undeclared fallback stands
      obtain ⟨mem, sameKey⟩ := mem_of_first found
      have apart : ∀ y, Inert policy rows y → y.key ≠ x.key := by
        intro y isInert
        rw [← sameKey]
        exact isInert.2 z mem (by omega)
      rw [inserted.first_eq apart]
      exact ⟨z, found, stands⟩
  · intro y isInert
    rw [Bool.eq_false_iff]
    intro opens
    obtain ⟨z, found, stands⟩ := (Option.any_eq_true _ _).mp opens
    have undeclared := of_decide_eq_true stands
    obtain ⟨mem, sameKey⟩ := mem_of_first (kept _ z found undeclared)
    have isThree := level_of_undeclared fallback undeclared
    exact isInert.2 z mem (by omega) sameKey.symm

theorem exists_leads (policy : VerdictPolicy) {x : Decider} (found : first Decider.key rows k = some x) :
    ∃ k' l', Leads Decider.key (rank policy) levelOf rows k' l' ∧ l' ≤ level policy x := by
  obtain ⟨c, mem, -, metric, measurement, -⟩ := exists_group found
  obtain ⟨d, inGroups, best⟩ := exists_best (rank policy) mem
  refine ⟨d.key, level policy d, leads_iff_group.mpr ⟨d, inGroups, rfl, rfl, best⟩, ?_⟩
  apply level_le_of_rank_le
  rw [← rank_congr policy metric measurement]
  exact best c mem

theorem same_of_inert (inserted : Inserted (Inert policy rows) rows rows') :
    SameDecision (decision policy (groups rows')) (decision policy (groups rows)) := by
  rcases decision_cases policy rows with ⟨l, deciders, small, ⟨k, leading⟩, -⟩ | ⟨silent, eq⟩
  · apply same_of_behind (inserted.imp fun c isInert => isInert.behind small) leading small
    exact fun _ fallback => opener_of_inert inserted fallback
  · rcases decision_cases policy rows' with ⟨l, deciders, small, ⟨k, leading⟩, -⟩ | ⟨-, eq'⟩
    · -- a row that leads among all was there before, and some row led then
      obtain ⟨x, found, rfl, -⟩ := leading
      rw [levelOf_rank] at small
      rcases inserted.first_or found with old | new
      · obtain ⟨k', l', leading', le⟩ := exists_leads policy old
        exact absurd (by omega) (silent k' l' leading')
      · rw [new.1] at small
        omega
    · rw [eq, eq']
      exact .refl _

/-! ## Further scores -/

/-- The scores whose first definition may decide. -/
def kept (policy : VerdictPolicy) (scores : List Score) : List Score :=
  scores.filter fun score => !inert policy score

/-- A row that votes under no key of a row of the rung. -/
def Foreign (policy : VerdictPolicy) (authority : DecidingAuthority) (scores : List Score)
    (score : Score) : Prop :=
  ∀ c, voteOf true score = some c → ∀ x ∈ votes true scores,
    level policy x = (rungOrder policy).idxOf authority → c.key ≠ x.key

/-- No diagnostic or excluded row votes under a key of a row that may decide. -/
def InertApart (policy : VerdictPolicy) (scores : List Score) : Prop :=
  ∀ score ∈ scores, inert policy score = true → ∀ c, voteOf true score = some c →
    ∀ x ∈ votes true (kept policy scores), level policy x < 4 → c.key ≠ x.key

/-- Does a definition invalidate a case without a measured row of its own? -/
def invalidates (d : MetricDefinition) : Bool :=
  d.verdictRole = some .required && d.missingPolicy.getD .invalidateCase = .invalidateCase

/-- What a required metric is measured by, some row that may decide measures too. -/
def KeepsRequired (policy : VerdictPolicy) (scores : List Score) : Prop :=
  ∀ d ∈ policy.metrics, invalidates d = true →
    (∃ s ∈ measuredScores scores, definitionMatches d s.metric s.measurement true = true) →
      ∃ s ∈ measuredScores (kept policy scores),
        definitionMatches d s.metric s.measurement true = true

theorem requiredMissing_eq_none :
    requiredMissing policy (measuredScores scores) true = none ↔
      ∀ d ∈ policy.metrics, invalidates d = true →
        ∃ s ∈ measuredScores scores, definitionMatches d s.metric s.measurement true = true := by
  rw [requiredMissing, List.find?_eq_none]
  simp [invalidates]

theorem requiredMissing_of_inserted {p : Score → Prop} (inserted : Inserted p scores merged)
    (present : requiredMissing policy (measuredScores scores) true = none) :
    requiredMissing policy (measuredScores merged) true = none := by
  rw [requiredMissing_eq_none] at present ⊢
  intro d mem required
  obtain ⟨s, measured, matching⟩ := present d mem required
  rw [mem_measuredScores] at measured
  exact ⟨s, mem_measuredScores.mpr (inserted.mem measured), matching⟩

theorem inserted_kept (policy : VerdictPolicy) (scores : List Score) :
    Inserted (fun score => score ∈ scores ∧ inert policy score = true) (kept policy scores)
      scores := by
  apply (Inserted.of_filter (fun score => !inert policy score) scores).imp
  intro score dropped
  exact ⟨dropped.1, by simpa using dropped.2⟩

theorem requiredMissing_kept (keeps : KeepsRequired policy scores) :
    requiredMissing policy (measuredScores (kept policy scores)) true =
      requiredMissing policy (measuredScores scores) true := by
  apply List.find?_congr
  intro d mem
  rw [← invalidates]
  rcases required : invalidates d with _ | _
  · rfl
  · simp only [Bool.true_and, Bool.not_inj_iff]
    rw [Bool.eq_iff_iff, List.any_eq_true, List.any_eq_true]
    constructor
    · intro measured
      obtain ⟨s, inKept, matching⟩ := measured
      rw [mem_measuredScores] at inKept
      exact ⟨s, mem_measuredScores.mpr ((inserted_kept policy scores).mem inKept), matching⟩
    · exact keeps d mem required

/-- A decided case has an outcome and misses no required metric. -/
theorem decided_cases (structured : isStructured policy = true)
    (decided : (evaluateVerdict scores failure policy).verdict.isSome) :
    noOutcome failure = false
      ∧ requiredMissing policy (measuredScores scores) true = none := by
  rcases alive : noOutcome failure with _ | _
  · rcases present : requiredMissing policy (measuredScores scores) true with _ | d
    · exact ⟨rfl, rfl⟩
    · simp [evaluateVerdict, alive, structured, present] at decided
  · simp [evaluateVerdict, alive] at decided

theorem lower_rows_ignored {authority : DecidingAuthority} (structured : isStructured policy = true)
    (decided : (evaluateVerdict scores failure policy).verdict.isSome)
    (rung : (evaluateVerdict scores failure policy).basis.map (·.authority) =
      some (.rung authority))
    (inserted : Inserted (fun score => Lower policy authority score
      ∧ Foreign policy authority scores score) scores merged) :
    SameDecision (evaluateVerdict merged failure policy)
      (evaluateVerdict scores failure policy) := by
  obtain ⟨alive, present⟩ := decided_cases structured decided
  have evaluated := evaluateVerdict_eq structured alive present
  rw [evaluated] at rung ⊢
  rw [evaluateVerdict_eq structured alive (requiredMissing_of_inserted inserted present)]
  have inside := List.idxOf_lt_length_of_mem (mem_rungOrder policy authority)
  have three := length_rungOrder policy
  rcases decision_cases policy (votes true scores) with
    ⟨l, deciders, small, ⟨k, leading⟩, decides⟩ | ⟨-, eq⟩
  · have atRung : l = (rungOrder policy).idxOf authority := by
      apply authorityAt_inj policy small (by omega)
      rw [decides.basis, Option.map_some, Option.some.injEq] at rung
      apply rung.trans
      rw [authorityAt, List.getElem?_eq_getElem inside, List.getElem_idxOf]
      rfl
    subst atRung
    apply same_of_behind ?_ leading small
    · intro isThree
      omega
    · apply inserted.filterMap
      intro score c holds vote
      refine ⟨?_, fun x mem => holds.2 c vote x mem⟩
      have lower := holds.1
      rwa [Lower, level, ← standing_of_vote vote] at lower
  · rw [eq] at rung
    cases rung

theorem inert_rows_ignored (structured : isStructured policy = true)
    (apart : InertApart policy scores)
    (keeps : noOutcome failure = true ∨ KeepsRequired policy scores) :
    SameDecision (evaluateVerdict scores failure policy)
      (evaluateVerdict (kept policy scores) failure policy) := by
  rcases alive : noOutcome failure with _ | _
  · have keeps : KeepsRequired policy scores := by
      rcases keeps with dead | keeps
      · rw [alive] at dead
        cases dead
      · exact keeps
    rcases present : requiredMissing policy (measuredScores scores) true with _ | d
    · rw [evaluateVerdict_eq structured alive present,
        evaluateVerdict_eq structured alive (by rw [requiredMissing_kept keeps, present])]
      apply same_of_inert
      apply (inserted_kept policy scores).filterMap
      intro score c dropped vote
      refine ⟨?_, apart score dropped.1 dropped.2 c vote⟩
      rw [level, standing_of_vote vote]
      exact level_of_inert dropped.2
    · simp only [evaluateVerdict, alive, structured, requiredMissing_kept keeps, present]
      exact .refl _
  · simp only [evaluateVerdict, alive, if_true]
    exact .refl _

theorem invalidated_isSome (structured : isStructured policy = true)
    (alive : noOutcome failure = false) :
    (evaluateVerdict scores failure policy).invalidated.isSome =
      (requiredMissing policy (measuredScores scores) true).isSome := by
  rcases present : requiredMissing policy (measuredScores scores) true with _ | d
  · rw [evaluateVerdict_eq structured alive present]
    rcases decision_cases policy (votes true scores) with ⟨l, deciders, -, -, decides⟩ | ⟨-, eq⟩
    · simp [decides.invalidated]
    · simp [eq]
  · simp [evaluateVerdict, alive, structured, present]

/-- A case that only rows that may not decide keep valid is invalidated without them. -/
theorem keeps_of_same (structured : isStructured policy = true)
    (alive : noOutcome failure = false)
    (present : requiredMissing policy (measuredScores scores) true = none)
    (same : (evaluateVerdict (kept policy scores) failure policy).invalidated.isSome =
      (evaluateVerdict scores failure policy).invalidated.isSome) :
    KeepsRequired policy scores := by
  rw [invalidated_isSome structured alive, invalidated_isSome structured alive, present,
    Option.isSome_none, Option.isSome_eq_false_iff, Option.isNone_iff_eq_none] at same
  intro d mem required _
  exact requiredMissing_eq_none.mp same d mem required

/-- Rows of a lower authority change no decision they share no deciding key with; and the
diagnostic and excluded rows that share no key with a row that may decide can be left
out, unless a required metric rests on them alone. -/
theorem lower_authority_ignored (policy : VerdictPolicy) (scores : List Score)
    (failure : Option CaseFailure) (structured : isStructured policy = true) :
    (∀ authority merged, (evaluateVerdict scores failure policy).verdict.isSome →
        (evaluateVerdict scores failure policy).basis.map (·.authority) = some (.rung authority) →
        Inserted (fun score => Lower policy authority score
          ∧ Foreign policy authority scores score) scores merged →
        SameDecision (evaluateVerdict merged failure policy)
          (evaluateVerdict scores failure policy))
      ∧ (InertApart policy scores →
        (noOutcome failure = true ∨ KeepsRequired policy scores →
            SameDecision (evaluateVerdict (kept policy scores) failure policy)
              (evaluateVerdict scores failure policy))
          ∧ ((evaluateVerdict (kept policy scores) failure policy).invalidated.isSome =
              (evaluateVerdict scores failure policy).invalidated.isSome →
            noOutcome failure = true
              ∨ (requiredMissing policy (measuredScores scores) true).isSome
              ∨ KeepsRequired policy scores)) := by
  refine ⟨?_, ?_⟩
  · intro authority merged decided rung inserted
    exact lower_rows_ignored structured decided rung inserted
  · intro apart
    refine ⟨fun keeps => (inert_rows_ignored structured apart keeps).symm, ?_⟩
    intro same
    rcases alive : noOutcome failure with _ | _
    · rcases present : requiredMissing policy (measuredScores scores) true with _ | d
      · exact Or.inr (Or.inr (keeps_of_same structured alive present same))
      · exact Or.inr (Or.inl rfl)
    · exact Or.inl rfl

/-! ## Samples -/

/-- The state of the system decides; a style judge explains, and is required. -/
def statePolicy : VerdictPolicy where
  measurementIdentity := some .structuredV1
  id := "state"
  version := "1"
  metrics :=
    [ { matcher := .metric "state", authority := .groundTruth },
      { matcher := .stem "judge:" none, authority := .judge, verdictRole := some .diagnostic },
      { matcher := .metric "judge:style", authority := .judge, verdictRole := some .required } ]
  rungs := { groundTruth := .priority, objective := .all, judge := .all }
  fallback := none

/-- A row that carries a label alone. -/
def labelRow (label : String) (pass : Bool) : Score :=
  .measured { graderId := "script", metric := label, value := 0, pass := some pass }

def stateScores : List Score := [graderRow "state" true, graderRow "judge:style" false]

theorem lower_authority_ignored_stateScores :
    SameDecision
      (evaluateVerdict (graderRow "lint" false :: stateScores) none statePolicy)
      (evaluateVerdict stateScores none statePolicy) := by
  apply (lower_authority_ignored statePolicy stateScores none rfl).1 .groundTruth
  · decide +kernel
  · decide +kernel
  · apply Inserted.insert
    · refine ⟨by decide +kernel, ?_⟩
      intro c vote
      cases vote
      decide +kernel
    · exact .keep _ (.keep _ .nil)

/-- A further row whose label is the key of the state's row fails it; and a case that
only a diagnostic row keeps valid is invalidated without it. -/
theorem lower_evidence_changes_verdicts :
    (¬∀ (policy : VerdictPolicy) (scores merged : List Score) (failure : Option CaseFailure)
        (authority : DecidingAuthority), isStructured policy = true →
          (evaluateVerdict scores failure policy).verdict.isSome →
          (evaluateVerdict scores failure policy).basis.map (·.authority) =
            some (.rung authority) →
          Inserted (Lower policy authority) scores merged →
          (evaluateVerdict merged failure policy).verdict =
            (evaluateVerdict scores failure policy).verdict)
      ∧ ¬∀ (policy : VerdictPolicy) (scores : List Score) (failure : Option CaseFailure),
        isStructured policy = true →
          (evaluateVerdict (kept policy scores) failure policy).verdict =
              (evaluateVerdict scores failure policy).verdict
            ∧ (evaluateVerdict (kept policy scores) failure policy).invalidated =
              (evaluateVerdict scores failure policy).invalidated := by
  refine ⟨?_, ?_⟩
  · intro ignored
    have same := ignored statePolicy stateScores
      (labelRow (dedupeKey
        (some { producer := { kind := .grader, id := "state" }, metric := "state" }) "state")
          false :: stateScores) none .groundTruth rfl
      (by decide +kernel) (by decide +kernel)
      (.insert (by decide +kernel) (.keep _ (.keep _ .nil)))
    exact absurd same (by decide +kernel)
  · intro ignored
    have same := ignored statePolicy stateScores none rfl
    exact absurd same.2 (by decide +kernel)

end Everdict.Scorecard
