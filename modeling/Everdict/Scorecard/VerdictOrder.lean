import Everdict.Scorecard.DecidingRows

/-!
# Verdicts and the order of the rows

A structured evaluation reads the rows of a case in the order in which their producers
finished.  `verdict_order_free_iff` says when no order changes what it decides.
-/

namespace Everdict.Scorecard

open Election

variable {policy : VerdictPolicy} {scores scores' : List Score} {failure : Option CaseFailure}
  {rows rows' : List Decider} {k : String} {l : Nat}

/-! ## Orders of the rows -/

/-- A reordering of what a list maps to is that of a reordering of the list. -/
theorem exists_perm_of_filterMap {α β : Type*} (f : α → Option β) {xs : List α} {ys : List β}
    (perm : ys.Perm (xs.filterMap f)) : ∃ xs' : List α, xs'.Perm xs ∧ xs'.filterMap f = ys := by
  induction ys generalizing xs with
  | nil => exact ⟨xs, .refl xs, perm.symm.eq_nil⟩
  | cons y ys ih =>
      obtain ⟨x, mem, maps⟩ := List.mem_filterMap.mp (perm.mem_iff.mp List.mem_cons_self)
      obtain ⟨rest, front⟩ := exists_perm_cons mem
      have mapped := perm.trans (front.filterMap f).symm
      rw [List.filterMap_cons, maps] at mapped
      obtain ⟨xs', perm', eq⟩ := ih mapped.cons_inv
      refine ⟨x :: xs', (perm'.cons x).trans front, ?_⟩
      rw [List.filterMap_cons, maps, eq]

theorem requiredMissing_perm (policy : VerdictPolicy) (structured : Bool)
    (perm : scores'.Perm scores) :
    requiredMissing policy (measuredScores scores') structured =
      requiredMissing policy (measuredScores scores) structured := by
  have measured : ∀ p : MeasuredScore → Bool,
      (measuredScores scores').any p = (measuredScores scores).any p := fun p =>
    (perm.filterMap _).any_eq
  simp only [requiredMissing, measured]

/-! ## When the order does not matter -/

/-- No key that leads stands otherwise by another of its rows, as far as that could change
who leads; and undeclared keys that decide by priority agree. -/
structure OrderFree (policy : VerdictPolicy) (rows : List Decider) : Prop where
  settled : Settled Decider.key (rank policy) levelOf rows
  agreed : policy.fallback = some .priority → ∀ x y, Best (rank policy) rows x →
    Best (rank policy) rows y → level policy x = 3 →
      unanimous Decider.key Decider.pass rows x.key = unanimous Decider.key Decider.pass rows y.key

theorem OrderFree.same (free : OrderFree policy rows) (perm : rows'.Perm rows) :
    SameDecision (decision policy (groups rows')) (decision policy (groups rows)) := by
  have leads : ∀ k l, Leads Decider.key (rank policy) levelOf rows' k l ↔
      Leads Decider.key (rank policy) levelOf rows k l := by
    intro k l
    rw [free.settled.leads_iff perm, free.settled.leads_iff (.refl rows)]
  rcases decision_cases policy rows with ⟨l, deciders, small, ⟨k, leading⟩, decides⟩ | ⟨none, eq⟩
  · rcases decision_cases policy rows' with ⟨l', deciders', -, ⟨k', leading'⟩, decides'⟩ | ⟨none', -⟩
    · obtain rfl := leads_level_unique ((leads k' l').mp leading') leading
      apply decides'.same decides (fun k => leads k _) (fun k _ => unanimous_perm perm k)
      rintro rfl fallback
      obtain ⟨c, opens, verdict⟩ := decides.opened rfl fallback
      obtain ⟨c', opens', verdict'⟩ := decides'.opened rfl fallback
      obtain ⟨x, best, sameKey, isThree⟩ :=
        (free.settled.leads_iff (.refl rows)).mp (opener_leads opens leading)
      obtain ⟨x', best', sameKey', -⟩ :=
        (free.settled.leads_iff perm).mp (opener_leads opens' leading')
      rw [verdict, verdict', unanimous_perm perm, ← sameKey, ← sameKey',
        free.agreed fallback x x' best best' isThree]
    · exact absurd small (none' k l ((leads k l).mpr leading))
  · rcases decision_cases policy rows' with ⟨l', deciders', small, ⟨k', leading'⟩, -⟩ | ⟨-, eq'⟩
    · exact absurd small (none k' l' ((leads k' l').mp leading'))
    · rw [eq, eq']
      exact .refl _

/-! ## When it does -/

/-- The leaders that show are read off the decision. -/
theorem SameDecision.leads
    (same : SameDecision (decision policy (groups rows)) (decision policy (groups rows')))
    (leading : Leads Decider.key (rank policy) levelOf rows k l) (small : l < 4) :
    Leads Decider.key (rank policy) levelOf rows' k l := by
  obtain ⟨deciders, decides⟩ := decides_of_leads leading small
  have rung := same.rung
  have reads := (same.deciders (k, unanimous Decider.key Decider.pass rows k)).mp
  rcases decision_cases policy rows' with ⟨l', deciders', small', -, decides'⟩ | ⟨-, eq⟩
  · rw [decides.basis, decides'.basis] at rung
    obtain rfl := authorityAt_inj policy small small' (Option.some.inj rung)
    simp only [VerdictEvaluation.readings, decides.basis, decides'.basis, Option.map_some,
      Option.getD_some] at reads
    exact ((decides'.leads k _).mp (reads ((decides.leads k _).mpr ⟨leading, rfl⟩))).1
  · rw [decides.basis, eq] at rung
    cases rung

/-- With an undeclared row in front, the fallback by priority is what its key says. -/
theorem verdict_of_front {x : Decider} {rest : List Decider}
    (fallback : policy.fallback = some .priority) (best : Best (rank policy) (x :: rest) x)
    (isThree : level policy x = 3) :
    (decision policy (groups (x :: rest))).verdict =
      some (unanimous Decider.key Decider.pass (x :: rest) x.key) := by
  have leading := best.leads Decider.key levelOf (first_cons_self x rest)
  rw [levelOf_rank, isThree] at leading
  obtain ⟨deciders, decides⟩ := decides_of_leads leading (by decide)
  obtain ⟨c, opens, verdict⟩ := decides.opened rfl fallback
  have isOpener : opener policy (x :: rest) = some x := by
    simp [opener, standing_of_level_three isThree]
  rw [isOpener, Option.some.injEq] at opens
  rw [verdict, opens]

theorem OrderFree.of_same (same : ∀ rows', rows'.Perm rows →
    SameDecision (decision policy (groups rows')) (decision policy (groups rows))) :
    OrderFree policy rows := by
  refine ⟨?_, ?_⟩
  · apply settled_of_leads (fun l => l < 4)
    · intro x _ silent w _
      exact rank_le_of_silent silent w
    · intro rows' perm k l small
      constructor
      · exact fun leading => (same rows' perm).leads leading small
      · exact fun leading => (same rows' perm).symm.leads leading small
  · intro fallback x y bestX bestY isThree
    have sameRank : rank policy y = rank policy x :=
      le_antisymm (bestY.2 x bestX.1) (bestX.2 y bestY.1)
    have front : ∀ z, Best (rank policy) rows z → level policy z = 3 →
        (decision policy (groups rows)).verdict =
          some (unanimous Decider.key Decider.pass rows z.key) := by
      intro z best isThree
      obtain ⟨rest, perm⟩ := exists_perm_cons best.1
      rw [← (same _ perm).verdict, verdict_of_front fallback (best.of_perm perm) isThree,
        unanimous_perm perm]
    have verdictX := front x bestX isThree
    rw [front y bestY (by rw [← levelOf_rank, sameRank, levelOf_rank, isThree])] at verdictX
    exact (Option.some.inj verdictX).symm

/-! ## The order of the scores -/

/-- No order of the rows changes what a structured evaluation decides, exactly if the case
has no outcome, misses a required metric, or its votes are order free. -/
theorem verdict_order_free_iff (policy : VerdictPolicy) (scores : List Score)
    (failure : Option CaseFailure) (structured : isStructured policy = true) :
    (∀ scores', scores'.Perm scores →
        SameDecision (evaluateVerdict scores' failure policy)
          (evaluateVerdict scores failure policy)) ↔
      noOutcome failure = true
        ∨ (requiredMissing policy (measuredScores scores) true).isSome
        ∨ OrderFree policy (votes true scores) := by
  rcases alive : noOutcome failure with _ | _
  · rcases present : requiredMissing policy (measuredScores scores) true with _ | d
    · have evaluates : ∀ scores', scores'.Perm scores →
          evaluateVerdict scores' failure policy =
            decision policy (groups (votes true scores')) := by
        intro scores' perm
        apply evaluateVerdict_eq structured alive
        rw [requiredMissing_perm policy true perm, present]
      simp only [Bool.false_eq_true, Option.isSome_none, false_or]
      constructor
      · intro same
        apply OrderFree.of_same
        intro rows' perm
        obtain ⟨scores', perm', rfl⟩ := exists_perm_of_filterMap _ perm
        have decided := same scores' perm'
        rwa [evaluates scores' perm', evaluates scores (.refl scores)] at decided
      · intro free scores' perm
        rw [evaluates scores' perm, evaluates scores (.refl scores)]
        exact free.same (perm.filterMap _)
    · simp only [Option.isSome_some, true_or, or_true, iff_true]
      intro scores' perm
      simp only [evaluateVerdict, alive, structured, requiredMissing_perm policy true perm, present]
      exact .refl _
  · simp only [true_or, iff_true]
    intro scores' _
    simp only [evaluateVerdict, alive, if_true]
    exact .refl _

/-- A policy that declares nothing and lets the first metric it has never seen decide. -/
def priorityFallback : VerdictPolicy where
  measurementIdentity := some .structuredV1
  id := "undeclared"
  version := "1"
  metrics := []
  rungs := { groundTruth := .priority, objective := .all, judge := .all }
  fallback := some .priority

/-- A row of a grader that reports one metric of its own name. -/
def graderRow (name : String) (pass : Bool) : Score :=
  .measured {
    measurement := some { producer := { kind := .grader, id := name }, metric := name }
    graderId := name
    metric := name
    value := if pass then 1 else 0
    pass := some pass }

theorem verdict_order_free_iff_graderRow :
    SameDecision
      (evaluateVerdict [graderRow "smoke" true, graderRow "lint" true] none priorityFallback)
      (evaluateVerdict [graderRow "lint" true, graderRow "smoke" true] none priorityFallback) := by
  refine (verdict_order_free_iff priorityFallback _ none rfl).mpr (Or.inr (Or.inr ?_)) _
    (.swap _ _ _)
  have passing : ∀ c ∈ votes true [graderRow "lint" true, graderRow "smoke" true],
      c.pass = true := by decide
  have unanimously : ∀ k, unanimous Decider.key Decider.pass
      (votes true [graderRow "lint" true, graderRow "smoke" true]) k = true := by
    intro k
    rw [unanimous, List.all_eq_true]
    intro c mem
    exact passing c (List.mem_of_mem_filter mem)
  refine ⟨.of_rank fun x _ y _ _ => rfl, ?_⟩
  intro _ x y _ _ _
  rw [unanimously, unanimously]

/-- Two undeclared metrics disagree: whichever finished first is the verdict. -/
theorem verdict_follows_row_order :
    ¬∀ (policy : VerdictPolicy) (scores scores' : List Score) (failure : Option CaseFailure),
      isStructured policy = true → scores'.Perm scores →
        SameDecision (evaluateVerdict scores' failure policy)
          (evaluateVerdict scores failure policy) := by
  intro free
  have same := free priorityFallback [graderRow "lint" true, graderRow "smoke" false]
    [graderRow "smoke" false, graderRow "lint" true] none rfl (List.Perm.swap _ _ _)
  have first : (evaluateVerdict [graderRow "smoke" false, graderRow "lint" true] none
      priorityFallback).verdict = some false := by decide +kernel
  have second : (evaluateVerdict [graderRow "lint" true, graderRow "smoke" false] none
      priorityFallback).verdict = some true := by decide +kernel
  have verdicts := same.verdict
  rw [first, second] at verdicts
  cases verdicts

end Everdict.Scorecard
