import Everdict.Scorecard.ExperimentIdentity
import Mathlib.Data.List.Zip

/-!
# The axes of a swapped comparison

What an axis answers is a state; its texts name the sides and are left out of it.
The readings of the dataset, the grading and the environments keep their state when
the sides are swapped.  The judges keep theirs unless one side's list runs out while
the names still agree (`judgeSet_state_swap_iff`), and the harness models unless the
first key that does not agree is another kind of key on each side
(`harnessModel_state_swap_iff`).
-/

namespace Everdict.Scorecard.Identity

inductive AxisState where
  | held
  | confound
  | unverified
  deriving DecidableEq

def AxisReading.state : AxisReading → AxisState
  | .held => .held
  | .confound _ => .confound
  | .unverified _ _ => .unverified

theorem AxisReading.state_eq_held {reading : AxisReading} :
    reading.state = .held ↔ reading = .held := by
  cases reading <;> simp [AxisReading.state]

def comparedState : Compared → AxisState
  | .error _ => .unverified
  | .ok [] => .held
  | .ok (_ :: _) => .confound

@[simp]
theorem state_conclude (detail : List String → String) (compared : Compared) :
    (conclude detail compared).state = comparedState compared := by
  rcases compared with unknown | _ | ⟨name, names⟩ <;> rfl

/-! ## Comparing one thing after another -/

section Collect

variable {α : Type*} {compare : α → Compared} {xs : List α}

theorem collect_unverified :
    comparedState (collect compare xs) = .unverified ↔
      ∃ x ∈ xs, comparedState (compare x) = .unverified := by
  induction xs with
  | nil => simp [collect, comparedState]
  | cons x xs ih =>
      rcases first : compare x with unknown | differing
      · simp [collect, first, comparedState]
      have known : comparedState (.ok differing) ≠ .unverified := by
        cases differing <;> simp [comparedState]
      simp only [List.mem_cons, exists_eq_or_imp, first, known, false_or, ← ih]
      rcases rest : collect compare xs with unknown | names
      · simp [collect, first, rest, comparedState]
      · have known' : ∀ names, comparedState (.ok names) ≠ .unverified := by
          intro names
          cases names <;> simp [comparedState]
        simp [collect, first, rest, known']

theorem collect_held :
    comparedState (collect compare xs) = .held ↔
      ∀ x ∈ xs, comparedState (compare x) = .held := by
  induction xs with
  | nil => simp [collect, comparedState]
  | cons x xs ih =>
      rw [List.forall_mem_cons, ← ih]
      rcases first : compare x with unknown | _ | ⟨name, names⟩ <;>
        rcases rest : collect compare xs with unknown | _ | ⟨name', names'⟩ <;>
          simp [collect, first, rest, comparedState]

/-- Two comparisons answer alike when whatever is not held in the one is found, alike,
in the other. -/
theorem collect_congr {β : Type*} {compare' : β → Compared} {ys : List β}
    (covered : ∀ x ∈ xs, comparedState (compare x) ≠ .held →
      ∃ y ∈ ys, comparedState (compare' y) = comparedState (compare x))
    (covers : ∀ y ∈ ys, comparedState (compare' y) ≠ .held →
      ∃ x ∈ xs, comparedState (compare x) = comparedState (compare' y)) :
    comparedState (collect compare xs) = comparedState (collect compare' ys) := by
  have unverified : comparedState (collect compare xs) = .unverified ↔
      comparedState (collect compare' ys) = .unverified := by
    rw [collect_unverified, collect_unverified]
    constructor
    · intro h
      obtain ⟨x, mem, unknown⟩ := h
      obtain ⟨y, mem', same⟩ := covered x mem (by simp [unknown])
      exact ⟨y, mem', same.trans unknown⟩
    · intro h
      obtain ⟨y, mem, unknown⟩ := h
      obtain ⟨x, mem', same⟩ := covers y mem (by simp [unknown])
      exact ⟨x, mem', same.trans unknown⟩
  have held : comparedState (collect compare xs) = .held ↔
      comparedState (collect compare' ys) = .held := by
    rw [collect_held, collect_held]
    constructor
    · intro all y mem
      by_contra unheld
      obtain ⟨x, mem', same⟩ := covers y mem unheld
      exact unheld (same ▸ all x mem')
    · intro all x mem
      by_contra unheld
      obtain ⟨y, mem', same⟩ := covered x mem unheld
      exact unheld (same ▸ all y mem')
  rcases left : comparedState (collect compare xs) <;>
    rcases right : comparedState (collect compare' ys) <;> simp_all

end Collect

/-! ## The first check that is not held -/

theorem firstUnheld_cons (reading : AxisReading) (readings : List AxisReading) :
    firstUnheld (reading :: readings) =
      if reading = .held then firstUnheld readings else reading := by
  by_cases held : reading = .held <;> simp [firstUnheld, held]

@[simp]
theorem firstUnheld_nil : firstUnheld [] = .held := rfl

theorem firstUnheld_eq_held {readings : List AxisReading} :
    firstUnheld readings = .held ↔ ∀ reading ∈ readings, reading = .held := by
  induction readings with
  | nil => simp
  | cons reading readings ih =>
      rw [firstUnheld_cons, List.forall_mem_cons, ← ih]
      by_cases held : reading = .held <;> simp [held]

theorem firstUnheld_append (readings rest : List AxisReading) :
    firstUnheld (readings ++ rest) =
      if firstUnheld readings = .held then firstUnheld rest else firstUnheld readings := by
  induction readings with
  | nil => simp
  | cons reading readings ih =>
      rw [List.cons_append, firstUnheld_cons, firstUnheld_cons, ih]
      by_cases held : reading = .held <;> simp [held]

theorem firstUnheld_congr {readings readings' : List AxisReading}
    (alike : readings.map AxisReading.state = readings'.map AxisReading.state) :
    (firstUnheld readings).state = (firstUnheld readings').state := by
  induction readings generalizing readings' with
  | nil =>
      obtain rfl : readings' = [] := by simpa using alike.symm
      rfl
  | cons reading readings ih =>
      rcases readings' with _ | ⟨reading', readings'⟩
      · simp at alike
      obtain ⟨first, rest⟩ := List.cons.inj alike
      have held : reading = .held ↔ reading' = .held := by
        rw [← AxisReading.state_eq_held, ← AxisReading.state_eq_held, first]
      rw [firstUnheld_cons, firstUnheld_cons]
      by_cases h : reading = .held
      · simp [h, held.mp h, ih rest]
      · simp [h, mt held.mpr h, first]

/-! ## The documents -/

/-- Two stamps agree or not, and are comparable or not, in either order. -/
theorem stamps_state_swap {x y detail detail' : String} {reason reason' : UnverifiedReason}
    {r r' : AxisReading} (differ : r.state = r'.state) :
    AxisReading.state
        (if era x ≠ era y then .unverified reason detail else if x = y then .held else r) =
      AxisReading.state
        (if era y ≠ era x then .unverified reason' detail' else if y = x then .held else r') := by
  by_cases eras : era x = era y
  · by_cases same : x = y
    · simp [same]
    · simp [eras, same, Ne.symm same, differ]
  · simp [eras, Ne.symm eras, AxisReading.state]

theorem compareStamps_state_swap (what what' baseline candidate : String) :
    (compareStamps what baseline candidate).state =
      (compareStamps what' candidate baseline).state :=
  stamps_state_swap rfl

theorem compareSeals_state_swap (eras eras' : String → String) (b c : Table String String)
    (id : String) :
    comparedState (compareSeals eras b c id) = comparedState (compareSeals eras' c b id) := by
  unfold compareSeals
  rcases b.get id with _ | bd
  · rcases c.get id with _ | cd <;> rfl
  rcases c.get id with _ | cd
  · rfl
  by_cases eras : era bd = era cd
  · by_cases same : bd = cd
    · simp [same, comparedState]
    · simp [eras, same, Ne.symm same, comparedState]
  · simp [eras, Ne.symm eras, comparedState]

/-- A case that is not held was sealed on both sides. -/
theorem sealed_of_unheld {eras : String → String} {b c : Table String String} {id : String}
    (unheld : comparedState (compareSeals eras b c id) ≠ .held) :
    id ∈ objectKeys b ∧ id ∈ objectKeys c := by
  rw [mem_objectKeys, mem_objectKeys]
  unfold compareSeals at unheld
  rcases inB : b.get id with _ | bd
  · simp [inB, comparedState] at unheld
  rcases inC : c.get id with _ | cd
  · simp [inB, inC, comparedState] at unheld
  exact ⟨⟨bd, rfl⟩, ⟨cd, rfl⟩⟩

theorem collect_seals_swap {eras eras' : String → String} {b c : Table String String}
    {xs ys : List String} (all : ∀ id, id ∈ objectKeys b → id ∈ objectKeys c → id ∈ xs)
    (all' : ∀ id, id ∈ objectKeys b → id ∈ objectKeys c → id ∈ ys) :
    comparedState (collect (compareSeals eras b c) xs) =
      comparedState (collect (compareSeals eras' c b) ys) := by
  apply collect_congr
  · intro id _ unheld
    obtain ⟨inB, inC⟩ := sealed_of_unheld unheld
    exact ⟨id, all' id inB inC, compareSeals_state_swap eras' eras c b id⟩
  · intro id _ unheld
    obtain ⟨inC, inB⟩ := sealed_of_unheld unheld
    exact ⟨id, all id inB inC, compareSeals_state_swap eras eras' b c id⟩

theorem mem_shared {ρ : Type*} {b c : Table String ρ} {id : String} :
    id ∈ (objectKeys b).filter (fun id => (c.get id).isSome) ↔
      id ∈ objectKeys b ∧ id ∈ objectKeys c := by
  rw [List.mem_filter, Option.isSome_iff_exists, ← mem_objectKeys]

theorem dataset_state_swap (b c : ScorecardManifest) :
    (datasetAxis b c).state = (datasetAxis c b).state := by
  unfold datasetAxis
  rcases b.cases with _ | bs
  · rcases c.cases with _ | cs <;> exact stamps_state_swap rfl
  rcases c.cases with _ | cs
  · exact stamps_state_swap rfl
  simp only [state_conclude]
  apply collect_seals_swap
  · intro id inB inC
    exact mem_shared.mpr ⟨inB, inC⟩
  · intro id inB inC
    exact mem_shared.mpr ⟨inC, inB⟩

variable {b c : ScorecardManifest}

theorem sameSelection_of_swap :
    sameSelection b c = true → sameSelection c b = true := by
  unfold sameSelection
  rcases b.cases with _ | bs
  · simp
  rcases c.cases with _ | cs
  · simp
  simp only [Bool.and_eq_true, decide_eq_true_eq, List.all_eq_true,
    Option.isSome_iff_exists, ← mem_objectKeys]
  intro same
  obtain ⟨length, sub⟩ := same
  have perm : (objectKeys bs).Perm (objectKeys cs) :=
    (List.subperm_of_subset (objectKeys_nodup bs) sub).perm_of_length_le length.ge
  exact ⟨length.symm, fun id mem => perm.mem_iff.mpr mem⟩

theorem sameSelection_comm (b c : ScorecardManifest) : sameSelection b c = sameSelection c b :=
  Bool.eq_iff_iff.mpr ⟨sameSelection_of_swap, sameSelection_of_swap⟩

theorem defaults_state_swap (b c : ScorecardManifest) (bg cg : String) :
    (defaultsReading b c bg cg).state = (defaultsReading c b cg bg).state := by
  unfold defaultsReading
  rcases b.gradingCases with _ | bs
  · rcases c.gradingCases with _ | cs <;>
      exact stamps_state_swap (by rw [sameSelection_comm])
  rcases c.gradingCases with _ | cs
  · exact stamps_state_swap (by rw [sameSelection_comm])
  simp only [state_conclude]
  exact collect_seals_swap (fun _ inB _ => inB) (fun _ _ inC => inC)

theorem presplit_state_swap (b c : ScorecardManifest) :
    (presplitGrading b c).state = (presplitGrading c b).state := by
  unfold presplitGrading
  rcases b.graders with _ | bp <;> rcases c.graders with _ | cp
  · exact stamps_state_swap rfl
  · rfl
  · rfl
  · exact compareStamps_state_swap _ _ bp cp

theorem grading_state_swap (b c : ScorecardManifest) :
    (gradingPlanAxis b c).state = (gradingPlanAxis c b).state := by
  unfold gradingPlanAxis
  rcases b.grading with _ | bg <;> rcases c.grading with _ | cg
  · exact presplit_state_swap b c
  · rfl
  · rfl
  rcases b.graders with _ | bp <;> rcases c.graders with _ | cp
  · exact defaults_state_swap b c bg cg
  · rfl
  · rfl
  · exact compareStamps_state_swap _ _ bg cg

/-! ## The environments -/

theorem compareEnvironments_state_swap (be ce : Table String SealedEnvironmentEntry)
    (id : String) :
    comparedState (compareEnvironments be ce id) =
      comparedState (compareEnvironments ce be id) := by
  unfold compareEnvironments
  rcases be.get id with _ | b <;> rcases ce.get id with _ | c
  · rfl
  · rfl
  · rfl
  dsimp only
  rcases b.digest with _ | bd <;> rcases c.digest with _ | cd
  · rfl
  · rfl
  · rfl
  by_cases eras : era bd = era cd
  · by_cases same : b.ref ≠ c.ref ∨ bd ≠ cd
    · have same' : c.ref ≠ b.ref ∨ cd ≠ bd := same.imp Ne.symm Ne.symm
      simp only [eras, ne_eq, not_true_eq_false, if_false]
      rw [if_pos same, if_pos same']
      rfl
    · have same' : ¬ (c.ref ≠ b.ref ∨ cd ≠ bd) := fun h => same (h.imp Ne.symm Ne.symm)
      simp only [eras, ne_eq, not_true_eq_false, if_false]
      rw [if_neg same, if_neg same']
  · simp [eras, Ne.symm eras, comparedState]

theorem environment_state_swap (b c : ScorecardManifest) :
    (environmentAxis b c).map AxisReading.state =
      (environmentAxis c b).map AxisReading.state := by
  unfold environmentAxis
  generalize b.environments.getD .empty = be
  generalize c.environments.getD .empty = ce
  have shared : ∀ id, id ∈ (objectKeys be).filter (fun id => (ce.get id).isSome) ↔
      id ∈ (objectKeys ce).filter (fun id => (be.get id).isSome) := by
    intro id
    rw [mem_shared, mem_shared, and_comm]
  dsimp only
  rcases bkeys : objectKeys be with _ | ⟨bk, bks⟩ <;>
    rcases ckeys : objectKeys ce with _ | ⟨ck, cks⟩
  · rfl
  · rfl
  · rfl
  rw [bkeys, ckeys] at shared
  simp only
  by_cases disjoint : (bk :: bks).filter (fun id => (ce.get id).isSome) = []
  · have disjoint' : (ck :: cks).filter (fun id => (be.get id).isSome) = [] := by
      apply List.eq_nil_iff_forall_not_mem.mpr
      intro id mem
      have none : id ∈ [] := disjoint ▸ (shared id).mpr mem
      cases none
    rw [if_pos disjoint, if_pos disjoint']
  · have disjoint' : ¬ (ck :: cks).filter (fun id => (be.get id).isSome) = [] := by
      intro none
      apply disjoint
      apply List.eq_nil_iff_forall_not_mem.mpr
      intro id mem
      have mem' : id ∈ [] := none ▸ (shared id).mp mem
      cases mem'
    rw [if_neg disjoint, if_neg disjoint']
    simp only [Option.map_some, state_conclude, Option.some.injEq]
    apply collect_congr
    · intro id mem _
      exact ⟨id, (shared id).mp mem, compareEnvironments_state_swap ce be id⟩
    · intro id mem _
      exact ⟨id, (shared id).mpr mem, compareEnvironments_state_swap be ce id⟩

/-! ## The judges -/

/-- What a reference resolved to is verified to be the same on both sides. -/
def SameClosure (declared : Prop) (bv cv : Option String) : Prop :=
  bv = cv ∧ bv ≠ some "unresolved" ∧ (bv = none → declared)

theorem closureReading_eq_held {texts : ClosureTexts} {absent : AxisReading}
    {bv cv : Option String} :
    closureReading texts absent bv cv = .held ↔ SameClosure (absent = .held) bv cv := by
  unfold closureReading SameClosure
  by_cases unresolved : bv = some "unresolved" ∨ cv = some "unresolved"
  · rw [if_pos unresolved]
    simp only [reduceCtorEq, false_iff]
    intro h
    obtain ⟨same, resolved, -⟩ := h
    rcases unresolved with here | there
    · exact resolved here
    · exact resolved (same.trans there)
  · rw [if_neg unresolved]
    obtain ⟨bresolved, cresolved⟩ := not_or.mp unresolved
    rcases bv with _ | bv <;> rcases cv with _ | cv
    · simp
    · simp
    · simp
    · by_cases same : bv = cv
      · simp_all
      · simp [same]

theorem closureReading_state_swap (texts texts' : ClosureTexts) {absent absent' : AxisReading}
    (alike : absent.state = absent'.state) (bv cv : Option String) :
    (closureReading texts absent bv cv).state = (closureReading texts' absent' cv bv).state := by
  unfold closureReading
  by_cases unresolved : bv = some "unresolved" ∨ cv = some "unresolved"
  · rw [if_pos unresolved, if_pos unresolved.symm]
    rfl
  · rw [if_neg unresolved, if_neg (mt Or.symm unresolved)]
    rcases bv with _ | bv <;> rcases cv with _ | cv
    · exact alike
    · rfl
    · rfl
    · by_cases same : bv = cv
      · simp [same]
      · simp [same, Ne.symm same, AxisReading.state]

theorem absentReading_eq_held {detail : String → String} :
    absentReading b c detail = .held ↔ eraDeclared b ∧ eraDeclared c := by
  unfold absentReading
  by_cases declared : eraDeclared b ∧ eraDeclared c <;> simp [declared]

theorem absentReading_state_swap (b c : ScorecardManifest) (detail detail' : String → String) :
    (absentReading b c detail).state = (absentReading c b detail').state := by
  unfold absentReading
  by_cases declared : eraDeclared b ∧ eraDeclared c
  · rw [if_pos declared, if_pos declared.symm]
  · rw [if_neg declared, if_neg (mt And.symm declared)]
    rfl

/-- Both sides sealed which runtime judge they scored under, and it is the same one. -/
def SameRun (b c : ScorecardManifest) : Prop :=
  if splitSeal b ∧ splitSeal c then
    b.judgeRun.map SealedJudgeRun.model ≠ some "unresolved"
      ∧ c.judgeRun.map SealedJudgeRun.model ≠ some "unresolved"
      ∧ runKey b.judgeRun = runKey c.judgeRun
  else b.judgeRun = none ∧ c.judgeRun = none

theorem judgeRunReading_eq_held :
    judgeRunReading b c = .held ↔ SameRun b c := by
  unfold judgeRunReading SameRun
  by_cases split : splitSeal b ∧ splitSeal c
  · simp only [if_pos split]
    by_cases unresolved : b.judgeRun.map SealedJudgeRun.model = some "unresolved"
        ∨ c.judgeRun.map SealedJudgeRun.model = some "unresolved"
    · rw [if_pos unresolved]
      tauto
    · rw [if_neg unresolved]
      by_cases same : runKey b.judgeRun = runKey c.judgeRun
      · rw [if_neg (not_not_intro same)]
        tauto
      · rw [if_pos same]
        simp [same]
  · simp only [if_neg split]
    rcases b.judgeRun with _ | br <;> rcases c.judgeRun with _ | cr <;> simp

theorem judgeRun_state_swap (b c : ScorecardManifest) :
    (judgeRunReading b c).state = (judgeRunReading c b).state := by
  unfold judgeRunReading
  dsimp only
  by_cases split : splitSeal b ∧ splitSeal c
  · rw [if_pos split, if_pos split.symm]
    by_cases unresolved : b.judgeRun.map SealedJudgeRun.model = some "unresolved"
        ∨ c.judgeRun.map SealedJudgeRun.model = some "unresolved"
    · rw [if_pos unresolved, if_pos unresolved.symm]
    · rw [if_neg unresolved, if_neg (mt Or.symm unresolved)]
      by_cases same : runKey b.judgeRun = runKey c.judgeRun
      · rw [if_neg (not_not_intro same), if_neg (not_not_intro same.symm)]
      · rw [if_pos same, if_pos (Ne.symm same)]
        rfl
  · rw [if_neg split, if_neg (mt And.symm split)]
    by_cases sealed : b.judgeRun.isSome ∨ c.judgeRun.isSome
    · rw [if_pos sealed, if_pos sealed.symm]
    · rw [if_neg sealed, if_neg (mt Or.symm sealed)]

/-- Two judges are verified to be one judge: the document and all it refers to. -/
def SameJudge (declared : Prop) (bj cj : SealedJudgeEntry) : Prop :=
  bj.specDigest.isSome ∧ bj.specDigest = cj.specDigest ∧
    SameClosure declared bj.model cj.model ∧ SameClosure declared bj.rubric cj.rubric ∧
    SameClosure declared bj.harness cj.harness

theorem compareStamps_eq_held {what baseline candidate : String} :
    compareStamps what baseline candidate = .held ↔ baseline = candidate := by
  unfold compareStamps
  by_cases same : baseline = candidate
  · simp [same]
  · by_cases eras : era baseline = era candidate <;> simp [same, eras]

theorem judgeReading_eq_held {bj cj : SealedJudgeEntry} :
    judgeReading b c bj (some cj) = .held ↔
      SameJudge (eraDeclared b ∧ eraDeclared c) bj cj := by
  unfold judgeReading SameJudge
  dsimp only
  rcases bj.specDigest with _ | bd
  · simp [missingSpec]
  dsimp only
  rcases cj.specDigest with _ | cd
  · simp [missingSpec]
  simp only [firstUnheld_eq_held, List.forall_mem_cons, List.not_mem_nil, false_implies,
    implies_true, and_true, compareStamps_eq_held, closureReading_eq_held, judgeAbsent,
    absentReading_eq_held, Option.isSome_some, true_and, Option.some.injEq]

theorem judgeReading_state_swap (b c : ScorecardManifest) (bj cj : SealedJudgeEntry) :
    (judgeReading b c bj (some cj)).state = (judgeReading c b cj (some bj)).state := by
  rcases bd : bj.specDigest with _ | bd <;> rcases cd : cj.specDigest with _ | cd
  · simp only [judgeReading, bd, cd]
    rfl
  · simp only [judgeReading, bd, cd]
    rfl
  · simp only [judgeReading, bd, cd]
    rfl
  simp only [judgeReading, bd, cd]
  apply firstUnheld_congr
  have absent : ∀ name name' what, (judgeAbsent b c name what).state =
      (judgeAbsent c b name' what).state := fun _ _ _ => absentReading_state_swap b c _ _
  simp only [List.map_cons, List.map_nil]
  rw [compareStamps_state_swap, closureReading_state_swap _ _ (absent _ _ _),
    closureReading_state_swap _ _ (absent _ _ _), closureReading_state_swap _ _ (absent _ _ _)]

theorem judgeReading_none_state (b c : ScorecardManifest) (bj : SealedJudgeEntry) :
    (judgeReading b c bj none).state = .unverified := by
  unfold judgeReading
  rcases bj.specDigest with _ | bd <;> rfl

/-- The judges that have one at their place come first. -/
theorem judgeReadings_eq (b c : ScorecardManifest) (bs cs : List SealedJudgeEntry) :
    (bs.mapIdx fun i bj => judgeReading b c bj cs[i]?) =
      (bs.zip cs).map (fun pair => judgeReading b c pair.1 (some pair.2)) ++
        (bs.drop cs.length).map fun bj => judgeReading b c bj none := by
  induction bs generalizing cs with
  | nil => simp
  | cons bj bs ih =>
      rcases cs with _ | ⟨cj, cs⟩
      · have rest := ih []
        simpa using rest
      · have rest := ih cs
        simpa using rest

/-- The judges of the two sides that stand at the same place. -/
def facing (b c : ScorecardManifest) : List (SealedJudgeEntry × SealedJudgeEntry) :=
  (sortJudges b.judges).zip (sortJudges c.judges)

def facingReading (b c : ScorecardManifest) : AxisReading :=
  firstUnheld ((facing b c).map fun pair => judgeReading b c pair.1 (some pair.2))

theorem facingReading_state_swap (b c : ScorecardManifest) :
    (facingReading b c).state = (facingReading c b).state := by
  have swapped : facing c b = (facing b c).map Prod.swap := (List.zip_swap _ _).symm
  unfold facingReading
  apply firstUnheld_congr
  rw [swapped]
  simp only [List.map_map]
  apply List.map_congr_left
  intro pair _
  exact judgeReading_state_swap b c pair.1 pair.2

theorem facingReading_eq_held :
    facingReading b c = .held ↔
      ∀ pair ∈ facing b c, SameJudge (eraDeclared b ∧ eraDeclared c) pair.1 pair.2 := by
  simp only [facingReading, firstUnheld_eq_held, List.forall_mem_map, judgeReading_eq_held]

theorem selectionReading_state
    (same : selection (sortJudges b.judges) = selection (sortJudges c.judges)) :
    (selectionReading b c (sortJudges b.judges) (sortJudges c.judges)).state =
      if facingReading b c = .held then
        if (sortJudges b.judges).length ≤ (sortJudges c.judges).length then .held else .unverified
      else (facingReading b c).state := by
  unfold selectionReading
  dsimp only
  by_cases empty : sortJudges b.judges = [] ∧ sortJudges c.judges = []
  · simp [facingReading, facing, empty, AxisReading.state]
  rw [if_neg empty, if_neg (not_not_intro same), judgeReadings_eq, firstUnheld_append]
  by_cases held : facingReading b c = .held
  · rw [if_pos held]
    refine (congrArg AxisReading.state (if_pos held)).trans ?_
    rcases rest : (sortJudges b.judges).drop (sortJudges c.judges).length with _ | ⟨bj, bjs⟩
    · rw [if_pos (List.drop_eq_nil_iff.mp rest)]
      rfl
    · have longer : ¬ (sortJudges b.judges).length ≤ (sortJudges c.judges).length := by
        intro shorter
        rw [List.drop_eq_nil_iff.mpr shorter] at rest
        cases rest
      have unheld : judgeReading b c bj none ≠ .held := by
        intro held
        have state := judgeReading_none_state b c bj
        rw [held] at state
        cases state
      rw [if_neg longer, List.map_cons, firstUnheld_cons, if_neg unheld]
      exact judgeReading_none_state b c bj
  · rw [if_neg held]
    exact congrArg AxisReading.state (if_neg held)

theorem judgeSetAxis_eq (b c : ScorecardManifest) :
    judgeSetAxis b c =
      if judgeRunReading b c = .held then
        selectionReading b c (sortJudges b.judges) (sortJudges c.judges)
      else judgeRunReading b c := by
  unfold judgeSetAxis
  rw [firstUnheld_cons, firstUnheld_cons, firstUnheld_nil]
  congr 1
  exact ite_eq_right_iff.mpr Eq.symm

/-- Where the names of the judges agree, and so does every judge with the one at its
place, neither list runs out before the other. -/
def JudgesAligned (b c : ScorecardManifest) : Prop :=
  SameRun b c → selection (sortJudges b.judges) = selection (sortJudges c.judges) →
    (∀ pair ∈ facing b c, SameJudge (eraDeclared b ∧ eraDeclared c) pair.1 pair.2) →
    (sortJudges b.judges).length = (sortJudges c.judges).length

theorem judgeSet_state_swap_iff (b c : ScorecardManifest) :
    (judgeSetAxis b c).state = (judgeSetAxis c b).state ↔ JudgesAligned b c := by
  have run := judgeRun_state_swap b c
  have runHeld : judgeRunReading b c = .held ↔ judgeRunReading c b = .held := by
    rw [← AxisReading.state_eq_held, run, AxisReading.state_eq_held]
  have faced := facingReading_state_swap b c
  have facedHeld : facingReading b c = .held ↔ facingReading c b = .held := by
    rw [← AxisReading.state_eq_held, faced, AxisReading.state_eq_held]
  unfold JudgesAligned
  rw [← judgeRunReading_eq_held, ← facingReading_eq_held, judgeSetAxis_eq, judgeSetAxis_eq]
  by_cases ran : judgeRunReading b c = .held
  · rw [if_pos ran, if_pos (runHeld.mp ran)]
    by_cases same : selection (sortJudges b.judges) = selection (sortJudges c.judges)
    · rw [selectionReading_state same, selectionReading_state same.symm]
      by_cases held : facingReading b c = .held
      · rw [if_pos held, if_pos (facedHeld.mp held)]
        rcases lt_trichotomy (sortJudges b.judges).length (sortJudges c.judges).length
          with shorter | equal | longer
        · simp [ran, same, held, shorter.le, shorter.not_ge, shorter.ne]
        · simp [equal]
        · simp [ran, same, held, longer.le, longer.not_ge, longer.ne']
      · rw [if_neg held, if_neg (mt facedHeld.mpr held)]
        simp [held, faced]
    · have nonempty : ¬ (sortJudges b.judges = [] ∧ sortJudges c.judges = []) := by
        intro empty
        apply same
        rw [empty.1, empty.2]
      unfold selectionReading
      dsimp only
      rw [if_neg nonempty, if_pos same, if_neg (mt And.symm nonempty), if_pos (Ne.symm same)]
      simp [same, AxisReading.state]
  · rw [if_neg ran, if_neg (mt runHeld.mpr ran)]
    simp [ran, run]

/-! ## The harness models -/

/-- A model that both sides sealed, resolved, and it is not the same one. -/
def MovedModel (bv cv : Option String) : Prop :=
  bv.isSome ∧ cv.isSome ∧ bv ≠ some "unresolved" ∧ cv ≠ some "unresolved" ∧ bv ≠ cv

/-- The first key of a side under which the models do not verifiably agree. -/
def firstUnsettled (bs cs : Table String String) : Option String :=
  (objectKeys bs).find? fun key => ¬ (bs.get key = cs.get key ∧ bs.get key ≠ some "unresolved")

/-- Unless the harness itself moved, the first keys that do not agree are of one kind:
a model moved under both of them, or under neither. -/
def ModelsAligned (b c : ScorecardManifest) : Prop :=
  treatmentHeld b c → ∀ bkey ckey, firstUnsettled (sealedOf b) (sealedOf c) = some bkey →
    firstUnsettled (sealedOf c) (sealedOf b) = some ckey →
    (MovedModel ((sealedOf b).get bkey) ((sealedOf c).get bkey) ↔
      MovedModel ((sealedOf c).get ckey) ((sealedOf b).get ckey))

theorem treatmentHeld_comm (b c : ScorecardManifest) : treatmentHeld b c = treatmentHeld c b := by
  simp [treatmentHeld, eq_comm]

section Models

variable {b c : ScorecardManifest}

def modelReading (b : ScorecardManifest) (bs cs : Table String String) (key : String) :
    AxisReading :=
  closureReading (modelTexts b key) .held (bs.get key) (cs.get key)

variable {bs cs : Table String String} {key : String}

theorem modelReading_moved (moved : MovedModel (bs.get key) (cs.get key)) :
    (modelReading b bs cs key).state = .confound := by
  obtain ⟨bsealed, csealed, bresolved, cresolved, differ⟩ := moved
  obtain ⟨bv, bget⟩ := Option.isSome_iff_exists.mp bsealed
  obtain ⟨cv, cget⟩ := Option.isSome_iff_exists.mp csealed
  rw [bget, cget] at differ
  rw [bget] at bresolved
  rw [cget] at cresolved
  unfold modelReading closureReading
  rw [bget, cget, if_neg (not_or.mpr ⟨bresolved, cresolved⟩)]
  simp [mt (congrArg some) differ, AxisReading.state]

theorem modelReading_eq_held :
    modelReading b bs cs key = .held ↔
      bs.get key = cs.get key ∧ bs.get key ≠ some "unresolved" := by
  simp [modelReading, closureReading_eq_held, SameClosure]

theorem modelReading_state_of_unheld (unheld : modelReading b bs cs key ≠ .held)
    (unmoved : ¬ MovedModel (bs.get key) (cs.get key)) :
    (modelReading b bs cs key).state = .unverified := by
  rw [Ne, modelReading_eq_held] at unheld
  unfold modelReading closureReading
  by_cases unresolved : bs.get key = some "unresolved" ∨ cs.get key = some "unresolved"
  · rw [if_pos unresolved]
    rfl
  rw [if_neg unresolved]
  obtain ⟨bresolved, cresolved⟩ := not_or.mp unresolved
  rcases bget : bs.get key with _ | bv <;> rcases cget : cs.get key with _ | cv
  · exact absurd ⟨bget.trans cget.symm, bresolved⟩ unheld
  · rfl
  · rfl
  · have differ : bs.get key ≠ cs.get key := fun same => unheld ⟨same, bresolved⟩
    exact absurd ⟨by simp [bget], by simp [cget], bresolved, cresolved, differ⟩ unmoved

theorem firstUnheld_map {keys : List String} (f : String → AxisReading) :
    firstUnheld (keys.map f) =
      match keys.find? fun key => f key ≠ .held with
      | some key => f key
      | none => .held := by
  rw [firstUnheld, List.find?_map]
  have same : (fun reading : AxisReading => decide (reading ≠ .held)) ∘ f =
      fun key => decide (f key ≠ .held) := rfl
  rw [same]
  rcases keys.find? fun key => f key ≠ .held with _ | key <;> rfl

theorem firstUnsettled_eq (b : ScorecardManifest) (bs cs : Table String String) :
    firstUnsettled bs cs = (objectKeys bs).find? fun key => modelReading b bs cs key ≠ .held := by
  unfold firstUnsettled
  congr 1
  funext key
  simp only [ne_eq, modelReading_eq_held]

theorem modelReading_ne_held (first : firstUnsettled bs cs = some key) :
    modelReading b bs cs key ≠ .held := by
  rw [firstUnsettled_eq b] at first
  simpa using List.find?_some first

theorem firstUnsettled_eq_none :
    firstUnsettled bs cs = none ↔ ∀ key ∈ objectKeys bs,
      bs.get key = cs.get key ∧ bs.get key ≠ some "unresolved" := by
  simp [firstUnsettled]

/-- When all the keys of one side are settled, the other side has no further one exactly
when its own are. -/
theorem further_eq_nil_iff {bs cs : Table String String}
    (settled : firstUnsettled bs cs = none) :
    (objectKeys cs).filter (fun key => (bs.get key).isNone) = [] ↔
      firstUnsettled cs bs = none := by
  rw [firstUnsettled_eq_none] at settled
  rw [List.filter_eq_nil_iff, firstUnsettled_eq_none]
  constructor
  · intro none key mem
    have sealed : ∃ value, bs.get key = some value := by
      apply Option.ne_none_iff_exists'.mp
      simpa using none key mem
    obtain ⟨same, resolved⟩ := settled key (mem_objectKeys.mpr sealed)
    exact ⟨same.symm, same ▸ resolved⟩
  · intro all key mem isNone
    obtain ⟨value, get⟩ := mem_objectKeys.mp mem
    have same := (all key mem).1
    rw [Option.isNone_iff_eq_none.mp isNone, get] at same
    cases same

theorem harnessModel_state (treatment : treatmentHeld b c)
    (bnonempty : objectKeys (sealedOf b) ≠ []) (cnonempty : objectKeys (sealedOf c) ≠ []) :
    (harnessModelAxis b c).state =
      match firstUnsettled (sealedOf b) (sealedOf c) with
      | some key => (modelReading b (sealedOf b) (sealedOf c) key).state
      | none =>
          if firstUnsettled (sealedOf c) (sealedOf b) = none then .held else .unverified := by
  have read : harnessModelAxis b c = firstUnheld
      ((objectKeys (sealedOf b) ++
          (objectKeys (sealedOf c)).filter fun key => ((sealedOf b).get key).isNone).map
        (modelReading b (sealedOf b) (sealedOf c))) := by
    unfold harnessModelAxis
    rw [if_neg (not_not_intro treatment)]
    dsimp only
    rcases bkeys : objectKeys (sealedOf b) with _ | ⟨bk, bks⟩
    · exact absurd bkeys bnonempty
    rcases ckeys : objectKeys (sealedOf c) with _ | ⟨ck, cks⟩
    · exact absurd ckeys cnonempty
    rfl
  have further := @further_eq_nil_iff (sealedOf b) (sealedOf c)
  rw [read, List.map_append, firstUnheld_append, firstUnheld_map, ← firstUnsettled_eq]
  rcases first : firstUnsettled (sealedOf b) (sealedOf c) with _ | key
  · simp only [if_true]
    rcases rest : (objectKeys (sealedOf c)).filter fun key => ((sealedOf b).get key).isNone
      with _ | ⟨key, keys⟩
    · rw [if_pos ((further first).mp rest)]
      rfl
    · have unsettled : firstUnsettled (sealedOf c) (sealedOf b) ≠ none := by
        intro settled
        rw [(further first).mpr settled] at rest
        cases rest
      have mem : key ∈ (objectKeys (sealedOf c)).filter
          fun key => ((sealedOf b).get key).isNone := by
        rw [rest]
        exact List.mem_cons_self
      obtain ⟨mem, isNone⟩ := List.mem_filter.mp mem
      have absent := Option.isNone_iff_eq_none.mp isNone
      obtain ⟨value, get⟩ := mem_objectKeys.mp mem
      have unheld : modelReading b (sealedOf b) (sealedOf c) key ≠ .held := by
        rw [Ne, modelReading_eq_held, absent, get]
        simp
      rw [if_neg unsettled, List.map_cons, firstUnheld_cons, if_neg unheld]
      apply modelReading_state_of_unheld unheld
      simp [MovedModel, absent]
  · exact congrArg AxisReading.state (if_neg (modelReading_ne_held first))

/-- The first unsettled key is a moved model, or nobody can verify it. -/
theorem firstUnsettled_state (first : firstUnsettled bs cs = some key) :
    (modelReading b bs cs key).state = .confound ∧ MovedModel (bs.get key) (cs.get key) ∨
      (modelReading b bs cs key).state = .unverified ∧
        ¬ MovedModel (bs.get key) (cs.get key) := by
  have unheld : modelReading b bs cs key ≠ .held := modelReading_ne_held first
  by_cases moved : MovedModel (bs.get key) (cs.get key)
  · exact Or.inl ⟨modelReading_moved moved, moved⟩
  · exact Or.inr ⟨modelReading_state_of_unheld unheld moved, moved⟩

/-- Where all the keys of one side are settled, no model moved. -/
theorem unmoved_of_settled (settled : firstUnsettled bs cs = none) (key : String) :
    ¬ MovedModel (cs.get key) (bs.get key) := by
  intro moved
  obtain ⟨-, sealed, -, -, differ⟩ := moved
  obtain ⟨value, get⟩ := Option.isSome_iff_exists.mp sealed
  have same := (firstUnsettled_eq_none.mp settled key (mem_objectKeys.mpr ⟨value, get⟩)).1
  exact differ same.symm

theorem firstUnsettled_of_empty (empty : objectKeys bs = []) :
    firstUnsettled bs cs = none := by
  simp [firstUnsettled, empty]

/-- A side without any sealed model reads alike from both ends. -/
theorem harnessModel_state_of_empty (treatment : treatmentHeld b c)
    (empty : objectKeys (sealedOf b) = []) :
    (harnessModelAxis b c).state = (harnessModelAxis c b).state := by
  have treatment' : treatmentHeld c b := treatmentHeld_comm b c ▸ treatment
  unfold harnessModelAxis
  rw [if_neg (not_not_intro treatment), if_neg (not_not_intro treatment')]
  dsimp only
  rw [empty]
  rcases objectKeys (sealedOf c) with _ | ⟨ck, cks⟩
  · exact absentReading_state_swap b c _ _
  · rfl

theorem harnessModel_state_swap_iff (b c : ScorecardManifest) :
    (harnessModelAxis b c).state = (harnessModelAxis c b).state ↔ ModelsAligned b c := by
  unfold ModelsAligned
  by_cases treatment : treatmentHeld b c
  swap
  · have treatment' : ¬ treatmentHeld c b := treatmentHeld_comm b c ▸ treatment
    simp [harnessModelAxis, treatment, treatment']
  have treatment' : treatmentHeld c b := treatmentHeld_comm b c ▸ treatment
  by_cases bempty : objectKeys (sealedOf b) = []
  · simp [harnessModel_state_of_empty treatment bempty, firstUnsettled_of_empty bempty]
  by_cases cempty : objectKeys (sealedOf c) = []
  · simp [← harnessModel_state_of_empty treatment' cempty, firstUnsettled_of_empty cempty]
  rw [harnessModel_state treatment bempty cempty, harnessModel_state treatment' cempty bempty]
  rcases bfirst : firstUnsettled (sealedOf b) (sealedOf c) with _ | bkey
  · rcases cfirst : firstUnsettled (sealedOf c) (sealedOf b) with _ | ckey
    · simp
    · -- the other side's first key is one that this side never sealed
      rcases firstUnsettled_state (b := c) cfirst with ⟨state, moved⟩ | ⟨state, unmoved⟩
      · exact absurd moved (unmoved_of_settled bfirst ckey)
      · simp [state]
  · rcases cfirst : firstUnsettled (sealedOf c) (sealedOf b) with _ | ckey
    · rcases firstUnsettled_state (b := b) bfirst with ⟨state, moved⟩ | ⟨state, unmoved⟩
      · exact absurd moved (unmoved_of_settled cfirst bkey)
      · simp [state]
    · rcases firstUnsettled_state (b := b) bfirst with ⟨bstate, bmoved⟩ | ⟨bstate, bmoved⟩ <;>
        rcases firstUnsettled_state (b := c) cfirst with ⟨cstate, cmoved⟩ | ⟨cstate, cmoved⟩ <;>
        simp [treatment, bstate, bmoved, cstate, cmoved]

end Models

end Everdict.Scorecard.Identity
