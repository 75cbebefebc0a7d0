import Everdict.Scorecard.AxisSymmetry

/-!
# What a held world says

The world axis compares every baseline row with the last candidate row of its case.
`held_world_and_swap` says when that is enough: a held axis speaks for every row of a
case and a trial exactly when the rows it never looked at ran where the last one did,
and its answer survives a swap of the sides when the rows of a case are alike.
-/

namespace Everdict.Scorecard.Identity

/-! ## The world of a row -/

def pinnedKey : ImageProvenance → Option String
  | .resolved images _ => some (imageKey images)
  | _ => none

def resolvedKey (r : ExecutedResult) : Option String :=
  r.execution.bind fun e => pinnedKey (imageProvenanceOf e)

/-- Everything of an attested box that the comparison reads. -/
structure BoxKey where
  os : PlacementOs
  enforcedBy : Enforcer
  isolation : Option String
  cpu : Option Nat
  memoryMb : Option Nat
  gpu : Option Nat
  mode : Option NetworkMode
  hosts : List String
  deriving DecidableEq

def boxKey (w : ProvisionedWorldProof) : BoxKey where
  os := w.os
  enforcedBy := w.enforcedBy
  isolation := w.isolation
  cpu := w.resources.bind fun r => r.cpu
  memoryMb := w.resources.bind fun r => r.memoryMb
  gpu := w.resources.bind fun r => r.gpu
  mode := w.network.map NetworkPolicy.mode
  hosts := Text.sort ((w.network.map NetworkPolicy.allowedHosts).getD [])

def worldOf (r : ExecutedResult) : Option ProvisionedWorldProof :=
  r.execution.bind ExecutionManifest.world

theorem sameHosts_iff {a b : Option (List String)} :
    sameHosts a b = true ↔ Text.sort (a.getD []) = Text.sort (b.getD []) := by
  unfold sameHosts
  generalize Text.sort (a.getD []) = x
  generalize Text.sort (b.getD []) = y
  simp only [Bool.and_eq_true, decide_eq_true_eq, List.all_eq_true]
  induction x generalizing y with
  | nil => cases y <;> simp
  | cons h x ih =>
      rcases y with _ | ⟨h', y⟩
      · simp
      · simp only [List.length_cons, Nat.add_right_cancel_iff, List.zip_cons_cons,
          List.forall_mem_cons, List.cons.injEq, ← ih y]
        tauto

theorem sameEnforcedWorld_iff {v w : ProvisionedWorldProof} :
    sameEnforcedWorld v w = true ↔ boxKey v = boxKey w := by
  simp only [sameEnforcedWorld, Bool.and_eq_true, decide_eq_true_eq, sameHosts_iff, boxKey,
    BoxKey.mk.injEq, and_assoc]

/-- The two executions recorded the same resolved image. -/
def SameImage (x y : ExecutedResult) : Prop :=
  ∃ xe ye, x.execution = some xe ∧ y.execution = some ye ∧
    sameResolvedImages (imageProvenanceOf xe) (imageProvenanceOf ye) = true

/-- The two executions recorded the same enforced box, or neither recorded one. -/
def SameBox (x y : ExecutedResult) : Prop :=
  match worldOf x, worldOf y with
  | none, none => True
  | some v, some w => sameEnforcedWorld v w = true
  | _, _ => False

def SameWorld (x y : ExecutedResult) : Prop := SameImage x y ∧ SameBox x y

theorem sameResolvedImages_iff {p q : ImageProvenance} :
    sameResolvedImages p q = true ↔ (pinnedKey p).isSome ∧ pinnedKey p = pinnedKey q := by
  rcases p with _ | ⟨images, resolver⟩ | ⟨images, reason, detail⟩ <;>
    rcases q with _ | ⟨images', resolver'⟩ | ⟨images', reason', detail'⟩ <;>
    simp [sameResolvedImages, pinnedKey]

theorem sameImage_iff {x y : ExecutedResult} :
    SameImage x y ↔ (resolvedKey x).isSome ∧ resolvedKey x = resolvedKey y := by
  simp only [SameImage, resolvedKey, sameResolvedImages_iff]
  rcases x.execution with _ | xe
  · simp
  rcases y.execution with _ | ye
  · rcases pinned : pinnedKey (imageProvenanceOf xe) with _ | key <;> simp [pinned]
  · simp

theorem sameBox_iff {x y : ExecutedResult} :
    SameBox x y ↔ (worldOf x).map boxKey = (worldOf y).map boxKey := by
  unfold SameBox
  rcases worldOf x with _ | v <;> rcases worldOf y with _ | w <;> simp [sameEnforcedWorld_iff]

theorem SameWorld.symm {x y : ExecutedResult} (same : SameWorld x y) : SameWorld y x := by
  obtain ⟨image, box⟩ := same
  rw [sameImage_iff] at image
  rw [sameBox_iff] at box
  exact ⟨sameImage_iff.mpr ⟨image.2 ▸ image.1, image.2.symm⟩, sameBox_iff.mpr box.symm⟩

theorem SameWorld.trans {x y z : ExecutedResult} (left : SameWorld x y) (right : SameWorld y z) :
    SameWorld x z := by
  obtain ⟨image, box⟩ := left
  obtain ⟨image', box'⟩ := right
  rw [sameImage_iff] at image image'
  rw [sameBox_iff] at box box'
  exact ⟨sameImage_iff.mpr ⟨image.1, image.2.trans image'.2⟩, sameBox_iff.mpr (box.trans box')⟩

/-! ## What the comparison reads of a row -/

structure Footprint where
  verifier : Option Bool
  executed : Bool
  images : Option String
  box : Option BoxKey
  deriving DecidableEq

def footprint (r : ExecutedResult) : Footprint where
  verifier := r.verifier.map VerifierReceipt.complete
  executed := r.execution.isSome
  images := resolvedKey r
  box := (worldOf r).map boxKey

/-- What two footprints are to each other; the order of the two does not matter. -/
def footState (f g : Footprint) : AxisState :=
  if f.verifier = some false ∨ g.verifier = some false then .unverified
  else if f.images = none ∨ g.images = none then .unverified
  else if f.box.isSome ≠ g.box.isSome then .unverified
  else if f.images = g.images ∧ f.box = g.box then .held
  else .confound

theorem footState_comm (f g : Footprint) : footState f g = footState g f := by
  have pinned : f.images = none ∨ g.images = none ↔ g.images = none ∨ f.images = none := or_comm
  simp only [footState, pinned, @or_comm (f.verifier = some false), @ne_comm _ f.box.isSome,
    @eq_comm _ f.images g.images, @eq_comm _ f.box]

theorem footState_eq_held {f g : Footprint} :
    footState f g = .held ↔ f.verifier ≠ some false ∧ g.verifier ≠ some false ∧
      f.images ≠ none ∧ f.images = g.images ∧ f.box = g.box := by
  unfold footState
  by_cases verifier : f.verifier = some false ∨ g.verifier = some false
  · rw [if_pos verifier]
    simp only [reduceCtorEq, false_iff]
    tauto
  rw [if_neg verifier]
  by_cases images : f.images = none ∨ g.images = none
  · rw [if_pos images]
    simp only [reduceCtorEq, false_iff]
    intro h
    obtain ⟨-, -, pinned, same, -⟩ := h
    rcases images with here | there
    · exact pinned here
    · exact pinned (same.trans there)
  rw [if_neg images]
  by_cases box : f.box.isSome ≠ g.box.isSome
  · rw [if_pos box]
    simp only [reduceCtorEq, false_iff]
    intro h
    exact box (congrArg Option.isSome h.2.2.2.2)
  rw [if_neg box]
  by_cases same : f.images = g.images ∧ f.box = g.box
  · rw [if_pos same]
    tauto
  · rw [if_neg same]
    simp only [reduceCtorEq, false_iff]
    tauto

theorem incompleteVerifier_iff {r : ExecutedResult} :
    incompleteVerifier r = true ↔ (footprint r).verifier = some false := by
  unfold incompleteVerifier footprint
  rcases r.verifier with _ | v
  · simp
  · rcases v with ⟨_ | _⟩ <;> simp

theorem silent_iff {r : ExecutedResult} :
    silent r = true ↔ (footprint r).executed = false ∧ (footprint r).verifier = none := by
  simp [silent, footprint]

theorem compareImages_unpinned (caseId : String) {p q : ImageProvenance}
    (unpinned : pinnedKey p = none ∨ pinnedKey q = none) :
    ∃ unknown, compareImages caseId p q = .error unknown := by
  rcases p with _ | ⟨images, resolver⟩ | ⟨images, reason, detail⟩
  · exact ⟨_, rfl⟩
  · rcases q with _ | ⟨images', resolver'⟩ | ⟨images', reason', detail'⟩
    · exact ⟨_, rfl⟩
    · simp [pinnedKey] at unpinned
    · exact ⟨_, rfl⟩
  · exact ⟨_, rfl⟩

theorem compareImages_pinned {caseId : String} {p q : ImageProvenance}
    (pinned : ¬ (pinnedKey p = none ∨ pinnedKey q = none)) :
    compareImages caseId p q = .ok (if pinnedKey p = pinnedKey q then [] else [caseId]) := by
  rcases p with _ | ⟨images, resolver⟩ | ⟨images, reason, detail⟩
  · simp [pinnedKey] at pinned
  · rcases q with _ | ⟨images', resolver'⟩ | ⟨images', reason', detail'⟩
    · simp [pinnedKey] at pinned
    · simp [compareImages, sameResolvedImages, pinnedKey]
    · simp [pinnedKey] at pinned
  · simp [pinnedKey] at pinned

theorem compareBoxes_oneSided (caseId : String) {v w : Option ProvisionedWorldProof}
    (oneSided : v.isSome ≠ w.isSome) : ∃ unknown, compareBoxes caseId v w = .error unknown := by
  rcases v with _ | v <;> rcases w with _ | w
  · exact absurd rfl oneSided
  · exact ⟨_, rfl⟩
  · exact ⟨_, rfl⟩
  · exact absurd rfl oneSided

theorem compareBoxes_alike {caseId : String} {v w : Option ProvisionedWorldProof}
    (alike : ¬ v.isSome ≠ w.isSome) :
    compareBoxes caseId v w =
      .ok (if v.map boxKey = w.map boxKey then [] else [caseId]) := by
  rcases v with _ | v <;> rcases w with _ | w
  · rfl
  · exact absurd (by simp) alike
  · exact absurd (by simp) alike
  · simp [compareBoxes, sameEnforcedWorld_iff]

theorem compareWorlds_state (x y : ExecutedResult) :
    comparedState (compareWorlds (x, y)) = footState (footprint x) (footprint y) := by
  unfold compareWorlds footState
  dsimp only
  by_cases bverifier : incompleteVerifier x = true
  · rw [if_pos bverifier, if_pos (Or.inl (incompleteVerifier_iff.mp bverifier))]
    rfl
  by_cases cverifier : incompleteVerifier y = true
  · rw [if_neg bverifier, if_pos cverifier, if_pos (Or.inr (incompleteVerifier_iff.mp cverifier))]
    rfl
  rw [if_neg bverifier, if_neg cverifier,
    if_neg (not_or.mpr ⟨mt incompleteVerifier_iff.mpr bverifier,
      mt incompleteVerifier_iff.mpr cverifier⟩)]
  rcases xexec : x.execution with _ | xe
  · have unpinned : (footprint x).images = none := by simp [footprint, resolvedKey, xexec]
    rw [if_pos (Or.inl unpinned)]
    rfl
  rcases yexec : y.execution with _ | ye
  · have unpinned : (footprint y).images = none := by simp [footprint, resolvedKey, yexec]
    rw [if_pos (Or.inr unpinned)]
    rfl
  have ximages : (footprint x).images = pinnedKey (imageProvenanceOf xe) := by
    simp [footprint, resolvedKey, xexec]
  have yimages : (footprint y).images = pinnedKey (imageProvenanceOf ye) := by
    simp [footprint, resolvedKey, yexec]
  have xbox : (footprint x).box = xe.world.map boxKey := by
    simp [footprint, worldOf, xexec]
  have ybox : (footprint y).box = ye.world.map boxKey := by
    simp [footprint, worldOf, yexec]
  simp only [ximages, yimages, xbox, ybox, Option.isSome_map]
  by_cases unpinned : pinnedKey (imageProvenanceOf xe) = none ∨
      pinnedKey (imageProvenanceOf ye) = none
  · obtain ⟨unknown, eq⟩ := compareImages_unpinned x.caseId unpinned
    rw [if_pos unpinned, eq]
    rfl
  rw [if_neg unpinned, compareImages_pinned unpinned]
  by_cases oneSided : xe.world.isSome ≠ ye.world.isSome
  · obtain ⟨unknown, eq⟩ := compareBoxes_oneSided x.caseId oneSided
    rw [if_pos oneSided, eq]
    rfl
  rw [if_neg oneSided, compareBoxes_alike oneSided]
  by_cases image : pinnedKey (imageProvenanceOf xe) = pinnedKey (imageProvenanceOf ye) <;>
    by_cases box : xe.world.map boxKey = ye.world.map boxKey <;>
    simp [image, box, comparedState]

/-- The two rows verifiably ran in one world, their verdicts included. -/
def Attested (x y : ExecutedResult) : Prop :=
  incompleteVerifier x = false ∧ incompleteVerifier y = false ∧ SameWorld x y

theorem compareWorlds_held {x y : ExecutedResult} :
    comparedState (compareWorlds (x, y)) = .held ↔ Attested x y := by
  rw [compareWorlds_state, footState_eq_held]
  simp only [Attested, SameWorld, sameImage_iff, sameBox_iff, ← Bool.not_eq_true,
    incompleteVerifier_iff, Option.isSome_iff_ne_none, footprint]
  tauto

/-! ## The shared rows -/

/-- The last row of each case is what the map keeps. -/
theorem byCase_get (rows : List ExecutedResult) (id : String) :
    (byCase rows).get id = (rows.filter fun r => r.caseId = id).getLast? := by
  have last : ∀ (xs : List ExecutedResult) (first : Option ExecutedResult),
      xs.foldl (fun _ x => some x) first = xs.getLast?.or first := by
    intro xs
    induction xs using List.reverseRecOn with
    | nil => simp
    | append_singleton xs x ih => simp
  rw [byCase, Table.get_group, last, Option.or_none]

theorem of_byCase {rows : List ExecutedResult} {id : String} {last : ExecutedResult}
    (get : (byCase rows).get id = some last) : last ∈ rows ∧ last.caseId = id := by
  rw [byCase_get] at get
  have mem := List.mem_of_getLast? get
  simpa using mem

theorem byCase_of_mem {rows : List ExecutedResult} {r : ExecutedResult} (mem : r ∈ rows) :
    ∃ last, (byCase rows).get r.caseId = some last := by
  rw [byCase_get]
  apply Option.ne_none_iff_exists'.mp
  rw [Ne, List.getLast?_eq_none_iff, List.filter_eq_nil_iff]
  intro none
  exact none r mem (by simp)

theorem mem_sharedPairs {baseline candidate : List ExecutedResult} {x last : ExecutedResult} :
    (x, last) ∈ sharedPairs baseline candidate ↔
      x ∈ baseline ∧ (byCase candidate).get x.caseId = some last := by
  simp only [sharedPairs, List.mem_filterMap, Option.map_eq_some_iff, Prod.mk.injEq]
  constructor
  · intro h
    obtain ⟨y, mem, c, get, rfl, rfl⟩ := h
    exact ⟨mem, get⟩
  · intro h
    exact ⟨x, h.1, last, h.2, rfl, rfl⟩

theorem worldAxis_held {baseline candidate : List ExecutedResult} :
    (worldAxis baseline candidate).map AxisReading.state = some .held ↔
      sharedPairs baseline candidate ≠ [] ∧
        ∀ pair ∈ sharedPairs baseline candidate, Attested pair.1 pair.2 := by
  unfold worldAxis
  dsimp only
  by_cases empty : sharedPairs baseline candidate = []
  · simp [empty]
  rw [if_neg empty]
  by_cases quiet : (sharedPairs baseline candidate).all
      (fun pair => silent pair.1 && silent pair.2) = true
  · rw [if_pos quiet]
    obtain ⟨pair, mem⟩ := List.exists_mem_of_ne_nil _ empty
    have unattested : ¬ Attested pair.1 pair.2 := by
      intro attested
      obtain ⟨xe, ye, xexec, -, -⟩ := attested.2.2.1
      have still := List.all_eq_true.mp quiet pair mem
      simp [silent, xexec] at still
    simp only [Option.map_none, reduceCtorEq, false_iff]
    intro h
    exact unattested (h.2 pair mem)
  rw [if_neg quiet]
  simp only [Option.map_some, state_conclude, Option.some.injEq, collect_held]
  constructor
  · intro all
    exact ⟨empty, fun pair mem => compareWorlds_held.mp (all pair mem)⟩
  · intro h pair mem
    exact compareWorlds_held.mpr (h.2 pair mem)

/-! ## Swapping the sides -/

/-- The rows of a case that the other side ran too recorded the same things. -/
def RowsAlike (rows other : List ExecutedResult) : Prop :=
  ∀ x ∈ rows, ∀ y ∈ rows, x.caseId = y.caseId → (∃ z ∈ other, z.caseId = x.caseId) →
    footprint x = footprint y

variable {rows other : List ExecutedResult}

/-- Every shared pair is met again, the other way round, from the other side. -/
theorem swapped_pair (alike : RowsAlike rows other) {x last : ExecutedResult}
    (mem : (x, last) ∈ sharedPairs rows other) :
    ∃ back, (last, back) ∈ sharedPairs other rows ∧ footprint back = footprint x := by
  obtain ⟨inRows, get⟩ := mem_sharedPairs.mp mem
  obtain ⟨inOther, sameCase⟩ := of_byCase get
  obtain ⟨back, getBack⟩ := byCase_of_mem inRows
  obtain ⟨backIn, backCase⟩ := of_byCase getBack
  refine ⟨back, mem_sharedPairs.mpr ⟨inOther, sameCase ▸ getBack⟩, ?_⟩
  exact alike back backIn x inRows backCase ⟨last, inOther, sameCase.trans backCase.symm⟩

theorem silent_pair_congr {x y x' y' : ExecutedResult} (left : footprint x' = footprint x)
    (right : footprint y' = footprint y) :
    (silent x && silent y) = (silent y' && silent x') := by
  rw [Bool.eq_iff_iff]
  simp only [Bool.and_eq_true, silent_iff, left, right]
  exact and_comm

theorem quiet_of_swap (alike : RowsAlike rows other)
    (quiet : (sharedPairs other rows).all (fun pair => silent pair.1 && silent pair.2) = true) :
    (sharedPairs rows other).all (fun pair => silent pair.1 && silent pair.2) = true := by
  rw [List.all_eq_true] at quiet ⊢
  intro pair mem
  obtain ⟨back, memBack, same⟩ := swapped_pair alike mem
  rw [silent_pair_congr same rfl]
  exact quiet _ memBack

theorem shared_of_swap (alike : RowsAlike rows other) (empty : sharedPairs other rows = []) :
    sharedPairs rows other = [] := by
  apply List.eq_nil_iff_forall_not_mem.mpr
  intro pair mem
  obtain ⟨back, memBack, -⟩ := swapped_pair alike mem
  rw [empty] at memBack
  cases memBack

theorem compareWorlds_swap {x y back : ExecutedResult} (same : footprint back = footprint x) :
    comparedState (compareWorlds (y, back)) = comparedState (compareWorlds (x, y)) := by
  rw [compareWorlds_state, compareWorlds_state, same, footState_comm]

theorem world_state_swap (alike : RowsAlike rows other) (alike' : RowsAlike other rows) :
    (worldAxis rows other).map AxisReading.state =
      (worldAxis other rows).map AxisReading.state := by
  unfold worldAxis
  dsimp only
  by_cases empty : sharedPairs rows other = []
  · rw [if_pos empty, if_pos (shared_of_swap alike' empty)]
  rw [if_neg empty, if_neg (mt (shared_of_swap alike) empty)]
  by_cases quiet : (sharedPairs rows other).all
      (fun pair => silent pair.1 && silent pair.2) = true
  · rw [if_pos quiet, if_pos (quiet_of_swap alike' quiet)]
  rw [if_neg quiet, if_neg (mt (quiet_of_swap alike) quiet)]
  simp only [Option.map_some, state_conclude]
  congr 1
  apply collect_congr
  · intro pair mem _
    obtain ⟨back, memBack, same⟩ := swapped_pair alike mem
    exact ⟨_, memBack, compareWorlds_swap same⟩
  · intro pair mem _
    obtain ⟨back, memBack, same⟩ := swapped_pair alike' mem
    exact ⟨_, memBack, compareWorlds_swap same⟩

/-! ## The classification of an axis -/

def axesIn (identity : ExperimentIdentity) : AxisState → List ExperimentAxis
  | .held => identity.held
  | .confound => identity.confounds.map ExperimentConfound.axis
  | .unverified => identity.unverified.map ExperimentUnverified.axis

theorem mem_axesIn_record {out : ExperimentIdentity} {axis axis' : ExperimentAxis}
    {reading : AxisReading} {state : AxisState} :
    axis ∈ axesIn (record out axis' reading) state ↔
      axis ∈ axesIn out state ∨ axis = axis' ∧ reading.state = state := by
  cases reading <;> cases state <;> simp [record, axesIn, AxisReading.state]

variable {results : SideResults} {b c : ScorecardManifest}

theorem mem_axesIn_classify {out : ExperimentIdentity} {axis axis' : ExperimentAxis}
    {state : AxisState} :
    axis ∈ axesIn (classify b c results out axis') state ↔
      axis ∈ axesIn out state ∨ axis = axis' ∧
        (readingOf b c results axis).map AxisReading.state = some state := by
  unfold classify
  rcases read : readingOf b c results axis' with _ | reading
  · constructor
    · exact Or.inl
    · intro h
      rcases h with before | ⟨rfl, classified⟩
      · exact before
      · simp [read] at classified
  · simp only [mem_axesIn_record]
    apply or_congr_right
    apply and_congr_right
    intro same
    rw [same, read]
    simp

/-- An axis is classified by its own reading alone, once, or not at all. -/
theorem mem_axesIn {b c : ScorecardManifest} {results : SideResults} {axis : ExperimentAxis}
    {state : AxisState} :
    axis ∈ axesIn (experimentIdentity (some b) (some c) results) state ↔
      (readingOf b c results axis).map AxisReading.state = some state := by
  have fold : ∀ (axes : List ExperimentAxis) (out : ExperimentIdentity),
      axis ∈ axesIn (axes.foldl (classify b c results) out) state ↔
      axis ∈ axesIn out state ∨ axis ∈ axes ∧
        (readingOf b c results axis).map AxisReading.state = some state := by
    intro axes
    induction axes with
    | nil => simp
    | cons first axes ih =>
        intro out
        rw [List.foldl_cons, ih, mem_axesIn_classify, List.mem_cons]
        tauto
  have every : axis ∈ EXPERIMENT_AXES := by cases axis <;> decide
  have start : axis ∉ axesIn ⟨[], [], []⟩ state := by cases state <;> simp [axesIn]
  refine (fold EXPERIMENT_AXES ⟨[], [], []⟩).trans ?_
  tauto

def SideResults.swap (results : SideResults) : SideResults where
  baseline := results.candidate
  candidate := results.baseline

/-- The axis stands in the same list when the sides are swapped. -/
def ClassifiedAlike (baseline candidate : Option ScorecardManifest) (results : SideResults)
    (axis : ExperimentAxis) : Prop :=
  ∀ state, axis ∈ axesIn (experimentIdentity baseline candidate results) state ↔
    axis ∈ axesIn (experimentIdentity candidate baseline results.swap) state

theorem classifiedAlike_iff {axis : ExperimentAxis} :
    ClassifiedAlike (some b) (some c) results axis ↔
      (readingOf b c results axis).map AxisReading.state =
        (readingOf c b results.swap axis).map AxisReading.state := by
  simp only [ClassifiedAlike, mem_axesIn]
  constructor
  · intro same
    exact Option.ext same
  · intro same state
    rw [same]

/-- An unsealed side verifies nothing, whichever side it is. -/
theorem classifiedAlike_of_unsealed {baseline candidate : Option ScorecardManifest}
    (unsealed : baseline = none ∨ candidate = none) (axis : ExperimentAxis) :
    ClassifiedAlike baseline candidate results axis := by
  have same : ∀ sides sides' state,
      axesIn (unsealedIdentity sides) state = axesIn (unsealedIdentity sides') state := by
    intro sides sides' state
    cases state <;> simp [axesIn, unsealedIdentity]
  intro state
  rcases baseline with _ | b <;> rcases candidate with _ | c
  · exact Iff.rfl
  · rw [experimentIdentity, experimentIdentity, same]
  · rw [experimentIdentity, experimentIdentity, same]
  · rcases unsealed with h | h <;> cases h

/-! ## What a held world says, and a swap leaves -/

/-- A held world axis speaks for every execution that the two sides both ran. -/
def HeldMeansSameWorld (baseline candidate : Option ScorecardManifest) (results : SideResults) :
    Prop :=
  .executionWorld ∈ (experimentIdentity baseline candidate results).held →
    ∀ x ∈ results.baseline, ∀ y ∈ results.candidate, x.caseId = y.caseId → x.trial = y.trial →
      SameWorld x y

/-- Where every baseline row is attested against the last candidate row of its case, the
candidate rows that face a baseline row ran where that last row did. -/
def LastRowsStand (results : SideResults) : Prop :=
  (∀ x ∈ results.baseline, ∀ last, (byCase results.candidate).get x.caseId = some last →
      Attested x last) →
    ∀ y ∈ results.candidate, (∃ x ∈ results.baseline, x.caseId = y.caseId ∧ x.trial = y.trial) →
      ∀ last, (byCase results.candidate).get y.caseId = some last → SameWorld last y

theorem heldMeansSameWorld_iff :
    HeldMeansSameWorld (some b) (some c) results ↔ LastRowsStand results := by
  have held : .executionWorld ∈ (experimentIdentity (some b) (some c) results).held ↔
      sharedPairs results.baseline results.candidate ≠ [] ∧
        ∀ pair ∈ sharedPairs results.baseline results.candidate, Attested pair.1 pair.2 :=
    (@mem_axesIn b c results .executionWorld .held).trans worldAxis_held
  unfold HeldMeansSameWorld LastRowsStand
  rw [held]
  constructor
  · intro speaks attested y inCandidate h last get
    obtain ⟨x, inBaseline, sameCase, sameTrial⟩ := h
    have getX : (byCase results.candidate).get x.caseId = some last := sameCase ▸ get
    have shared := mem_sharedPairs.mpr ⟨inBaseline, getX⟩
    have same : SameWorld x y := by
      apply speaks ⟨List.ne_nil_of_mem shared, ?_⟩ x inBaseline y inCandidate sameCase sameTrial
      intro pair mem
      obtain ⟨mem, get⟩ := mem_sharedPairs.mp mem
      exact attested pair.1 mem pair.2 get
    exact (attested x inBaseline last getX).2.2.symm.trans same
  · intro stand h x inBaseline y inCandidate sameCase sameTrial
    obtain ⟨last, get⟩ := byCase_of_mem inCandidate
    have getX : (byCase results.candidate).get x.caseId = some last := sameCase ▸ get
    have attested : Attested x last := h.2 _ (mem_sharedPairs.mpr ⟨inBaseline, getX⟩)
    have lastStands : SameWorld last y := by
      apply stand ?_ y inCandidate ⟨x, inBaseline, sameCase, sameTrial⟩ last get
      intro x' mem last' get'
      exact h.2 _ (mem_sharedPairs.mpr ⟨mem, get'⟩)
    exact attested.2.2.trans lastStands

/-- When the state of an axis does not depend on which side is called the baseline. -/
def AxisAligned (b c : ScorecardManifest) (results : SideResults) : ExperimentAxis → Prop
  | .judgeSet => JudgesAligned b c
  | .harnessModel => ModelsAligned b c
  | .executionWorld =>
      RowsAlike results.baseline results.candidate ∧ RowsAlike results.candidate results.baseline
  | _ => True

theorem classifiedAlike_of_aligned {axis : ExperimentAxis}
    (aligned : AxisAligned b c results axis) :
    ClassifiedAlike (some b) (some c) results axis := by
  rw [classifiedAlike_iff]
  cases axis with
  | datasetContent => exact congrArg some (dataset_state_swap b c)
  | gradingPlan => exact congrArg some (grading_state_swap b c)
  | judgeSet => exact congrArg some ((judgeSet_state_swap_iff b c).mpr aligned)
  | harnessModel => exact congrArg some ((harnessModel_state_swap_iff b c).mpr aligned)
  | executionWorld => exact world_state_swap aligned.1 aligned.2
  | environment => exact environment_state_swap b c

theorem aligned_of_classifiedAlike {axis : ExperimentAxis} (manifest : axis ≠ .executionWorld)
    (alike : ClassifiedAlike (some b) (some c) results axis) :
    AxisAligned b c results axis := by
  rw [classifiedAlike_iff] at alike
  cases axis with
  | judgeSet => exact (judgeSet_state_swap_iff b c).mp (Option.some.inj alike)
  | harnessModel => exact (harnessModel_state_swap_iff b c).mp (Option.some.inj alike)
  | executionWorld => exact absurd rfl manifest
  | _ => trivial

def benchSeal : ScorecardManifest where
  identityVersion := some 1
  dataset := ⟨"bench", "7.0.0", "sha256:composite"⟩
  harness := { id := "agent", version := "1.0.0", specDigest := some "sha256:hhhh" }

/-- A trial of the case that ran from the image with this digest. -/
def ranFrom (trial : Nat) (digest : String) : ExecutedResult where
  caseId := "c1"
  trial := some trial
  scores := []
  execution := some
    { manifestVersion := some 2
      imageProvenance := some (.resolved [{ ref := "tasks/repro:1", digest }] .driver) }

/-- The candidate's first trial ran from another image, its last one did not. -/
def firstTrialMoved : SideResults where
  baseline := [ranFrom 0 "sha256:a", ranFrom 1 "sha256:a"]
  candidate := [ranFrom 0 "sha256:b", ranFrom 1 "sha256:a"]

def trialsUnmoved : SideResults where
  baseline := firstTrialMoved.baseline
  candidate := firstTrialMoved.baseline

end Everdict.Scorecard.Identity
