import Everdict.WorkspaceFile.Segmentation

/-!
# A merge with the sides exchanged

The loops of a merge hold our hunks against one window and theirs against another.  Either way a
hunk is taken exactly if it starts where the group does or in front of its end, so in whatever
order hunks are taken the same ones are (`Absorbs.unique`), and a merge with the sides exchanged
is the merge (`mergeThreeWay_symmetric`).
-/

namespace Everdict.WorkspaceFile

/-! ## Taking hunks in any order -/

/-- A hunk belongs to a group from `start` to `stop`. -/
def Joins (start stop : Nat) (h : Hunk) : Prop := h.bStart = start ∨ h.bStart < stop

/-- From one group and the hunks that are left to another, one hunk of either side at a time. -/
inductive Absorbs (start : Nat) :
    Group → List Hunk → List Hunk → Group → List Hunk → List Hunk → Prop
  | done (g : Group) (ours theirs : List Hunk) : Absorbs start g ours theirs g ours theirs
  | ours {g g' : Group} {h : Hunk} {ours theirs ours' theirs' : List Hunk} :
      Joins start g.stop h → Absorbs start (g.takeOurs h) ours theirs g' ours' theirs' →
      Absorbs start g (h :: ours) theirs g' ours' theirs'
  | theirs {g g' : Group} {h : Hunk} {ours theirs ours' theirs' : List Hunk} :
      Joins start g.stop h → Absorbs start (g.takeTheirs h) ours theirs g' ours' theirs' →
      Absorbs start g ours (h :: theirs) g' ours' theirs'

/-- No hunk that is next belongs to the group. -/
def Closed (start : Nat) (g : Group) (ours theirs : List Hunk) : Prop :=
  (∀ h ∈ ours.head?, ¬ Joins start g.stop h) ∧ ∀ h ∈ theirs.head?, ¬ Joins start g.stop h

def Group.swap (g : Group) : Group := ⟨g.start, g.stop, g.theirs, g.ours⟩

section Absorbs

variable {start : Nat} {g g' g'' : Group} {ours theirs ours' theirs' ours'' theirs'' : List Hunk}

theorem Absorbs.trans (first : Absorbs start g ours theirs g' ours' theirs')
    (second : Absorbs start g' ours' theirs' g'' ours'' theirs'') :
    Absorbs start g ours theirs g'' ours'' theirs'' := by
  induction first with
  | done => exact second
  | ours joins _ ih => exact .ours joins (ih second)
  | theirs joins _ ih => exact .theirs joins (ih second)

theorem Absorbs.swap (absorbs : Absorbs start g ours theirs g' ours' theirs') :
    Absorbs start g.swap theirs ours g'.swap theirs' ours' := by
  induction absorbs with
  | done => exact .done _ _ _
  | ours joins _ ih => exact .theirs joins ih
  | theirs joins _ ih => exact .ours joins ih

theorem Closed.swap (closed : Closed start g ours theirs) : Closed start g.swap theirs ours :=
  ⟨closed.2, closed.1⟩

theorem Joins.mono {stop stop' : Nat} {h : Hunk} (joins : Joins start stop h)
    (le : stop ≤ stop') : Joins start stop' h := joins.imp_right fun lt => Nat.lt_of_lt_of_le lt le

/-- Hunks that are taken on the way to a closed group are in it. -/
theorem Absorbs.within (absorbs : Absorbs start g ours theirs g' ours' theirs')
    (closed : Closed start g'' ours'' theirs'') (le : g.stop ≤ g''.stop)
    (oursLeft : ∃ taken, ours = taken ++ ours'' ∧ ∀ h ∈ taken, h.bEnd ≤ g''.stop)
    (theirsLeft : ∃ taken, theirs = taken ++ theirs'' ∧ ∀ h ∈ taken, h.bEnd ≤ g''.stop) :
    ours'' <:+ ours' ∧ theirs'' <:+ theirs' := by
  induction absorbs with
  | done =>
      obtain ⟨taken, parts, _⟩ := oursLeft
      obtain ⟨taken', parts', _⟩ := theirsLeft
      exact ⟨⟨taken, parts.symm⟩, ⟨taken', parts'.symm⟩⟩
  | ours joins _ ih =>
      obtain ⟨taken, parts, covered⟩ := oursLeft
      cases taken with
      | nil =>
          rw [List.nil_append] at parts
          exact absurd (joins.mono le) (closed.1 _ (parts ▸ rfl))
      | cons h taken =>
          obtain ⟨rfl, rfl⟩ := List.cons_eq_cons.mp parts
          rw [List.forall_mem_cons] at covered
          exact ih (Nat.max_le.mpr ⟨le, covered.1⟩) ⟨taken, rfl, covered.2⟩ theirsLeft
  | theirs joins _ ih =>
      obtain ⟨taken, parts, covered⟩ := theirsLeft
      cases taken with
      | nil =>
          rw [List.nil_append] at parts
          exact absurd (joins.mono le) (closed.2 _ (parts ▸ rfl))
      | cons h taken =>
          obtain ⟨rfl, rfl⟩ := List.cons_eq_cons.mp parts
          rw [List.forall_mem_cons] at covered
          exact ih (Nat.max_le.mpr ⟨le, covered.1⟩) oursLeft ⟨taken, rfl, covered.2⟩

/-- Two groups that took the same hunks from one start are the same. -/
theorem Fits.unique (fits : Fits start g) (fits' : Fits start g') (same : g.ours = g'.ours)
    (same' : g.theirs = g'.theirs) : g = g' := by
  have le : ∀ {g g' : Group}, Fits start g → Fits start g' → g.ours = g'.ours →
      g.theirs = g'.theirs → g.stop ≤ g'.stop := by
    intro g g' fits fits' same same'
    rcases fits.reached with still | ⟨h, isIn, reached⟩
    · rw [still]
      exact fits'.le
    · rw [same, same'] at isIn
      rw [reached]
      exact fits'.covers h isIn
  have starts := fits.starts.trans fits'.starts.symm
  have stops := Nat.le_antisymm (le fits fits' same same') (le fits' fits same.symm same'.symm)
  cases g
  cases g'
  simp only at starts stops same same'
  rw [starts, stops, same, same']

/-- In whatever order hunks are taken, a closed group is the same. -/
theorem Absorbs.unique
    (absorbs : Absorbs start (.at start) ours theirs g' ours' theirs')
    (absorbs' : Absorbs start (.at start) ours theirs g'' ours'' theirs'')
    (closed : Closed start g' ours' theirs') (closed' : Closed start g'' ours'' theirs'')
    (fits : Fits start g') (fits' : Fits start g'')
    (parts : ours = g'.ours ++ ours' ∧ theirs = g'.theirs ++ theirs')
    (parts' : ours = g''.ours ++ ours'' ∧ theirs = g''.theirs ++ theirs'') :
    g' = g'' ∧ ours' = ours'' ∧ theirs' = theirs'' := by
  have one := absorbs.within closed' fits'.le
    ⟨_, parts'.1, fun h isIn => fits'.covers h (List.mem_append_left _ isIn)⟩
    ⟨_, parts'.2, fun h isIn => fits'.covers h (List.mem_append_right _ isIn)⟩
  have other := absorbs'.within closed fits.le
    ⟨_, parts.1, fun h isIn => fits.covers h (List.mem_append_left _ isIn)⟩
    ⟨_, parts.2, fun h isIn => fits.covers h (List.mem_append_right _ isIn)⟩
  have left : ours' = ours'' := other.1.eq_of_length_le one.1.length_le
  have left' : theirs' = theirs'' := other.2.eq_of_length_le one.2.length_le
  subst left left'
  have same := List.append_cancel_right (parts.1.symm.trans parts'.1)
  have same' := List.append_cancel_right (parts.2.symm.trans parts'.2)
  exact ⟨fits.unique fits' same same', rfl, rfl⟩

end Absorbs

/-! ## The loops take hunks so -/

section Grown

variable {start : Nat} {g : Group} {ours theirs : List Hunk}

theorem joins_of_clashes {h window : Hunk} {stop : Nat} (starts : window.bStart = start)
    (le : window.bEnd ≤ stop) (clash : clashes h window = true) : Joins start stop h := by
  simp only [clashes, decide_eq_true_eq] at clash
  unfold Joins
  omega

/-- Behind the start, what does not clash with the window does not belong to the group. -/
theorem not_joins_of_free {h : Hunk} {stop : Nat} (le : start ≤ stop) (behind : start ≤ h.bStart)
    (proper : h.bStart ≤ h.bEnd) (free : clashes h ⟨start, stop, 0, 0⟩ = false) :
    ¬ Joins start stop h := by
  simp only [clashes, decide_eq_false_iff_not] at free
  unfold Joins
  omega

theorem absorbs_absorbOurs {window : Hunk} (fits : Fits start g) (starts : window.bStart = start)
    (le : window.bEnd ≤ g.stop) (behind : ∀ h ∈ ours, start ≤ h.bStart) (theirs : List Hunk) :
    Absorbs start g ours theirs (absorbOurs window g ours).1 (absorbOurs window g ours).2
      theirs := by
  unfold absorbOurs
  induction ours generalizing g with
  | nil => exact .done _ _ _
  | cons h rest ih =>
      unfold absorb
      split
      · next belongs =>
          rw [List.forall_mem_cons] at behind
          refine .ours ?_ (ih (fits.takeOurs behind.1) ?_ behind.2)
          · unfold oursBelongs at belongs
            split at belongs
            · exact .inl ((of_decide_eq_true belongs).trans fits.starts)
            · exact joins_of_clashes starts le belongs
          · exact Nat.le_trans le (Nat.le_max_left _ _)
      · exact .done _ _ _

theorem absorbs_absorbTheirs {window : Hunk} (fits : Fits start g)
    (starts : window.bStart = start) (behind : ∀ h ∈ theirs, start ≤ h.bStart)
    (ours : List Hunk) :
    Absorbs start g ours theirs (absorbTheirs window g theirs).1 ours
      (absorbTheirs window g theirs).2 := by
  unfold absorbTheirs
  induction theirs generalizing g with
  | nil => exact .done _ _ _
  | cons h rest ih =>
      unfold absorb
      split
      · next belongs =>
          rw [List.forall_mem_cons] at behind
          refine .theirs ?_ (ih (fits.takeTheirs behind.1) behind.2)
          unfold theirsBelongs at belongs
          split at belongs
          · exact .inl ((of_decide_eq_true belongs).trans fits.starts)
          · exact @joins_of_clashes start h { window with bEnd := g.stop } g.stop starts
              (Nat.le_refl _) belongs
      · exact .done _ _ _

theorem absorbs_round (fits : Fits start g) (behind : ∀ h ∈ ours, start ≤ h.bStart)
    (behind' : ∀ h ∈ theirs, start ≤ h.bStart) :
    Absorbs start g ours theirs (round g ours theirs).1 (round g ours theirs).2.1
      (round g ours theirs).2.2 := by
  obtain ⟨_, _, _, _, fits'⟩ := absorbOurs_spec g.window fits behind
  exact (absorbs_absorbOurs fits fits.starts (Nat.le_refl _) behind theirs).trans
    (absorbs_absorbTheirs fits' fits.starts behind' _)

theorem absorbs_grow (fits : Fits start g) (behind : ∀ h ∈ ours, start ≤ h.bStart)
    (behind' : ∀ h ∈ theirs, start ≤ h.bStart) :
    Absorbs start g ours theirs (grow g ours theirs).1 (grow g ours theirs).2.1
      (grow g ours theirs).2.2 := by
  induction g, ours, theirs using grow.induct with
  | case1 g ours theirs next fewer ih =>
      have step := round_grown fits behind behind'
      obtain ⟨taken, parts, _⟩ := step.oursTaken
      obtain ⟨taken', parts', _⟩ := step.theirsTaken
      have rest := ih step.fits
        (fun h mem => behind h (by rw [parts]; exact List.mem_append_right _ mem))
        (fun h mem => behind' h (by rw [parts']; exact List.mem_append_right _ mem))
      unfold grow
      rw [if_pos fewer]
      exact (absorbs_round fits behind behind').trans rest
  | case2 g ours theirs next same =>
      unfold grow
      rw [if_neg same]
      exact absorbs_round fits behind behind'

theorem closed_grow (next : nextStart ours theirs = some start)
    (window : Window start ours theirs (grow (.at start) ours theirs).1
      (grow (.at start) ours theirs).2.1 (grow (.at start) ours theirs).2.2)
    (behind : ∀ h ∈ ours ++ theirs, start ≤ h.bStart ∧ h.bStart ≤ h.bEnd) :
    Closed start (grow (.at start) ours theirs).1 (grow (.at start) ours theirs).2.1
      (grow (.at start) ours theirs).2.2 := by
  have fewer := grow_consumes next
  obtain ⟨idle, idle'⟩ := grow_idle (.at start) ours theirs _ rfl
  obtain ⟨⟨g, ours', theirs'⟩, result⟩ : ∃ r, grow (.at start) ours theirs = r := ⟨_, rfl⟩
  rw [result] at window fewer idle idle' ⊢
  obtain ⟨fits, parts, parts', _⟩ := window
  dsimp only at fits parts parts' fewer idle idle' ⊢
  have full : g.isEmpty = false := by
    by_contra empty
    simp only [Group.isEmpty, Bool.not_eq_false, decide_eq_true_eq] at empty
    rw [parts, parts', empty.1, empty.2] at fewer
    simp at fewer
  have window : g.window = ⟨start, g.stop, 0, 0⟩ := by rw [Group.window, fits.starts]
  constructor
  · intro h isNext
    obtain ⟨rest, rfl⟩ := List.head?_eq_some_iff.mp isNext
    have free := idle h rest rfl
    simp only [oursBelongs, full] at free
    have inside := behind h (by simp [parts])
    exact not_joins_of_free fits.le inside.1 inside.2 (window ▸ free)
  · intro h isNext
    obtain ⟨rest, rfl⟩ := List.head?_eq_some_iff.mp isNext
    have free := idle' h rest rfl
    simp only [theirsBelongs, full] at free
    have inside := behind h (by simp [parts'])
    exact not_joins_of_free fits.le inside.1 inside.2 (window ▸ free)

theorem nextStart_swap (ours theirs : List Hunk) :
    nextStart theirs ours = nextStart ours theirs := by
  cases ours with
  | nil => cases theirs <;> rfl
  | cons h ours =>
      cases theirs with
      | nil => rfl
      | cons h' theirs =>
          rw [nextStart, nextStart, Nat.min_comm]

theorem Fits.swap (fits : Fits start g) : Fits start g.swap where
  starts := fits.starts
  le := fits.le
  covers := fun h isIn => fits.covers h (List.mem_append.mpr (List.mem_append.mp isIn).symm)
  reached := fits.reached.imp_right fun ⟨h, isIn, reached⟩ =>
    ⟨h, List.mem_append.mpr (List.mem_append.mp isIn).symm, reached⟩

/-- With the sides exchanged the same group grows. -/
theorem grow_swap (next : nextStart ours theirs = some start)
    (sorted : ours.Pairwise fun h k => h.bStart ≤ k.bStart)
    (sorted' : theirs.Pairwise fun h k => h.bStart ≤ k.bStart)
    (proper : ∀ h ∈ ours ++ theirs, h.bStart ≤ h.bEnd) :
    (grow (.at start) theirs ours).1 = (grow (.at start) ours theirs).1.swap ∧
      (grow (.at start) theirs ours).2.1 = (grow (.at start) ours theirs).2.2 ∧
      (grow (.at start) theirs ours).2.2 = (grow (.at start) ours theirs).2.1 := by
  have next' := (nextStart_swap ours theirs).trans next
  have proper' : ∀ h ∈ theirs ++ ours, h.bStart ≤ h.bEnd := fun h isIn =>
    proper h (List.mem_append.mpr (List.mem_append.mp isIn).symm)
  obtain ⟨first, first'⟩ := nextStart_le next sorted sorted'
  have window := grow_spec next sorted sorted' proper
  have window' := grow_spec next' sorted' sorted proper'
  have absorbs := (absorbs_grow (.at start) first first').swap
  have absorbs' := absorbs_grow (.at start) first' first
  have inside : ∀ h ∈ ours ++ theirs, start ≤ h.bStart ∧ h.bStart ≤ h.bEnd := fun h isIn =>
    ⟨(List.mem_append.mp isIn).elim (first h) (first' h), proper h isIn⟩
  have inside' : ∀ h ∈ theirs ++ ours, start ≤ h.bStart ∧ h.bStart ≤ h.bEnd := fun h isIn =>
    inside h (List.mem_append.mpr (List.mem_append.mp isIn).symm)
  exact absorbs'.unique absorbs (closed_grow next' window' inside')
    (closed_grow next window inside).swap window'.fits window.fits.swap
    ⟨window'.oursParts, window'.theirsParts⟩ ⟨window.theirsParts, window.oursParts⟩

end Grown

/-! ## Two merges in step -/

def FsMergeConflict.swap (conflict : FsMergeConflict) : FsMergeConflict :=
  ⟨conflict.line, conflict.base, conflict.theirs, conflict.ours⟩

/-- What a merge emitted, and the merge with the sides exchanged. -/
structure Mirrors (e e' : Emitted) : Prop where
  b : e'.b = e.b
  length : e'.merged.length = e.merged.length
  conflicts : e'.conflicts = e.conflicts.map FsMergeConflict.swap
  merged : e.conflicts = [] → e'.merged = e.merged

section Mirrors

variable {base ours theirs : List String} {e e' : Emitted}

/-- Both emit the same text. -/
theorem Mirrors.emit (mirrors : Mirrors e e') (stop : Nat) (text : List String) :
    Mirrors ⟨stop, e.merged ++ text, e.conflicts⟩ ⟨stop, e'.merged ++ text, e'.conflicts⟩ where
  b := rfl
  length := by simp only [List.length_append, mirrors.length]
  conflicts := mirrors.conflicts
  merged := fun free => congrArg (· ++ text) (mirrors.merged free)

theorem Mirrors.group (mirrors : Mirrors e e') (g : Group) :
    Mirrors (e.group base ours theirs g) (e'.group base theirs ours g.swap) := by
  unfold Emitted.group Group.swap
  simp only [mirrors.b, List.append_assoc]
  by_cases none : g.theirs = []
  · by_cases none' : g.ours = []
    · rw [if_pos none, if_pos none', none, none']
      exact mirrors.emit _ _
    · rw [if_pos none, if_neg none', if_pos none]
      exact mirrors.emit _ _
  · by_cases none' : g.ours = []
    · rw [if_neg none, if_pos none', if_pos none']
      exact mirrors.emit _ _
    · rw [if_neg none, if_neg none', if_neg none', if_neg none]
      by_cases same : sideText base ours g.ours g.start g.stop =
          sideText base theirs g.theirs g.start g.stop
      · rw [if_pos same, if_pos same.symm, same]
        exact mirrors.emit _ _
      · rw [if_neg same, if_neg (Ne.symm same)]
        constructor
        · rfl
        · simp only [List.length_append, mirrors.length]
          omega
        · rw [List.map_append, mirrors.conflicts]
          simp only [List.length_append, mirrors.length]
          rfl
        · exact fun free => absurd free (List.append_ne_nil_of_right_ne_nil _ (List.cons_ne_nil _ _))

theorem mergeLoop_swap {ourHunks theirHunks : List Hunk} (mirrors : Mirrors e e')
    (sorted : ourHunks.Pairwise fun h k => h.bStart ≤ k.bStart)
    (sorted' : theirHunks.Pairwise fun h k => h.bStart ≤ k.bStart)
    (proper : ∀ h ∈ ourHunks ++ theirHunks, h.bStart ≤ h.bEnd) :
    Mirrors (mergeLoop base ours theirs ourHunks theirHunks e)
      (mergeLoop base theirs ours theirHunks ourHunks e') := by
  induction ourHunks, theirHunks, e using mergeLoop.induct base ours theirs generalizing e' with
  | case1 ourHunks theirHunks e next =>
      have none : ourHunks = [] ∧ theirHunks = [] := by
        cases ourHunks <;> cases theirHunks <;> simp_all [nextStart]
      obtain ⟨rfl, rfl⟩ := none
      unfold mergeLoop
      exact mirrors
  | case2 ourHunks theirHunks e start next grown =>
      rename_i ih
      have next' := (nextStart_swap ourHunks theirHunks).trans next
      have swapped := grow_swap next sorted sorted' proper
      obtain ⟨fits, parts, parts', _⟩ := grow_spec next sorted sorted' proper
      rw [mergeLoop_some next, mergeLoop_some next', swapped.1, swapped.2.1, swapped.2.2]
      refine ih (mirrors.group _) ?_ ?_ fun h isIn => proper h ?_
      · rw [parts] at sorted
        exact (List.pairwise_append.mp sorted).2.1
      · rw [parts'] at sorted'
        exact (List.pairwise_append.mp sorted').2.1
      · rcases List.mem_append.mp isIn with mine | other
        · refine List.mem_append_left _ ?_
          rw [parts]
          exact List.mem_append_right _ mine
        · refine List.mem_append_right _ ?_
          rw [parts']
          exact List.mem_append_right _ other

theorem mergeLines_swap (base ours theirs : List String) :
    (mergeLines base theirs ours).conflicts =
        (mergeLines base ours theirs).conflicts.map FsMergeConflict.swap ∧
      ((mergeLines base ours theirs).conflicts = [] →
        (mergeLines base theirs ours).merged = (mergeLines base ours theirs).merged) := by
  have spans := spans_hunksOf base ours
  have spans' := spans_hunksOf base theirs
  have start : Mirrors ⟨0, [], []⟩ ⟨0, [], []⟩ := ⟨rfl, rfl, rfl, fun _ => rfl⟩
  have mirrors := @mergeLoop_swap base ours theirs _ _ _ _ start spans.sorted spans'.sorted
    fun h isIn => ((List.mem_append.mp isIn).elim (spans.inside h) (spans'.inside h)).2.1
  refine ⟨mirrors.conflicts, fun free => ?_⟩
  unfold mergeLines
  simp only [mirrors.b, mirrors.merged free]

end Mirrors

/-! ## The early returns -/

/-- A document is matched with itself line by line. -/
theorem hunksLoop_self {α : Type} [DecidableEq α] (base : List α) (table : List (List Nat))
    {i : Nat} (le : i ≤ base.length) :
    hunksLoop base base (lcsWalk base base table i i) i i = [] := by
  induction n : base.length - i generalizing i with
  | zero =>
      rw [lcsWalk, if_neg (by omega), hunksLoop, if_neg (by omega)]
  | succ n ih =>
      rw [lcsWalk, if_pos (by omega), if_pos rfl, hunksLoop, if_neg (by omega)]
      exact ih (by omega) (by omega)

theorem hunksOf_self {α : Type} [DecidableEq α] (base : List α) : hunksOf base base = [] :=
  hunksLoop_self base _ (Nat.zero_le _)

/-- Our side changed nothing, or what theirs changed. -/
def Follows (ours theirs : List String) (ourHunks theirHunks : List Hunk) : Prop :=
  ourHunks = [] ∨ (ours = theirs ∧ ourHunks = theirHunks)

section Follows

variable {base ours theirs : List String} {e : Emitted} {o t : Nat}

/-- A group then takes their text. -/
theorem Follows.group {g : Group} (follows : Follows ours theirs g.ours g.theirs) :
    e.group base ours theirs g =
      ⟨g.stop, e.merged ++ slice base e.b g.start
        ++ sideText base theirs g.theirs g.start g.stop, e.conflicts⟩ := by
  unfold Emitted.group
  dsimp only
  rcases follows with none | ⟨rfl, same⟩
  · by_cases none' : g.theirs = []
    · rw [if_pos none', none, none']
      rfl
    · rw [if_neg none', if_pos none]
  · rw [same]
    split_ifs with none differ
    · rfl
    · rfl
    · exact absurd rfl differ

/-- The group of such sides, and what is left of them, are such sides. -/
theorem Follows.grown {ourHunks theirHunks : List Hunk} {start : Nat}
    (follows : Follows ours theirs ourHunks theirHunks)
    (next : nextStart ourHunks theirHunks = some start)
    (sorted : ourHunks.Pairwise fun h k => h.bStart ≤ k.bStart)
    (sorted' : theirHunks.Pairwise fun h k => h.bStart ≤ k.bStart)
    (proper : ∀ h ∈ ourHunks ++ theirHunks, h.bStart ≤ h.bEnd) :
    Follows ours theirs (grow (.at start) ourHunks theirHunks).1.ours
        (grow (.at start) ourHunks theirHunks).1.theirs ∧
      Follows ours theirs (grow (.at start) ourHunks theirHunks).2.1
        (grow (.at start) ourHunks theirHunks).2.2 := by
  rcases follows with rfl | ⟨alike, rfl⟩
  · have parts := (grow_spec next sorted sorted' proper).oursParts
    obtain ⟨none, none'⟩ := List.append_eq_nil_iff.mp parts.symm
    exact ⟨.inl none, .inl none'⟩
  · -- the group is its own mirror image
    obtain ⟨group, left, _⟩ := grow_swap next sorted sorted' proper
    exact ⟨.inr ⟨alike, congrArg Group.ours group⟩, .inr ⟨alike, left⟩⟩

/-- The loop then emits their document. -/
theorem Follows.emits {ourHunks theirHunks : List Hunk}
    (follows : Follows ours theirs ourHunks theirHunks) (emitted : e.merged = slice theirs 0 t)
    (oursSpans : Spans base ours ourHunks e.b o base.length ours.length)
    (spans : Spans base theirs theirHunks e.b t base.length theirs.length) :
    ∃ t', (mergeLoop base ours theirs ourHunks theirHunks e).merged = slice theirs 0 t' ∧
      (mergeLoop base ours theirs ourHunks theirHunks e).conflicts = e.conflicts ∧
      Copies base theirs (mergeLoop base ours theirs ourHunks theirHunks e).b t' base.length
        theirs.length := by
  induction ourHunks, theirHunks, e using mergeLoop.induct base ours theirs generalizing o t with
  | case1 ourHunks theirHunks e next =>
      have none : ourHunks = [] ∧ theirHunks = [] := by
        cases ourHunks <;> cases theirHunks <;> simp_all [nextStart]
      obtain ⟨rfl, rfl⟩ := none
      unfold mergeLoop
      exact ⟨t, emitted, rfl, spans⟩
  | case2 ourHunks theirHunks e start next grown =>
      rename_i ih
      have proper : ∀ h ∈ ourHunks ++ theirHunks, h.bStart ≤ h.bEnd := fun h isIn =>
        ((List.mem_append.mp isIn).elim (oursSpans.inside h) (spans.inside h)).2.1
      obtain ⟨group, left⟩ := follows.grown next oursSpans.sorted spans.sorted proper
      have unfolded : mergeLoop base ours theirs ourHunks theirHunks e =
          mergeLoop base ours theirs grown.2.1 grown.2.2 (e.group base ours theirs grown.1) :=
        mergeLoop_some next
      obtain ⟨⟨g, ours', theirs'⟩, result⟩ : ∃ r, grown = r := ⟨_, rfl⟩
      obtain ⟨_, _, ⟨_, _, _, _, rest⟩, t₁, t₂, front, part, rest'⟩ :=
        turn_parts next oursSpans spans result
      change Follows ours theirs grown.1.ours grown.1.theirs at group
      change Follows ours theirs grown.2.1 grown.2.2 at left
      rw [unfolded]
      rw [result] at ih group left ⊢
      rw [group.group] at ih ⊢
      refine ih left ?_ rest rest'
      -- the text so far, the run in front of the group and the group
      have le := front.same
      rw [emitted, part.sideText_eq, front.text, slice_append (Nat.zero_le _) (by omega),
        slice_append (Nat.zero_le _) part.le.2]

theorem Follows.mergeLines {base ours theirs : List String}
    (follows : Follows ours theirs (hunksOf base ours) (hunksOf base theirs)) :
    mergeLines base ours theirs = ⟨joinLines theirs, []⟩ := by
  obtain ⟨t', merged, conflicts, tail⟩ := @Follows.emits base ours theirs ⟨0, [], []⟩ 0 0 _ _ follows
    (slice_self _ _).symm (spans_hunksOf base ours) (spans_hunksOf base theirs)
  have same := tail.same
  unfold WorkspaceFile.mergeLines
  dsimp only
  rw [merged, conflicts, tail.text, slice_append (Nat.zero_le _) (by omega), slice_zero_length]

end Follows

/-- Where the merge returns early, the general path gives the same. -/
theorem mergeThreeWay_eq_mergeLines (base ours theirs : String) :
    mergeThreeWay base ours theirs =
      mergeLines (toLines base) (toLines ours) (toLines theirs) := by
  have back : ∀ {text : String} {result : FsMergeResult},
      result = ⟨joinLines (toLines text), []⟩ → (⟨text, []⟩ : FsMergeResult) = result := by
    rintro text result rfl
    rw [joinLines_toLines]
  unfold mergeThreeWay
  split_ifs with same unchanged unpublished
  · subst same
    exact back (Follows.mergeLines (.inr ⟨rfl, rfl⟩))
  · subst unchanged
    exact back (Follows.mergeLines (.inl (hunksOf_self _)))
  · subst unpublished
    -- the sides exchanged, ours changed nothing
    have direct : mergeLines (toLines base) (toLines base) (toLines ours) =
        ⟨joinLines (toLines ours), []⟩ := Follows.mergeLines (.inl (hunksOf_self _))
    obtain ⟨conflicts, merged⟩ := mergeLines_swap (toLines base) (toLines base) (toLines ours)
    rw [direct] at conflicts merged
    exact back (FsMergeResult.mk.injEq .. ▸ ⟨merged rfl, conflicts⟩)
  · rfl

/-- Merges with the sides exchanged are conflict-free alike, then with one text, and else report
the same conflicts with the sides exchanged; and an early return is what the general path gives. -/
theorem mergeThreeWay_symmetric (base ours theirs : String) :
    ((mergeThreeWay base theirs ours).conflicts = [] ↔
        (mergeThreeWay base ours theirs).conflicts = []) ∧
      ((mergeThreeWay base ours theirs).conflicts = [] →
        (mergeThreeWay base theirs ours).merged = (mergeThreeWay base ours theirs).merged) ∧
      (mergeThreeWay base theirs ours).conflicts =
        (mergeThreeWay base ours theirs).conflicts.map FsMergeConflict.swap ∧
      mergeThreeWay base ours theirs =
        mergeLines (toLines base) (toLines ours) (toLines theirs) := by
  obtain ⟨conflicts, merged⟩ := mergeLines_swap (toLines base) (toLines ours) (toLines theirs)
  rw [mergeThreeWay_eq_mergeLines base ours theirs, mergeThreeWay_eq_mergeLines base theirs ours]
  refine ⟨?_, merged, conflicts, rfl⟩
  rw [conflicts, List.map_eq_nil_iff]

end Everdict.WorkspaceFile
