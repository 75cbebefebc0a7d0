import Everdict.WorkspaceFile.Grouping
import Everdict.WorkspaceFile.LongestMatch

/-!
# A merge is a choice for each segment

A merge cuts the three documents into segments and takes one reading of each.  A
`Segment` is a cut that a merge can decide: the constructors say which sides read
alike in it, and what was taken.

`mergeThreeWay_segments` gives the segments of every merge.  They tile the three
documents, the merged text is what was taken, and the conflicts that are reported
are the segments on which all three differ: a side has a hunk only where it reads otherwise than
the base, since its matching is a longest one.
-/

namespace Everdict.WorkspaceFile

/-- A cut through the three documents, and how it is decided. -/
inductive Segment where
  /-- Nobody changed it. -/
  | kept (text : List String)
  /-- Theirs reads as the base. -/
  | oursChanged (base ours : List String)
  /-- Ours reads as the base. -/
  | theirsChanged (base theirs : List String)
  /-- Both made the same edit. -/
  | sameEdit (base edit : List String)
  | conflict (base ours theirs : List String) (change : ours ≠ base) (change' : theirs ≠ base)
      (differ : ours ≠ theirs)

namespace Segment

def base : Segment → List String
  | kept text => text
  | oursChanged base _ => base
  | theirsChanged base _ => base
  | sameEdit base _ => base
  | conflict base .. => base

def ours : Segment → List String
  | kept text => text
  | oursChanged _ ours => ours
  | theirsChanged base _ => base
  | sameEdit _ edit => edit
  | conflict _ ours .. => ours

def theirs : Segment → List String
  | kept text => text
  | oursChanged base _ => base
  | theirsChanged _ theirs => theirs
  | sameEdit _ edit => edit
  | conflict _ _ theirs .. => theirs

/-- What the merged document has for it. -/
def chosen : Segment → List String
  | kept text => text
  | oursChanged _ ours => ours
  | theirsChanged _ theirs => theirs
  | sameEdit _ edit => edit
  | conflict _ ours theirs .. =>
      [CONFLICT_HEAD] ++ ours ++ [CONFLICT_SPLIT] ++ theirs ++ [CONFLICT_TAIL]

/-- The conflict it is reported as when it starts at a line of the merged document. -/
def report (line : Nat) : Segment → Option FsMergeConflict
  | conflict base ours theirs .. => some ⟨line, joinLines base, joinLines ours, joinLines theirs⟩
  | _ => none

/-- The merged document with the conflict answered by our side and their changes undone. -/
def withOurs : Segment → List String
  | conflict _ ours .. => ours
  | theirsChanged base _ => base
  | segment => segment.chosen

def withTheirs : Segment → List String
  | conflict _ _ theirs .. => theirs
  | oursChanged base _ => base
  | segment => segment.chosen

theorem withOurs_eq (segment : Segment) : segment.withOurs = segment.ours := by
  cases segment <;> rfl

theorem withTheirs_eq (segment : Segment) : segment.withTheirs = segment.theirs := by
  cases segment <;> rfl

/-- Two of the three documents read alike, or the segment is a conflict of exactly the three. -/
theorem alike_or_reported (segment : Segment) :
    segment.ours = segment.base ∨ segment.theirs = segment.base ∨ segment.ours = segment.theirs ∨
      ∀ line, segment.report line = some ⟨line, joinLines segment.base, joinLines segment.ours,
        joinLines segment.theirs⟩ := by
  cases segment with
  | kept => exact .inl rfl
  | oursChanged => exact .inr (.inl rfl)
  | theirsChanged => exact .inl rfl
  | sameEdit => exact .inr (.inr (.inl rfl))
  | conflict => exact .inr (.inr (.inr fun _ => rfl))

end Segment

/-- The conflicts of segments that start at a line of the merged document. -/
def reports : Nat → List Segment → List FsMergeConflict
  | _, [] => []
  | line, segment :: segments =>
      (segment.report line).toList ++ reports (line + segment.chosen.length) segments

theorem reports_append (line : Nat) (segments segments' : List Segment) :
    reports line (segments ++ segments') =
      reports line segments ++ reports (line + (segments.flatMap Segment.chosen).length) segments' := by
  induction segments generalizing line with
  | nil => simp [reports]
  | cons segment segments ih =>
      simp only [List.cons_append, reports, ih, List.append_assoc, List.flatMap_cons,
        List.length_append, Nat.add_assoc]

/-! ## What the loop emits -/

variable {base ours theirs : List String} {e e' e'' : Emitted} {o o' o'' t t' t'' : Nat}
  {segments segments' : List Segment}

/-- From one state of the loop to another it emits the segments between the two positions. -/
structure Emits (base ours theirs : List String) (e : Emitted) (o t : Nat)
    (segments : List Segment) (e' : Emitted) (o' t' : Nat) : Prop where
  le : e.b ≤ e'.b ∧ o ≤ o' ∧ t ≤ t'
  baseText : slice base e.b e'.b = segments.flatMap Segment.base
  oursText : slice ours o o' = segments.flatMap Segment.ours
  theirsText : slice theirs t t' = segments.flatMap Segment.theirs
  merged : e'.merged = e.merged ++ segments.flatMap Segment.chosen
  conflicts : e'.conflicts = e.conflicts ++ reports e.merged.length segments

theorem Emits.refl (base ours theirs : List String) (e : Emitted) (o t : Nat) :
    Emits base ours theirs e o t [] e o t :=
  ⟨by omega, by simp [slice_self], by simp [slice_self], by simp [slice_self], by simp,
    by simp [reports]⟩

theorem Emits.trans (first : Emits base ours theirs e o t segments e' o' t')
    (second : Emits base ours theirs e' o' t' segments' e'' o'' t'') :
    Emits base ours theirs e o t (segments ++ segments') e'' o'' t'' where
  le := by
    have := first.le
    have := second.le
    omega
  baseText := by
    rw [List.flatMap_append, ← first.baseText, ← second.baseText,
      slice_append first.le.1 second.le.1]
  oursText := by
    rw [List.flatMap_append, ← first.oursText, ← second.oursText,
      slice_append first.le.2.1 second.le.2.1]
  theirsText := by
    rw [List.flatMap_append, ← first.theirsText, ← second.theirsText,
      slice_append first.le.2.2 second.le.2.2]
  merged := by rw [second.merged, first.merged, List.flatMap_append, List.append_assoc]
  conflicts := by
    rw [second.conflicts, first.conflicts, reports_append, first.merged, List.length_append,
      List.append_assoc]

/-- The base in front of a window, and a segment for the window. -/
theorem emits_window {start stop : Nat} {x : Segment} (le' : start ≤ stop)
    (front : Copies base ours e.b o start o') (front' : Copies base theirs e.b t start t')
    (leOurs : o' ≤ o'') (leTheirs : t' ≤ t'') (isBase : x.base = slice base start stop)
    (isOurs : x.ours = slice ours o' o'') (isTheirs : x.theirs = slice theirs t' t'')
    (stops : e'.b = stop) (merged : e'.merged = e.merged ++ slice base e.b start ++ x.chosen)
    (conflicts : e'.conflicts =
      e.conflicts ++ (x.report (e.merged ++ slice base e.b start).length).toList) :
    Emits base ours theirs e o t [.kept (slice base e.b start), x] e' o'' t'' := by
  have le := front.le
  have ours_le : o ≤ o' := by have := front.same; omega
  have theirs_le : t ≤ t' := by have := front'.same; omega
  have pair (f : Segment → List String) : [Segment.kept (slice base e.b start), x].flatMap f =
      f (.kept (slice base e.b start)) ++ f x := by simp
  refine ⟨by omega, ?_, ?_, ?_, ?_, ?_⟩
  · rw [pair, isBase, stops]
    exact (slice_append le le').symm
  · rw [pair, isOurs, ← slice_append ours_le leOurs, ← front.text]
    rfl
  · rw [pair, isTheirs, ← slice_append theirs_le leTheirs, ← front'.text]
    rfl
  · rw [pair, merged, List.append_assoc]
    rfl
  · rw [conflicts, List.length_append]
    simp only [reports, Segment.report, Option.toList_none, List.nil_append, List.append_nil]
    rfl

/-- A group emits the base in front of it and one segment. -/
theorem group_emits {g : Group} (le' : g.start ≤ g.stop)
    (front : Copies base ours e.b o g.start o') (front' : Copies base theirs e.b t g.start t')
    (oursPart : Spans base ours g.ours g.start o' g.stop o'')
    (theirsPart : Spans base theirs g.theirs g.start t' g.stop t'')
    (oursDiffer : g.ours ≠ [] → slice ours o' o'' ≠ slice base g.start g.stop)
    (theirsDiffer : g.theirs ≠ [] → slice theirs t' t'' ≠ slice base g.start g.stop) :
    ∃ segments, Emits base ours theirs e o t segments (e.group base ours theirs g) o'' t'' := by
  have ourSlice := oursPart.sideText_eq
  have theirSlice := theirsPart.sideText_eq
  have leOurs := oursPart.le.2
  have leTheirs := theirsPart.le.2
  unfold Emitted.group
  rw [ourSlice, theirSlice]
  dsimp only
  split_ifs with untouched untouched' same
  · -- only ours changed it
    rw [untouched] at theirsPart
    exact ⟨_, emits_window (x := .oursChanged (slice base g.start g.stop) (slice ours o' o'')) le'
      front front' leOurs leTheirs rfl rfl (Copies.text theirsPart) rfl rfl (by simp [Segment.report])⟩
  · -- only theirs changed it
    rw [untouched'] at oursPart
    exact ⟨_, emits_window (x := .theirsChanged (slice base g.start g.stop) (slice theirs t' t'')) le'
      front front' leOurs leTheirs rfl (Copies.text oursPart) rfl rfl rfl (by simp [Segment.report])⟩
  · -- both made the same edit
    exact ⟨_, emits_window (x := .sameEdit (slice base g.start g.stop) (slice ours o' o'')) le'
      front front' leOurs leTheirs rfl rfl same rfl rfl (by simp [Segment.report])⟩
  · exact ⟨_, emits_window (x := .conflict (slice base g.start g.stop) (slice ours o' o'')
      (slice theirs t' t'') (oursDiffer untouched') (theirsDiffer untouched) same) le' front front' leOurs leTheirs rfl rfl rfl rfl
      (by simp [Segment.chosen]) (by simp [Segment.report])⟩

/-- One side at a window: the run in front of it, its hunks, and the rest. -/
theorem window_parts {side : List String} {hunks taken left : List Hunk} {b s start stop n m : Nat}
    (spans : Spans base side hunks b s n m) (parts : hunks = taken ++ left)
    (first : ∀ h ∈ hunks, start ≤ h.bStart) (covered : ∀ h ∈ taken, h.bEnd ≤ stop)
    (behind : ∀ h ∈ left, stop ≤ h.bStart) (le : b ≤ start) (le' : start ≤ stop) (le'' : stop ≤ n) :
    ∃ s' s'', Copies base side b s start s' ∧ Spans base side taken start s' stop s'' ∧
      Spans base side left stop s'' n m := by
  have whole : Spans base side ([] ++ hunks) b s n m := spans
  obtain ⟨s', front, rest⟩ := whole.split_at (by simp) first le (by omega)
  rw [parts] at rest
  obtain ⟨s'', inside, after⟩ := rest.split_at covered behind le' le''
  exact ⟨s', s'', front, inside, after⟩

/-- The two sides at the group of one turn of the loop. -/
theorem turn_parts {ourHunks theirHunks : List Hunk} {b start : Nat}
    (next : nextStart ourHunks theirHunks = some start)
    (oursSpans : Spans base ours ourHunks b o base.length ours.length)
    (theirsSpans : Spans base theirs theirHunks b t base.length theirs.length)
    {g : Group} {ours' theirs' : List Hunk}
    (grown : grow (.at start) ourHunks theirHunks = (g, ours', theirs')) :
    g.start ≤ g.stop ∧ (ourHunks = g.ours ++ ours' ∧ theirHunks = g.theirs ++ theirs') ∧
      (∃ o₁ o₂, Copies base ours b o g.start o₁ ∧ Spans base ours g.ours g.start o₁ g.stop o₂ ∧
        Spans base ours ours' g.stop o₂ base.length ours.length) ∧
      ∃ t₁ t₂, Copies base theirs b t g.start t₁ ∧
        Spans base theirs g.theirs g.start t₁ g.stop t₂ ∧
        Spans base theirs theirs' g.stop t₂ base.length theirs.length := by
  have inside : ∀ h ∈ ourHunks ++ theirHunks,
      b ≤ h.bStart ∧ h.bStart ≤ h.bEnd ∧ h.bEnd ≤ base.length := by
    intro h mem
    rcases List.mem_append.mp mem with mine | other
    · exact oursSpans.inside h mine
    · exact theirsSpans.inside h other
  have window := grow_spec next oursSpans.sorted theirsSpans.sorted
    fun h mem => (inside h mem).2.1
  rw [grown] at window
  obtain ⟨fits, oursParts, theirsParts, behind⟩ := window
  obtain ⟨first, first'⟩ := nextStart_le next oursSpans.sorted theirsSpans.sorted
  obtain ⟨h, mem, starts⟩ := nextStart_mem next
  have start_le := inside h mem
  dsimp only at fits oursParts theirsParts behind
  have stop_le : g.stop ≤ base.length := by
    rcases fits.reached with still | ⟨k, taken, stops⟩
    · omega
    · have := inside k (by rw [oursParts, theirsParts]; simp at taken ⊢; tauto)
      omega
  rw [fits.starts]
  exact ⟨fits.le, ⟨oursParts, theirsParts⟩,
    window_parts oursSpans oursParts first (fun k mem => fits.covers k (by simp [mem]))
      (fun k mem => behind k (by simp [mem])) (by omega) fits.le stop_le,
    window_parts theirsSpans theirsParts first' (fun k mem => fits.covers k (by simp [mem]))
      (fun k mem => behind k (by simp [mem])) (by omega) fits.le stop_le⟩

/-- While hunks are left the loop goes on behind a group. -/
theorem mergeLoop_some {ourHunks theirHunks : List Hunk} {start : Nat}
    (next : nextStart ourHunks theirHunks = some start) :
    mergeLoop base ours theirs ourHunks theirHunks e =
      mergeLoop base ours theirs (grow (.at start) ourHunks theirHunks).2.1
        (grow (.at start) ourHunks theirHunks).2.2
        (e.group base ours theirs (grow (.at start) ourHunks theirHunks).1) := by
  rw [mergeLoop]
  split
  · simp_all
  · next start' next' =>
      obtain rfl : start = start' := Option.some.inj (next.symm.trans next')
      rfl

/-- The loop emits segments up to a position behind which all three documents agree. -/
theorem mergeLoop_emits {ourHunks theirHunks : List Hunk}
    (oursSpans : Spans base ours ourHunks e.b o base.length ours.length)
    (theirsSpans : Spans base theirs theirHunks e.b t base.length theirs.length)
    (oursTight : Tight base ours ourHunks e.b o base.length ours.length)
    (theirsTight : Tight base theirs theirHunks e.b t base.length theirs.length) :
    ∃ segments o' t',
      Emits base ours theirs e o t segments (mergeLoop base ours theirs ourHunks theirHunks e) o' t' ∧
      Copies base ours (mergeLoop base ours theirs ourHunks theirHunks e).b o' base.length
        ours.length ∧
      Copies base theirs (mergeLoop base ours theirs ourHunks theirHunks e).b t' base.length
        theirs.length := by
  induction ourHunks, theirHunks, e using mergeLoop.induct base ours theirs generalizing o t with
  | case1 ourHunks theirHunks e next =>
      have none : ourHunks = [] ∧ theirHunks = [] := by
        cases ourHunks <;> cases theirHunks <;> simp_all [nextStart]
      obtain ⟨rfl, rfl⟩ := none
      unfold mergeLoop
      exact ⟨[], o, t, .refl base ours theirs e o t, oursSpans, theirsSpans⟩
  | case2 ourHunks theirHunks e start next grown =>
      rename_i ih
      have unfolded : mergeLoop base ours theirs ourHunks theirHunks e =
          mergeLoop base ours theirs grown.2.1 grown.2.2 (e.group base ours theirs grown.1) :=
        mergeLoop_some next
      obtain ⟨⟨g, ours', theirs'⟩, result⟩ : ∃ r, grown = r := ⟨_, rfl⟩
      obtain ⟨start_le_stop, ⟨rfl, rfl⟩, ⟨o₁, o₂, front, part, rest⟩, t₁, t₂, front', part',
        rest'⟩ := turn_parts next oursSpans theirsSpans result
      obtain ⟨tight, restTight⟩ := oursTight.parts front part rest (Nat.le_refl _)
      obtain ⟨tight', restTight'⟩ := theirsTight.parts front' part' rest' (Nat.le_refl _)
      rw [unfolded]
      rw [result] at ih ⊢
      dsimp only at ih
      obtain ⟨segments, emits⟩ := group_emits start_le_stop front front' part part'
        (fun some' => tight.differ part some' rest.le.1 rest.le.2)
        (fun some' => tight'.differ part' some' rest'.le.1 rest'.le.2)
      have stops : (e.group base ours theirs g).b = g.stop := by
        unfold Emitted.group
        dsimp only
        split_ifs <;> rfl
      obtain ⟨segments', o₃, t₃, emits', tail, tail'⟩ := ih (stops ▸ rest) (stops ▸ rest')
        (stops ▸ restTight) (stops ▸ restTight')
      exact ⟨segments ++ segments', o₃, t₃, emits.trans emits', tail, tail'⟩

/-! ## The merge -/

/-- A result that decides each segment of a cut through the three documents. -/
def Reconciles (base ours theirs : List String) (result : FsMergeResult) : Prop :=
  ∃ segments : List Segment,
    segments.flatMap Segment.base = base ∧ segments.flatMap Segment.ours = ours ∧
    segments.flatMap Segment.theirs = theirs ∧
    (∀ s ∈ segments, s.ours = s.base ∨ s.theirs = s.base ∨ s.ours = s.theirs ∨
      ∀ line, s.report line = some ⟨line, joinLines s.base, joinLines s.ours, joinLines s.theirs⟩) ∧
    result.merged = joinLines (segments.flatMap Segment.chosen) ∧
    result.conflicts = reports 0 segments ∧
    segments.flatMap Segment.withOurs = ours ∧ segments.flatMap Segment.withTheirs = theirs

theorem Reconciles.of_segments {base ours theirs : List String} {result : FsMergeResult}
    (segments : List Segment) (isBase : segments.flatMap Segment.base = base)
    (isOurs : segments.flatMap Segment.ours = ours)
    (isTheirs : segments.flatMap Segment.theirs = theirs)
    (merged : result.merged = joinLines (segments.flatMap Segment.chosen))
    (conflicts : result.conflicts = reports 0 segments) : Reconciles base ours theirs result := by
  refine ⟨segments, isBase, isOurs, isTheirs, fun s _ => s.alike_or_reported, merged, conflicts,
    ?_, ?_⟩
  · rw [← isOurs]
    exact congrArg (segments.flatMap ·) (funext Segment.withOurs_eq)
  · rw [← isTheirs]
    exact congrArg (segments.flatMap ·) (funext Segment.withTheirs_eq)

theorem mergeLines_reconciles (base ours theirs : List String) :
    Reconciles base ours theirs (mergeLines base ours theirs) := by
  obtain ⟨segments, o, t, emits, tail, tail'⟩ :=
    mergeLoop_emits (e := ⟨0, [], []⟩) (spans_hunksOf base ours) (spans_hunksOf base theirs)
      (tight_hunksOf base ours) (tight_hunksOf base theirs)
  unfold mergeLines
  obtain ⟨e, loop⟩ :
      ∃ e, mergeLoop base ours theirs (hunksOf base ours) (hunksOf base theirs) ⟨0, [], []⟩ = e :=
    ⟨_, rfl⟩
  rw [loop] at emits tail tail' ⊢
  dsimp only
  have oursLe : o ≤ ours.length := by
    have := tail.same
    omega
  have theirsLe : t ≤ theirs.length := by
    have := tail'.same
    omega
  refine .of_segments (segments ++ [.kept (slice base e.b base.length)]) ?_ ?_ ?_ ?_ ?_
  · rw [List.flatMap_append, ← emits.baseText, List.flatMap_singleton]
    exact (slice_append (Nat.zero_le _) tail.le).trans (slice_zero_length base)
  · rw [List.flatMap_append, ← emits.oursText, List.flatMap_singleton]
    change _ ++ slice base e.b base.length = _
    rw [tail.text, slice_append (Nat.zero_le _) oursLe, slice_zero_length]
  · rw [List.flatMap_append, ← emits.theirsText, List.flatMap_singleton]
    change _ ++ slice base e.b base.length = _
    rw [tail'.text, slice_append (Nat.zero_le _) theirsLe, slice_zero_length]
  · rw [List.flatMap_append, List.flatMap_singleton, emits.merged]
    rfl
  · rw [reports_append, emits.conflicts]
    simp [reports, Segment.report]

/-- Joining the lines of a text gives the text back. -/
theorem joinLines_toLines (text : String) : joinLines (toLines text) = text := by
  have newline : "\n".toList = ['\n'] := rfl
  rw [← String.toList_inj, joinLines, toLines, String.toList_intercalate, newline, List.map_map]
  have lines : (text.toList.splitOn '\n').map (String.toList ∘ String.ofList) =
      text.toList.splitOn '\n' := by
    simp [Function.comp_def]
  rw [lines, List.intercalate_splitOn]

/-- Every merge decides the segments of a cut through its three documents: nothing of
either side is dropped or doubled, and the lines are exactly the documents'. -/
theorem mergeThreeWay_segments (base ours theirs : String) :
    Reconciles (toLines base) (toLines ours) (toLines theirs)
      (mergeLines (toLines base) (toLines ours) (toLines theirs)) ∧
    Reconciles (toLines base) (toLines ours) (toLines theirs) (mergeThreeWay base ours theirs) ∧
    joinLines (toLines base) = base ∧ joinLines (toLines ours) = ours ∧
    joinLines (toLines theirs) = theirs := by
  have general := mergeLines_reconciles (toLines base) (toLines ours) (toLines theirs)
  refine ⟨general, ?_, joinLines_toLines base, joinLines_toLines ours, joinLines_toLines theirs⟩
  unfold mergeThreeWay
  split_ifs with same unchanged unpublished
  · rw [same]
    exact .of_segments [.sameEdit (toLines base) (toLines theirs)] (by simp [Segment.base])
      (by simp [Segment.ours]) (by simp [Segment.theirs])
      (by simp [Segment.chosen, joinLines_toLines]) (by simp [reports, Segment.report])
  · rw [unchanged]
    exact .of_segments [.theirsChanged (toLines ours) (toLines theirs)] (by simp [Segment.base])
      (by simp [Segment.ours]) (by simp [Segment.theirs])
      (by simp [Segment.chosen, joinLines_toLines]) (by simp [reports, Segment.report])
  · rw [unpublished]
    exact .of_segments [.oursChanged (toLines theirs) (toLines ours)] (by simp [Segment.base])
      (by simp [Segment.ours]) (by simp [Segment.theirs])
      (by simp [Segment.chosen, joinLines_toLines]) (by simp [reports, Segment.report])
  · exact general

end Everdict.WorkspaceFile
