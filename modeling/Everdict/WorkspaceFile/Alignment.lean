import Everdict.WorkspaceFile.Merge

/-!
# Hunks that explain a document

`Spans base side hunks b s b' s'` says that `side[s, s')` is `base[b, b')` with the
hunks put in.  `spans_hunksOf` gives it for the hunks of a whole document,
`Spans.split_at` cuts it at a position of the base that no hunk covers, and
`Spans.sideText_eq` says that `sideText` reads off exactly the side's part.
-/

namespace Everdict.WorkspaceFile

/-! ## Slices -/

section Slices

variable {α : Type} {l : List α} {a b c : Nat}

theorem slice_self (l : List α) (a : Nat) : slice l a a = [] := by simp [slice]

theorem slice_zero_length (l : List α) : slice l 0 l.length = l := by simp [slice]

theorem slice_eq_take_drop (le : a ≤ b) (le' : b ≤ c) : slice l a b = (slice l a c).take (b - a) := by
  simp only [slice, List.take_take]
  congr 1
  omega

theorem slice_eq_drop (le : a ≤ b) : slice l b c = (slice l a c).drop (b - a) := by
  have offset : a + (b - a) = b := by omega
  have length : c - a - (b - a) = c - b := by omega
  rw [slice, slice, List.drop_take, List.drop_drop, offset, length]

theorem slice_append (le : a ≤ b) (le' : b ≤ c) : slice l a b ++ slice l b c = slice l a c := by
  rw [slice_eq_take_drop le le', slice_eq_drop (c := c) le, List.take_append_drop]

theorem slice_succ {x : α} (line : l[a]? = some x) : slice l a (a + 1) = [x] := by
  obtain ⟨bound, rfl⟩ := List.getElem?_eq_some_iff.mp line
  rw [slice, List.drop_eq_getElem_cons bound, Nat.add_sub_cancel_left, List.take_succ_cons,
    List.take_zero]

end Slices

variable {α : Type} {base side : List α} {hunks hunks' : List Hunk} {b s b' s' b'' s'' : Nat}

/-! ## Untouched runs -/

/-- The lines of the base from `b` to `b'` are those of the side from `s` to `s'`. -/
structure Copies (base side : List α) (b s b' s' : Nat) : Prop where
  le : b ≤ b'
  same : s' = s + (b' - b)
  text : slice base b b' = slice side s s'

theorem Copies.refl (base side : List α) (b s : Nat) : Copies base side b s b s :=
  ⟨Nat.le_refl b, by omega, by rw [slice_self, slice_self]⟩

theorem Copies.trans (first : Copies base side b s b' s') (second : Copies base side b' s' b'' s'') :
    Copies base side b s b'' s'' where
  le := Nat.le_trans first.le second.le
  same := by
    have := first.same
    have := second.same
    have := first.le
    have := second.le
    omega
  text := by
    have le : s ≤ s' := by rw [first.same]; omega
    have le' : s' ≤ s'' := by rw [second.same]; omega
    rw [← slice_append first.le second.le, ← slice_append le le', first.text, second.text]

/-- A run can be cut anywhere. -/
theorem Copies.cut {p : Nat} (run : Copies base side b s b' s') (le : b ≤ p) (le' : p ≤ b') :
    Copies base side b s p (s + (p - b)) ∧ Copies base side p (s + (p - b)) b' s' := by
  have same := run.same
  have first : s ≤ s + (p - b) := by omega
  have rest : s + (p - b) ≤ s' := by omega
  refine ⟨⟨le, rfl, ?_⟩, ⟨le', by omega, ?_⟩⟩
  · rw [slice_eq_take_drop le le', slice_eq_take_drop first rest, run.text]
    congr 1
    omega
  · rw [slice_eq_drop le, slice_eq_drop first, run.text]
    congr 1
    omega

theorem Copies.line {x : α} (inBase : base[b]? = some x) (inSide : side[s]? = some x) :
    Copies base side b s (b + 1) (s + 1) :=
  ⟨by omega, by omega, by rw [slice_succ inBase, slice_succ inSide]⟩

/-! ## Runs and hunks -/

/-- From `(b, s)` to `(b', s')` the side is the base with the hunks put in. -/
def Spans (base side : List α) : List Hunk → Nat → Nat → Nat → Nat → Prop
  | [], b, s, b', s' => Copies base side b s b' s'
  | h :: hunks, b, s, b', s' =>
      Copies base side b s h.bStart h.sStart ∧ h.bStart ≤ h.bEnd ∧ h.sStart ≤ h.sEnd ∧
        Spans base side hunks h.bEnd h.sEnd b' s'

theorem Spans.extend (run : Copies base side b s b' s')
    (rest : Spans base side hunks b' s' b'' s'') : Spans base side hunks b s b'' s'' := by
  cases hunks with
  | nil => exact run.trans rest
  | cons h hunks => exact ⟨run.trans rest.1, rest.2⟩

theorem Spans.le (spans : Spans base side hunks b s b' s') : b ≤ b' ∧ s ≤ s' := by
  induction hunks generalizing b s with
  | nil =>
      have := spans.same
      exact ⟨Copies.le spans, by omega⟩
  | cons h hunks ih =>
      obtain ⟨run, le, le', rest⟩ := spans
      have := run.same
      have := run.le
      have := ih rest
      omega

/-- The hunks lie in order between the two ends. -/
theorem Spans.inside (spans : Spans base side hunks b s b' s') :
    ∀ h ∈ hunks, b ≤ h.bStart ∧ h.bStart ≤ h.bEnd ∧ h.bEnd ≤ b' := by
  induction hunks generalizing b s with
  | nil => simp
  | cons h hunks ih =>
      obtain ⟨run, le, -, rest⟩ := spans
      have := run.le
      have := rest.le
      intro h' mem
      rcases List.mem_cons.mp mem with rfl | tail
      · omega
      · have := ih rest h' tail
        omega

theorem Spans.sorted (spans : Spans base side hunks b s b' s') :
    hunks.Pairwise fun h k => h.bStart ≤ k.bStart := by
  induction hunks generalizing b s with
  | nil => exact .nil
  | cons h hunks ih =>
      obtain ⟨-, le, -, rest⟩ := spans
      refine List.pairwise_cons.mpr ⟨fun k mem => ?_, ih rest⟩
      have := rest.inside k mem
      omega

/-- A position of the base that no hunk covers has its place in the side. -/
theorem Spans.split_at {p : Nat} (spans : Spans base side (hunks ++ hunks') b s b' s')
    (before : ∀ h ∈ hunks, h.bEnd ≤ p) (after : ∀ h ∈ hunks', p ≤ h.bStart) (le : b ≤ p)
    (le' : p ≤ b') :
    ∃ q, Spans base side hunks b s p q ∧ Spans base side hunks' p q b' s' := by
  induction hunks generalizing b s with
  | nil =>
      cases hunks' with
      | nil =>
          obtain ⟨first, rest⟩ := Copies.cut spans le le'
          exact ⟨_, first, rest⟩
      | cons h hunks' =>
          obtain ⟨run, more⟩ := spans
          obtain ⟨first, rest⟩ := run.cut le (after h (by simp))
          exact ⟨_, first, rest, more⟩
  | cons h hunks ih =>
      obtain ⟨run, inside, inside', rest⟩ := spans
      obtain ⟨q, first, second⟩ := ih rest (fun h' mem => before h' (by simp [mem]))
        (before h (by simp))
      exact ⟨q, ⟨run, inside, inside', first⟩, second⟩

/-! ## What a side reads -/

theorem sideTextLoop_eq {start : Nat} (out : List α) (le : start ≤ b)
    (spans : Spans base side hunks b s b' s') :
    sideTextLoop base side start b' hunks b out = out ++ slice side s s' := by
  induction hunks generalizing b s out with
  | nil =>
      have text := Copies.text spans
      have same := Copies.same spans
      simp only [sideTextLoop]
      split
      · rw [text]
      · have : s' = s := by omega
        rw [this, slice_self, List.append_nil]
  | cons h hunks ih =>
      obtain ⟨run, inside, inside', rest⟩ := spans
      have := run.le
      have run_same := run.same
      have rest_le := rest.le
      have kept : (if h.bStart > b then out ++ slice base b h.bStart else out) =
          out ++ slice side s h.sStart := by
        split
        · rw [run.text]
        · have : h.sStart = s := by omega
          rw [this, slice_self, List.append_nil]
      rw [sideTextLoop, if_neg (by omega), kept, ih _ (by omega) rest, List.append_assoc,
        List.append_assoc, slice_append inside' rest_le.2, slice_append (by omega) (by omega)]

/-- `sideText` over a window reads the side's part of it. -/
theorem Spans.sideText_eq (spans : Spans base side hunks b s b' s') :
    sideText base side hunks b b' = slice side s s' := by
  rw [sideText, sideTextLoop_eq [] (Nat.le_refl b) spans, List.nil_append]

/-! ## The hunks of a whole document -/

/-- Pairs of equal lines, both coordinates increasing from `(b, s)` on. -/
def Matching (base side : List α) : Nat → Nat → List (Nat × Nat) → Prop
  | _, _, [] => True
  | b, s, (pb, ps) :: pairs =>
      b ≤ pb ∧ s ≤ ps ∧ (∃ line, base[pb]? = some line ∧ side[ps]? = some line) ∧
        Matching base side (pb + 1) (ps + 1) pairs

theorem Matching.mono {pairs : List (Nat × Nat)} (pairing : Matching base side b' s' pairs)
    (le : b ≤ b') (le' : s ≤ s') : Matching base side b s pairs := by
  cases pairs with
  | nil => trivial
  | cons p pairs =>
      obtain ⟨first, first', rest⟩ := pairing
      exact ⟨Nat.le_trans le first, Nat.le_trans le' first', rest⟩

theorem matching_lcsWalk [DecidableEq α] (base side : List α) (table : List (List Nat)) (b s : Nat) :
    Matching base side b s (lcsWalk base side table b s) := by
  induction b, s using lcsWalk.induct base side table with
  | case1 i j bounds same ih =>
      rw [lcsWalk, if_pos bounds, if_pos same]
      refine ⟨Nat.le_refl i, Nat.le_refl j, ⟨_, List.getElem?_eq_getElem bounds.1, ?_⟩, ih⟩
      rw [← same, List.getElem?_eq_getElem bounds.1]
  | case2 i j bounds other down ih =>
      rw [lcsWalk, if_pos bounds, if_neg other, if_pos down]
      exact ih.mono (by omega) (Nat.le_refl j)
  | case3 i j bounds other right ih =>
      rw [lcsWalk, if_pos bounds, if_neg other, if_neg right]
      exact ih.mono (Nat.le_refl i) (by omega)
  | case4 i j outside =>
      rw [lcsWalk, if_neg outside]
      trivial

theorem spans_hunksLoop {pairs : List (Nat × Nat)} (pairing : Matching base side b s pairs)
    (le : b ≤ base.length) (le' : s ≤ side.length) :
    Spans base side (hunksLoop base side pairs b s) b s base.length side.length := by
  induction pairs generalizing b s with
  | nil =>
      rw [hunksLoop]
      split
      · exact ⟨.refl base side b s, le, le', .refl base side _ _⟩
      · have hb : b = base.length := by omega
        have hs : s = side.length := by omega
        rw [hb, hs]
        exact .refl base side _ _
  | cons p pairs ih =>
      obtain ⟨pb, ps⟩ := p
      obtain ⟨le_b, le_s, ⟨line, inBase, inSide⟩, rest⟩ := pairing
      obtain ⟨bound, -⟩ := List.getElem?_eq_some_iff.mp inBase
      obtain ⟨bound', -⟩ := List.getElem?_eq_some_iff.mp inSide
      have following : Spans base side (hunksLoop base side pairs (pb + 1) (ps + 1)) pb ps base.length
          side.length := Spans.extend (.line inBase inSide) (ih rest (by omega) (by omega))
      simp only [hunksLoop]
      split
      · exact ⟨.refl base side b s, le_b, le_s, following⟩
      · have hb : b = pb := by omega
        have hs : s = ps := by omega
        rw [hb, hs]
        exact following

theorem spans_hunksOf [DecidableEq α] (base side : List α) :
    Spans base side (hunksOf base side) 0 0 base.length side.length :=
  spans_hunksLoop (matching_lcsWalk base side _ 0 0) (Nat.zero_le _) (Nat.zero_le _)

end Everdict.WorkspaceFile
