import Everdict.WorkspaceFile.Diff
import Everdict.WorkspaceFile.Segmentation
import Mathlib.Data.List.Chain

/-!
# A difference is a patch

The lines of a difference are a walk through both documents (`walks_diffLines`), and its hunks
cut out of the walk what lies around a change.  So the hunks, put into the first document, give
the second (`diffFileText_correct`).
-/

namespace Everdict.WorkspaceFile

/-! ## What a patch says -/

/-- The lines of the first document that a hunk shows: its context and what it removes. -/
def beforeTexts (lines : List FsTextDiffLine) : List String :=
  (lines.filter fun line => line.op ≠ .add).map (·.text)

/-- The lines of the second document: its context and what it adds. -/
def afterTexts (lines : List FsTextDiffLine) : List String :=
  (lines.filter fun line => line.op ≠ .remove).map (·.text)

/-- The first document, from one line on, with the hunks put in. -/
def applyHunks (before : List String) : Nat → List FsTextDiffHunk → List String
  | ai, [] => slice before ai before.length
  | ai, h :: hunks =>
      slice before ai (h.beforeStart - 1) ++ afterTexts h.lines
        ++ applyHunks before (h.beforeStart - 1 + (beforeTexts h.lines).length) hunks

/-- From one place in both documents on: they carry the same lines up to the first hunk, the hunk
shows its part of each from its start on, and so on behind the hunk. -/
inductive Patches (a b : List String) : Nat → Nat → List FsTextDiffHunk → Prop
  | done {ai bi : Nat} : Copies a b ai bi a.length b.length → Patches a b ai bi []
  | hunk {ai bi ai' bi' ai'' bi'' : Nat} {h : FsTextDiffHunk} {hunks : List FsTextDiffHunk} :
      Copies a b ai bi ai' bi' → h.beforeStart = ai' + 1 → h.afterStart = bi' + 1 →
      ai' < ai'' → bi' < bi'' → beforeTexts h.lines = slice a ai' ai'' →
      afterTexts h.lines = slice b bi' bi'' → ai'' ≤ a.length → bi'' ≤ b.length →
      Patches a b ai'' bi'' hunks → Patches a b ai bi (h :: hunks)

/-! ## A walk through both documents -/

inductive Walks (a b : List String) : List FsTextDiffLine → Nat → Nat → Nat → Nat → Prop
  | done (ai bi : Nat) : Walks a b [] ai bi ai bi
  | context {ai bi ai' bi' : Nat} {text : String} {lines : List FsTextDiffLine} :
      a[ai]? = some text → b[bi]? = some text → Walks a b lines (ai + 1) (bi + 1) ai' bi' →
      Walks a b (⟨.context, text, some (ai + 1), some (bi + 1)⟩ :: lines) ai bi ai' bi'
  | remove {ai bi ai' bi' : Nat} {text : String} {lines : List FsTextDiffLine} :
      a[ai]? = some text → Walks a b lines (ai + 1) bi ai' bi' →
      Walks a b (⟨.remove, text, some (ai + 1), none⟩ :: lines) ai bi ai' bi'
  | add {ai bi ai' bi' : Nat} {text : String} {lines : List FsTextDiffLine} :
      b[bi]? = some text → Walks a b lines ai (bi + 1) ai' bi' →
      Walks a b (⟨.add, text, none, some (bi + 1)⟩ :: lines) ai bi ai' bi'

section Walks

variable {a b : List String} {lines lines' : List FsTextDiffLine} {ai bi ai' bi' ai'' bi'' : Nat}

theorem Walks.append (first : Walks a b lines ai bi ai' bi')
    (second : Walks a b lines' ai' bi' ai'' bi'') :
    Walks a b (lines ++ lines') ai bi ai'' bi'' := by
  induction first with
  | done => exact second
  | context inA inB _ ih => exact .context inA inB (ih second)
  | remove inA _ ih => exact .remove inA (ih second)
  | add inB _ ih => exact .add inB (ih second)

theorem Walks.le (walks : Walks a b lines ai bi ai' bi') : ai ≤ ai' ∧ bi ≤ bi' := by
  induction walks with
  | done => exact ⟨Nat.le_refl _, Nat.le_refl _⟩
  | context | remove | add => omega

theorem slice_cons {x : String} {l : List String} {i j : Nat} (line : l[i]? = some x)
    (le : i + 1 ≤ j) : slice l i j = x :: slice l (i + 1) j := by
  rw [← slice_append (Nat.le_succ i) le, slice_succ line, List.singleton_append]

/-- A walk shows the part of each document that it goes through. -/
theorem Walks.texts (walks : Walks a b lines ai bi ai' bi') :
    beforeTexts lines = slice a ai ai' ∧ afterTexts lines = slice b bi bi' := by
  induction walks with
  | done => exact ⟨(slice_self _ _).symm, (slice_self _ _).symm⟩
  | context inA inB rest ih =>
      rw [slice_cons inA rest.le.1, slice_cons inB rest.le.2, ← ih.1, ← ih.2]
      exact ⟨rfl, rfl⟩
  | remove inA rest ih =>
      rw [slice_cons inA rest.le.1, ← ih.1, ← ih.2]
      exact ⟨rfl, rfl⟩
  | add inB rest ih =>
      rw [slice_cons inB rest.le.2, ← ih.1, ← ih.2]
      exact ⟨rfl, rfl⟩

/-- What is added and removed is the difference of the numbers of lines. -/
theorem Walks.counts (walks : Walks a b lines ai bi ai' bi') :
    bi' - bi + (lines.countP fun line => line.op = .remove) =
      ai' - ai + (lines.countP fun line => line.op = .add) := by
  induction walks with
  | done => simp
  | context _ _ rest ih | remove _ rest ih | add _ rest ih =>
      have le := rest.le
      simp
      omega

/-- The first line number of a walk is that of the place it starts at. -/
theorem Walks.firstLineNumber (walks : Walks a b lines ai bi ai' bi') :
    (lines.findSome? FsTextDiffLine.beforeLine = some (ai + 1) ∨ ai' = ai) ∧
      (lines.findSome? FsTextDiffLine.afterLine = some (bi + 1) ∨ bi' = bi) := by
  induction walks with
  | done => exact ⟨.inr rfl, .inr rfl⟩
  | context => exact ⟨.inl rfl, .inl rfl⟩
  | remove _ _ ih => exact ⟨.inl rfl, ih.2⟩
  | add _ _ ih => exact ⟨ih.1, .inl rfl⟩

/-! ## The lines of a difference -/

theorem walks_removed {i : Nat} (le : ai ≤ i) (bound : i ≤ a.length) :
    Walks a b ((slice a ai i).mapIdx fun k text => ⟨.remove, text, some (ai + k + 1), none⟩)
      ai bi i bi := by
  induction n : i - ai generalizing ai with
  | zero =>
      obtain rfl : ai = i := by omega
      rw [slice_self]
      exact .done ai bi
  | succ n ih =>
      have inA : a[ai]? = some a[ai] := List.getElem?_eq_getElem (by omega)
      rw [slice_cons inA (by omega), List.mapIdx_cons]
      refine .remove inA ?_
      have rest := @ih (ai + 1) (by omega) (by omega)
      simpa only [Nat.add_assoc, Nat.add_comm 1] using rest

theorem walks_added {i : Nat} (le : bi ≤ i) (bound : i ≤ b.length) :
    Walks a b ((slice b bi i).mapIdx fun k text => ⟨.add, text, none, some (bi + k + 1)⟩)
      ai bi ai i := by
  induction n : i - bi generalizing bi with
  | zero =>
      obtain rfl : bi = i := by omega
      rw [slice_self]
      exact .done ai bi
  | succ n ih =>
      have inB : b[bi]? = some b[bi] := List.getElem?_eq_getElem (by omega)
      rw [slice_cons inB (by omega), List.mapIdx_cons]
      refine .add inB ?_
      have rest := @ih (bi + 1) (by omega) (by omega)
      simpa only [Nat.add_assoc, Nat.add_comm 1] using rest

theorem walks_emitGap (le : ai ≤ ai') (le' : bi ≤ bi') (bound : ai' ≤ a.length)
    (bound' : bi' ≤ b.length) : Walks a b (emitGap a b ai bi ai' bi') ai bi ai' bi' :=
  (walks_removed le bound).append (walks_added le' bound')

theorem walks_diffLines {pairs : List (Nat × Nat)} (pairing : Matching a b ai bi pairs)
    (le : ai ≤ a.length) (le' : bi ≤ b.length) :
    Walks a b (diffLines a b pairs ai bi) ai bi a.length b.length := by
  induction pairs generalizing ai bi with
  | nil => exact walks_emitGap le le' (Nat.le_refl _) (Nat.le_refl _)
  | cons pair pairs ih =>
      obtain ⟨pa, pb⟩ := pair
      obtain ⟨leA, leB, ⟨line, inA, inB⟩, rest⟩ := pairing
      obtain ⟨boundA, _⟩ := List.getElem?_eq_some_iff.mp inA
      obtain ⟨boundB, _⟩ := List.getElem?_eq_some_iff.mp inB
      have text : a.getD pa "" = line := by rw [List.getD_eq_getElem?_getD, inA, Option.getD_some]
      rw [diffLines, text]
      exact (walks_emitGap leA leB (by omega) (by omega)).append
        (.context inA inB (ih rest boundA boundB))

end Walks

/-! ## What is kept around a change -/

section Kept

variable {a b : List String} {lines current : List FsTextDiffLine}
  {marked : List (FsTextDiffLine × Bool)} {ai bi ai' bi' ai'' bi'' : Nat}

/-- Neighbours of a change are kept. -/
def Bordered (x y : FsTextDiffLine × Bool) : Prop :=
  (x.1.op ≠ .context → y.2 = true) ∧ (y.1.op ≠ .context → x.2 = true)

/-- The lines, each with whether it is kept. -/
def marks (lines : List FsTextDiffLine) : List (FsTextDiffLine × Bool) :=
  lines.zipIdx.map fun line => (line.1, keepsLine lines line.2)

theorem map_fst_marks (lines : List FsTextDiffLine) : (marks lines).map Prod.fst = lines := by
  rw [marks, List.map_map]
  exact List.zipIdx_map_fst 0 lines

theorem keepsLine_of_near {i j : Nat} (bound : i < lines.length)
    (changed : lines[i].op ≠ .context) (near : i ≤ j + 3 ∧ j ≤ i + 3) :
    keepsLine lines j = true := by
  refine List.any_eq_true.mpr ⟨(lines[i], i), ?_, ?_⟩
  · exact List.mk_mem_zipIdx_iff_getElem?.mpr (List.getElem?_eq_getElem bound)
  · simp only [changed, CONTEXT_LINES, decide_eq_true_eq, ne_eq, not_false_eq_true, true_and]
    omega

theorem marks_bordered (lines : List FsTextDiffLine) : (marks lines).IsChain Bordered := by
  refine List.isChain_iff_getElem.mpr fun i bound => ?_
  have bound : i + 1 < lines.length := by simpa [marks] using bound
  constructor
  · intro changed
    simp only [marks, List.getElem_map, List.getElem_zipIdx] at changed ⊢
    exact keepsLine_of_near (by omega) changed (by omega)
  · intro changed
    simp only [marks, List.getElem_map, List.getElem_zipIdx] at changed ⊢
    exact keepsLine_of_near (by omega) changed (by omega)

theorem marks_changed (lines : List FsTextDiffLine) :
    ∀ x ∈ marks lines, x.1.op ≠ .context → x.2 = true := by
  intro x isIn changed
  obtain ⟨i, bound, rfl⟩ := List.getElem_of_mem isIn
  have bound' : i < lines.length := by simpa [marks] using bound
  simp only [marks, List.getElem_map, List.getElem_zipIdx] at changed ⊢
  exact keepsLine_of_near (by omega) changed (by omega)

/-- Where a hunk is flushed its lines end with a context line, or there are none. -/
theorem mem_flushHunk {h : FsTextDiffHunk} (isIn : h ∈ flushHunk current) :
    h.lines = current ∧ current ≠ [] := by
  unfold flushHunk at isIn
  split_ifs at isIn with none
  · cases isIn
  · obtain rfl := List.mem_singleton.mp isIn
    exact ⟨rfl, none⟩

/-- Behind a line that is left out, and where a hunk is open that has one, every hunk shows a
context line. -/
theorem hunkLoop_anchored (chain : marked.IsChain Bordered)
    (anchored : (∃ line ∈ current, line.op = .context) ∨
      (current = [] ∧ ∀ x ∈ marked.head?, x.1.op = .context))
    {h : FsTextDiffHunk} (isIn : h ∈ hunkLoop marked current) :
    ∃ line ∈ h.lines, line.op = .context := by
  induction marked generalizing current with
  | nil =>
      obtain ⟨eq, some'⟩ := mem_flushHunk isIn
      rw [eq]
      exact anchored.resolve_right fun none => some' none.1
  | cons x marked ih =>
      obtain ⟨line, kept⟩ := x
      have rest := chain.tail
      cases kept with
      | true =>
          refine ih rest (.inl ?_) isIn
          rcases anchored with ⟨other, isOld, context⟩ | ⟨_, first⟩
          · exact ⟨other, List.mem_append_left _ isOld, context⟩
          · exact ⟨line, List.mem_concat_self, first _ rfl⟩
      | false =>
          rcases List.mem_append.mp isIn with isFlushed | isLater
          · obtain ⟨eq, some'⟩ := mem_flushHunk isFlushed
            rw [eq]
            exact anchored.resolve_right fun none => some' none.1
          · refine ih rest (.inr ⟨rfl, fun y isNext => ?_⟩) isLater
            obtain ⟨tail, rfl⟩ := List.head?_eq_some_iff.mp isNext
            by_contra changed
            exact absurd ((List.isChain_cons_cons.mp chain).1.2 changed) Bool.false_ne_true

/-- A hunk that does not show all lines shows a context line. -/
theorem hunkLoop_context (chain : (current.map (·, true) ++ marked).IsChain Bordered)
    {h : FsTextDiffHunk} (isIn : h ∈ hunkLoop marked current) :
    (∃ line ∈ h.lines, line.op = .context) ∨ h.lines = current ++ marked.map Prod.fst := by
  induction marked generalizing current with
  | nil =>
      rw [List.map_nil, List.append_nil]
      exact .inr (mem_flushHunk isIn).1
  | cons x marked ih =>
      obtain ⟨line, kept⟩ := x
      cases kept with
      | true =>
          have moved := @ih (current ++ [line]) (by simpa using chain) isIn
          simpa using moved
      | false =>
          left
          rcases List.mem_append.mp isIn with isFlushed | isLater
          · obtain ⟨eq, some'⟩ := mem_flushHunk isFlushed
            obtain ⟨front, last, rfl⟩ := (List.eq_nil_or_concat' current).resolve_left some'
            rw [eq]
            refine ⟨last, List.mem_concat_self, ?_⟩
            by_contra changed
            rw [List.map_append, List.append_assoc] at chain
            have next := (List.isChain_append.mp chain).2.1
            exact absurd ((List.isChain_cons_cons.mp next).1.1 changed) Bool.false_ne_true
          · have tail := (List.isChain_append.mp chain).2.1
            refine hunkLoop_anchored tail.tail (.inr ⟨rfl, fun y isNext => ?_⟩) isLater
            obtain ⟨rest, rfl⟩ := List.head?_eq_some_iff.mp isNext
            by_contra changed
            exact absurd ((List.isChain_cons_cons.mp tail).1.2 changed) Bool.false_ne_true

/-! ## The hunks -/

theorem shows_of_context (context : ∃ line ∈ lines, line.op = .context) :
    beforeTexts lines ≠ [] ∧ afterTexts lines ≠ [] := by
  obtain ⟨line, isIn, context⟩ := context
  constructor
  · refine List.ne_nil_of_mem (List.mem_map_of_mem (List.mem_filter.mpr ⟨isIn, ?_⟩))
    rw [context]
    rfl
  · refine List.ne_nil_of_mem (List.mem_map_of_mem (List.mem_filter.mpr ⟨isIn, ?_⟩))
    rw [context]
    rfl

/-- Every hunk shows lines of both documents. -/
theorem toHunks_shows (walks : Walks a b lines 0 0 a.length b.length) (some' : a ≠ [])
    (some'' : b ≠ []) {h : FsTextDiffHunk} (isIn : h ∈ toHunks lines) :
    beforeTexts h.lines ≠ [] ∧ afterTexts h.lines ≠ [] := by
  have shown := @hunkLoop_context [] (marks lines) (marks_bordered lines) h isIn
  rw [map_fst_marks] at shown
  rcases shown with context | all
  · exact shows_of_context context
  · rw [all, List.nil_append, walks.texts.1, walks.texts.2, slice_zero_length, slice_zero_length]
    exact ⟨some', some''⟩

theorem lt_of_slice_ne_nil {l : List String} {i j : Nat} (some' : slice l i j ≠ []) : i < j := by
  by_contra above
  refine some' ?_
  rw [slice, show j - i = 0 by omega, List.take_zero]

/-- A flushed hunk starts where its lines do. -/
theorem Walks.flush (walks : Walks a b current ai bi ai' bi') {h : FsTextDiffHunk}
    (isFlushed : h ∈ flushHunk current)
    (shows' : beforeTexts h.lines ≠ [] ∧ afterTexts h.lines ≠ []) :
    h.beforeStart = ai + 1 ∧ h.afterStart = bi + 1 ∧ ai < ai' ∧ bi < bi' := by
  have eq := (mem_flushHunk isFlushed).1
  rw [eq, walks.texts.1, walks.texts.2] at shows'
  have lt := lt_of_slice_ne_nil shows'.1
  have lt' := lt_of_slice_ne_nil shows'.2
  have first := walks.firstLineNumber.1.resolve_right (by omega)
  have first' := walks.firstLineNumber.2.resolve_right (by omega)
  unfold flushHunk at isFlushed
  split_ifs at isFlushed with none
  · cases isFlushed
  · obtain rfl := List.mem_singleton.mp isFlushed
    refine ⟨?_, ?_, lt, lt'⟩
    · simp only [first, Option.getD_some]
    · simp only [first', Option.getD_some]

theorem Patches.extend {i j : Nat} {hunks : List FsTextDiffHunk} (front : Copies a b i j ai bi)
    (patches : Patches a b ai bi hunks) : Patches a b i j hunks := by
  cases patches with
  | done run => exact .done (front.trans run)
  | hunk run starts starts' lt lt' texts texts' bound bound' rest =>
      exact .hunk (front.trans run) starts starts' lt lt' texts texts' bound bound' rest

theorem patches_flushHunk {i j : Nat} {hunks : List FsTextDiffHunk}
    (front : Copies a b i j ai bi) (walks : Walks a b current ai bi ai' bi')
    (bound : ai' ≤ a.length) (bound' : bi' ≤ b.length)
    (shows' : ∀ h ∈ flushHunk current, beforeTexts h.lines ≠ [] ∧ afterTexts h.lines ≠ [])
    (rest : Patches a b ai' bi' hunks) :
    Patches a b i j (flushHunk current ++ hunks) := by
  by_cases none : current = []
  · subst none
    cases walks
    exact rest.extend front
  · obtain ⟨h, eq⟩ : ∃ h, flushHunk current = [h] := by
      rw [flushHunk, if_neg none]
      exact ⟨_, rfl⟩
    have isIn : h ∈ flushHunk current := eq ▸ List.mem_singleton_self h
    obtain ⟨starts, starts', lt, lt'⟩ := walks.flush isIn (shows' h isIn)
    have texts := walks.texts
    rw [← (mem_flushHunk isIn).1] at texts
    rw [eq]
    exact .hunk front starts starts' lt lt' texts.1 texts.2 bound bound' rest

theorem patches_hunkLoop {i j : Nat} (front : Copies a b i j ai bi)
    (walks : Walks a b current ai bi ai' bi')
    (left : Walks a b (marked.map Prod.fst) ai' bi' a.length b.length)
    (changed : ∀ x ∈ marked, x.1.op ≠ .context → x.2 = true)
    (shows' : ∀ h ∈ hunkLoop marked current, beforeTexts h.lines ≠ [] ∧ afterTexts h.lines ≠ []) :
    Patches a b i j (hunkLoop marked current) := by
  induction marked generalizing i j ai bi ai' bi' current with
  | nil =>
      cases left
      have closed : Patches a b a.length b.length [] := .done (.refl a b _ _)
      have flushed := patches_flushHunk front walks (Nat.le_refl _) (Nat.le_refl _) shows' closed
      rwa [List.append_nil] at flushed
  | cons x marked ih =>
      obtain ⟨line, kept⟩ := x
      rw [List.forall_mem_cons] at changed
      cases kept with
      | true =>
          have one : ∃ p q, Walks a b (current ++ [line]) ai bi p q ∧
              Walks a b (marked.map Prod.fst) p q a.length b.length := by
            cases left with
            | context inA inB rest => exact ⟨_, _, walks.append (.context inA inB (.done _ _)), rest⟩
            | remove inA rest => exact ⟨_, _, walks.append (.remove inA (.done _ _)), rest⟩
            | add inB rest => exact ⟨_, _, walks.append (.add inB (.done _ _)), rest⟩
          obtain ⟨p, q, walks', rest⟩ := one
          exact ih front walks' rest changed.2 shows'
      | false =>
          have shown := fun h isIn => shows' h (List.mem_append_left _ isIn)
          have later := fun h isIn => shows' h (List.mem_append_right _ isIn)
          -- what is left out is a line of both documents
          cases left with
          | context inA inB rest =>
              obtain ⟨bound, _⟩ := List.getElem?_eq_some_iff.mp inA
              obtain ⟨bound', _⟩ := List.getElem?_eq_some_iff.mp inB
              have behind := ih (Copies.line inA inB) (.done _ _) rest changed.2 later
              exact patches_flushHunk front walks (by omega) (by omega) shown behind
          | remove => exact absurd (changed.1 (by simp)) Bool.false_ne_true
          | add => exact absurd (changed.1 (by simp)) Bool.false_ne_true

theorem countP_hunkLoop (p : FsTextDiffLine → Bool)
    (left : ∀ x ∈ marked, x.2 = false → p x.1 = false) :
    ((hunkLoop marked current).flatMap (·.lines)).countP p =
      current.countP p + (marked.map Prod.fst).countP p := by
  have flushed : ∀ current : List FsTextDiffLine,
      (flushHunk current).flatMap (·.lines) = current := by
    intro current
    unfold flushHunk
    split_ifs with none
    · rw [none]
      rfl
    · exact List.append_nil _
  induction marked generalizing current with
  | nil => rw [hunkLoop, flushed, List.map_nil, List.countP_nil, Nat.add_zero]
  | cons x marked ih =>
      obtain ⟨line, kept⟩ := x
      rw [List.forall_mem_cons] at left
      cases kept with
      | true =>
          rw [hunkLoop, ih left.2, List.countP_append, Nat.add_assoc, ← List.countP_append]
          rfl
      | false =>
          have not := left.1 rfl
          rw [hunkLoop, List.flatMap_append, List.countP_append, flushed, ih left.2, List.map_cons,
            List.countP_cons_of_neg (by rw [not]; exact Bool.false_ne_true), List.countP_nil,
            Nat.zero_add]

/-- No change is left out of the hunks. -/
theorem countP_toHunks {p : FsTextDiffLine → Bool}
    (changes : ∀ line, line.op = .context → p line = false) (lines : List FsTextDiffLine) :
    ((toHunks lines).flatMap (·.lines)).countP p = lines.countP p := by
  have left : ∀ x ∈ marks lines, x.2 = false → p x.1 = false := by
    intro x isIn dropped
    refine changes x.1 ?_
    by_contra changed
    exact absurd ((marks_changed lines x isIn changed).symm.trans dropped) (by decide)
  have count := @countP_hunkLoop [] (marks lines) p left
  rwa [map_fst_marks, List.countP_nil, Nat.zero_add] at count

theorem patches_toHunks (walks : Walks a b lines 0 0 a.length b.length) (some' : a ≠ [])
    (some'' : b ≠ []) : Patches a b 0 0 (toHunks lines) := by
  have all : Walks a b ((marks lines).map Prod.fst) 0 0 a.length b.length := by
    rw [map_fst_marks]
    exact walks
  exact patches_hunkLoop (.refl _ _ 0 0) (.done 0 0) all (marks_changed lines)
    fun h isIn => toHunks_shows walks some' some'' isIn

end Kept

/-! ## What follows for a patch -/

section Patches

variable {a b : List String} {hunks : List FsTextDiffHunk} {ai bi : Nat}

theorem Patches.bounds (patches : Patches a b ai bi hunks) : ai ≤ a.length ∧ bi ≤ b.length := by
  cases patches with
  | done run =>
      have := run.le
      have := run.same
      omega
  | hunk run _ _ lt lt' _ _ bound bound' =>
      have := run.le
      have := run.same
      omega

/-- The hunks put into the first document give the second. -/
theorem Patches.applied (patches : Patches a b ai bi hunks) :
    applyHunks a ai hunks = slice b bi b.length := by
  induction patches with
  | done run => exact run.text
  | hunk run starts _ lt lt' texts texts' bound bound' rest ih =>
      have place : ∀ ai' : Nat, ai' + 1 - 1 = ai' := fun _ => rfl
      have same := run.same
      have le := rest.bounds.2
      rw [applyHunks, starts, place, texts, texts', length_slice bound,
        Nat.add_sub_cancel' (Nat.le_of_lt lt), ih, run.text, slice_append (by omega) (by omega),
        slice_append (by omega) le]

/-- The hunks lie behind the place, one after the other on both sides. -/
theorem Patches.rising (patches : Patches a b ai bi hunks) :
    (∀ h ∈ hunks, ai < h.beforeStart ∧ bi < h.afterStart) ∧
      hunks.Pairwise fun h h' =>
        h.beforeStart + (beforeTexts h.lines).length ≤ h'.beforeStart ∧
          h.afterStart + (afterTexts h.lines).length ≤ h'.afterStart := by
  induction patches with
  | done => exact ⟨fun _ isIn => (List.not_mem_nil isIn).elim, .nil⟩
  | hunk run starts starts' lt lt' texts texts' bound bound' rest ih =>
      have le := run.le
      have same := run.same
      have lengths := congrArg List.length texts
      have lengths' := congrArg List.length texts'
      rw [length_slice bound] at lengths
      rw [length_slice bound'] at lengths'
      refine ⟨List.forall_mem_cons.mpr ⟨by omega, fun k isIn => ?_⟩,
        List.pairwise_cons.mpr ⟨fun k isIn => ?_, ih.2⟩⟩
      · have := ih.1 k isIn
        omega
      · have := ih.1 k isIn
        omega

/-- Each hunk shows its part of both documents. -/
theorem Patches.spelled (patches : Patches a b ai bi hunks) :
    ∀ h ∈ hunks, 0 < h.beforeStart ∧ 0 < h.afterStart ∧
      beforeTexts h.lines = slice a (h.beforeStart - 1)
        (h.beforeStart - 1 + (beforeTexts h.lines).length) ∧
      afterTexts h.lines = slice b (h.afterStart - 1)
        (h.afterStart - 1 + (afterTexts h.lines).length) := by
  induction patches with
  | done => exact fun _ isIn => (List.not_mem_nil isIn).elim
  | hunk run starts starts' lt lt' texts texts' bound bound' _ ih =>
      refine List.forall_mem_cons.mpr ⟨⟨by omega, by omega, ?_, ?_⟩, ih⟩
      · rw [starts, texts, length_slice bound, Nat.add_sub_cancel,
          Nat.add_sub_cancel' (Nat.le_of_lt lt)]
      · rw [starts', texts', length_slice bound', Nat.add_sub_cancel,
          Nat.add_sub_cancel' (Nat.le_of_lt lt')]

end Patches

/-- The answer is a patch that makes the second text of the first. -/
structure CorrectPatch (before after : String) (diff : FsTextDiff) : Prop where
  applied : joinLines (applyHunks (toLines before) 0 diff.hunks) = after
  patches : Patches (toLines before) (toLines after) 0 0 diff.hunks
  spelled : ∀ h ∈ diff.hunks, 0 < h.beforeStart ∧ 0 < h.afterStart ∧
    beforeTexts h.lines = slice (toLines before) (h.beforeStart - 1)
      (h.beforeStart - 1 + (beforeTexts h.lines).length) ∧
    afterTexts h.lines = slice (toLines after) (h.afterStart - 1)
      (h.afterStart - 1 + (afterTexts h.lines).length)
  rising : diff.hunks.Pairwise fun h h' =>
    h.beforeStart + (beforeTexts h.lines).length ≤ h'.beforeStart ∧
      h.afterStart + (afterTexts h.lines).length ≤ h'.afterStart
  added : diff.added = (diff.hunks.flatMap (·.lines)).countP fun line => line.op = .add
  removed : diff.removed = (diff.hunks.flatMap (·.lines)).countP fun line => line.op = .remove
  balance : ((toLines after).length : Int) - (toLines before).length = diff.added - diff.removed

theorem toLines_ne_nil (text : String) : toLines text ≠ [] := by
  rw [toLines, ne_eq, List.map_eq_nil_iff]
  exact List.splitOn_ne_nil _ _

theorem CorrectPatch.of_patches {before after : String} {diff : FsTextDiff}
    (patches : Patches (toLines before) (toLines after) 0 0 diff.hunks)
    (added : diff.added = (diff.hunks.flatMap (·.lines)).countP fun line => line.op = .add)
    (removed : diff.removed = (diff.hunks.flatMap (·.lines)).countP fun line => line.op = .remove)
    (balance : (toLines after).length + diff.removed = (toLines before).length + diff.added) :
    CorrectPatch before after diff where
  applied := by rw [patches.applied, slice_zero_length, joinLines_toLines]
  patches := patches
  spelled := patches.spelled
  rising := patches.rising.2
  added := added
  removed := removed
  balance := by omega

/-- Within the limit the difference of two texts is a patch between them. -/
theorem diffFileText_correct {before after : String}
    (limit : (toLines before).length ≤ MAX_DIFF_LINES)
    (limit' : (toLines after).length ≤ MAX_DIFF_LINES) :
    CorrectPatch before after (diffFileText before after) := by
  unfold diffFileText
  split_ifs with same
  · subst same
    exact .of_patches (.done ⟨Nat.zero_le _, by omega, rfl⟩) rfl rfl rfl
  · have within : ¬ (MAX_DIFF_LINES < (toLines before).length ∨
        MAX_DIFF_LINES < (toLines after).length) := by omega
    dsimp only
    rw [if_neg within]
    have walks : Walks (toLines before) (toLines after)
        (diffLines (toLines before) (toLines after)
          (lcsPairs (toLines before) (toLines after)) 0 0) 0 0 _ _ :=
      walks_diffLines (matching_lcsWalk _ _ _ 0 0) (Nat.zero_le _) (Nat.zero_le _)
    refine .of_patches ?_ ?_ ?_ walks.counts
    · exact patches_toHunks walks (toLines_ne_nil before) (toLines_ne_nil after)
    · exact (countP_toHunks (fun line context => by rw [context]; rfl) _).symm
    · exact (countP_toHunks (fun line context => by rw [context]; rfl) _).symm

theorem diffFileText_correct_edit :
    CorrectPatch "a\nb\n" "a\nB\n" (diffFileText "a\nb\n" "a\nB\n") :=
  diffFileText_correct (by decide) (by decide)

end Everdict.WorkspaceFile
