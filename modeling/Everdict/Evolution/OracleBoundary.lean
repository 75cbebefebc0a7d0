import Everdict.Evolution.OracleScope

/-!
# The language of the oracle patterns

A pattern is read segment by segment: `*` is any run of characters in a segment, `?` one
character, and `**` any number of whole segments.  The expression reads `**` with two
exceptions: not as a segment with a line break, and not as no segment where the pattern ends
(`pathMatchesPattern_iff`).
-/

namespace Everdict.Evolution

open RegExp

/-! ## The language -/

abbrev Segment := List CodeUnit

def segments (text : JsString) : List Segment := text.splitOn SLASH

def DOUBLE_STAR : Segment := [STAR, STAR]

/-- A segment of a pattern stands for a segment of a path. -/
inductive InSegment : Segment → Segment → Prop
  | done : InSegment [] []
  | run {p s : Segment} (front : Segment) : InSegment p s → InSegment (STAR :: p) (front ++ s)
  | one {p s : Segment} (u : CodeUnit) : InSegment p s → InSegment (QUESTION :: p) (u :: s)
  | same {p s : Segment} {u : CodeUnit} : u ≠ STAR → u ≠ QUESTION → InSegment p s →
      InSegment (u :: p) (u :: s)

/-- What `**` may stand for, by what follows it in the pattern. -/
abbrev Reading := List Segment → List Segment → Prop

inductive Covers (allowed : Reading) : List Segment → List Segment → Prop
  | done : Covers allowed [] []
  | segment {p s : Segment} {ps ss : List Segment} : p ≠ DOUBLE_STAR → InSegment p s →
      Covers allowed ps ss → Covers allowed (p :: ps) (s :: ss)
  | many {ps ss : List Segment} (front : List Segment) : allowed ps front →
      Covers allowed ps ss → Covers allowed (DOUBLE_STAR :: ps) (front ++ ss)

/-- The paths that a pattern covers, both normalised. -/
def InLanguage (allowed : Reading) (pattern path : JsString) : Prop :=
  if pattern = [] then False
  else if pattern.getLast? = some SLASH then
    Covers allowed (segments (pattern ++ DOUBLE_STAR)) (segments path)
  else if hasWildcard pattern then Covers allowed (segments pattern) (segments path)
  else segments pattern <+: segments path

/-- Any segments, or none. -/
def anySegments : Reading := fun _ _ => True

/-- No segment with a line break, and some segment where the pattern ends. -/
def plainSegments : Reading := fun ps front =>
  (∀ s ∈ front, ∀ u ∈ s, isLineEnd u = false) ∧ (ps = [] → front ≠ [])

/-- `**` stands in a pattern as a whole segment only. -/
def WholeSegments (pattern : JsString) : Prop :=
  ∀ p ∈ segments pattern, p = DOUBLE_STAR ∨ ¬ DOUBLE_STAR <:+: p

instance : DecidablePred WholeSegments :=
  fun pattern => inferInstanceAs (Decidable (∀ p ∈ segments pattern, _ ∨ _))

theorem Covers.mono {allowed allowed' : Reading} {ps ss : List Segment}
    (le : ∀ ps front, allowed ps front → allowed' ps front) (covers : Covers allowed ps ss) :
    Covers allowed' ps ss := by
  induction covers with
  | done => exact .done
  | segment other here _ ih => exact .segment other here ih
  | many front may _ ih => exact .many front (le _ _ may) ih

/-- A segment without wildcards stands for itself. -/
theorem InSegment.self {p : Segment} (plain : hasWildcard p = false) : InSegment p p := by
  induction p with
  | nil => exact .done
  | cons u p ih =>
      rw [hasWildcard, List.any_cons, Bool.or_eq_false_iff, Bool.or_eq_false_iff,
        decide_eq_false_iff_not, decide_eq_false_iff_not] at plain
      exact .same plain.1.1 plain.1.2 (ih plain.2)

theorem InLanguage.mono {allowed allowed' : Reading} {pattern path : JsString}
    (le : ∀ ps front, allowed ps front → allowed' ps front)
    (isIn : InLanguage allowed pattern path) : InLanguage allowed' pattern path := by
  unfold InLanguage at isIn ⊢
  split_ifs at isIn ⊢
  · exact isIn.mono le
  · exact isIn.mono le
  · exact isIn

/-! ## Texts and their segments -/

theorem segments_ne_nil (text : JsString) : segments text ≠ [] := List.splitOn_ne_nil _ _

theorem segments_append (front rest : JsString) :
    segments (front ++ SLASH :: rest) = segments front ++ segments rest :=
  List.splitOn_append_cons_self front rest

theorem segments_of_not_mem {s : Segment} (apart : SLASH ∉ s) : segments s = [s] :=
  List.splitOn_eq_singleton apart

theorem segments_inj {text text' : JsString} (same : segments text = segments text') :
    text = text' := by
  have back := congrArg [SLASH].intercalate same
  rwa [segments, segments, List.intercalate_splitOn, List.intercalate_splitOn] at back

/-- What holds of the characters of the segments holds of those of the text. -/
theorem forall_mem_segments {P : CodeUnit → Prop} (slash : P SLASH) {text : JsString} :
    (∀ s ∈ segments text, ∀ u ∈ s, P u) ↔ ∀ u ∈ text, P u := by
  induction text with
  | nil => simp [segments]
  | cons u text ih =>
      rw [List.forall_mem_cons, ← ih, segments, List.splitOn_cons_eq_if_modifyHead]
      obtain ⟨first, rest, eq⟩ := List.exists_cons_of_ne_nil (segments_ne_nil text)
      rw [eq]
      rw [segments] at eq
      rw [eq]
      split_ifs with here
      · rw [beq_iff_eq] at here
        simp [here, slash]
      · simp only [List.modifyHead_cons, List.forall_mem_cons, and_assoc]

theorem not_mem_of_mem_segments {text : JsString} {s : Segment} (isIn : s ∈ segments text) :
    SLASH ∉ s := by
  induction text generalizing s with
  | nil =>
      cases List.mem_singleton.mp isIn
      exact List.not_mem_nil
  | cons u text ih =>
      rw [segments, List.splitOn_cons_eq_if_modifyHead] at isIn
      obtain ⟨first, rest, eq⟩ := List.exists_cons_of_ne_nil (segments_ne_nil text)
      rw [eq] at ih
      rw [segments] at eq
      rw [eq] at isIn
      split_ifs at isIn with here
      · rcases List.mem_cons.mp isIn with rfl | later
        · exact List.not_mem_nil
        · exact ih later
      · rw [List.modifyHead_cons] at isIn
        rcases List.mem_cons.mp isIn with rfl | later
        · have apart := ih List.mem_cons_self
          rw [beq_iff_eq] at here
          simp [apart, Ne.symm here]
        · exact ih (List.mem_cons_of_mem _ later)

/-- Where the segments of a text are split, the text is split at a slash. -/
theorem segments_eq_append {text : JsString} {ss ss' : List Segment}
    (eq : segments text = ss ++ ss') (some' : ss ≠ []) (some'' : ss' ≠ []) :
    ∃ front rest, text = front ++ SLASH :: rest ∧ segments front = ss ∧ segments rest = ss' := by
  have apart : ∀ s ∈ ss ++ ss', SLASH ∉ s := fun s isIn => not_mem_of_mem_segments (eq ▸ isIn)
  have first : segments ([SLASH].intercalate ss) = ss :=
    List.splitOn_intercalate SLASH (fun s isIn => apart s (List.mem_append_left _ isIn)) some'
  have second : segments ([SLASH].intercalate ss') = ss' :=
    List.splitOn_intercalate SLASH (fun s isIn => apart s (List.mem_append_right _ isIn)) some''
  refine ⟨_, _, segments_inj ?_, first, second⟩
  rw [eq, segments_append, first, second]

/-! ## The texts of the pieces -/

section Pieces

variable {ps : List Piece} {text : JsString}

def textsOf (ps : List Piece) : Language CodeUnit := lang (regexOf ps)

theorem mem_textsOf_cons (piece : Piece) :
    text ∈ textsOf (piece :: ps) ↔
      ∃ front ∈ lang piece.regex, ∃ rest ∈ textsOf ps, front ++ rest = text :=
  Language.mem_mul

theorem mem_textsOf_nil : text ∈ textsOf [] ↔ text = [] := Language.mem_one _

theorem mem_literal {u : CodeUnit} :
    text ∈ textsOf (.literal u :: ps) ↔ ∃ rest ∈ textsOf ps, text = u :: rest := by
  rw [mem_textsOf_cons]
  constructor
  · rintro ⟨_, ⟨v, has, rfl⟩, rest, isIn, rfl⟩
    rw [UnitSet.has, decide_eq_true_eq] at has
    exact ⟨rest, isIn, has ▸ rfl⟩
  · rintro ⟨rest, isIn, rfl⟩
    exact ⟨[u], ⟨u, decide_eq_true rfl, rfl⟩, rest, isIn, rfl⟩

theorem mem_one {ps : List Piece} :
    text ∈ textsOf (.one :: ps) ↔ ∃ u rest, u ≠ SLASH ∧ rest ∈ textsOf ps ∧ text = u :: rest := by
  rw [mem_textsOf_cons]
  constructor
  · rintro ⟨_, ⟨u, has, rfl⟩, rest, isIn, rfl⟩
    exact ⟨u, rest, of_decide_eq_true has, isIn, rfl⟩
  · rintro ⟨u, rest, other, isIn, rfl⟩
    exact ⟨[u], ⟨u, decide_eq_true other, rfl⟩, rest, isIn, rfl⟩

theorem mem_run :
    text ∈ textsOf (.run :: ps) ↔
      ∃ front rest, SLASH ∉ front ∧ rest ∈ textsOf ps ∧ text = front ++ rest := by
  have class' : ∀ front : JsString,
      front ∈ lang (.star (.notOnly SLASH)) ↔ SLASH ∉ front := by
    intro front
    show (∀ u ∈ front, decide (u ≠ SLASH) = true) ↔ _
    simp only [decide_eq_true_eq]
    exact ⟨fun all isIn => all _ isIn rfl, fun apart u isIn eq => apart (eq ▸ isIn)⟩
  rw [mem_textsOf_cons]
  constructor
  · rintro ⟨front, all, rest, isIn, rfl⟩
    exact ⟨front, rest, (class' front).mp all, isIn, rfl⟩
  · rintro ⟨front, rest, apart, isIn, rfl⟩
    exact ⟨front, (class' front).mpr apart, rest, isIn, rfl⟩

theorem mem_lang_dotStar {front : JsString} :
    front ∈ lang (.star .dot) ↔ ∀ u ∈ front, isLineEnd u = false := by
  show (∀ u ∈ front, (!isLineEnd u) = true) ↔ _
  simp only [Bool.not_eq_true']

theorem mem_rest : text ∈ textsOf [.rest] ↔ ∀ u ∈ text, isLineEnd u = false := by
  rw [mem_textsOf_cons]
  constructor
  · rintro ⟨front, all, rest, none, rfl⟩
    rw [mem_textsOf_nil.mp none, List.append_nil]
    exact mem_lang_dotStar.mp all
  · exact fun all => ⟨text, mem_lang_dotStar.mpr all, [], mem_textsOf_nil.mpr rfl,
      List.append_nil _⟩

theorem mem_gap :
    text ∈ textsOf (.gap :: ps) ↔ text ∈ textsOf ps ∨
      ∃ front rest, (∀ u ∈ front, isLineEnd u = false) ∧ rest ∈ textsOf ps ∧
        text = front ++ SLASH :: rest := by
  have group : ∀ front : JsString,
      front ∈ lang (seqOf [.star .dot, .unit (.only SLASH)]) ↔
        ∃ run : JsString, (∀ u ∈ run, isLineEnd u = false) ∧ front = run ++ [SLASH] := by
    intro front
    constructor
    · intro both
      obtain ⟨run, all, _, last, rfl⟩ := Language.mem_mul.mp both
      obtain ⟨_, ⟨u, has, rfl⟩, _, none, rfl⟩ := Language.mem_mul.mp last
      cases (Language.mem_one _).mp none
      rw [UnitSet.has, decide_eq_true_eq] at has
      exact ⟨run, mem_lang_dotStar.mp all, by rw [has]; rfl⟩
    · rintro ⟨run, all, rfl⟩
      refine Language.mem_mul.mpr ⟨run, mem_lang_dotStar.mpr all, [SLASH], ?_, rfl⟩
      exact Language.mem_mul.mpr ⟨[SLASH], ⟨SLASH, rfl, rfl⟩, [],
        (Language.mem_one _).mpr rfl, rfl⟩
  rw [mem_textsOf_cons]
  constructor
  · rintro ⟨front, isGroup | none, rest, isIn, rfl⟩
    · obtain ⟨run, all, rfl⟩ := (group front).mp isGroup
      exact .inr ⟨run, rest, all, isIn, by simp⟩
    · cases (Language.mem_one _).mp none
      exact .inl isIn
  · rintro (isIn | ⟨run, rest, all, isIn, rfl⟩)
    · exact ⟨[], .inr rfl, text, isIn, rfl⟩
    · exact ⟨run ++ [SLASH], .inl ((group _).mpr ⟨run, all, rfl⟩), rest, isIn, by simp⟩

end Pieces

/-! ## A segment -/

def segmentPieces (p : Segment) : List Piece :=
  p.map fun u => if u = STAR then .run else if u = QUESTION then .one else .literal u

/-- In front of a slash, or at the end, a segment without `**` is read by itself. -/
theorem pieces_segment {p : Segment} (single : ¬ DOUBLE_STAR <:+: p) {rest : JsString}
    (next : rest[0]? ≠ some STAR) :
    pieces 0 (p ++ rest) = segmentPieces p ++ pieces 0 rest := by
  induction p with
  | nil => rfl
  | cons u p ih =>
      have tail := ih fun isIn => single (isIn.trans (List.suffix_cons u p).isInfix)
      rw [List.cons_append, pieces, segmentPieces, List.map_cons, List.cons_append, tail]
      split_ifs with star double third question
      · exfalso
        cases p with
        | nil => exact next double
        | cons v p =>
            cases star
            cases Option.some.inj double
            exact single ⟨[], p, rfl⟩
      · exfalso
        cases p with
        | nil => exact next double
        | cons v p =>
            cases star
            cases Option.some.inj double
            exact single ⟨[], p, rfl⟩
      · rfl
      · rfl
      · rfl

theorem mem_segmentPieces {p : Segment} (apart : SLASH ∉ p) {ps : List Piece} {text : JsString} :
    text ∈ textsOf (segmentPieces p ++ ps) ↔
      ∃ s rest, SLASH ∉ s ∧ InSegment p s ∧ rest ∈ textsOf ps ∧ text = s ++ rest := by
  induction p generalizing text with
  | nil =>
      constructor
      · exact fun isIn => ⟨[], text, List.not_mem_nil, .done, isIn, rfl⟩
      · rintro ⟨s, rest, _, here, isIn, rfl⟩
        cases here
        exact isIn
  | cons u p ih =>
      have ih := fun text => @ih (fun isIn => apart (List.mem_cons_of_mem u isIn)) text
      rw [segmentPieces, List.map_cons, List.cons_append, ← segmentPieces]
      split_ifs with star question
      · rw [mem_run]
        constructor
        · rintro ⟨front, after, apart, isIn, rfl⟩
          obtain ⟨s, rest, apart', here, later, rfl⟩ := (ih after).mp isIn
          refine ⟨front ++ s, rest, by simp [apart, apart'], star ▸ .run front here, later, ?_⟩
          exact (List.append_assoc _ _ _).symm
        · rintro ⟨s, rest, apart, here, isIn, rfl⟩
          cases here with
          | run front here =>
              rw [List.mem_append, not_or] at apart
              exact ⟨front, _, apart.1, (ih _).mpr ⟨_, rest, apart.2, here, isIn, rfl⟩,
                List.append_assoc _ _ _⟩
          | one => cases star
          | same other => exact absurd star other
      · rw [mem_one]
        constructor
        · rintro ⟨v, after, other, isIn, rfl⟩
          obtain ⟨s, rest, apart, here, later, rfl⟩ := (ih after).mp isIn
          exact ⟨v :: s, rest, by simp [apart, Ne.symm other], question ▸ .one v here, later, rfl⟩
        · rintro ⟨s, rest, apart, here, isIn, rfl⟩
          cases here with
          | run => exact absurd rfl star
          | one v here =>
              rw [List.mem_cons, not_or] at apart
              exact ⟨v, _, Ne.symm apart.1, (ih _).mpr ⟨_, rest, apart.2, here, isIn, rfl⟩, rfl⟩
          | same _ other => exact absurd question other
      · rw [mem_literal]
        constructor
        · rintro ⟨after, isIn, rfl⟩
          obtain ⟨s, rest, apart', here, later, rfl⟩ := (ih after).mp isIn
          refine ⟨u :: s, rest, ?_, .same star question here, later, rfl⟩
          rw [List.mem_cons, not_or]
          exact ⟨fun eq => apart (eq ▸ List.mem_cons_self), apart'⟩
        · rintro ⟨s, rest, apart', here, isIn, rfl⟩
          cases here with
          | run => exact absurd rfl star
          | one => exact absurd rfl question
          | same _ _ here =>
              exact ⟨_, (ih _).mpr ⟨_, rest, fun isIn => apart' (List.mem_cons_of_mem _ isIn),
                here, isIn, rfl⟩, rfl⟩

/-! ## A pattern -/

section Patterns

variable {allowed : Reading} {p q : Segment} {ps ss : List Segment}

theorem Covers.ne_nil (covers : Covers plainSegments (p :: ps) ss) : ss ≠ [] := by
  induction ps generalizing p ss with
  | nil =>
      cases covers with
      | segment => exact List.cons_ne_nil _ _
      | many front may => exact List.append_ne_nil_of_left_ne_nil (may.2 rfl) _
  | cons q ps ih =>
      cases covers with
      | segment => exact List.cons_ne_nil _ _
      | many front _ covers => exact List.append_ne_nil_of_right_ne_nil _ (ih covers)

theorem covers_segment (other : p ≠ DOUBLE_STAR) :
    Covers allowed (p :: ps) ss ↔ ∃ s rest, ss = s :: rest ∧ InSegment p s ∧
      Covers allowed ps rest := by
  constructor
  · intro covers
    cases covers with
    | segment _ here covers => exact ⟨_, _, rfl, here, covers⟩
    | many => exact absurd rfl other
  · rintro ⟨s, rest, rfl, here, covers⟩
    exact .segment other here covers

theorem covers_many :
    Covers allowed (DOUBLE_STAR :: ps) ss ↔ ∃ front rest, ss = front ++ rest ∧
      allowed ps front ∧ Covers allowed ps rest := by
  constructor
  · intro covers
    cases covers with
    | segment other => exact absurd rfl other
    | many front may covers => exact ⟨front, _, rfl, may, covers⟩
  · rintro ⟨front, rest, rfl, may, covers⟩
    exact .many front may covers

theorem covers_nil : Covers allowed [] ss ↔ ss = [] := by
  constructor
  · intro covers
    cases covers
    rfl
  · rintro rfl
    exact .done

theorem mem_textsOf_segment (apart : SLASH ∉ p) (other : p ≠ DOUBLE_STAR) {text : JsString} :
    text ∈ textsOf (segmentPieces p) ↔ Covers plainSegments [p] (segments text) := by
  rw [← List.append_nil (segmentPieces p), mem_segmentPieces apart, covers_segment other]
  constructor
  · rintro ⟨s, rest, apart', here, none, rfl⟩
    rw [mem_textsOf_nil.mp none, List.append_nil, segments_of_not_mem apart']
    exact ⟨s, [], rfl, here, .done⟩
  · rintro ⟨s, rest, eq, here, covers⟩
    rw [covers_nil.mp covers] at eq
    have apart' : SLASH ∉ s := not_mem_of_mem_segments (eq ▸ List.mem_singleton_self s)
    have same : text = s := segments_inj (eq.trans (segments_of_not_mem apart').symm)
    exact ⟨s, [], apart', here, mem_textsOf_nil.mpr rfl, same.trans (List.append_nil s).symm⟩

theorem mem_textsOf_segment_cons (apart : SLASH ∉ p) (other : p ≠ DOUBLE_STAR) {rs : List Piece}
    (ih : ∀ text, text ∈ textsOf rs ↔ Covers plainSegments (q :: ps) (segments text))
    {text : JsString} :
    text ∈ textsOf (segmentPieces p ++ .literal SLASH :: rs) ↔
      Covers plainSegments (p :: q :: ps) (segments text) := by
  rw [mem_segmentPieces apart, covers_segment other]
  constructor
  · rintro ⟨s, _, apart', here, after, rfl⟩
    obtain ⟨rest, isIn, rfl⟩ := mem_literal.mp after
    rw [segments_append, segments_of_not_mem apart']
    exact ⟨s, _, rfl, here, (ih rest).mp isIn⟩
  · rintro ⟨s, rest, eq, here, covers⟩
    obtain ⟨front, after, rfl, frontEq, rfl⟩ :=
      @segments_eq_append text [s] rest eq (List.cons_ne_nil _ _) covers.ne_nil
    have apart' : SLASH ∉ s := not_mem_of_mem_segments (frontEq ▸ List.mem_singleton_self s)
    have same : front = s := segments_inj (frontEq.trans (segments_of_not_mem apart').symm)
    exact ⟨s, _, apart', here, mem_literal.mpr ⟨after, (ih after).mpr covers, rfl⟩,
      by rw [same]⟩

theorem mem_textsOf_last {text : JsString} :
    text ∈ textsOf [.rest] ↔ Covers plainSegments [DOUBLE_STAR] (segments text) := by
  rw [mem_rest, covers_many, ← forall_mem_segments (P := fun u => isLineEnd u = false) rfl]
  constructor
  · exact fun all => ⟨segments text, [], (List.append_nil _).symm,
      ⟨all, fun _ => segments_ne_nil text⟩, .done⟩
  · rintro ⟨front, rest, eq, may, covers⟩
    rw [covers_nil.mp covers, List.append_nil] at eq
    exact eq ▸ may.1

theorem mem_textsOf_gap {rs : List Piece}
    (ih : ∀ text, text ∈ textsOf rs ↔ Covers plainSegments (q :: ps) (segments text))
    {text : JsString} :
    text ∈ textsOf (.gap :: rs) ↔
      Covers plainSegments (DOUBLE_STAR :: q :: ps) (segments text) := by
  rw [mem_gap, covers_many, ih]
  constructor
  · rintro (covers | ⟨front, rest, all, isIn, rfl⟩)
    · exact ⟨[], _, rfl, ⟨fun _ isIn => absurd isIn List.not_mem_nil, fun none => by cases none⟩,
        covers⟩
    · rw [← forall_mem_segments (P := fun u => isLineEnd u = false) rfl] at all
      exact ⟨segments front, segments rest, segments_append front rest,
        ⟨all, fun none => by cases none⟩, (ih rest).mp isIn⟩
  · rintro ⟨front, rest, eq, may, covers⟩
    by_cases none : front = []
    · rw [none, List.nil_append] at eq
      exact .inl (eq ▸ covers)
    · obtain ⟨front, after, rfl, rfl, rfl⟩ := segments_eq_append eq none covers.ne_nil
      have all := (forall_mem_segments (P := fun u => isLineEnd u = false) rfl).mp may.1
      exact .inr ⟨front, after, all, (ih after).mpr covers, rfl⟩

/-- The expression of a pattern stands for the paths that the pattern covers, read plainly. -/
theorem mem_textsOf_pieces
    (whole : ∀ s ∈ p :: ps, SLASH ∉ s ∧ (s = DOUBLE_STAR ∨ ¬ DOUBLE_STAR <:+: s))
    (text : JsString) :
    text ∈ textsOf (pieces 0 ([SLASH].intercalate (p :: ps))) ↔
      Covers plainSegments (p :: ps) (segments text) := by
  induction ps generalizing p text with
  | nil =>
      obtain ⟨⟨apart, shape⟩, _⟩ := List.forall_mem_cons.mp whole
      rw [List.intercalate_singleton]
      rcases shape with rfl | single
      · exact mem_textsOf_last
      · have alone := @pieces_segment p single [] (by simp)
        rw [List.append_nil, pieces, List.append_nil] at alone
        rw [alone]
        exact mem_textsOf_segment apart (fun eq => single (eq ▸ List.infix_rfl))
  | cons q ps ih =>
      obtain ⟨⟨apart, shape⟩, others⟩ := List.forall_mem_cons.mp whole
      have ih := ih others
      rw [List.intercalate_cons_cons, List.append_assoc, List.singleton_append]
      rcases shape with rfl | single
      · exact mem_textsOf_gap ih
      · rw [pieces_segment single (by simp [SLASH, STAR, code])]
        exact mem_textsOf_segment_cons apart (fun eq => single (eq ▸ List.infix_rfl)) ih

end Patterns

theorem test_patternToRegExp {pattern : JsString} (whole : WholeSegments pattern)
    (path : JsString) :
    test (patternToRegExp pattern) path = true ↔
      Covers plainSegments (segments pattern) (segments path) := by
  obtain ⟨p, ps, eq⟩ := List.exists_cons_of_ne_nil (segments_ne_nil pattern)
  have back : [SLASH].intercalate (p :: ps) = pattern := by
    rw [← eq]
    exact List.intercalate_splitOn SLASH
  have shape : ∀ s ∈ p :: ps, SLASH ∉ s ∧ (s = DOUBLE_STAR ∨ ¬ DOUBLE_STAR <:+: s) :=
    fun s isIn => ⟨not_mem_of_mem_segments (eq ▸ isIn), whole s (eq ▸ isIn)⟩
  have read := mem_textsOf_pieces shape path
  rw [back] at read
  rw [patternToRegExp_eq, test_iff, eq]
  exact read

/-- A pattern without wildcards covers a path and everything beneath it. -/
theorem segments_prefix_iff {pattern path : JsString} :
    segments pattern <+: segments path ↔
      path = pattern ∨ (pattern ++ [SLASH]).isPrefixOf path = true := by
  rw [List.isPrefixOf_iff_prefix]
  constructor
  · rintro ⟨rest, eq⟩
    by_cases none : rest = []
    · rw [none, List.append_nil] at eq
      exact .inl (segments_inj eq.symm)
    · obtain ⟨front, after, rfl, same, _⟩ :=
        segments_eq_append eq.symm (segments_ne_nil pattern) none
      exact .inr ⟨after, by rw [segments_inj same, List.append_assoc]; rfl⟩
  · rintro (rfl | ⟨after, rfl⟩)
    · exact List.prefix_rfl
    · rw [List.append_assoc, List.singleton_append, segments_append]
      exact List.prefix_append _ _

/-- A directory with everything beneath it is of whole segments too. -/
theorem WholeSegments.append {pattern : JsString} (whole : WholeSegments pattern)
    (directory : pattern.getLast? = some SLASH) : WholeSegments (pattern ++ DOUBLE_STAR) := by
  obtain ⟨front, rfl⟩ := List.getLast?_eq_some_iff.mp directory
  rw [List.append_assoc, List.singleton_append]
  intro p isIn
  rw [segments_append, List.mem_append] at isIn
  rcases isIn with isIn | isIn
  · refine whole p ?_
    rw [segments_append]
    exact List.mem_append_left _ isIn
  · exact .inl (List.mem_singleton.mp isIn)

theorem pathMatchesPattern_iff {path pattern : JsString}
    (whole : WholeSegments (normalizePath pattern)) :
    pathMatchesPattern path pattern = true ↔
      InLanguage plainSegments (normalizePath pattern) (normalizePath path) := by
  unfold pathMatchesPattern InLanguage
  dsimp only
  by_cases none : normalizePath pattern = []
  · rw [if_pos none, if_pos none]
    exact iff_of_false Bool.false_ne_true id
  · rw [if_neg none, if_neg none]
    by_cases directory : (normalizePath pattern).getLast? = some SLASH
    · have wild : hasWildcard (normalizePath pattern ++ js "**") = true := by
        rw [hasWildcard, List.any_append]
        exact Bool.or_eq_true_iff.mpr (.inr rfl)
      rw [if_pos directory, if_pos directory, wild, Bool.not_true, if_neg Bool.false_ne_true]
      exact test_patternToRegExp (whole.append directory) _
    · rw [if_neg directory, if_neg directory]
      cases wild : hasWildcard (normalizePath pattern) with
      | true => exact test_patternToRegExp whole (normalizePath path)
      | false =>
          rw [Bool.not_false, if_pos rfl, if_neg Bool.false_ne_true, segments_prefix_iff,
            Bool.or_eq_true, decide_eq_true_eq]

example : pathMatchesPattern (js "./datasets/tb.json") (js "/datasets/") = true := by
  decide +kernel

example : pathMatchesPattern (js "tests/unit/a.test.ts") (js "tests/*.test.ts") = false := by
  decide +kernel

/-! ## The paths that are touched -/

/-- The matcher and the list of touched paths answer as the language says. -/
structure BoundaryKept (paths scope : List JsString) : Prop where
  each : ∀ path ∈ paths, ∀ pattern ∈ scope, (pathMatchesPattern path pattern = true ↔
    InLanguage anySegments (normalizePath pattern) (normalizePath path))
  touched : ∀ path, path ∈ oracleTouched paths scope ↔
    path ∈ paths.map normalizePath ∧
      ∃ pattern ∈ scope, InLanguage anySegments (normalizePath pattern) path
  sorted : (oracleTouched paths scope).Pairwise (· < ·)
  ordered : ∀ paths' scope', paths'.Perm paths → scope'.Perm scope →
    oracleTouched paths' scope' = oracleTouched paths scope

section Touched

variable {paths scope : List JsString}

theorem mem_oracleTouched {path : JsString} :
    path ∈ oracleTouched paths scope ↔ ∃ changed ∈ paths, normalizePath changed = path ∧
      ∃ pattern ∈ scope, pathMatchesPattern changed pattern = true := by
  unfold oracleTouched
  split_ifs with none
  · rw [List.length_eq_zero_iff.mp none]
    simp
  · rw [Sorting.mem_sortBy, List.mem_dedup, List.mem_map]
    simp only [List.mem_filter, List.any_eq_true]
    exact exists_congr fun changed =>
      ⟨fun ⟨⟨isPath, covered⟩, eq⟩ => ⟨isPath, eq, covered⟩,
        fun ⟨isPath, eq, covered⟩ => ⟨⟨isPath, covered⟩, eq⟩⟩

theorem oracleTouched_sorted (paths scope : List JsString) :
    (oracleTouched paths scope).Pairwise (· < ·) := by
  unfold oracleTouched
  split_ifs with none
  · exact List.Pairwise.nil
  · refine Sorting.sortBy_rising ?_
    show (List.map id _).Nodup
    rw [List.map_id]
    exact List.nodup_dedup _

/-- Lists that are sorted and have the same elements are the same. -/
theorem oracleTouched_perm {paths' scope' : List JsString} (same : paths'.Perm paths)
    (same' : scope'.Perm scope) : oracleTouched paths' scope' = oracleTouched paths scope := by
  have strict := oracleTouched_sorted paths' scope'
  have strict' := oracleTouched_sorted paths scope
  have nodup := strict.imp fun le => ne_of_lt le
  have nodup' := strict'.imp fun le => ne_of_lt le
  refine List.Perm.eq_of_pairwise ?_ strict strict' ?_
  · exact fun a b _ _ le le' => absurd le' (lt_asymm le)
  · refine (List.perm_ext_iff_of_nodup nodup nodup').mpr fun path => ?_
    rw [mem_oracleTouched, mem_oracleTouched]
    simp only [same.mem_iff, same'.mem_iff]

/-- The boundary is kept exactly where no path is covered only by a `**` that stands for a
segment with a line break, or for no segment at the end of its pattern. -/
theorem boundaryKept_iff
    (whole : ∀ pattern ∈ scope, WholeSegments (normalizePath pattern)) :
    BoundaryKept paths scope ↔
      ∀ path ∈ paths, ∀ pattern ∈ scope,
        InLanguage anySegments (normalizePath pattern) (normalizePath path) →
          InLanguage plainSegments (normalizePath pattern) (normalizePath path) := by
  constructor
  · intro kept path isPath pattern isPattern covered
    have matched := (kept.each path isPath pattern isPattern).mpr covered
    exact (pathMatchesPattern_iff (whole pattern isPattern)).mp matched
  · intro plainly
    have each : ∀ path ∈ paths, ∀ pattern ∈ scope, (pathMatchesPattern path pattern = true ↔
        InLanguage anySegments (normalizePath pattern) (normalizePath path)) := by
      intro path isPath pattern isPattern
      rw [pathMatchesPattern_iff (whole pattern isPattern)]
      exact ⟨fun covered => covered.mono fun _ _ _ => trivial,
        plainly path isPath pattern isPattern⟩
    refine ⟨each, fun path => ?_, oracleTouched_sorted _ _, fun _ _ => oracleTouched_perm⟩
    rw [mem_oracleTouched, List.mem_map]
    constructor
    · rintro ⟨changed, isPath, rfl, pattern, isPattern, matched⟩
      exact ⟨⟨changed, isPath, rfl⟩, pattern, isPattern,
        (each changed isPath pattern isPattern).mp matched⟩
    · rintro ⟨⟨changed, isPath, rfl⟩, pattern, isPattern, covered⟩
      exact ⟨changed, isPath, rfl, pattern, isPattern,
        (each changed isPath pattern isPattern).mpr covered⟩

/-- A path with a line break in its name is not covered by the pattern of its directory. -/
theorem line_break_escapes : ¬ BoundaryKept [js "evals/a\nb"] [js "evals/**"] := by
  intro kept
  have covered : InLanguage anySegments (normalizePath (js "evals/**"))
      (normalizePath (js "evals/a\nb")) :=
    (covers_segment (by decide)).mpr ⟨js "evals", [js "a\nb"], rfl, .self rfl,
      covers_many.mpr ⟨[js "a\nb"], [], rfl, trivial, .done⟩⟩
  have matched := (kept.each _ List.mem_cons_self _ List.mem_cons_self).mpr covered
  exact absurd matched (by decide +kernel)

theorem boundaryKept_datasets : BoundaryKept [js "./datasets/tb.json"] [js "/datasets/**"] := by
  refine (boundaryKept_iff (by decide +kernel)).mpr ?_
  rw [List.forall_mem_singleton, List.forall_mem_singleton]
  intro _
  exact (covers_segment (by decide)).mpr ⟨js "datasets", [js "tb.json"], rfl, .self rfl,
    covers_many.mpr ⟨[js "tb.json"], [], rfl, ⟨by decide, fun _ => List.cons_ne_nil _ _⟩, .done⟩⟩

end Touched

end Everdict.Evolution
