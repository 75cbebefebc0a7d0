import Mathlib.Data.List.TakeWhile
import Everdict.WorkspaceFs.Tree

/-!
# Spellings of a path

A path is spelled with blanks around it, with empty segments and with `.` segments; what is left
without them is the path it names (`canonicalOf`), which `normalizeFsPath` answers where it accepts
the spelling (`normalizeFsPath_eq_ok`).  A path whose segments are all legal is its own canonical
form.  A spelling that goes on after `/` names a path within what it began with
(`within_of_spelled`).
-/

namespace Everdict.WorkspaceFs

open Text

variable {path from' : String}

/-! ## Segments -/

theorem mem_intercalate {segments : List String} {c : Char}
    (member : c ∈ ("/".intercalate segments).toList) :
    c = '/' ∨ ∃ s ∈ segments, c ∈ s.toList := by
  induction segments with
  | nil => simp at member
  | cons s segments ih =>
      cases segments with
      | nil => exact .inr ⟨s, List.mem_cons_self, by simpa using member⟩
      | cons s' segments =>
          rw [String.intercalate_cons_cons, String.toList_append, String.toList_append,
            List.mem_append, List.mem_append] at member
          rcases member with (here | mark) | later
          · exact .inr ⟨s, List.mem_cons_self, here⟩
          · exact .inl (by simpa using mark)
          · rcases ih later with mark | ⟨t, inside, here⟩
            · exact .inl mark
            · exact .inr ⟨t, List.mem_cons_of_mem _ inside, here⟩

theorem split_append (a b : String) : split (a ++ "/" ++ b) = split a ++ split b := by
  unfold split
  have chars : (a ++ "/" ++ b).toList = a.toList ++ '/' :: b.toList := by simp
  rw [chars, List.splitOn_append_cons_self, List.map_append]

theorem intercalate_split (path : String) : "/".intercalate (split path) = path := by
  refine String.toList_inj.mp ?_
  have back : String.toList ∘ String.ofList = id := by
    funext chars
    simp
  rw [String.toList_intercalate, split, List.map_map, back, List.map_id]
  exact List.intercalate_splitOn '/'

theorem split_intercalate {segments : List String} (some' : segments ≠ [])
    (apart : ∀ s ∈ segments, '/' ∉ s.toList) : split ("/".intercalate segments) = segments := by
  have back : String.ofList ∘ String.toList = id := by
    funext s
    simp
  have parts : (['/'].intercalate (segments.map String.toList)).splitOn '/' =
      segments.map String.toList :=
    List.splitOn_intercalate '/' (by simpa using apart) (by simpa using some')
  have mark : "/".toList = ['/'] := rfl
  unfold split
  rw [String.toList_intercalate, mark, parts, List.map_map, back, List.map_id]

theorem not_mem_of_mem_splitOn {α : Type} [BEq α] [LawfulBEq α] {mark : α} {chars : List α} :
    ∀ part ∈ chars.splitOn mark, mark ∉ part := by
  induction chars with
  | nil => simp
  | cons c chars ih =>
      intro part member
      rw [List.splitOn_cons_eq_if_modifyHead] at member
      split at member
      · rcases List.mem_cons.mp member with rfl | later
        · exact List.not_mem_nil
        · exact ih part later
      · next other =>
          obtain ⟨first, rest, parts⟩ :=
            List.exists_cons_of_ne_nil (List.splitOn_ne_nil mark chars)
          rw [parts, List.modifyHead_cons] at member
          rw [parts] at ih
          rcases List.mem_cons.mp member with rfl | later
          · intro here
            rcases List.mem_cons.mp here with rfl | here
            · simp at other
            · exact ih first List.mem_cons_self here
          · exact ih part (List.mem_cons_of_mem _ later)

theorem not_mem_of_mem_split {s : String} (member : s ∈ split path) : '/' ∉ s.toList := by
  obtain ⟨part, inside, rfl⟩ := List.mem_map.mp member
  simpa using not_mem_of_mem_splitOn part inside

theorem mem_split {c : Char} (member : c ∈ path.toList) :
    c = '/' ∨ ∃ s ∈ split path, c ∈ s.toList := by
  rw [← intercalate_split path] at member
  exact mem_intercalate member

/-! ## Canonical paths -/

/-- A segment that stays. -/
structure Legal (s : String) : Prop where
  segment : isSegment s = true
  here : s ≠ "."
  above : s ≠ ".."

/-- Every segment of a path is legal. -/
def IsCanonical (path : String) : Prop := ∀ s ∈ split path, Legal s

/-- The segments that are neither empty nor `.`. -/
def segmentsOf (path : String) : List String :=
  (split (trim path)).filter fun s => s ≠ "" ∧ s ≠ "."

/-- The path that a spelling names. -/
def canonicalOf (path : String) : String := "/".intercalate (segmentsOf path)

theorem Legal.chars {s : String} (legal : Legal s) : ∀ c ∈ s.toList, isSegmentChar c = true :=
  List.all_eq_true.mp (of_decide_eq_true legal.segment).2

theorem Legal.ne_empty {s : String} (legal : Legal s) : s ≠ "" :=
  (of_decide_eq_true legal.segment).1

theorem not_space_of_segmentChar {c : Char} (segment : isSegmentChar c = true) :
    isSpace c = false := by
  simp only [isSegmentChar, List.mem_cons, List.not_mem_nil, or_false, decide_eq_true_iff,
    Char.le_def, UInt32.le_iff_toNat_le] at segment
  by_contra blank
  simp only [isSpace, List.mem_cons, List.not_mem_nil, or_false, Bool.or_eq_true,
    decide_eq_true_iff, Bool.and_eq_true, Bool.not_eq_false, Char.toNat] at blank
  rcases segment with upper | lower | digit | rfl | rfl | rfl
  · have : 'A'.val.toNat = 65 ∧ 'Z'.val.toNat = 90 := ⟨rfl, rfl⟩
    omega
  · have : 'a'.val.toNat = 97 ∧ 'z'.val.toNat = 122 := ⟨rfl, rfl⟩
    omega
  · have : '0'.val.toNat = 48 ∧ '9'.val.toNat = 57 := ⟨rfl, rfl⟩
    omega
  all_goals
    revert blank
    decide

theorem normalizeFsPath_eq_ok {input : String} (eq : normalizeFsPath input = .ok path) :
    path = canonicalOf input ∧ ∀ s ∈ segmentsOf input, Legal s := by
  unfold normalizeFsPath at eq
  simp only at eq
  split at eq
  · cases eq
  · next inside =>
      split at eq
      · cases eq
      · next legal =>
          split at eq
          · cases eq
          split at eq
          · cases eq
          · refine ⟨(Except.ok.inj eq).symm, fun s member => ⟨?_, ?_, ?_⟩⟩
            · simpa using List.find?_eq_none.mp legal s member
            · exact (of_decide_eq_true (List.mem_filter.mp member).2).2
            · rintro rfl
              exact inside member

theorem split_canonicalOf (some' : segmentsOf path ≠ []) :
    split (canonicalOf path) = segmentsOf path :=
  split_intercalate some' fun _ member => not_mem_of_mem_split (List.mem_filter.mp member).1

theorem isCanonical_of_normalizeFsPath {input : String} (eq : normalizeFsPath input = .ok path)
    (root : path ≠ "") : IsCanonical path := by
  obtain ⟨spelled, legal⟩ := normalizeFsPath_eq_ok eq
  have some' : segmentsOf input ≠ [] := by
    intro none
    exact root (by rw [spelled, canonicalOf, none, String.intercalate_nil])
  unfold IsCanonical
  rw [spelled, split_canonicalOf some']
  exact legal

theorem IsCanonical.not_space (clean : IsCanonical path) :
    ∀ c ∈ path.toList, isSpace c = false := by
  intro c member
  rcases mem_split member with rfl | ⟨s, inside, here⟩
  · rfl
  · exact not_space_of_segmentChar ((clean s inside).chars c here)

/-- A canonical path names itself. -/
theorem IsCanonical.canonicalOf_eq (clean : IsCanonical path) : canonicalOf path = path := by
  unfold canonicalOf segmentsOf
  rw [trim_eq_self clean.not_space, List.filter_eq_self.mpr, intercalate_split]
  intro s member
  exact decide_eq_true ⟨(clean s member).ne_empty, (clean s member).here⟩

theorem IsCanonical.ne_empty (clean : IsCanonical path) : path ≠ "" := by
  rintro rfl
  exact (clean "" (by decide)).ne_empty rfl

theorem IsCanonical.append {dir rest : String} (clean : IsCanonical dir)
    (clean' : IsCanonical rest) : IsCanonical (dir ++ "/" ++ rest) := by
  intro s member
  rw [split_append] at member
  exact (List.mem_append.mp member).elim (clean s) (clean' s)

theorem IsCanonical.right {dir rest : String} (clean : IsCanonical (dir ++ "/" ++ rest)) :
    IsCanonical rest := by
  intro s member
  refine clean s ?_
  rw [split_append]
  exact List.mem_append_right _ member

/-! ## Paths within a path -/

/-- Is a path the one that moves, or below it? -/
def within (from' path : String) : Bool := path = from' || below from' path

theorem within_iff :
    within from' path = true ↔
      ∃ rest, path.toList = from'.toList ++ rest ∧ (rest = [] ∨ ∃ more, rest = '/' :: more) := by
  simp only [within, below, startsWith, Bool.or_eq_true, decide_eq_true_iff,
    List.isPrefixOf_iff_prefix, String.toList_append]
  constructor
  · intro moved
    rcases moved with rfl | ⟨more, eq⟩
    · exact ⟨[], by simp, .inl rfl⟩
    · exact ⟨'/' :: more, by simp [← eq], .inr ⟨more, rfl⟩⟩
  · intro moved
    obtain ⟨rest, eq, rfl | ⟨more, rfl⟩⟩ := moved
    · exact .inl (String.toList_inj.mp (by simpa using eq))
    · exact .inr ⟨more, by simp [eq]⟩

theorem below_iff {dir : String} :
    below dir path = true ↔ ∃ rest, path = dir ++ "/" ++ rest := by
  unfold below startsWith
  rw [List.isPrefixOf_iff_prefix]
  constructor
  · intro ⟨more, eq⟩
    exact ⟨String.ofList more, String.toList_inj.mp (by simp [← eq])⟩
  · intro ⟨rest, eq⟩
    exact ⟨rest.toList, by simp [eq]⟩

theorem rebase_append (src dst rest : String) :
    TenantTree.rebase src dst (src ++ "/" ++ rest) = dst ++ "/" ++ rest := by
  unfold TenantTree.rebase sliceAfter
  refine String.toList_inj.mp ?_
  simp

/-- The last characters that are blank go. -/
theorem trim_append {a : String} (rest : String) (solid : ∃ c ∈ a.toList, isSpace c = false) :
    trim (a ++ "/" ++ rest) = String.ofList (a.toList.dropWhile isSpace) ++ "/"
      ++ String.ofList (rest.toList.reverse.dropWhile isSpace).reverse := by
  have head : ¬ (a.toList.dropWhile isSpace).isEmpty = true := by
    rw [List.isEmpty_iff, List.dropWhile_eq_nil_iff]
    obtain ⟨c, member, solid⟩ := solid
    intro blank
    rw [blank c member] at solid
    cases solid
  have mark : isSpace '/' = false := rfl
  refine String.toList_inj.mp ?_
  unfold trim
  simp only [String.toList_append, String.toList_ofList, List.append_assoc]
  rw [List.dropWhile_append, if_neg head, List.reverse_append, List.reverse_append,
    List.append_assoc, List.dropWhile_append]
  have slash : "/".toList.reverse ++ (a.toList.dropWhile isSpace).reverse
      = '/' :: (a.toList.dropWhile isSpace).reverse := rfl
  rw [slash, List.dropWhile_cons_of_neg (by simp [mark])]
  split
  · next blank =>
      rw [List.isEmpty_iff.mp blank]
      simp
  · simp

theorem mem_trim {a : String} {c : Char} (member : c ∈ a.toList) :
    isSpace c = true ∨ c ∈ (trim a).toList := by
  have kept : ∀ chars : List Char, c ∈ chars → isSpace c = true ∨ c ∈ chars.dropWhile isSpace := by
    intro chars inside
    rw [← List.takeWhile_append_dropWhile (p := isSpace) (l := chars), List.mem_append] at inside
    rcases inside with front | back
    · exact .inl (List.mem_takeWhile_imp front)
    · exact .inr back
  unfold trim
  rw [String.toList_ofList, List.mem_reverse]
  rcases kept _ member with blank | inside
  · exact .inl blank
  · exact kept _ (List.mem_reverse.mpr inside)

theorem mem_segmentsOf {a : String} {c : Char} (member : c ∈ (trim a).toList) :
    c = '/' ∨ c = '.' ∨ ∃ s ∈ segmentsOf a, c ∈ s.toList := by
  rcases mem_split member with mark | ⟨s, inside, here⟩
  · exact .inl mark
  by_cases kept : s ≠ "" ∧ s ≠ "."
  · exact .inr (.inr ⟨s, List.mem_filter.mpr ⟨inside, decide_eq_true kept⟩, here⟩)
  · rw [not_and_or, not_not, not_not] at kept
    rcases kept with rfl | rfl
    · cases here
    · exact .inr (.inl (List.mem_singleton.mp here))

/-- The characters of a spelling. -/
theorem chars_of_normalizeFsPath {input : String} (eq : normalizeFsPath input = .ok path) {c : Char}
    (member : c ∈ input.toList) : isSpace c = true ∨ c = '/' ∨ isSegmentChar c = true := by
  rcases mem_trim member with blank | inside
  · exact .inl blank
  rcases mem_segmentsOf inside with rfl | rfl | ⟨s, kept, here⟩
  · exact .inr (.inl rfl)
  · exact .inr (.inr rfl)
  · exact .inr (.inr (((normalizeFsPath_eq_ok eq).2 s kept).chars c here))

theorem not_space_of_isCanonical (clean : IsCanonical (canonicalOf path)) :
    ∀ c ∈ (trim path).toList, isSpace c = false := by
  have some' : segmentsOf path ≠ [] := by
    intro none
    exact clean.ne_empty (by rw [canonicalOf, none, String.intercalate_nil])
  unfold IsCanonical at clean
  rw [split_canonicalOf some'] at clean
  intro c member
  rcases mem_segmentsOf member with rfl | rfl | ⟨s, kept, here⟩
  · rfl
  · rfl
  · exact not_space_of_segmentChar ((clean s kept).chars c here)

/-- What is spelled on after a directory lies within it. -/
theorem within_of_spelled {dir a rest : String} (eq : normalizeFsPath a = .ok dir)
    (root : dir ≠ "") (clean : IsCanonical (canonicalOf (a ++ "/" ++ rest))) :
    within dir (canonicalOf (a ++ "/" ++ rest)) = true := by
  have spelled := (normalizeFsPath_eq_ok eq).1
  have solid : ∃ c ∈ a.toList, isSpace c = false := by
    by_contra blank
    simp only [not_exists, not_and, Bool.not_eq_false] at blank
    refine root (spelled.trans ?_)
    have none : trim a = "" := by
      unfold trim
      rw [List.dropWhile_eq_nil_iff.mpr blank]
      rfl
    unfold canonicalOf segmentsOf
    rw [none]
    decide
  have trimmed := trim_append rest solid
  have solids := not_space_of_isCanonical clean
  rw [trimmed] at solids
  -- a blank in front of the slash would stand inside a segment
  have same : trim a = String.ofList (a.toList.dropWhile isSpace) := by
    unfold trim
    have none : ∀ c ∈ (a.toList.dropWhile isSpace).reverse, isSpace c = false := by
      intro c member
      refine solids c ?_
      rw [String.toList_append, String.toList_append, String.toList_ofList]
      exact List.mem_append_left _ (List.mem_append_left _ (List.mem_reverse.mp member))
    rw [dropWhile_eq_self none, List.reverse_reverse]
  have parts : segmentsOf (a ++ "/" ++ rest) = segmentsOf a
      ++ (split (String.ofList (rest.toList.reverse.dropWhile isSpace).reverse)).filter
        fun s => s ≠ "" ∧ s ≠ "." := by
    unfold segmentsOf
    rw [trimmed, same, split_append, List.filter_append]
  have some' : segmentsOf a ≠ [] := by
    intro none
    exact root (by rw [spelled, canonicalOf, none, String.intercalate_nil])
  rw [spelled]
  unfold canonicalOf
  rw [parts]
  generalize (split (String.ofList (rest.toList.reverse.dropWhile isSpace).reverse)).filter
    (fun s => s ≠ "" ∧ s ≠ ".") = more
  cases more with
  | nil => simp [within]
  | cons s more =>
      rw [String.intercalate_append_of_ne_nil some' (List.cons_ne_nil _ _), within,
        below_iff.mpr ⟨_, rfl⟩, Bool.or_true]

end Everdict.WorkspaceFs
