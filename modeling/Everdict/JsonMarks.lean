import Everdict.JsonText
import Everdict.Occurrence

/-!
# Markers in JSON texts

A written text alternates between marks and quoted texts (`scan`).  So a marker of capitals and
underscores stands in what is written where it stands in a text of the value (`infix_write`),
and what follows it, read as a value of its own, has the two exchanged: its property names are
made of marks (`keys_of_inside`).
-/

namespace JsonText

open Occurrence

variable {s t rest : List Nat} {u : Nat}

/-! ## Marks and quoted texts -/

/-- Where a reader of what was written stands. -/
inductive Place where
  | outside
  | inside
  | escaped
  deriving DecidableEq

/-- The units that stand outside the quotes. -/
def MARKS : List Nat := units "\x7b\x7d[],:0123456789+-.aeflnrstu"

def ESCAPES : List Nat := units "\"\\/bfnrtu"

def Place.step : Place → Nat → Option Place
  | .outside, u =>
      if u = 0x22 then some .inside else if u ∈ MARKS then some .outside else none
  | .inside, u =>
      if u = 0x22 then some .outside
      else if u = 0x5C then some .escaped
      else if u < 0x20 then none
      else some .inside
  | .escaped, u => if u ∈ ESCAPES then some .inside else none

def scan : Place → List Nat → Option Place
  | place, [] => some place
  | place, u :: t => (place.step u).bind fun next => scan next t

theorem scan_append (place : Place) (a b : List Nat) :
    scan place (a ++ b) = (scan place a).bind fun next => scan next b := by
  induction a generalizing place with
  | nil => rfl
  | cons u a ih =>
      rw [List.cons_append, scan, scan, Option.bind_assoc]
      exact Option.bind_congr fun next _ => ih next

theorem scan_cons {place next : Place} (step : place.step u = some next) :
    scan place (u :: t) = scan next t := by
  rw [scan, step, Option.bind_some]

theorem step_inside (quote : u ≠ 0x22) (backslash : u ≠ 0x5C) (control : 0x20 ≤ u) :
    Place.inside.step u = some .inside := by
  rw [Place.step, if_neg quote, if_neg backslash, if_neg (Nat.not_lt.mpr control)]

theorem step_escape {e : Nat} (value : escapeValue e = some u) :
    Place.escaped.step e = some .inside := by
  refine if_pos ?_
  unfold escapeValue at value
  split_ifs at value with h1 h2 h3 h4 h5 h6
  · rcases h1 with rfl | rfl | rfl <;> decide
  · rw [h2]; decide
  · rw [h3]; decide
  · rw [h4]; decide
  · rw [h5]; decide
  · rw [h6]; decide

theorem step_hexDigit : ∀ n < 16, Place.inside.step (hexDigit n) = some .inside := by decide

theorem scan_hexEscape (u : Nat) : scan .inside (hexEscape u ++ t) = scan .inside t := by
  have digit (n : Nat) : Place.inside.step (hexDigit (n % 16)) = some .inside :=
    step_hexDigit _ (Nat.mod_lt _ (by decide))
  calc scan .inside (hexEscape u ++ t)
      = scan .inside (hexDigit (u / 4096 % 16) :: hexDigit (u / 256 % 16)
          :: hexDigit (u / 16 % 16) :: hexDigit (u % 16) :: t) := rfl
    _ = scan .inside t := by
        rw [scan_cons (digit _), scan_cons (digit _), scan_cons (digit _), scan_cons (digit _)]

theorem Quoted.scan_inside (quoted : Quoted s t) : scan .inside t = some .inside := by
  induction quoted with
  | nil => rfl
  | raw quote backslash control _ ih => rw [scan_cons (step_inside quote backslash control), ih]
  | @short u e s t value _ ih =>
      have opens : scan .inside (0x5C :: e :: t) = scan .escaped (e :: t) := rfl
      rw [opens, scan_cons (step_escape value), ih]
  | hex special _ ih => rw [scan_hexEscape, ih]

theorem scan_quote (s rest : List Nat) : scan .outside (quote s ++ rest) = scan .outside rest := by
  have opens : scan .outside (0x22 :: (quoteUnits s ++ 0x22 :: rest))
      = scan .inside (quoteUnits s ++ 0x22 :: rest) := rfl
  rw [quote_append, opens, scan_append, (quoted_quoteUnits s).scan_inside]
  rfl

theorem scan_marks (marks : ∀ u ∈ s, u ∈ MARKS) :
    scan .outside (s ++ rest) = scan .outside rest := by
  have quoteless : ∀ u ∈ MARKS, u ≠ 0x22 := by decide
  induction s with
  | nil => rfl
  | cons u s ih =>
      have here := marks u List.mem_cons_self
      have step : Place.outside.step u = some .outside := by
        rw [Place.step, if_neg (quoteless u here), if_pos here]
      rw [List.cons_append, scan_cons step]
      exact ih fun u inside => marks u (List.mem_cons_of_mem _ inside)

section Written

variable {ν : Type} (format : NumberFormat ν)

theorem name_marks : ∀ word ∈ [units "null", units "true", units "false", units "0123456789+-.e"],
    ∀ u ∈ word, u ∈ MARKS := by
  decide

theorem scan_mark (mark : u ∈ MARKS) : scan .outside (u :: rest) = scan .outside rest :=
  scan_marks (s := [u]) fun u' inside => by rwa [List.mem_singleton.mp inside]

theorem scan_comma (first : Bool) : scan .outside (comma first ++ rest) = scan .outside rest := by
  cases first with
  | true => rfl
  | false => exact scan_mark (by decide)

mutual

/-- A reader passes what was written, and stands outside the quotes behind it. -/
theorem scan_write (value : Value ν) (rest : List Nat) :
    scan .outside (write format value ++ rest) = scan .outside rest := by
  match value with
  | .undefined | .null | .nan | .infinity _ =>
      exact scan_marks (name_marks (units "null") (by decide))
  | .bool true => exact scan_marks (name_marks (units "true") (by decide))
  | .bool false => exact scan_marks (name_marks (units "false") (by decide))
  | .number x =>
      rw [write]
      exact scan_marks fun u inside =>
        name_marks (units "0123456789+-.e") (by decide) u (format.write_units x u inside)
  | .text s => exact scan_quote s rest
  | .array items =>
      rw [write, List.cons_append, scan_mark (by decide)]
      exact scan_writeItems items true rest
  | .object fields =>
      rw [write, List.cons_append, scan_mark (by decide)]
      exact scan_writeFields fields true rest

theorem scan_writeItems (items : List (Value ν)) (first : Bool) (rest : List Nat) :
    scan .outside (writeItems format first items ++ rest) = scan .outside rest := by
  match items with
  | [] => exact scan_mark (by decide)
  | item :: items =>
      rw [writeItems, List.append_assoc, List.append_assoc, scan_comma, scan_write item]
      exact scan_writeItems items false rest

theorem scan_writeFields (fields : List (List Nat × Value ν)) (first : Bool) (rest : List Nat) :
    scan .outside (writeFields format first fields ++ rest) = scan .outside rest := by
  match fields with
  | [] => exact scan_mark (by decide)
  | (key, value) :: fields =>
      rw [writeFields]
      split
      · exact scan_writeFields fields first rest
      · rw [List.append_assoc, List.append_assoc, List.cons_append, List.append_assoc, scan_comma,
          scan_quote, scan_mark (by decide), scan_write value]
        exact scan_writeFields fields false rest

end

theorem newline_stops (place : Place) : place.step 0x0A = none := by
  cases place <;> rfl

/-- No line ends within what is written. -/
theorem newline_not_mem_write (value : Value ν) : 0x0A ∉ write format value := by
  intro inside
  obtain ⟨a, b, eq⟩ := List.append_of_mem inside
  have whole := scan_write format value []
  rw [List.append_nil, eq, scan_append] at whole
  cases before : scan .outside a with
  | none =>
      rw [before] at whole
      cases whole
  | some place =>
      have stuck : scan place (0x0A :: b) = none := by
        rw [scan, newline_stops, Option.bind_none]
      rw [before, Option.bind_some, stuck] at whole
      cases whole

end Written

/-! ## Reading from within a quoted text -/

section Inside

variable {ν : Type} {format : NumberFormat ν} {place : Place}

theorem marks_plain : ∀ u ∈ MARKS, u ≠ 0x22 ∧ u ≠ 0x5C ∧ 0x20 ≤ u := by decide

/-- What one reader takes for a text stands outside the quotes of the other. -/
theorem readText_inside (passes : scan .outside t = some place) {r : List Nat × List Nat}
    (read : readText t = some r) : (∀ u ∈ r.1, u ∈ MARKS) ∧ scan .inside r.2 = some place := by
  induction t generalizing r with
  | nil => cases read
  | cons u t ih =>
      by_cases quote : u = 0x22
      · subst quote
        cases read
        exact ⟨(fun u inside => by cases inside), passes⟩
      · by_cases mark : u ∈ MARKS
        · obtain ⟨-, backslash, control⟩ := marks_plain u mark
          have step : Place.outside.step u = some .outside := by
            rw [Place.step, if_neg quote, if_pos mark]
          rw [scan_cons step] at passes
          rw [readText_raw quote backslash control] at read
          obtain ⟨r', read', rfl⟩ := Option.map_eq_some_iff.mp read
          obtain ⟨marks, goesOn⟩ := ih passes read'
          refine ⟨fun u' inside => ?_, goesOn⟩
          rcases List.mem_cons.mp inside with rfl | later
          · exact mark
          · exact marks u' later
        · have step : Place.outside.step u = none := by
            rw [Place.step, if_neg quote, if_neg mark]
          rw [scan, step] at passes
          cases passes

/-- Units that neither open a text nor escape leave the other reader inside. -/
theorem scan_drop {w : List Nat} (dull : ∀ u ∈ w, u ≠ 0x22 ∧ u ≠ 0x5C)
    (passes : scan .inside (w ++ t) = some place) : scan .inside t = some place := by
  induction w with
  | nil => exact passes
  | cons u w ih =>
      obtain ⟨quote, backslash⟩ := dull u List.mem_cons_self
      refine ih (fun u inside => dull u (List.mem_cons_of_mem _ inside)) ?_
      rw [List.cons_append, scan, Place.step, if_neg quote, if_neg backslash] at passes
      split at passes
      · cases passes
      · exact passes

theorem scan_skipSpace (passes : scan .inside t = some place) :
    scan .inside (skipSpace t) = some place := by
  rw [← List.takeWhile_append_dropWhile (p := isSpace) (l := t)] at passes
  refine scan_drop (fun u inside => ?_) passes
  have space := List.mem_takeWhile_imp inside
  constructor <;> rintro rfl <;> cases space

theorem scan_expect {u : Nat} (dull : u ≠ 0x22 ∧ u ≠ 0x5C) (passes : scan .inside t = some place)
    (found : expect u t = some rest) : scan .inside rest = some place := by
  cases t with
  | nil => cases found
  | cons u' t =>
      by_cases same : u' = u
      · rw [expect, if_pos same] at found
        obtain rfl := Option.some_inj.mp found
        refine scan_drop (w := [u']) (fun u'' inside => ?_) passes
        rw [List.mem_singleton.mp inside, same]
        exact dull
      · rw [expect_of_ne same] at found
        cases found

theorem scan_behindComma {first : Bool} (passes : scan .inside t = some place)
    (found : behindComma first t = some rest) : scan .inside rest = some place := by
  unfold behindComma at found
  split at found
  · cases found
    exact passes
  · exact scan_expect (by decide) passes found

/-- The names of the properties are made of marks. -/
def MarkNames (fields : List (List Nat × Value ν)) : Prop := ∀ f ∈ fields, ∀ u ∈ f.1, u ∈ MARKS

theorem MarkNames.upsert {fields : List (List Nat × Value ν)} (names : MarkNames fields)
    {key : List Nat} (marks : ∀ u ∈ key, u ∈ MARKS) (value : Value ν) :
    MarkNames (upsert fields key value) := by
  intro f inside
  unfold JsonText.upsert at inside
  split at inside
  · obtain ⟨g, there, rfl⟩ := List.mem_map.mp inside
    split
    · exact marks
    · exact names g there
  · rcases List.mem_append.mp inside with old | new
    · exact names f old
    · rw [List.mem_singleton.mp new]
      exact marks

theorem wordValue_ne_object (word : List Nat) (fields : List (List Nat × Value ν)) :
    wordValue format word ≠ some (.object fields) := by
  intro eq
  unfold wordValue at eq
  split at eq
  · cases eq
  · split at eq
    · cases eq
    · split at eq
      · cases eq
      · split at eq
        · cases eq
        · obtain ⟨_, -, isNumber⟩ := Option.map_eq_some_iff.mp eq
          cases isNumber

/-- One reader after `n` steps, the other inside where it began and where it ended. -/
theorem read_inside (n : Nat) :
    (∀ t r, scan .inside t = some place → readValue format n t = some r →
      scan .inside r.2 = some place ∧ ∀ fields, r.1 = .object fields → MarkNames fields) ∧
    (∀ first t r, scan .inside t = some place → readItems format first n t = some r →
      scan .inside r.2 = some place) ∧
    (∀ first done t r, scan .inside t = some place → MarkNames done →
      readFields format first n done t = some r →
      scan .inside r.2 = some place ∧ MarkNames r.1) := by
  induction n with
  | zero =>
      refine ⟨fun _ _ _ read => ?_, fun _ _ _ _ read => ?_, fun _ _ _ _ _ _ read => ?_⟩
      · cases read
      · cases read
      · cases read
  | succ n ih =>
      obtain ⟨values, items, fields⟩ := ih
      refine ⟨fun t r passes read => ?_, fun first t r passes read => ?_,
        fun first done t r passes names read => ?_⟩
      · have here := scan_skipSpace passes
        rw [readValue] at read
        split at read
        · cases read
        · next u rest eq =>
            rw [eq] at here
            split_ifs at read with text array object
            · obtain ⟨r', read', rfl⟩ := Option.map_eq_some_iff.mp read
              subst text
              have opens : scan .inside (0x22 :: rest) = scan .outside rest := rfl
              refine ⟨(readText_inside (opens ▸ here) read').2, fun _ eq => by cases eq⟩
            · obtain ⟨r', read', rfl⟩ := Option.map_eq_some_iff.mp read
              subst array
              have opens : scan .inside (0x5B :: rest) = scan .inside rest := rfl
              exact ⟨items true rest r' (opens ▸ here) read', fun _ eq => by cases eq⟩
            · obtain ⟨r', read', rfl⟩ := Option.map_eq_some_iff.mp read
              subst object
              have opens : scan .inside (0x7B :: rest) = scan .inside rest := rfl
              obtain ⟨goesOn, names⟩ := fields true [] rest r' (opens ▸ here)
                (fun f inside => by cases inside) read'
              refine ⟨goesOn, fun _ eq => ?_⟩
              cases eq
              exact names
            · obtain ⟨value, word, rfl⟩ := Option.map_eq_some_iff.mp read
              refine ⟨?_, fun fields eq => ?_⟩
              · rw [← List.takeWhile_append_dropWhile (p := isWord) (l := u :: rest)] at here
                refine scan_drop (fun u' inside => ?_) here
                have isOne := List.mem_takeWhile_imp inside
                constructor <;> rintro rfl <;> exact absurd isOne (by decide)
              · replace eq : value = .object fields := eq
                rw [eq] at word
                exact absurd word (wordValue_ne_object _ fields)
      · have here := scan_skipSpace passes
        rw [readItems] at read
        split at read
        · next rest found =>
            cases read
            exact scan_expect (by decide) here found
        · simp only [Option.bind_eq_some_iff, Option.map_eq_some_iff] at read
          obtain ⟨t₁, behind, item, read₁, r₂, read₂, rfl⟩ := read
          have before := scan_behindComma here behind
          exact items false item.2 r₂ (values t₁ item before read₁).1 read₂
      · have here := scan_skipSpace passes
        rw [readFields] at read
        split at read
        · next rest found =>
            cases read
            exact ⟨scan_expect (by decide) here found, names⟩
        · simp only [Option.bind_eq_some_iff] at read
          obtain ⟨t₁, behind, t₂, quote, key, text, t₃, colon, value, read₁, read₂⟩ := read
          have before := scan_skipSpace (scan_behindComma here behind)
          -- the quote that opens the key closes the text the other reader is in
          have outside : scan .outside t₂ = some place := by
            cases skipped : skipSpace t₁ with
            | nil =>
                rw [skipped] at quote
                cases quote
            | cons u t₂' =>
                rw [skipped] at quote before
                by_cases same : u = 0x22
                · rw [same, expect_self] at quote
                  obtain rfl := Option.some_inj.mp quote
                  subst same
                  exact before
                · rw [expect_of_ne same] at quote
                  cases quote
          obtain ⟨marks, goesOn⟩ := readText_inside outside text
          have after := values t₃ value
            (scan_expect (by decide) (scan_skipSpace goesOn) colon) read₁
          exact fields false _ value.2 r after.1 (names.upsert marks value.1) read₂

/-- What is read from within a quoted text has marks for its property names. -/
theorem keys_of_inside (passes : scan .inside t = some place) {fields : List (List Nat × Value ν)}
    (read : parse format t = some (.object fields)) : MarkNames fields := by
  obtain ⟨r, read', eq⟩ := Option.bind_eq_some_iff.mp read
  split at eq
  · exact ((read_inside _).1 t r passes read').2 fields (Option.some_inj.mp eq)
  · cases eq

end Inside

/-! ## Markers -/

/-- Capitals and underscores. -/
def isMarker (u : Nat) : Bool := 0x41 ≤ u && u ≤ 0x5A || u = 0x5F

theorem marker_plain (marker : isMarker u = true) : u ≠ 0x22 ∧ u ≠ 0x5C ∧ 0x20 ≤ u := by
  simp only [isMarker, Bool.or_eq_true, Bool.and_eq_true, decide_eq_true_eq] at marker
  omega

theorem marks_not_marker : ∀ u ∈ MARKS, isMarker u = false := by decide

theorem escapes_not_marker : ∀ u ∈ ESCAPES, isMarker u = false := by decide

section Marker

variable {m : List Nat} {place : Place}

theorem scan_marker_inside (marker : ∀ u ∈ m, isMarker u = true) :
    scan .inside (m ++ t) = scan .inside t := by
  induction m with
  | nil => rfl
  | cons u m ih =>
      obtain ⟨quote, backslash, control⟩ := marker_plain (marker u List.mem_cons_self)
      rw [List.cons_append, scan_cons (step_inside quote backslash control)]
      exact ih fun u inside => marker u (List.mem_cons_of_mem _ inside)

/-- A marker is passed within a quoted text only. -/
theorem scan_behind_marker {start : Place} (some' : m ≠ [])
    (marker : ∀ u ∈ m, isMarker u = true) (passes : scan start (m ++ t) = some place) :
    scan .inside t = some place := by
  obtain ⟨u, m', rfl⟩ := List.exists_cons_of_ne_nil some'
  have first := marker u List.mem_cons_self
  cases start with
  | inside => rwa [scan_marker_inside marker] at passes
  | outside =>
      have step : Place.outside.step u = none := by
        rw [Place.step, if_neg (marker_plain first).1, if_neg]
        exact fun mark => Bool.false_ne_true ((marks_not_marker u mark).symm.trans first)
      rw [List.cons_append, scan, step] at passes
      cases passes
  | escaped =>
      have step : Place.escaped.step u = none := by
        rw [Place.step, if_neg]
        exact fun escape => Bool.false_ne_true ((escapes_not_marker u escape).symm.trans first)
      rw [List.cons_append, scan, step] at passes
      cases passes

/-- What follows a marker in a written value is read from within a quoted text. -/
theorem scan_behind {ν : Type} {format : NumberFormat ν} {value : Value ν} {a : List Nat}
    (some' : m ≠ []) (marker : ∀ u ∈ m, isMarker u = true)
    (eq : write format value = a ++ (m ++ t)) : scan .inside t = some .outside := by
  have whole := scan_write format value []
  rw [List.append_nil, eq, scan_append] at whole
  obtain ⟨place, -, passes⟩ := Option.bind_eq_some_iff.mp whole
  exact scan_behind_marker some' marker passes

theorem escape_not_marker {e : Nat} (value : escapeValue e = some u) : isMarker e = false := by
  by_cases escape : e ∈ ESCAPES
  · exact escapes_not_marker e escape
  · have step := step_escape value
    rw [Place.step, if_neg escape] at step
    cases step

theorem escaped_not_marker {e : Nat} (value : escapeValue e = some u) : isMarker u = false := by
  unfold escapeValue at value
  split_ifs at value with same
  · obtain rfl := Option.some_inj.mp value
    rcases same with rfl | rfl | rfl <;> rfl
  all_goals
    obtain rfl := Option.some_inj.mp value
    rfl

theorem special_not_marker (special : (decide (u < 0x20) || isLead u || isTrail u) = true) :
    isMarker u = false := by
  simp only [isLead, isTrail, Bool.or_eq_true, Bool.and_eq_true, decide_eq_true_eq] at special
  simp only [isMarker, Bool.or_eq_false_iff, Bool.and_eq_false_iff, decide_eq_false_iff_not]
  omega

theorem hexDigit_not_marker : ∀ n < 16, isMarker (hexDigit n) = false := by decide

variable (marker : ∀ u ∈ m, isMarker u = true)

include marker

theorem not_mem_of_other (other : isMarker u = false) : u ∉ m := fun inside =>
  Bool.false_ne_true (other.symm.trans (marker u inside))

theorem prefix_of_not_marker (some' : m ≠ []) (other : isMarker u = false) : ¬ m <+: u :: t :=
  prefix_of_not_mem some' (not_mem_of_other marker other)

theorem infix_of_not_marker (some' : m ≠ []) (other : isMarker u = false) :
    m <:+: u :: t ↔ m <:+: t :=
  infix_of_not_mem some' (not_mem_of_other marker other)

theorem infix_append_mark (some' : m ≠ []) (a : List Nat) (other : isMarker u = false) :
    m <:+: a ++ u :: t ↔ m <:+: a ∨ m <:+: t :=
  infix_append_stop some' a (not_mem_of_other marker other)

theorem infix_hexEscape (some' : m ≠ []) (u : Nat) : m <:+: hexEscape u ++ t ↔ m <:+: t := by
  have digit (n : Nat) : isMarker (hexDigit (n % 16)) = false :=
    hexDigit_not_marker _ (Nat.mod_lt _ (by decide))
  rw [hexEscape, List.cons_append, List.cons_append, List.cons_append, List.cons_append,
    List.cons_append, List.cons_append, List.nil_append,
    infix_of_not_marker marker some' (by decide), infix_of_not_marker marker some' (by decide),
    infix_of_not_marker marker some' (digit _), infix_of_not_marker marker some' (digit _),
    infix_of_not_marker marker some' (digit _), infix_of_not_marker marker some' (digit _)]

theorem infix_of_others (some' : m ≠ []) (others : ∀ u ∈ t, isMarker u = false) : ¬ m <:+: t := by
  intro inside
  obtain ⟨u, m', rfl⟩ := List.exists_cons_of_ne_nil some'
  have there := inside.subset List.mem_cons_self
  exact Bool.false_ne_true ((others u there).symm.trans (marker u List.mem_cons_self))

theorem Quoted.prefix_iff (quoted : Quoted s t) : m <+: t ↔ m <+: s := by
  induction quoted generalizing m with
  | nil => rfl
  | @raw u s t _ _ _ _ ih =>
      cases m with
      | nil => exact iff_of_true List.nil_prefix List.nil_prefix
      | cons u' m =>
          rw [List.cons_prefix_cons, List.cons_prefix_cons,
            ih fun u inside => marker u (List.mem_cons_of_mem _ inside)]
  | @short u e s t value _ ih =>
      by_cases none : m = []
      · subst none
        exact iff_of_true List.nil_prefix List.nil_prefix
      · exact iff_of_false (prefix_of_not_marker marker none (by decide))
          (prefix_of_not_marker marker none (escaped_not_marker value))
  | @hex u s t special _ ih =>
      by_cases none : m = []
      · subst none
        exact iff_of_true List.nil_prefix List.nil_prefix
      · exact iff_of_false (prefix_of_not_marker marker none (by decide))
          (prefix_of_not_marker marker none (special_not_marker special))

/-- A marker stands in a quoted text where it stands in the text. -/
theorem Quoted.infix_iff (some' : m ≠ []) (quoted : Quoted s t) : m <:+: t ↔ m <:+: s := by
  induction quoted with
  | nil => rfl
  | @raw u s t quote backslash control quoted ih =>
      have begins := (Quoted.raw quote backslash control quoted).prefix_iff marker
      rw [List.infix_cons_iff, List.infix_cons_iff, ih, begins]
  | @short u e s t value _ ih =>
      rw [infix_of_not_marker marker some' (by decide),
        infix_of_not_marker marker some' (escape_not_marker value), ih,
        infix_of_not_marker marker some' (escaped_not_marker value)]
  | hex special _ ih =>
      rw [infix_hexEscape marker some', ih,
        infix_of_not_marker marker some' (special_not_marker special)]

theorem infix_quote (some' : m ≠ []) (s : List Nat) (other : isMarker u = false) :
    m <:+: quote s ++ u :: t ↔ m <:+: s ∨ m <:+: t := by
  rw [quote_append, infix_of_not_marker marker some' (by decide),
    infix_append_mark marker some' _ (by decide), infix_of_not_marker marker some' other,
    (quoted_quoteUnits s).infix_iff marker some']

end Marker

mutual

/-- Does a marker stand in a text or a property name of what is written? -/
def mentions {ν : Type} (m : List Nat) : Value ν → Bool
  | .undefined => false
  | .null => false
  | .bool _ => false
  | .number _ => false
  | .nan => false
  | .infinity _ => false
  | .text s => m <:+: s
  | .array items => mentionsItems m items
  | .object fields => mentionsFields m fields

def mentionsItems {ν : Type} (m : List Nat) : List (Value ν) → Bool
  | [] => false
  | item :: items => mentions m item || mentionsItems m items

def mentionsFields {ν : Type} (m : List Nat) : List (List Nat × Value ν) → Bool
  | [] => false
  | (key, value) :: fields =>
      if value.isUndefined then mentionsFields m fields
      else decide (m <:+: key) || mentions m value || mentionsFields m fields

end

section Mentions

variable {ν : Type} (format : NumberFormat ν) {m : List Nat}

theorem infix_comma (marker : ∀ u ∈ m, isMarker u = true) (some' : m ≠ []) (first : Bool) :
    m <:+: comma first ++ t ↔ m <:+: t := by
  cases first with
  | true => rfl
  | false => exact infix_of_not_marker marker some' (by decide)

/-- What follows a member begins with a comma or a closing mark. -/
theorem writeItems_head (items : List (Value ν)) :
    ∃ u t, writeItems format false items = u :: t ∧ isMarker u = false := by
  cases items with
  | nil => exact ⟨_, _, rfl, by decide⟩
  | cons => exact ⟨_, _, rfl, by decide⟩

theorem writeFields_head (fields : List (List Nat × Value ν)) :
    ∃ u t, writeFields format false fields = u :: t ∧ isMarker u = false := by
  induction fields with
  | nil => exact ⟨_, _, rfl, by decide⟩
  | cons field fields ih =>
      rw [writeFields]
      split
      · exact ih
      · exact ⟨_, _, rfl, by decide⟩

theorem name_not_marker (word : List Nat) (isName : word ∈ [units "null", units "true",
    units "false", units "0123456789+-.e"]) : ∀ u ∈ word, isMarker u = false :=
  fun u inside => marks_not_marker u (name_marks word isName u inside)

mutual

/-- A marker stands in what is written where it stands in a text of the value. -/
theorem infix_write (marker : ∀ u ∈ m, isMarker u = true) (some' : m ≠ []) (value : Value ν) :
    m <:+: write format value ↔ mentions m value = true := by
  match value with
  | .undefined | .null | .nan | .infinity _ =>
      refine iff_of_false (infix_of_others marker some' ?_) Bool.false_ne_true
      exact name_not_marker (units "null") (by decide)
  | .bool true =>
      refine iff_of_false (infix_of_others marker some' ?_) Bool.false_ne_true
      exact name_not_marker (units "true") (by decide)
  | .bool false =>
      refine iff_of_false (infix_of_others marker some' ?_) Bool.false_ne_true
      exact name_not_marker (units "false") (by decide)
  | .number x =>
      rw [write]
      refine iff_of_false (infix_of_others marker some' fun u inside => ?_) Bool.false_ne_true
      exact name_not_marker (units "0123456789+-.e") (by decide) u (format.write_units x u inside)
  | .text s =>
      have quoted := infix_quote (t := []) marker some' s (u := 0x5D) (by decide)
      have stop := infix_append_mark (t := []) marker some' (quote s) (u := 0x5D) (by decide)
      have nowhere := not_infix_nil some'
      rw [write, mentions, decide_eq_true_iff]
      exact ⟨fun inside => (quoted.mp (stop.mpr (Or.inl inside))).resolve_right nowhere,
        fun inside => (stop.mp (quoted.mpr (Or.inl inside))).resolve_right nowhere⟩
  | .array items =>
      rw [write, mentions, infix_of_not_marker marker some' (by decide)]
      exact infix_writeItems marker some' items true
  | .object fields =>
      rw [write, mentions, infix_of_not_marker marker some' (by decide)]
      exact infix_writeFields marker some' fields true

theorem infix_writeItems (marker : ∀ u ∈ m, isMarker u = true) (some' : m ≠ [])
    (items : List (Value ν)) (first : Bool) :
    m <:+: writeItems format first items ↔ mentionsItems m items = true := by
  match items with
  | [] =>
      refine iff_of_false (infix_of_others marker some' ?_) Bool.false_ne_true
      exact fun u inside => marks_not_marker u (by rw [List.mem_singleton.mp inside]; decide)
  | item :: items =>
      obtain ⟨u, t, eq, other⟩ := writeItems_head format items
      rw [writeItems, mentionsItems, infix_comma marker some', Bool.or_eq_true,
        ← infix_write marker some' item, ← infix_writeItems marker some' items false, eq,
        infix_append_mark marker some' _ other, infix_of_not_marker marker some' other]

theorem infix_writeFields (marker : ∀ u ∈ m, isMarker u = true) (some' : m ≠ [])
    (fields : List (List Nat × Value ν)) (first : Bool) :
    m <:+: writeFields format first fields ↔ mentionsFields m fields = true := by
  match fields with
  | [] =>
      refine iff_of_false (infix_of_others marker some' ?_) Bool.false_ne_true
      exact fun u inside => marks_not_marker u (by rw [List.mem_singleton.mp inside]; decide)
  | (key, value) :: fields =>
      rw [writeFields, mentionsFields]
      split
      · exact infix_writeFields marker some' fields first
      · obtain ⟨u, t, eq, other⟩ := writeFields_head format fields
        rw [infix_comma marker some', infix_quote marker some' key (by decide), Bool.or_eq_true,
          Bool.or_eq_true, decide_eq_true_iff, ← infix_write marker some' value,
          ← infix_writeFields marker some' fields false, eq,
          infix_append_mark marker some' _ other, infix_of_not_marker marker some' other,
          or_assoc]

end

end Mentions

end JsonText
