import Everdict.Documents
import Everdict.Sorting
import Mathlib.Data.List.Forall2
import Mathlib.Data.List.Lex

/-!
# Content digests

A digest is taken of a document's canonical text: JSON with the members of each object in
the order of their keys and without those that are `undefined`.  The text says no more and
no less than the document without such members (`canonicalText_eq_iff`).
-/

namespace Everdict.Provenance

open Documents
open Sorting (sortBy)

variable {ν : Type} (numbers : NumberText ν)

mutual

/-- In an array `join` writes nothing for `undefined`. -/
def canonicalize : Doc ν → String
  | .undefined => ""
  | .null => "null"
  | .bool value => if value then "true" else "false"
  | .number value => numbers.text value
  | .text value => Text.json value
  | .array items => "[" ++ ",".intercalate (canonicalizeItems items) ++ "]"
  | .object members =>
      let entries := sortBy (fun entry => Text.utf16 entry.1) (canonicalizeMembers members)
      "\x7b" ++ ",".intercalate (entries.map fun entry => Text.json entry.1 ++ ":" ++ entry.2)
        ++ "\x7d"

def canonicalizeItems : List (Doc ν) → List String
  | [] => []
  | item :: rest => canonicalize item :: canonicalizeItems rest

def canonicalizeMembers : List (String × Doc ν) → List (String × String)
  | [] => []
  | (key, value) :: rest =>
      if value.isUndefined then canonicalizeMembers rest
      else (key, canonicalize value) :: canonicalizeMembers rest

end

inductive DigestError where
  | badRequest (message : String)
  deriving DecidableEq

def canonicalText (value : Doc ν) : Except DigestError String :=
  if value.isUndefined then
    .error (.badRequest "contentDigest expects a JSON-serializable document, got undefined.")
  else .ok (canonicalize numbers value)

def contentDigest (sha256 : String → String) (value : Doc ν) : Except DigestError String := do
  let text ← canonicalText numbers value
  return "sha256:" ++ sha256 text

/-! ## The parts of a canonical text -/

def defined (members : List (String × Doc ν)) : List (String × Doc ν) :=
  members.filter fun m => !m.2.isUndefined

/-- The members that are written, in their order. -/
def ordered (members : List (String × Doc ν)) : List (String × Doc ν) :=
  sortBy (fun m => Text.utf16 m.1) (defined members)

def writeItem (d : Doc ν) : List Char := (canonicalize numbers d).toList

def writeMember (m : String × Doc ν) : List Char :=
  (Text.json m.1).toList ++ ':' :: (canonicalize numbers m.2).toList

theorem canonicalizeItems_eq (items : List (Doc ν)) :
    canonicalizeItems numbers items = items.map (canonicalize numbers) := by
  induction items with
  | nil => rfl
  | cons d ds ih => rw [canonicalizeItems, ih, List.map_cons]

theorem canonicalizeMembers_eq (members : List (String × Doc ν)) :
    canonicalizeMembers numbers members =
      (defined members).map fun m => (m.1, canonicalize numbers m.2) := by
  unfold defined
  induction members with
  | nil => rfl
  | cons m rest ih =>
      rw [canonicalizeMembers, ih, List.filter_cons]
      cases m.2.isUndefined <;> rfl

theorem toList_array (items : List (Doc ν)) :
    (canonicalize numbers (.array items)).toList =
      '[' :: ([','].intercalate (items.map (writeItem numbers)) ++ [']']) := by
  have comma : (",".toList : List Char) = [','] := rfl
  rw [canonicalize, canonicalizeItems_eq]
  simp only [String.toList_append, String.toList_intercalate, List.map_map, comma]
  rfl

theorem toList_object (members : List (String × Doc ν)) :
    (canonicalize numbers (.object members)).toList =
      '{' :: ([','].intercalate ((ordered members).map (writeMember numbers)) ++ ['}']) := by
  have comma : (",".toList : List Char) = [','] := rfl
  rw [canonicalize, canonicalizeMembers_eq,
    Sorting.sortBy_map (fun m : String × Doc ν => Text.utf16 m.1) _
      (fun m => (m.1, canonicalize numbers m.2)) (fun _ => rfl)]
  simp only [String.toList_append, String.toList_intercalate, List.map_map, comma]
  have each : (String.toList ∘ (fun entry : String × String => Text.json entry.1 ++ ":" ++ entry.2)
      ∘ fun m : String × Doc ν => (m.1, canonicalize numbers m.2)) = writeMember numbers := by
    funext m
    simp [writeMember]
  rw [each]
  rfl

/-! ## Where a value starts and ends -/

/-- What the first character of a text tells. -/
def opens : Doc ν → Char → Prop
  | .undefined, _ => False
  | .null, c => c = 'n'
  | .bool true, c => c = 't'
  | .bool false, c => c = 'f'
  | .number _, c => Decimal.isMark c = true
  | .text _, c => c = '"'
  | .array _, c => c = '['
  | .object _, c => c = '{'

def kind : Doc ν → Nat
  | .undefined => 0
  | .null => 1
  | .bool true => 2
  | .bool false => 3
  | .number _ => 4
  | .text _ => 5
  | .array _ => 6
  | .object _ => 7

theorem kind_of_opens {a b : Doc ν} {c : Char} (left : opens a c) (right : opens b c) :
    kind a = kind b := by
  unfold opens at left right
  split at left <;> split at right <;> first
    | rfl
    | exact left.elim
    | exact right.elim
    | (subst left; cases right)
    | (subst right; cases left)

theorem not_close_of_opens {d : Doc ν} {c : Char} (start : opens d c) : c ≠ ']' ∧ c ≠ '}' := by
  unfold opens at start
  split at start <;> first
    | exact start.elim
    | (subst start; decide)
    | (constructor <;> (rintro rfl; cases start))

theorem writeItem_eq_cons {d : Doc ν} (isDefined : d.isUndefined = false) :
    ∃ c rest, writeItem numbers d = c :: rest ∧ opens d c := by
  cases d with
  | undefined => cases isDefined
  | null => exact ⟨'n', ['u', 'l', 'l'], by rw [writeItem, canonicalize]; rfl, rfl⟩
  | bool value =>
      cases value
      · exact ⟨'f', ['a', 'l', 's', 'e'], by rw [writeItem, canonicalize]; rfl, rfl⟩
      · exact ⟨'t', ['r', 'u', 'e'], by rw [writeItem, canonicalize]; rfl, rfl⟩
  | number value =>
      rcases chars : (numbers.text value).toList with _ | ⟨c, rest⟩
      · exact absurd chars (numbers.nonempty value)
      · exact ⟨c, rest, chars, numbers.mark value c (chars ▸ List.mem_cons_self)⟩
  | text value => exact ⟨'"', _, Text.toList_json value, rfl⟩
  | array items => exact ⟨'[', _, toList_array numbers items, rfl⟩
  | object members => exact ⟨'{', _, toList_object numbers members, rfl⟩

variable {x y : List Char}

/-- The first character tells what kind of value is written. -/
theorem kind_eq {a b : Doc ν} (isDefined : a.isUndefined = false)
    (isDefined' : b.isUndefined = false)
    (eq : writeItem numbers a ++ x = writeItem numbers b ++ y) : kind a = kind b := by
  obtain ⟨c, rest, head, start⟩ := writeItem_eq_cons numbers isDefined
  obtain ⟨c', rest', head', start'⟩ := writeItem_eq_cons numbers isDefined'
  rw [head, head'] at eq
  rw [(List.cons.inj eq).1] at start
  exact kind_of_opens start start'

theorem writeMember_eq_cons (m : String × Doc ν) :
    ∃ rest, writeMember numbers m = '"' :: rest :=
  ⟨_, by rw [writeMember, Text.toList_json, List.cons_append]⟩

/-- A number ends where no mark of a number follows. -/
theorem marks_append_inj {d d' x y : List Char} (marks : ∀ c ∈ d, Decimal.isMark c = true)
    (marks' : ∀ c ∈ d', Decimal.isMark c = true) (closed : Text.Closed x)
    (closed' : Text.Closed y) (eq : d ++ x = d' ++ y) : d = d' ∧ x = y := by
  have stop : ∀ {x : List Char}, Text.Closed x → x.takeWhile Decimal.isMark = [] := by
    intro x closed
    cases x with
    | nil => rfl
    | cons c x =>
        have mark : Decimal.isMark c = false := by
          rcases closed c rfl with rfl | rfl | rfl <;> decide
        rw [List.takeWhile_cons, mark]
        rfl
  have same := congrArg (List.takeWhile Decimal.isMark) eq
  rw [List.takeWhile_append_of_pos marks, List.takeWhile_append_of_pos marks', stop closed,
    stop closed', List.append_nil, List.append_nil] at same
  subst same
  exact ⟨rfl, List.append_cancel_left eq⟩

/-! ## What is written of an object -/

section Objects

variable {members members' : List (String × Doc ν)}

theorem mem_ordered {m : String × Doc ν} :
    m ∈ ordered members ↔ m ∈ members ∧ m.2.isUndefined = false := by
  rw [ordered, Sorting.mem_sortBy, defined, List.mem_filter, Bool.not_eq_true']

theorem isUndefined_meaning (d : Doc ν) : d.meaning.isUndefined = d.isUndefined := by
  cases d <;> rfl

def said (m : String × Doc ν) : String × Meaning ν := (m.1, m.2.meaning.dropUndefined)

/-- What an object says is what its written members say. -/
theorem dropInMember_eq_some (distinct : Distinct members) {name : String} {m : Meaning ν} :
    Meaning.dropInMember (memberMeaning members name) = some m ↔
      (name, m) ∈ (ordered members).map said := by
  constructor
  · intro eq
    rcases member : memberMeaning members name with _ | m'
    · rw [member] at eq
      cases eq
    · obtain ⟨d, mem, rfl⟩ := (memberMeaning_eq_some distinct).mp member
      rw [member, Meaning.dropInMember, isUndefined_meaning] at eq
      split_ifs at eq with absent
      refine List.mem_map.mpr ⟨(name, d), mem_ordered.mpr ⟨mem, by simpa using absent⟩, ?_⟩
      rw [said, Option.some.inj eq]
  · intro written
    obtain ⟨⟨name', d⟩, mem, eq⟩ := List.mem_map.mp written
    obtain ⟨rfl, rfl⟩ := Prod.mk.inj eq
    obtain ⟨mem, isDefined⟩ := mem_ordered.mp mem
    rw [(memberMeaning_eq_some distinct).mpr ⟨d, mem, rfl⟩, Meaning.dropInMember,
      isUndefined_meaning, isDefined]
    rfl

theorem dropUndefined_object_iff (distinct : Distinct members) (distinct' : Distinct members') :
    (Doc.object members).meaning.dropUndefined = (Doc.object members').meaning.dropUndefined ↔
      ∀ entry, entry ∈ (ordered members).map said ↔ entry ∈ (ordered members').map said := by
  simp only [Doc.meaning, Meaning.dropUndefined, Meaning.object.injEq, funext_iff]
  constructor
  · rintro eq ⟨name, m⟩
    rw [← dropInMember_eq_some distinct, ← dropInMember_eq_some distinct', eq name]
  · intro same name
    ext m
    rw [dropInMember_eq_some distinct, dropInMember_eq_some distinct', same]

end Objects

/-! ## One text, one document -/

theorem writeMember_inj {m m' : String × Doc ν}
    (value : ∀ {x y}, Text.Closed x → Text.Closed y →
      writeItem numbers m.2 ++ x = writeItem numbers m'.2 ++ y →
        m.2.meaning.dropUndefined = m'.2.meaning.dropUndefined ∧ x = y)
    (closed : Text.Closed x) (closed' : Text.Closed y)
    (eq : writeMember numbers m ++ x = writeMember numbers m' ++ y) :
    said m = said m' ∧ x = y := by
  simp only [writeMember, List.append_assoc, List.cons_append] at eq
  obtain ⟨key, rest⟩ := Text.json_append_inj eq
  obtain ⟨same, rest⟩ := value closed closed' (List.cons.inj rest).2
  exact ⟨Prod.ext key same, rest⟩

theorem map_eq_of_forall₂ {α β : Type*} {f : α → β} {l l' : List α}
    (each : List.Forall₂ (fun a b => f a = f b) l l') : l.map f = l'.map f := by
  rwa [← List.forall₂_eq_eq_eq, List.forall₂_map_left_iff, List.forall₂_map_right_iff]

theorem array_inj {items items' : List (Doc ν)}
    (isDefined : ∀ d ∈ items ++ items', d.isUndefined = false)
    (element : ∀ d ∈ items, ∀ d' ∈ items', ∀ x y, Text.Closed x → Text.Closed y →
      writeItem numbers d ++ x = writeItem numbers d' ++ y →
        d.meaning.dropUndefined = d'.meaning.dropUndefined ∧ x = y)
    (eq : writeItem numbers (.array items) ++ x = writeItem numbers (.array items') ++ y) :
    (Doc.array items).meaning.dropUndefined = (Doc.array items').meaning.dropUndefined ∧
      x = y := by
  rw [writeItem, writeItem, toList_array, toList_array] at eq
  simp only [List.cons_append, List.append_assoc, List.nil_append, List.cons.injEq, true_and] at eq
  have starts : ∀ d ∈ items ++ items', ∃ c rest, writeItem numbers d = c :: rest ∧ c ≠ ']' := by
    intro d isIn
    obtain ⟨c, rest, head, start⟩ := writeItem_eq_cons numbers (isDefined d isIn)
    exact ⟨c, rest, head, (not_close_of_opens start).1⟩
  obtain ⟨each, rest⟩ := Text.joined_inj (.inl rfl) element starts eq
  refine ⟨?_, rest⟩
  simp only [Doc.meaning, Meaning.dropUndefined, Meaning.dropInItems_eq, itemMeanings_eq,
    List.map_map, Meaning.array.injEq]
  exact map_eq_of_forall₂ each

theorem object_inj {members members' : List (String × Doc ν)} (distinct : Distinct members)
    (distinct' : Distinct members')
    (element : ∀ m ∈ ordered members, ∀ m' ∈ ordered members', ∀ x y, Text.Closed x →
      Text.Closed y → writeMember numbers m ++ x = writeMember numbers m' ++ y →
        said m = said m' ∧ x = y)
    (eq : writeItem numbers (.object members) ++ x = writeItem numbers (.object members') ++ y) :
    (Doc.object members).meaning.dropUndefined = (Doc.object members').meaning.dropUndefined ∧
      x = y := by
  rw [writeItem, writeItem, toList_object, toList_object] at eq
  simp only [List.cons_append, List.append_assoc, List.nil_append, List.cons.injEq, true_and] at eq
  have starts : ∀ m ∈ ordered members ++ ordered members',
      ∃ c rest, writeMember numbers m = c :: rest ∧ c ≠ '}' := by
    intro m _
    obtain ⟨rest, head⟩ := writeMember_eq_cons numbers m
    exact ⟨'"', rest, head, by decide⟩
  obtain ⟨each, rest⟩ := Text.joined_inj (.inr rfl) element starts eq
  refine ⟨?_, rest⟩
  rw [dropUndefined_object_iff distinct distinct', map_eq_of_forall₂ each]
  exact fun _ => Iff.rfl

/-- A document's text is found again in front of whatever may follow it. -/
theorem writeItem_inj {a b : Doc ν} (serializable : a.serializable = true)
    (serializable' : b.serializable = true) (isDefined : a.isUndefined = false)
    (isDefined' : b.isUndefined = false) (closed : Text.Closed x) (closed' : Text.Closed y)
    (eq : writeItem numbers a ++ x = writeItem numbers b ++ y) :
    a.meaning.dropUndefined = b.meaning.dropUndefined ∧ x = y := by
  have same : kind a = kind b := kind_eq numbers isDefined isDefined' eq
  induction a using Doc.induct generalizing b x y with
  | undefined => cases isDefined
  | null =>
      cases b with
      | null => exact ⟨rfl, List.append_cancel_left eq⟩
      | bool value => cases value <;> cases same
      | _ => cases same
  | bool value =>
      cases b with
      | bool value' =>
          cases value <;> cases value' <;> first
            | exact ⟨rfl, List.append_cancel_left eq⟩
            | cases same
      | _ => cases value <;> cases same
  | number value =>
      cases b with
      | number value' =>
          obtain ⟨text, rest⟩ := marks_append_inj (numbers.mark value) (numbers.mark value')
            closed closed' eq
          rw [numbers.inj _ _ (String.toList_inj.mp text)]
          exact ⟨rfl, rest⟩
      | bool value => cases value <;> cases same
      | _ => cases same
  | text value =>
      cases b with
      | text value' =>
          obtain ⟨rfl, rest⟩ := Text.json_append_inj eq
          exact ⟨rfl, rest⟩
      | bool value => cases value <;> cases same
      | _ => cases same
  | array items ih =>
      cases b with
      | array items' =>
          rw [Doc.serializable, serializableItems_iff] at serializable serializable'
          refine array_inj numbers ?_ ?_ eq
          · intro d isIn
            rcases List.mem_append.mp isIn with isIn | isIn
            · exact (serializable d isIn).1
            · exact (serializable' d isIn).1
          · intro d isIn d' isIn' x y closed closed' eq
            obtain ⟨isDefined, serializable⟩ := serializable d isIn
            obtain ⟨isDefined', serializable'⟩ := serializable' d' isIn'
            exact ih d isIn serializable serializable' isDefined isDefined' closed closed' eq
              (kind_eq numbers isDefined isDefined' eq)
      | bool value => cases value <;> cases same
      | _ => cases same
  | object members ih =>
      cases b with
      | object members' =>
          obtain ⟨distinct, serializable⟩ := serializable_object serializable
          obtain ⟨distinct', serializable'⟩ := serializable_object serializable'
          refine object_inj numbers distinct distinct' ?_ eq
          intro m isIn m' isIn' x y
          obtain ⟨isIn, isDefined⟩ := mem_ordered.mp isIn
          obtain ⟨isIn', isDefined'⟩ := mem_ordered.mp isIn'
          refine writeMember_inj numbers fun closed closed' eq => ?_
          exact ih m isIn (serializable m isIn) (serializable' m' isIn') isDefined isDefined'
            closed closed' eq (kind_eq numbers isDefined isDefined' eq)
      | bool value => cases value <;> cases same
      | _ => cases same

/-! ## One document, one text -/

/-- The written members of two objects that say the same are written alike. -/
theorem canonicalizeMembers_subset {members members' : List (String × Doc ν)}
    (said_subset : ∀ entry ∈ (ordered members).map said, entry ∈ (ordered members').map said)
    (element : ∀ m ∈ members, ∀ m' ∈ members', m.2.isUndefined = false →
      m'.2.isUndefined = false → m.2.meaning.dropUndefined = m'.2.meaning.dropUndefined →
        canonicalize numbers m.2 = canonicalize numbers m'.2) :
    canonicalizeMembers numbers members ⊆ canonicalizeMembers numbers members' := by
  intro entry isIn
  rw [canonicalizeMembers_eq] at isIn
  obtain ⟨m, mem, rfl⟩ := List.mem_map.mp isIn
  have mem : m ∈ members ∧ m.2.isUndefined = false := by
    rwa [defined, List.mem_filter, Bool.not_eq_true'] at mem
  obtain ⟨m', mem', eq⟩ := List.mem_map.mp
    (said_subset (said m) (List.mem_map.mpr ⟨m, mem_ordered.mpr mem, rfl⟩))
  obtain ⟨name, same⟩ := Prod.mk.inj eq
  obtain ⟨isIn', isDefined'⟩ := mem_ordered.mp mem'
  rw [canonicalizeMembers_eq, element m mem.1 m' isIn' mem.2 isDefined' same.symm, ← name]
  refine List.mem_map.mpr ⟨m', ?_, rfl⟩
  rw [defined, List.mem_filter, Bool.not_eq_true']
  exact ⟨isIn', isDefined'⟩

theorem keys_nodup {members : List (String × Doc ν)} (distinct : Distinct members) :
    ((canonicalizeMembers numbers members).map fun entry => Text.utf16 entry.1).Nodup := by
  have names : ((canonicalizeMembers numbers members).map Prod.fst).Nodup := by
    rw [canonicalizeMembers_eq, List.map_map]
    exact distinct.sublist (List.filter_sublist.map _)
  have units := names.map fun _ _ => Text.utf16_inj
  rwa [List.map_map] at units

theorem canonicalize_object_congr {members members' : List (String × Doc ν)}
    (distinct : Distinct members) (distinct' : Distinct members')
    (same : ∀ entry, entry ∈ (ordered members).map said ↔ entry ∈ (ordered members').map said)
    (element : ∀ m ∈ members, ∀ m' ∈ members', m.2.isUndefined = false →
      m'.2.isUndefined = false → m.2.meaning.dropUndefined = m'.2.meaning.dropUndefined →
        canonicalize numbers m.2 = canonicalize numbers m'.2) :
    canonicalize numbers (.object members) = canonicalize numbers (.object members') := by
  have perm : (canonicalizeMembers numbers members).Perm
      (canonicalizeMembers numbers members') := by
    rw [List.perm_ext_iff_of_nodup (keys_nodup numbers distinct).of_map
      (keys_nodup numbers distinct').of_map]
    intro entry
    constructor
    · intro isIn
      exact canonicalizeMembers_subset numbers (fun entry => (same entry).mp) element isIn
    · intro isIn
      refine canonicalizeMembers_subset numbers (fun entry => (same entry).mpr) ?_ isIn
      intro m' isIn' m isIn isDefined' isDefined eq
      exact (element m isIn m' isIn' isDefined isDefined' eq.symm).symm
  simp only [canonicalize, Sorting.sortBy_eq_of_perm (keys_nodup numbers distinct') perm]

theorem map_eq_of_map_eq {α β γ : Type*} {f : α → β} {g : α → γ} {l l' : List α}
    (each : ∀ a ∈ l, ∀ b ∈ l', f a = f b → g a = g b) (eq : l.map f = l'.map f) :
    l.map g = l'.map g := by
  induction l generalizing l' with
  | nil => rw [List.map_eq_nil_iff.mp eq.symm]
  | cons a l ih =>
      cases l' with
      | nil => cases eq
      | cons b l' =>
          obtain ⟨first, rest⟩ := List.cons.inj eq
          rw [List.map_cons, List.map_cons,
            each a List.mem_cons_self b List.mem_cons_self first,
            ih (fun a isIn b isIn' => each a (List.mem_cons_of_mem _ isIn) b
              (List.mem_cons_of_mem _ isIn')) rest]

/-- The text depends on what the document says. -/
theorem canonicalize_congr {a b : Doc ν} (serializable : a.serializable = true)
    (serializable' : b.serializable = true)
    (same : a.meaning.dropUndefined = b.meaning.dropUndefined) :
    canonicalize numbers a = canonicalize numbers b := by
  induction a using Doc.induct generalizing b with
  | array items ih =>
      cases b with
      | array items' =>
          rw [Doc.serializable, serializableItems_iff] at serializable serializable'
          simp only [Doc.meaning, Meaning.dropUndefined, Meaning.dropInItems_eq, itemMeanings_eq,
            List.map_map, Meaning.array.injEq] at same
          have texts : items.map (canonicalize numbers) = items'.map (canonicalize numbers) :=
            map_eq_of_map_eq (fun d isIn d' isIn' =>
              ih d isIn (serializable d isIn).2 (serializable' d' isIn').2) same
          rw [canonicalize, canonicalize, canonicalizeItems_eq, canonicalizeItems_eq, texts]
      | _ => cases same
  | object members ih =>
      cases b with
      | object members' =>
          obtain ⟨distinct, serializable⟩ := serializable_object serializable
          obtain ⟨distinct', serializable'⟩ := serializable_object serializable'
          refine canonicalize_object_congr numbers distinct distinct'
            ((dropUndefined_object_iff distinct distinct').mp same) ?_
          intro m isIn m' isIn' _ _ eq
          exact ih m isIn (serializable m isIn) (serializable' m' isIn') eq
      | _ => cases same
  | _ =>
      cases b <;> cases same
      rfl

theorem canonicalize_eq_iff (a b : Document ν) :
    canonicalize numbers a.doc = canonicalize numbers b.doc ↔
      a.doc.meaning.dropUndefined = b.doc.meaning.dropUndefined := by
  constructor
  · intro eq
    have closed : Text.Closed [] := by
      intro c head
      cases head
    have chars : writeItem numbers a.doc ++ [] = writeItem numbers b.doc ++ [] := by
      rw [writeItem, writeItem, eq]
    exact (writeItem_inj numbers a.serializable b.serializable a.defined b.defined closed closed
      chars).1
  · exact canonicalize_congr numbers a.serializable b.serializable

/-- Canonical texts are equal when the documents are, without members that are `undefined`. -/
theorem canonicalText_eq_iff (a b : Document ν) :
    canonicalText numbers a.doc = canonicalText numbers b.doc ↔
      a.doc.meaning.dropUndefined = b.doc.meaning.dropUndefined := by
  rw [canonicalText, canonicalText, a.defined, b.defined, if_neg Bool.false_ne_true,
    if_neg Bool.false_ne_true, Except.ok.injEq, canonicalize_eq_iff]

end Everdict.Provenance
