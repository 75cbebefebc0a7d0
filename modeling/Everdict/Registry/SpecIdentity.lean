import Everdict.Provenance.ContentDigest

/-!
# The identity of a registered version

A version may be registered again when its spec has not changed.  `specsEqual` compares
specs by a text of their own, in which a member that is `undefined` is written as `null`;
the canonical text of a digest leaves it out.  The two agree on a pair of specs as long as
a difference between them never lies in `undefined` members alone.
-/

namespace Everdict.Registry

open Documents
open Provenance (canonicalize canonicalText canonicalizeItems_eq canonicalizeMembers_eq)
open Sorting (sortBy)

variable {ν : Type} (numbers : NumberText ν)

mutual

def stableStringify : Doc ν → String
  | .undefined => "null"
  | .null => "null"
  | .bool value => if value then "true" else "false"
  | .number value => numbers.text value
  | .text value => Text.json value
  | .array items => "[" ++ ",".intercalate (stableItems items) ++ "]"
  | .object members =>
      let entries := sortBy (fun entry => Text.utf16 entry.1) (stableMembers members)
      "\x7b" ++ ",".intercalate (entries.map fun entry => Text.json entry.1 ++ ":" ++ entry.2)
        ++ "\x7d"

def stableItems : List (Doc ν) → List String
  | [] => []
  | item :: rest => stableStringify item :: stableItems rest

def stableMembers : List (String × Doc ν) → List (String × String)
  | [] => []
  | (key, value) :: rest => (key, stableStringify value) :: stableMembers rest

end

def specsEqual (a b : Doc ν) : Bool := stableStringify numbers a = stableStringify numbers b

theorem stableItems_eq (items : List (Doc ν)) :
    stableItems numbers items = items.map (stableStringify numbers) := by
  induction items with
  | nil => rfl
  | cons d ds ih => rw [stableItems, ih, List.map_cons]

theorem stableMembers_eq (members : List (String × Doc ν)) :
    stableMembers numbers members = members.map fun m => (m.1, stableStringify numbers m.2) := by
  induction members with
  | nil => rfl
  | cons m rest ih => rw [stableMembers, ih, List.map_cons]

/-- With `null` for `undefined` no member is left out. -/
theorem canonicalizeMembers_nullify (members : List (String × Doc ν)) :
    Provenance.canonicalizeMembers numbers (nullifyMembers members) =
      members.map fun m => (m.1, canonicalize numbers m.2.nullify) := by
  have all : Provenance.defined (nullifyMembers members) = nullifyMembers members := by
    rw [Provenance.defined, List.filter_eq_self, nullifyMembers_eq]
    intro _ isIn
    obtain ⟨m, -, rfl⟩ := List.mem_map.mp isIn
    rw [isUndefined_nullify]
    rfl
  rw [canonicalizeMembers_eq, all, nullifyMembers_eq, List.map_map]
  rfl

/-- The registry's text is the canonical one of the document with `null` for `undefined`. -/
theorem stableStringify_eq (d : Doc ν) :
    stableStringify numbers d = canonicalize numbers d.nullify := by
  induction d using Doc.induct with
  | array items ih =>
      have texts : items.map (stableStringify numbers) =
          (items.map Doc.nullify).map (canonicalize numbers) := by
        rw [List.map_map]
        exact List.map_congr_left ih
      rw [stableStringify, Doc.nullify, canonicalize, stableItems_eq, canonicalizeItems_eq,
        nullifyItems_eq, texts]
  | object members ih =>
      have texts : members.map (fun m => (m.1, stableStringify numbers m.2)) =
          members.map fun m => (m.1, canonicalize numbers m.2.nullify) :=
        List.map_congr_left fun m isIn => by rw [ih m isIn]
      rw [stableStringify, Doc.nullify, canonicalize, stableMembers_eq,
        canonicalizeMembers_nullify, texts]
  | _ => rfl

theorem specsEqual_iff (a b : Document ν) :
    specsEqual numbers a.doc b.doc = true ↔ a.doc.meaning.nullify = b.doc.meaning.nullify := by
  have texts := Provenance.canonicalize_eq_iff numbers a.nullify b.nullify
  rw [specsEqual, decide_eq_true_eq, stableStringify_eq, stableStringify_eq]
  rw [Document.nullify, Document.nullify, nullify_meaning, nullify_meaning,
    dropUndefined_nullify, dropUndefined_nullify] at texts
  exact texts

/-- Specs that agree in one reading of their `undefined` members have the same ones. -/
def UndefinedAlike (a b : Document ν) : Prop :=
  a.doc.meaning.dropUndefined = b.doc.meaning.dropUndefined ∨
      a.doc.meaning.nullify = b.doc.meaning.nullify →
    a.doc.meaning = b.doc.meaning

theorem readings_agree_iff (a b : Document ν) :
    (a.doc.meaning.nullify = b.doc.meaning.nullify ↔
      a.doc.meaning.dropUndefined = b.doc.meaning.dropUndefined) ↔ UndefinedAlike a b := by
  constructor
  · rintro agree (dropped | nullified)
    · exact eq_of_readings dropped (agree.mpr dropped)
    · exact eq_of_readings (agree.mp nullified) nullified
  · intro alike
    constructor
    · intro nullified
      rw [alike (.inr nullified)]
    · intro dropped
      rw [alike (.inl dropped)]

/-- The canonical text is the identity of a document, and the registry's identity is the
same one exactly when the specs' `undefined` members do not make the difference. -/
theorem one_identity_iff (a b : Document ν) :
    ((canonicalText numbers a.doc = canonicalText numbers b.doc ↔
        a.doc.meaning.dropUndefined = b.doc.meaning.dropUndefined) ∧
      (specsEqual numbers a.doc b.doc = true ↔
        canonicalText numbers a.doc = canonicalText numbers b.doc)) ↔ UndefinedAlike a b := by
  rw [specsEqual_iff, Provenance.canonicalText_eq_iff, ← readings_agree_iff]
  exact and_iff_right Iff.rfl

/-- A spec whose description is `undefined`. -/
def undescribed : Document Decimal.Number where
  doc := .object [("description", .undefined)]
  defined := rfl
  serializable := by decide

def empty : Document Decimal.Number where
  doc := .object []
  defined := rfl
  serializable := by decide

/-- A member that is `undefined` makes one spec of two. -/
theorem undefined_member_counts :
    ¬ ∀ a b : Document Decimal.Number,
      (canonicalText shortest a.doc = canonicalText shortest b.doc ↔
          a.doc.meaning.dropUndefined = b.doc.meaning.dropUndefined) ∧
        (specsEqual shortest a.doc b.doc = true ↔
          canonicalText shortest a.doc = canonicalText shortest b.doc) := by
  intro claimed
  have text : canonicalText shortest undescribed.doc = canonicalText shortest empty.doc := by
    decide +kernel
  have differ : specsEqual shortest undescribed.doc empty.doc = false := by decide +kernel
  have equal := (claimed undescribed empty).2.mpr text
  rw [differ] at equal
  cases equal

end Everdict.Registry
