import Everdict.Trace.Previews
import Mathlib.Data.List.Perm.Basic

/-!
# Texts inside a value

The texts of a value in the order of a walk, the value with each of them replaced, and values
that differ in the order of their members and items alone.
-/

namespace Everdict.Trace

mutual

/-- The texts inside a value. -/
def walkTexts : Value → List String
  | .text value => [value]
  | .array items => walkItems items
  | .object fields => walkFields fields
  | _ => []

def walkItems : List Value → List String
  | [] => []
  | item :: items => walkTexts item ++ walkItems items

def walkFields : List (String × Value) → List String
  | [] => []
  | (_, item) :: fields => walkTexts item ++ walkFields fields

end

section Replaced

variable (cut : String → String)

mutual

/-- The value with its texts replaced. -/
def mapTexts : Value → Value
  | .text value => .text (cut value)
  | .array items => .array (mapItems items)
  | .object fields => .object (mapFields fields)
  | value => value

def mapItems : List Value → List Value
  | [] => []
  | item :: items => mapTexts item :: mapItems items

def mapFields : List (String × Value) → List (String × Value)
  | [] => []
  | (key, item) :: fields => (key, mapTexts item) :: mapFields fields

end

end Replaced

mutual

/-- No member is called `__proto__`. -/
def Value.plain : Value → Bool
  | .array items => plainItems items
  | .object fields => plainFields fields
  | _ => true

def plainItems : List Value → Bool
  | [] => true
  | item :: items => item.plain && plainItems items

def plainFields : List (String × Value) → Bool
  | [] => true
  | (key, item) :: fields => key ≠ PROTO && item.plain && plainFields fields

end

/-- The same value up to the order of members and items. -/
inductive Reordered : Value → Value → Prop
  | refl (value : Value) : Reordered value value
  | trans {value value' value'' : Value} :
      Reordered value value' → Reordered value' value'' → Reordered value value''
  | items {items items' : List Value} :
      items.Perm items' → Reordered (.array items) (.array items')
  | fields {fields fields' : List (String × Value)} :
      fields.Perm fields' → Reordered (.object fields) (.object fields')
  | item {front rest : List Value} {item item' : Value} : Reordered item item' →
      Reordered (.array (front ++ item :: rest)) (.array (front ++ item' :: rest))
  | field {front rest : List (String × Value)} {key : String} {item item' : Value} :
      Reordered item item' →
      Reordered (.object (front ++ (key, item) :: rest)) (.object (front ++ (key, item') :: rest))

/-! ## Lists -/

theorem walkItems_eq (items : List Value) : walkItems items = items.flatMap walkTexts := by
  induction items with
  | nil => rfl
  | cons item items ih => rw [walkItems, ih, List.flatMap_cons]

theorem walkFields_eq (fields : List (String × Value)) :
    walkFields fields = fields.flatMap fun field => walkTexts field.2 := by
  induction fields with
  | nil => rfl
  | cons field fields ih => rw [walkFields, ih, List.flatMap_cons]

theorem mapItems_eq (cut : String → String) (items : List Value) :
    mapItems cut items = items.map (mapTexts cut) := by
  induction items with
  | nil => rfl
  | cons item items ih => rw [mapItems, ih, List.map_cons]

theorem mapFields_eq (cut : String → String) (fields : List (String × Value)) :
    mapFields cut fields = fields.map fun field => (field.1, mapTexts cut field.2) := by
  induction fields with
  | nil => rfl
  | cons field fields ih => rw [mapFields, ih, List.map_cons]

theorem plainItems_eq (items : List Value) : plainItems items = items.all Value.plain := by
  induction items with
  | nil => rfl
  | cons item items ih => rw [plainItems, ih, List.all_cons]

theorem plainFields_eq (fields : List (String × Value)) :
    plainFields fields = fields.all fun field => field.1 ≠ PROTO && field.2.plain := by
  induction fields with
  | nil => rfl
  | cons field fields ih => rw [plainFields, ih, List.all_cons]

/-! ## One part after the other -/

/-- What holds of a value if it holds of the values in it. -/
theorem Value.byParts {motive : Value → Prop}
    (atom : ∀ value, value.isContainer = false → motive value)
    (array : ∀ items, (∀ item ∈ items, motive item) → motive (.array items))
    (object : ∀ fields : List (String × Value), (∀ field ∈ fields, motive field.2) →
      motive (.object fields)) (value : Value) : motive value :=
  @Value.rec motive (fun items => ∀ item ∈ items, motive item)
    (fun fields => ∀ field ∈ fields, motive field.2) (fun field => motive field.2)
    (atom _ rfl) (fun _ => atom _ rfl) (fun _ => atom _ rfl) (fun _ => atom _ rfl)
    array object
    (fun _ isIn => by cases isIn)
    (fun _ _ first rest => List.forall_mem_cons.mpr ⟨first, rest⟩)
    (fun _ isIn => by cases isIn)
    (fun _ _ first rest => List.forall_mem_cons.mpr ⟨first, rest⟩)
    (fun _ _ item => item)
    value

/-- The texts of a value with its texts replaced. -/
theorem walkTexts_mapTexts (cut : String → String) (value : Value) :
    walkTexts (mapTexts cut value) = (walkTexts value).map cut := by
  induction value using Value.byParts with
  | atom value isAtom => cases value <;> first | rfl | cases isAtom
  | array items ih =>
      rw [mapTexts, walkTexts, walkTexts, mapItems_eq, walkItems_eq, walkItems_eq,
        List.flatMap_map, List.map_flatMap]
      exact List.flatMap_congr ih
  | object fields ih =>
      rw [mapTexts, walkTexts, walkTexts, mapFields_eq, walkFields_eq, walkFields_eq,
        List.flatMap_map, List.map_flatMap]
      exact List.flatMap_congr ih

theorem plain_mapTexts (cut : String → String) (value : Value) :
    (mapTexts cut value).plain = value.plain := by
  induction value using Value.byParts with
  | atom value isAtom => cases value <;> first | rfl | cases isAtom
  | array items ih =>
      rw [mapTexts, Value.plain, Value.plain, mapItems_eq, plainItems_eq, plainItems_eq,
        List.all_map, Bool.eq_iff_iff, List.all_eq_true, List.all_eq_true]
      exact forall₂_congr fun item isIn => by rw [Function.comp_apply, ih item isIn]
  | object fields ih =>
      rw [mapTexts, Value.plain, Value.plain, mapFields_eq, plainFields_eq, plainFields_eq,
        List.all_map, Bool.eq_iff_iff, List.all_eq_true, List.all_eq_true]
      exact forall₂_congr fun field isIn => by rw [Function.comp_apply, ih field isIn]

/-- A value whose texts are all replaced by themselves is unchanged. -/
theorem mapTexts_eq_self {cut : String → String} {value : Value}
    (same : ∀ text ∈ walkTexts value, cut text = text) : mapTexts cut value = value := by
  induction value using Value.byParts with
  | atom value isAtom =>
      cases value with
      | text value => rw [mapTexts, same value (List.mem_singleton_self value)]
      | array => cases isAtom
      | object => cases isAtom
      | _ => rfl
  | array items ih =>
      rw [walkTexts, walkItems_eq] at same
      have each : ∀ item ∈ items, mapTexts cut item = id item := fun item isIn =>
        ih item isIn fun text inItem => same text (List.mem_flatMap_of_mem isIn inItem)
      rw [mapTexts, mapItems_eq, List.map_congr_left each, List.map_id]
  | object fields ih =>
      rw [walkTexts, walkFields_eq] at same
      have each : ∀ field ∈ fields, (field.1, mapTexts cut field.2) = id field := by
        intro field isIn
        rw [ih field isIn fun text inItem => same text (List.mem_flatMap_of_mem isIn inItem)]
        rfl
      rw [mapTexts, mapFields_eq, List.map_congr_left each, List.map_id]

/-! ## Other orders -/

theorem Reordered.walkTexts {value value' : Value} (same : Reordered value value') :
    (walkTexts value).Perm (walkTexts value') := by
  induction same with
  | refl value => exact List.Perm.refl _
  | trans _ _ first second => exact first.trans second
  | items perm =>
      rw [Trace.walkTexts, Trace.walkTexts, walkItems_eq, walkItems_eq]
      exact perm.flatMap_right _
  | fields perm =>
      rw [Trace.walkTexts, Trace.walkTexts, walkFields_eq, walkFields_eq]
      exact perm.flatMap_right _
  | item _ ih =>
      simp only [Trace.walkTexts, walkItems_eq, List.flatMap_append, List.flatMap_cons]
      exact (ih.append_right _).append_left _
  | field _ ih =>
      simp only [Trace.walkTexts, walkFields_eq, List.flatMap_append, List.flatMap_cons]
      exact (ih.append_right _).append_left _

theorem Reordered.mapTexts {value value' : Value} (same : Reordered value value')
    (cut : String → String) : Reordered (mapTexts cut value) (mapTexts cut value') := by
  induction same with
  | refl value => exact Reordered.refl _
  | trans _ _ first second => exact first.trans second
  | items perm =>
      rw [Trace.mapTexts, Trace.mapTexts, mapItems_eq, mapItems_eq]
      exact Reordered.items (perm.map _)
  | fields perm =>
      rw [Trace.mapTexts, Trace.mapTexts, mapFields_eq, mapFields_eq]
      exact Reordered.fields (perm.map _)
  | item _ ih =>
      simp only [Trace.mapTexts, mapItems_eq, List.map_append, List.map_cons]
      exact Reordered.item ih
  | field _ ih =>
      simp only [Trace.mapTexts, mapFields_eq, List.map_append, List.map_cons]
      exact Reordered.field ih

theorem Reordered.plain {value value' : Value} (same : Reordered value value') :
    value.plain = value'.plain := by
  induction same with
  | refl value => rfl
  | trans _ _ first second => exact first.trans second
  | items perm =>
      rw [Value.plain, Value.plain, plainItems_eq, plainItems_eq]
      exact perm.all_eq
  | fields perm =>
      rw [Value.plain, Value.plain, plainFields_eq, plainFields_eq]
      exact perm.all_eq
  | item _ ih =>
      simp only [Value.plain, plainItems_eq, List.all_append, List.all_cons, ih]
  | field _ ih =>
      simp only [Value.plain, plainFields_eq, List.all_append, List.all_cons, ih]

end Everdict.Trace
