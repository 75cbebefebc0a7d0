import Everdict.Trace.Bags
import Everdict.Trace.Previews
import Everdict.Trace.Usage

/-!
# What the meter reads of a preview

Usage and facts are read off a few members of a bag.  The preview of a bag has a member as the
bag has it where the member is among those that a capped container keeps and, if it is a text,
within its share (`lookup_moved`).  Where that is so of all that the meter reads, the preview is
`ReadWhole`, and the meter reads the same off it (`sameMeter_moved`).
-/

namespace Everdict.Trace

open Submission (JsNumber)

/-! ## What is read -/

/-- The members whose text or number is read. -/
def VALUE_KEYS : List String :=
  [EVERDICT_ATTR.plane, GEN_AI.operationName] ++ DEFAULT_SPAN_ATTR_KEYS.inputTokens
    ++ DEFAULT_SPAN_ATTR_KEYS.outputTokens ++ DEFAULT_SPAN_ATTR_KEYS.costUsd

/-- The members of members that are read. -/
def MEMBER_PATHS : List (String × String) :=
  [("mlflow.chat.tokenUsage", "input_tokens"), ("mlflow.chat.tokenUsage", "output_tokens"),
    ("mlflow.llm.cost", "total_cost")]

/-- All that is looked up; of a model only that a text names it. -/
def READ_KEYS : List String :=
  VALUE_KEYS ++ DEFAULT_SPAN_ATTR_KEYS.model ++ MEMBER_PATHS.map Prod.fst

/-- The bytes that a text of the bag may have. -/
def textShare (bag : Attrs) : Nat := fairShare (collectLeafSizes (.object bag)) EVENT_INLINE_MAX

/-- How many members a container of the bag keeps; `none` where it keeps all. -/
def containerCap (runtime : Runtime) (bag : Attrs) : Option Nat :=
  let strings := (previewOf (.object bag) EVENT_INLINE_MAX).preview
  if serializedBytes runtime strings ≤ STRUCTURE_INLINE_MAX then none
  else some ((CONTAINER_CAPS.find? fun keep =>
    serializedBytes runtime (capContainers keep strings) ≤ STRUCTURE_INLINE_MAX).getD 0)

/-- The members that a container keeps. -/
def keptOf (cap : Option Nat) (fields : Attrs) : Attrs :=
  let members := fields.filter fun field => field.1 ≠ PROTO
  match cap with
  | none => members
  | some keep => members.take keep

/-- Nothing that is read of the bag is left out of its preview or cut in it. -/
structure ReadWhole (runtime : Runtime) (bag : Attrs) : Prop where
  keys : ∀ key ∈ READ_KEYS, (keptOf (containerCap runtime bag) bag).lookup key = bag.lookup key
  texts : ∀ key ∈ VALUE_KEYS, ∀ text, bag.lookup key = some (.text text) →
    text.utf8ByteSize ≤ textShare bag
  members : ∀ path ∈ MEMBER_PATHS, ∀ fields, bag.lookup path.1 = some (.object fields) →
    (keptOf (containerCap runtime bag) fields).lookup path.2 = fields.lookup path.2
  memberTexts : ∀ path ∈ MEMBER_PATHS, ∀ fields text, bag.lookup path.1 = some (.object fields) →
    fields.lookup path.2 = some (.text text) → text.utf8ByteSize ≤ textShare bag

/-! ## Members of a preview -/

section Seen

variable {cap : Option Nat} {share : Nat}

/-- A value inside a preview. -/
def seen (cap : Option Nat) (share : Nat) (value : Value) : Value :=
  match cap with
  | none => (applyPreview share value).preview
  | some keep => capContainers keep (applyPreview share value).preview

theorem applyFields_eq (share : Nat) (fields : Attrs) :
    (applyFields share fields).1 = (fields.filter fun field => field.1 ≠ PROTO).map
      fun field => (field.1, (applyPreview share field.2).preview) := by
  induction fields with
  | nil => rfl
  | cons field fields ih =>
    obtain ⟨name, item⟩ := field
    rw [applyFields, ih, assigned]
    by_cases proto : name = PROTO <;> simp [proto]

theorem capFields_eq {fields : Attrs} (plain : ∀ field ∈ fields, field.1 ≠ PROTO)
    (keep count : Nat) :
    capFields keep count fields =
      (fields.take count).map fun field => (field.1, capContainers keep field.2) := by
  induction fields generalizing count with
  | nil => rcases count <;> rfl
  | cons field fields ih =>
    rw [List.forall_mem_cons] at plain
    rcases count with _ | count
    · rfl
    · rw [capFields, ih plain.2, assigned, if_neg plain.1, List.take_succ_cons, List.map_cons]
      rfl

theorem lookup_elided {name : String} (named : name ≠ ELIDED) (count : Nat) :
    (elided count).lookup name = none := by
  rw [elided, lookup_cons_eq, if_neg named]
  rfl

theorem lookup_capContainers {keep : Nat} {fields : Attrs} {name : String}
    (plain : ∀ field ∈ fields, field.1 ≠ PROTO) (named : name ≠ ELIDED) :
    (capContainers keep (.object fields)).field? name =
      ((fields.take keep).lookup name).map (capContainers keep) := by
  rw [← lookup_overridden (fields.take keep) (fun _ item => capContainers keep item),
    ← capFields_eq plain keep keep, capContainers, Value.field?]
  split
  · rw [lookup_spread, lookup_elided named]
    rfl
  · rfl

theorem field_seen {fields : Attrs} {name : String} (named : name ≠ ELIDED) :
    (seen cap share (.object fields)).field? name =
      ((keptOf cap fields).lookup name).map (seen cap share) := by
  have strings : (applyPreview share (.object fields)).preview = .object
      ((fields.filter fun field => field.1 ≠ PROTO).map
        fun field => (field.1, (applyPreview share field.2).preview)) := by
    rw [applyPreview, applyFields_eq]
  rcases cap with _ | keep
  · rw [seen, strings, Value.field?]
    exact lookup_overridden _ (fun _ item => (applyPreview share item).preview) name
  · have plain : ∀ field ∈ (fields.filter fun field => field.1 ≠ PROTO).map
        (fun field => (field.1, (applyPreview share field.2).preview)), field.1 ≠ PROTO := by
      intro field isIn
      obtain ⟨own, there, rfl⟩ := List.mem_map.mp isIn
      exact of_decide_eq_true (List.mem_filter.mp there).2
    rw [seen, strings, lookup_capContainers plain named, ← List.map_take,
      lookup_overridden _ (fun _ item => (applyPreview share item).preview), Option.map_map]
    rfl

/-- If the value is a text, it is within the share. -/
def Fits (share : Nat) (value : Value) : Prop :=
  ∀ text, value = .text text → text.utf8ByteSize ≤ share

/-- A value is seen as it is, unless its container is. -/
theorem seen_cases (cap : Option Nat) {value : Value} (fits : Fits share value) :
    seen cap share value = value ∨
      value.isContainer = true ∧ (seen cap share value).isContainer = true := by
  rcases value with _ | _ | _ | text | items | fields
  · exact .inl (by rcases cap <;> rfl)
  · exact .inl (by rcases cap <;> rfl)
  · exact .inl (by rcases cap <;> rfl)
  · have whole : (applyPreview share (.text text)).preview = .text text := by
      rw [applyPreview, if_pos (fits text rfl)]
    refine .inl ?_
    rcases cap with _ | keep
    · exact whole
    · simp [seen, whole, capContainers]
  · refine .inr ⟨rfl, ?_⟩
    rcases cap <;> simp [seen, applyPreview, capContainers, Value.isContainer]
  · refine .inr ⟨rfl, ?_⟩
    rcases cap <;> simp [seen, applyPreview, capContainers, Value.isContainer]

theorem text?_seen {value : Value} (fits : Fits share value) :
    (seen cap share value).text? = value.text? := by
  have none' : ∀ value : Value, value.isContainer = true → value.text? = none := by
    rintro (_ | _ | _ | _ | _ | _) container <;> first | rfl | cases container
  rcases seen_cases cap fits with same | ⟨container, container'⟩
  · rw [same]
  · rw [none' _ container, none' _ container']

theorem num_seen (runtime : Runtime) {value : Value} (fits : Fits share value) :
    num runtime (seen cap share value) = num runtime value := by
  have none' : ∀ value : Value, value.isContainer = true → num runtime value = none := by
    rintro (_ | _ | _ | _ | _ | _) container <;> first | rfl | cases container
  rcases seen_cases cap fits with same | ⟨container, container'⟩
  · rw [same]
  · rw [none' _ container, none' _ container']

/-- A text stays a text, however short. -/
theorem isText_seen (value : Value) :
    ((seen cap share value).text?.map fun _ => ()) = value.text?.map fun _ => () := by
  by_cases isText : ∃ text, value = .text text
  · obtain ⟨text, rfl⟩ := isText
    rcases cap <;> by_cases fits : text.utf8ByteSize ≤ share <;>
      simp [seen, applyPreview, capContainers, Value.text?, fits]
  · rw [text?_seen fun text same => absurd ⟨text, same⟩ isText]

theorem not_object_of_seen {value : Value} (other : ∀ fields, value ≠ .object fields)
    (name : String) : (seen cap share value).field? name = none := by
  rcases value with _ | _ | _ | text | items | fields
  · rcases cap <;> rfl
  · rcases cap <;> rfl
  · rcases cap <;> rfl
  · rcases cap <;> by_cases fits : text.utf8ByteSize ≤ share <;>
      simp [seen, applyPreview, capContainers, Value.field?, fits]
  · rcases cap <;> simp [seen, applyPreview, capContainers, Value.field?]
  · exact absurd rfl (other fields)

end Seen

/-! ## The preview of a bag -/

section Moved

variable {runtime : Runtime} {bag : Attrs} {preview : Value}

/-- The preview of a bag is a bag. -/
def recordOf : Value → Attrs
  | .object fields => fields
  | _ => []

theorem boundStructure_cases (value : Value) (maxBytes : Nat) :
    (serializedBytes runtime value ≤ maxBytes ∧
        (boundStructure runtime value maxBytes).preview = value) ∨
      ¬ serializedBytes runtime value ≤ maxBytes ∧ (value.isContainer = true →
        (∃ keep, (CONTAINER_CAPS.find? fun keep =>
            serializedBytes runtime (capContainers keep value) ≤ maxBytes) = some keep ∧
          (boundStructure runtime value maxBytes).preview = capContainers keep value) ∨
        ((CONTAINER_CAPS.find? fun keep =>
            serializedBytes runtime (capContainers keep value) ≤ maxBytes) = none ∧
          (boundStructure runtime value maxBytes).preview = .object (elided 1))) := by
  unfold boundStructure
  by_cases fits : serializedBytes runtime value ≤ maxBytes
  · exact .inl ⟨fits, by simp [fits]⟩
  · refine .inr ⟨fits, fun container => ?_⟩
    rw [if_neg (by simp [fits, container]), List.find?_map]
    rcases found : CONTAINER_CAPS.find? ((fun capped =>
        decide (serializedBytes runtime capped ≤ maxBytes)) ∘ fun keep =>
          capContainers keep value) with _ | keep
    · exact .inr ⟨found, rfl⟩
    · exact .inl ⟨keep, found, rfl⟩

/-- The preview of a bag holds what is seen of the members that are kept. -/
theorem lookup_moved (moved : previewToMove runtime (.object bag) = some preview) {name : String}
    (named : name ≠ ELIDED) :
    (recordOf preview).lookup name = ((keptOf (containerCap runtime bag) bag).lookup name).map
      (seen (containerCap runtime bag) (textShare bag)) := by
  let strings := (previewOf (.object bag) EVENT_INLINE_MAX).preview
  have bounded : preview = (boundStructure runtime strings STRUCTURE_INLINE_MAX).preview := by
    simp only [previewToMove] at moved
    split at moved
    · cases moved
    · exact (Option.some.inj moved).symm
  obtain ⟨fields, object⟩ : ∃ fields, strings = .object fields := by
    refine ⟨(applyFields (textShare bag) bag).1, ?_⟩
    simp only [strings, previewOf, applyPreview]
    rfl
  have container : strings.isContainer = true := by
    rw [object]
    rfl
  have read : ∀ {value : Value}, (∃ fields, value = .object fields) →
      (recordOf value).lookup name = value.field? name := by
    rintro _ ⟨fields, rfl⟩
    rfl
  have bagSeen : ∀ cap, seen cap (textShare bag) (.object bag) =
      match cap with
      | none => strings
      | some keep => capContainers keep strings := fun cap => rfl
  rw [bounded, ← field_seen named]
  rcases @boundStructure_cases runtime strings STRUCTURE_INLINE_MAX with
    ⟨fits, whole⟩ | ⟨large, capped⟩
  · have cap : containerCap runtime bag = none := if_pos fits
    rw [whole, cap, bagSeen, read ⟨fields, object⟩]
  · rcases capped container with ⟨keep, found, capped⟩ | ⟨lost, gone⟩
    · have cap : containerCap runtime bag = some keep := by
        rw [containerCap, if_neg large, found]
        rfl
      rw [capped, cap, bagSeen]
      refine read ?_
      rw [object, capContainers]
      exact ⟨_, rfl⟩
    · have cap : containerCap runtime bag = some 0 := by
        rw [containerCap, if_neg large, lost]
        rfl
      rw [gone, cap, field_seen named]
      exact lookup_elided named 1

end Moved

/-! ## The meter -/

section Meter

variable (runtime : Runtime) (refOf : Value → String)

/-- The span whose bag was moved. -/
def movedSpan (span : TraceSpan) (preview : Value) : TraceSpan :=
  { span with
    attributes := recordOf preview
    attributesRef := some (refOf (.object span.attributes)) }

/-- What usage and facts need of a span. -/
def SameMeter (span other : TraceSpan) : Prop :=
  carriesTokens runtime other = carriesTokens runtime span ∧
    ∀ perCallTokens, spanCost runtime DEFAULT_SPAN_ATTR_KEYS perCallTokens other =
      spanCost runtime DEFAULT_SPAN_ATTR_KEYS perCallTokens span

variable {runtime refOf} {span : TraceSpan} {preview : Value}

theorem named_of_read {key : String} (isKey : key ∈ READ_KEYS) : key ≠ ELIDED := by
  rintro rfl
  exact absurd isKey (by decide +kernel)

theorem read_of_value {key : String} (isKey : key ∈ VALUE_KEYS) : key ∈ READ_KEYS :=
  List.mem_append_left _ (List.mem_append_left _ isKey)

section Readers

variable (refOf) (moved : previewToMove runtime (.object span.attributes) = some preview)
  (whole : ReadWhole runtime span.attributes)
include moved whole

/-- A reader that does not see the difference reads the preview as the bag. -/
theorem lookup_readable_moved {β : Type*} {read : Value → Option β} {key : String}
    (isKey : key ∈ READ_KEYS)
    (same : ∀ value, span.attributes.lookup key = some value →
      read (seen (containerCap runtime span.attributes) (textShare span.attributes) value) =
        read value) :
    ((readable (movedSpan refOf span preview)).lookup key).bind read =
      ((readable span).lookup key).bind read := by
  have inPreview := lookup_moved moved (named_of_read isKey)
  rw [whole.keys key isKey] at inPreview
  simp only [readable, movedSpan, List.lookup_append, inPreview]
  rcases found : span.attributes.lookup key with _ | value
  · rfl
  · exact same value found

theorem str_moved {key : String} (isKey : key ∈ VALUE_KEYS) :
    Attrs.str (readable (movedSpan refOf span preview)) key = Attrs.str (readable span) key :=
  lookup_readable_moved refOf moved whole (read_of_value isKey) fun _ found =>
    text?_seen fun text isText => whole.texts key isKey text (isText ▸ found)

theorem pickNum_moved {keys : List String} (areKeys : ∀ key ∈ keys, key ∈ VALUE_KEYS) :
    pickNum runtime (readable (movedSpan refOf span preview)) keys =
      pickNum runtime (readable span) keys := by
  unfold pickNum
  induction keys with
  | nil => rfl
  | cons key keys ih =>
    rw [List.forall_mem_cons] at areKeys
    have first : ((readable (movedSpan refOf span preview)).lookup key).bind (num runtime) =
        ((readable span).lookup key).bind (num runtime) :=
      lookup_readable_moved refOf moved whole (read_of_value areKeys.1) fun _ found =>
        num_seen runtime fun text isText => whole.texts key areKeys.1 text (isText ▸ found)
    rw [List.findSome?_cons, List.findSome?_cons, first, ih areKeys.2]

/-- A model that is named in the bag is named in the preview. -/
theorem isSome_model_moved :
    (pickStr (readable (movedSpan refOf span preview)) DEFAULT_SPAN_ATTR_KEYS.model).isSome =
      (pickStr (readable span) DEFAULT_SPAN_ATTR_KEYS.model).isSome := by
  have presence : ∀ (a : Attrs) (key : String), (Attrs.str a key).isSome =
      ((a.lookup key).bind fun value => value.text?.map fun _ => ()).isSome := by
    intro a key
    unfold Attrs.str
    rcases a.lookup key <;> simp
  unfold pickStr
  rw [List.isSome_findSome?, List.isSome_findSome?, Bool.eq_iff_iff, List.any_eq_true,
    List.any_eq_true]
  refine exists_congr fun key => and_congr_right fun isKey => ?_
  have isRead : key ∈ READ_KEYS :=
    List.mem_append_left _ (List.mem_append_right VALUE_KEYS isKey)
  rw [presence, presence,
    lookup_readable_moved refOf moved whole isRead fun value _ => isText_seen value]

theorem nested_moved {key field : String} (isPath : (key, field) ∈ MEMBER_PATHS) :
    (nested (readable (movedSpan refOf span preview)) key field).bind (num runtime) =
      (nested (readable span) key field).bind (num runtime) := by
  have isRead : key ∈ READ_KEYS :=
    List.mem_append_right _ (List.mem_map_of_mem (f := Prod.fst) isPath)
  have named : field ≠ ELIDED := by
    rintro rfl
    have apart : ∀ path ∈ MEMBER_PATHS, path.2 ≠ ELIDED := by decide +kernel
    exact apart _ isPath rfl
  unfold nested
  rw [Option.bind_assoc, Option.bind_assoc]
  refine lookup_readable_moved refOf moved whole isRead fun value found => ?_
  by_cases isObject : ∃ fields, value = .object fields
  · obtain ⟨fields, rfl⟩ := isObject
    rw [field_seen named, whole.members _ isPath fields found, Value.field?]
    rcases inside : fields.lookup field with _ | item
    · rfl
    · exact num_seen runtime fun text isText =>
        whole.memberTexts _ isPath fields text found (isText ▸ inside)
  · have other : ∀ fields, value ≠ .object fields := fun fields same => isObject ⟨fields, same⟩
    rw [not_object_of_seen other]
    rcases value with _ | _ | _ | _ | _ | fields
    · rfl
    · rfl
    · rfl
    · rfl
    · rfl
    · exact absurd rfl (other fields)

/-- A bag that is read whole in its preview is metered alike. -/
theorem sameMeter_moved : SameMeter runtime span (movedSpan refOf span preview) := by
  have operation := str_moved refOf moved whole
    (show GEN_AI.operationName ∈ VALUE_KEYS by decide +kernel)
  have plane := str_moved refOf moved whole (show EVERDICT_ATTR.plane ∈ VALUE_KEYS by decide +kernel)
  have model := isSome_model_moved refOf moved whole
  have input := pickNum_moved refOf moved whole
    (show ∀ key ∈ DEFAULT_SPAN_ATTR_KEYS.inputTokens, key ∈ VALUE_KEYS by decide +kernel)
  have output := pickNum_moved refOf moved whole
    (show ∀ key ∈ DEFAULT_SPAN_ATTR_KEYS.outputTokens, key ∈ VALUE_KEYS by decide +kernel)
  have dollars := pickNum_moved refOf moved whole
    (show ∀ key ∈ DEFAULT_SPAN_ATTR_KEYS.costUsd, key ∈ VALUE_KEYS by decide +kernel)
  have inputMember := nested_moved refOf moved whole
    (show ("mlflow.chat.tokenUsage", "input_tokens") ∈ MEMBER_PATHS by decide +kernel)
  have outputMember := nested_moved refOf moved whole
    (show ("mlflow.chat.tokenUsage", "output_tokens") ∈ MEMBER_PATHS by decide +kernel)
  have costMember := nested_moved refOf moved whole
    (show ("mlflow.llm.cost", "total_cost") ∈ MEMBER_PATHS by decide +kernel)
  refine ⟨?_, fun perCallTokens => ?_⟩
  · simp only [carriesTokens, operation, input, output]
  · simp only [spanCost_eq, bagCost, inTok, outTok, usd, operation, plane, model, input, output,
      dollars, inputMember, outputMember, costMember]
    rfl

end Readers

end Meter

end Everdict.Trace
