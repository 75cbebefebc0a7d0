import Everdict.Trace.MeteredBags
import Everdict.Trace.Paging

/-!
# What is recorded of a plane of previews

A plane is sealed with its usage and the facts of its batch.  Behind the offloading store the
bags that are too large arrive as previews, so both are read off those.  They are what the
bags themselves give where every bag that is moved is `ReadWhole`: what the meter reads of it
is neither left out of the preview nor cut in it.
-/

namespace Everdict.Trace

open Submission (JsNumber)
open Sorting (sortBy sortBy_map mem_sortBy)

section Offload

variable (runtime : Runtime) (refOf : Value → String)

/-- A span as it is handed on; `stored` says whether the put of its bag succeeds. -/
def offloadSpan (stored : Bool) (span : TraceSpan) : TraceSpan :=
  match previewToMove runtime (.object span.attributes) with
  | some preview => if stored then movedSpan refOf span preview else span
  | none => span

def offloadSpans (stored : Nat → Bool) (spans : List TraceSpan) : List TraceSpan :=
  spans.zipIdx.map fun entry => offloadSpan runtime refOf (stored entry.2) entry.1

structure SealedBody where
  spans : List TraceSpan
  usage : RunUsageSummary
  batch : SpanBatchFacts

def sealBody (spans : List TraceSpan) : SealedBody where
  spans := sortSpansForProjection spans
  usage := usageFromTrace runtime (spansToEvents runtime spans {})
  batch := spanBatchFacts runtime (sortSpansForProjection spans)

/-- What is read of the span's bag is whole in its preview, if it is moved. -/
def MeteredWhole (span : TraceSpan) : Prop :=
  (previewToMove runtime (.object span.attributes)).isSome = true → ReadWhole runtime span.attributes

variable {runtime refOf} {stored : Bool} {span : TraceSpan}

theorem startedAt_offloadSpan :
    (offloadSpan runtime refOf stored span).startedAt = span.startedAt := by
  unfold offloadSpan
  split
  · split <;> rfl
  · rfl

theorem sameMeter_offloadSpan (whole : stored = true → MeteredWhole runtime span) :
    SameMeter runtime span (offloadSpan runtime refOf stored span) := by
  unfold offloadSpan
  split
  · next preview moved =>
      split
      · next isStored =>
          exact sameMeter_moved refOf moved (whole isStored (Option.isSome_of_mem moved))
      · exact ⟨rfl, fun _ => rfl⟩
  · exact ⟨rfl, fun _ => rfl⟩

end Offload

section Recorded

variable {runtime : Runtime} {α : Type*} {f g : α → TraceSpan}

/-- Two planes of spans that begin together and are metered alike. -/
theorem sealBody_congr (l : List α) (starts : ∀ a, (g a).startedAt = (f a).startedAt)
    (meters : ∀ a ∈ l, SameMeter runtime (f a) (g a)) :
    (sealBody runtime (l.map g)).usage = (sealBody runtime (l.map f)).usage ∧
      (sealBody runtime (l.map g)).batch = (sealBody runtime (l.map f)).batch := by
  have tokens : (l.map g).any (carriesTokens runtime) = (l.map f).any (carriesTokens runtime) := by
    rw [List.any_map, List.any_map, Bool.eq_iff_iff, List.any_eq_true, List.any_eq_true]
    refine exists_congr fun a => and_congr_right fun isIn => ?_
    rw [Function.comp_apply, Function.comp_apply, (meters a isIn).1]
  have sorted : ∀ h : α → TraceSpan, (∀ a, (h a).startedAt = (f a).startedAt) →
      sortSpansForProjection (l.map h) =
        (sortBy (fun a => (f a).startedAt.ms.getD 0) l).map h :=
    fun h same => sortBy_map _ _ h (fun a => by rw [same a]) l
  have costs : ∀ perCallTokens, (sortSpansForProjection (l.map g)).filterMap
      (spanCost runtime DEFAULT_SPAN_ATTR_KEYS perCallTokens) =
        (sortSpansForProjection (l.map f)).filterMap
          (spanCost runtime DEFAULT_SPAN_ATTR_KEYS perCallTokens) := by
    intro perCallTokens
    rw [sorted g starts, sorted f fun _ => rfl, List.filterMap_map, List.filterMap_map]
    exact List.filterMap_congr fun a isIn => (meters a (mem_sortBy.mp isIn)).2 perCallTokens
  have base : (sortSpansForProjection (l.map g)).head?.bind (·.startedAt.ms) =
      (sortSpansForProjection (l.map f)).head?.bind (·.startedAt.ms) := by
    rw [sorted g starts, sorted f fun _ => rfl, List.head?_map, List.head?_map]
    rcases (sortBy (fun a => (f a).startedAt.ms.getD 0) l).head? with _ | a
    · rfl
    · exact congrArg Stamp.ms (starts a)
  constructor
  · simp only [sealBody, usageFromTrace_spansToEvents, tokens, costs]
  · have facts : spanBatchFacts runtime (l.map g) = spanBatchFacts runtime (l.map f) := by
      refine congrArg₂ SpanBatchFacts.mk (congrArg (·.getD 0) base) ?_
      exact (perCallTokens_eq _).trans (tokens.trans (perCallTokens_eq _).symm)
    simpa only [sealBody, spanBatchFacts_sorted] using facts

end Recorded

section Tagged

variable {runtime : Runtime}

def tags (count : Nat) (tag : String) : Value := .array (List.replicate count (.text tag))

def taggedBag (count : Nat) (operation tag : String) : Attrs :=
  [(GEN_AI.operationName, .text operation), ("tags", tags count tag)]

def taggedSpan : TraceSpan where
  traceId := "trace"
  spanId := "tagged"
  name := "chat"
  startedAt := stampOf 0
  endedAt := stampOf 0
  attributes := taggedBag 9000 GEN_AI_OPERATION.chat "aaaaa"

theorem collectItemSizes_replicate (count : Nat) (tag : String) :
    collectItemSizes (List.replicate count (.text tag)) =
      List.replicate count tag.utf8ByteSize := by
  induction count with
  | zero => rfl
  | succ count ih => rw [List.replicate_succ, collectItemSizes, ih]; rfl

theorem collectLeafSizes_tagged (count : Nat) (operation tag : String) :
    collectLeafSizes (.object (taggedBag count operation tag)) =
      operation.utf8ByteSize :: List.replicate count tag.utf8ByteSize := by
  simp only [taggedBag, tags, collectLeafSizes, collectFieldSizes, collectItemSizes_replicate,
    List.singleton_append, List.append_nil]

/-- Where no text fits its share, the budget is divided evenly. -/
theorem fairShare_of_large {sizes : List Nat} {totalBudget : Nat} (some' : sizes ≠ [])
    (large : ∀ size ∈ sizes, totalBudget / sizes.length < size) :
    fairShare sizes totalBudget = totalBudget / sizes.length := by
  have none' : settledIn sizes (totalBudget / sizes.length) = [] := by
    refine List.filter_eq_nil_iff.mpr fun size isIn => ?_
    have exceeds := large size isIn
    simp only [Bool.and_eq_true, decide_eq_true_eq]
    omega
  rw [fairShare, if_neg (by simpa using some'), shareOf, none']
  simp

/-- Nine thousand tags leave three bytes to each text. -/
theorem textShare_tagged : textShare taggedSpan.attributes = 3 := by
  have sizes : collectLeafSizes (.object taggedSpan.attributes) =
      GEN_AI_OPERATION.chat.utf8ByteSize :: List.replicate 9000 "aaaaa".utf8ByteSize :=
    collectLeafSizes_tagged 9000 GEN_AI_OPERATION.chat "aaaaa"
  rw [textShare, sizes]
  refine (fairShare_of_large (List.cons_ne_nil _ _) fun size isIn => ?_).trans ?_
  · rw [List.length_cons, List.length_replicate]
    rcases List.mem_cons.mp isIn with rfl | isIn
    · decide
    · rw [List.eq_of_mem_replicate isIn]
      decide
  · rw [List.length_cons, List.length_replicate]
    rfl

theorem mem_of_lookup_keptOf {cap : Option Nat} {fields : Attrs} {key : String} {value : Value}
    (found : (keptOf cap fields).lookup key = some value) : (key, value) ∈ fields := by
  obtain ⟨front, back, split, -⟩ := List.lookup_eq_some_iff.mp found
  have isIn : (key, value) ∈ keptOf cap fields := split ▸ List.mem_append_right _ List.mem_cons_self
  rcases cap with _ | keep
  · exact List.mem_of_mem_filter isIn
  · exact List.mem_of_mem_filter (List.mem_of_mem_take isIn)

/-- The keys of every preview of the bag, whose operation is cut. -/
theorem lookup_tagged_preview {key : String} {value preview : Value}
    (moved : previewToMove runtime (.object taggedSpan.attributes) = some preview)
    (said : (recordOf preview).lookup key = some value) :
    (key = GEN_AI.operationName ∧ value = .text "cha") ∨ key = "tags" ∨ key = ELIDED := by
  by_cases named : key = ELIDED
  · exact .inr (.inr named)
  rw [lookup_moved moved named, textShare_tagged] at said
  obtain ⟨own, inKept, rfl⟩ := Option.map_eq_some_iff.mp said
  have isIn : (key, own) ∈ taggedBag 9000 GEN_AI_OPERATION.chat "aaaaa" :=
    mem_of_lookup_keptOf inKept
  simp only [taggedBag, List.mem_cons, List.not_mem_nil, or_false, Prod.mk.injEq] at isIn
  rcases isIn with ⟨isOperation, rfl⟩ | ⟨isTags, -⟩
  · have cut : (applyPreview 3 (.text GEN_AI_OPERATION.chat)).preview = .text "cha" := by
      rw [applyPreview, if_neg (by decide)]
      rfl
    refine .inl ⟨isOperation, ?_⟩
    rcases containerCap runtime taggedSpan.attributes with _ | keep
    · exact cut
    · simp [seen, cut, capContainers]
  · exact .inr (.inl isTags)

theorem moved_tagged :
    (previewToMove runtime (.object taggedSpan.attributes)).isSome = true := by
  have cut : (previewOf (.object taggedSpan.attributes) EVENT_INLINE_MAX).truncated = true := by
    have shared : previewOf (.object taggedSpan.attributes) EVENT_INLINE_MAX =
        applyPreview 3 (.object taggedSpan.attributes) := by
      rw [← textShare_tagged]
      rfl
    have long : ¬ GEN_AI_OPERATION.chat.utf8ByteSize ≤ 3 := by decide
    rw [shared]
    simp [taggedSpan, taggedBag, applyPreview, applyFields, long]
  simp [previewToMove, cut]

theorem operation_tagged {preview : Value} {text : String}
    (moved : previewToMove runtime (.object taggedSpan.attributes) = some preview)
    (said : Attrs.str (recordOf preview) GEN_AI.operationName = some text) : text = "cha" := by
  obtain ⟨value, found, isText⟩ := Option.bind_eq_some_iff.mp said
  rcases lookup_tagged_preview moved found with ⟨_, rfl⟩ | same | same
  · exact (Option.some.inj isText).symm
  · exact absurd same (by decide)
  · exact absurd same (by decide)

theorem readable_moved (refOf : Value → String) (preview : Value) :
    readable (movedSpan refOf taggedSpan preview) = recordOf preview :=
  List.append_nil _

/-- The preview of a chat span is no call of a model. -/
theorem spanCost_tagged {preview : Value} (refOf : Value → String)
    (moved : previewToMove runtime (.object taggedSpan.attributes) = some preview) :
    spanCost runtime DEFAULT_SPAN_ATTR_KEYS false (movedSpan refOf taggedSpan preview) = none := by
  have absent : ∀ key, key ∉ [GEN_AI.operationName, "tags", ELIDED] →
      (recordOf preview).lookup key = none := by
    intro key apart
    rcases found : (recordOf preview).lookup key with _ | value
    · rfl
    · rcases lookup_tagged_preview moved found with ⟨same, _⟩ | same | same <;>
        exact absurd (by simp [same]) apart
  have apart : ∀ key ∈ "mlflow.chat.tokenUsage" :: DEFAULT_SPAN_ATTR_KEYS.model
      ++ DEFAULT_SPAN_ATTR_KEYS.inputTokens ++ DEFAULT_SPAN_ATTR_KEYS.outputTokens,
      key ∉ [GEN_AI.operationName, "tags", ELIDED] := by
    decide +kernel
  refine spanCost_eq_none ?_ ?_ ?_ ?_ ?_ <;> rw [readable_moved]
  · exact fun said => absurd (operation_tagged moved said) (by decide)
  · exact fun said => absurd (operation_tagged moved said) (by decide)
  · exact pickStr_of_absent fun key isKey => absent key (apart key (by simp [isKey]))
  · refine inTok_of_absent fun key isKey => absent key (apart key ?_)
    rcases List.mem_cons.mp isKey with rfl | isKey <;> simp [*]
  · refine outTok_of_absent fun key isKey => absent key (apart key ?_)
    rcases List.mem_cons.mp isKey with rfl | isKey <;> simp [*]

theorem carriesTokens_tagged {preview : Value} (refOf : Value → String)
    (moved : previewToMove runtime (.object taggedSpan.attributes) = some preview) :
    carriesTokens runtime (movedSpan refOf taggedSpan preview) = false := by
  have noChat : Attrs.str (recordOf preview) GEN_AI.operationName ≠
      some GEN_AI_OPERATION.chat :=
    fun said => absurd (operation_tagged moved said) (by decide)
  simp [carriesTokens, readable_moved, noChat]

end Tagged

def answeredSpan (answer : String) : TraceSpan where
  traceId := "trace"
  spanId := "answered"
  name := "chat"
  startedAt := stampOf 0
  endedAt := stampOf 0
  attributes := [(GEN_AI.operationName, .text GEN_AI_OPERATION.chat),
    (GEN_AI.inputTokens, .number (.finite 12)), (EVERDICT_ATTR.output, .text answer)]

section Answered

variable {answer : String} (size : answer.utf8ByteSize = 40000)
include size

/-- The answer may keep what the operation does not need. -/
theorem textShare_answered : textShare (answeredSpan answer).attributes = 31996 := by
  have sizes : collectLeafSizes (.object (answeredSpan answer).attributes) = [4, 40000] := by
    simp only [answeredSpan, collectLeafSizes, collectFieldSizes, size]
    rfl
  rw [textShare, sizes, fairShare, if_neg (by decide), shareOf, dif_neg (by decide +kernel), shareOf,
    dif_pos (by decide +kernel)]
  decide +kernel

theorem strings_answered :
    ∃ cut : String, (previewOf (.object (answeredSpan answer).attributes) EVENT_INLINE_MAX).preview =
      .object [(GEN_AI.operationName, .text GEN_AI_OPERATION.chat),
        (GEN_AI.inputTokens, .number (.finite 12)), (EVERDICT_ATTR.output, .text cut)] ∧
      (previewOf (.object (answeredSpan answer).attributes) EVENT_INLINE_MAX).truncated = true := by
  have shared : previewOf (.object (answeredSpan answer).attributes) EVENT_INLINE_MAX =
      applyPreview 31996 (.object (answeredSpan answer).attributes) := by
    rw [← textShare_answered size]
    rfl
  have long : ¬ answer.utf8ByteSize ≤ 31996 := by omega
  have short : GEN_AI_OPERATION.chat.utf8ByteSize ≤ 31996 := by decide +kernel
  have plain : GEN_AI.operationName ≠ PROTO ∧ GEN_AI.inputTokens ≠ PROTO ∧
      EVERDICT_ATTR.output ≠ PROTO := by decide
  refine ⟨truncateToBytes answer 31996, ?_, ?_⟩ <;> rw [shared] <;>
    simp [answeredSpan, applyPreview, applyFields, assigned, short, long, plain]

/-- Two members fit whatever the answer is cut to. -/
theorem containerCap_answered :
    containerCap plainRuntime (answeredSpan answer).attributes ∈
      [none, some 512, some 128, some 32, some 8, some 2] := by
  obtain ⟨cut, strings, -⟩ := strings_answered size
  have two : serializedBytes plainRuntime (capContainers 2
      (previewOf (.object (answeredSpan answer).attributes) EVENT_INLINE_MAX).preview) ≤
        STRUCTURE_INLINE_MAX := by
    rw [strings]
    have capped : capContainers 2 (.object [(GEN_AI.operationName, .text GEN_AI_OPERATION.chat),
        (GEN_AI.inputTokens, .number (.finite 12)), (EVERDICT_ATTR.output, .text cut)]) =
      .object [(GEN_AI.operationName, .text GEN_AI_OPERATION.chat),
        (GEN_AI.inputTokens, .number (.finite 12)), (ELIDED, .number (.finite 1))] := rfl
    rw [capped]
    decide +kernel
  unfold containerCap
  dsimp only
  split
  · exact List.mem_cons_self
  · simp only [CONTAINER_CAPS, List.find?_cons, two, decide_true]
    repeat' split
    all_goals simp

theorem moved_answered :
    (previewToMove plainRuntime (.object (answeredSpan answer).attributes)).isSome = true := by
  obtain ⟨-, -, cut⟩ := strings_answered size
  simp [previewToMove, cut]

omit size in
theorem lookup_answered {key : String} {value : Value}
    (found : (answeredSpan answer).attributes.lookup key = some value) :
    (∀ fields, value ≠ .object fields) ∧ (key ≠ EVERDICT_ATTR.output →
      ∀ text, value = .text text → text = GEN_AI_OPERATION.chat) := by
  simp only [answeredSpan, lookup_cons_eq, List.lookup_nil] at found
  split_ifs at found <;> cases found
  · exact ⟨by simp, fun _ text same => (Value.text.inj same).symm⟩
  · exact ⟨by simp, by simp⟩
  · next isAnswer => exact ⟨by simp, fun other => absurd isAnswer other⟩

theorem readWhole_answered : ReadWhole plainRuntime (answeredSpan answer).attributes := by
  have notAnswer : ∀ key ∈ READ_KEYS, key ≠ EVERDICT_ATTR.output := by decide +kernel
  refine ⟨fun key isKey => ?_, fun key isKey text found => ?_, ?_, ?_⟩
  · have all : (answeredSpan answer).attributes.filter (fun field => field.1 ≠ PROTO) =
        (answeredSpan answer).attributes := rfl
    have first : ((answeredSpan answer).attributes.take 2).lookup key =
        (answeredSpan answer).attributes.lookup key := by
      simp [answeredSpan, lookup_cons_eq, notAnswer key isKey]
    have caps := containerCap_answered size
    simp only [List.mem_cons, List.not_mem_nil, or_false] at caps
    unfold keptOf
    dsimp only
    rw [all]
    rcases caps with cap | cap | cap | cap | cap | cap <;> rw [cap]
    · rfl
    · rfl
    · rfl
    · rfl
    · exact first
  · rw [(lookup_answered found).2 (notAnswer key (read_of_value isKey)) text rfl,
      textShare_answered size]
    decide
  · exact fun path _ fields found => absurd rfl ((lookup_answered found).1 fields)
  · exact fun path _ fields text found => absurd rfl ((lookup_answered found).1 fields)

end Answered

/-- An answer of forty thousand letters. -/
def longAnswer : String := String.ofList (List.replicate 40000 'a')

theorem size_longAnswer : longAnswer.utf8ByteSize = 40000 := by
  have sizes : ∀ n, (String.ofList (List.replicate n 'a')).utf8ByteSize = n := by
    intro n
    induction n with
    | zero => rfl
    | succ n ih =>
      rw [List.replicate_succ, String.ofList_cons]
      simp [ih, String.utf8ByteSize_append, Nat.add_comm]
      decide
  exact sizes 40000

end Everdict.Trace
