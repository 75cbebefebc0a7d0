import Everdict.Trace.Projection

/-!
# The usage of spans

Sums of doubles depend on the order, so usage is added up over the calls of a model as they
come.  A span is counted as one call at most, at its start and of the cost `spanCost`; of the
rest of the batch it needs only whether the calls carry their own tokens.  So the calls of a
projection come in the order of the spans (`llmCost_spansToEvents`).
-/

namespace Everdict.Trace

open Submission (JsNumber)
open Sorting (sortBy sortBy_perm sortBy_pairwise sortBy_filterMap sortBy_of_pairwise)

/-! ## The call of a span -/

section Span

variable (runtime : Runtime) (keys : SpanAttrMapping)

def bagCost (a : Attrs) : Cost :=
  ⟨(inTok runtime keys a).getD (.finite 0), (outTok runtime keys a).getD (.finite 0),
    usd runtime keys a⟩

/-- The cost of the call that the span is counted as. -/
def spanCost (perCallTokens : Bool) (span : TraceSpan) : Option Cost :=
  if span.startedAt.ms.isNone then none
  else
    match classify runtime keys span (readable span) with
    | .invokeAgent =>
        if !perCallTokens && ((inTok runtime keys (readable span)).isSome ||
            (outTok runtime keys (readable span)).isSome) then
          some (bagCost runtime keys (readable span))
        else none
    | .chat => some (bagCost runtime keys (readable span))
    | _ => none

variable {runtime keys} {batch : SpanBatchFacts} {span : TraceSpan} {a : Attrs} {startMs : Int}

/-- The call of a model that an event is, with its time. -/
def TraceEvent.callAt (event : TraceEvent) : Option (Option Cost × ℚ) :=
  event.llmCost.map fun cost => (cost, event.t)

theorem callAt_artifactEvents :
    (artifactEvents batch span a startMs).filterMap TraceEvent.callAt = [] := by
  unfold artifactEvents
  split <;> rfl

theorem callAt_errorEvents :
    (errorEvents batch span a startMs).filterMap TraceEvent.callAt = [] := by
  unfold errorEvents
  split <;> rfl

theorem callAt_pointEvents :
    (pointEvents runtime batch span a).filterMap TraceEvent.callAt = [] := by
  unfold pointEvents
  rw [List.filterMap_filterMap]
  refine List.filterMap_eq_nil_iff.mpr fun point _ => ?_
  rcases point.stamp.ms with _ | ms
  · rfl
  · simp only [Option.map_some, Option.bind_some, TraceEvent.callAt, TraceEvent.llmCost, pointOf,
      pointKind]
    split_ifs <;> rfl

theorem callAt_otherEvents :
    (otherEvents keys batch span a startMs).filterMap TraceEvent.callAt = [] := by
  unfold otherEvents
  split
  · rfl
  · split <;> rfl

/-- The time of a span in the projection of a batch. -/
def startIn (batch : SpanBatchFacts) (span : TraceSpan) : ℚ :=
  ((span.startedAt.ms.getD 0 - batch.baseMs : Int) : ℚ)

theorem callAt_classEvents (started : span.startedAt.ms = some startMs) :
    (classEvents runtime keys batch span (readable span) startMs).filterMap TraceEvent.callAt =
      ((spanCost runtime keys batch.perCallTokens span).map fun cost =>
        (some cost, startIn batch span)).toList := by
  unfold classEvents spanCost startIn
  rw [started]
  rcases taken : classify runtime keys span (readable span) with _ | _ | _ | name | action | _
  · rfl
  · unfold agentEvents
    simp only [List.filterMap_append, Option.isNone_some, Bool.false_eq_true, if_false]
    have silent : ∀ text : Option String, ((text.map fun text => pointOf batch span startMs
        span.startedAt (.message (speaker (readable span) .assistant .user) text)).toList.filterMap
          TraceEvent.callAt) = [] := fun text => by rcases text <;> rfl
    rw [silent]
    split <;> rfl
  · unfold chatEvents
    rcases outputText (readable span) <;> rfl
  · rfl
  · rfl
  · exact callAt_otherEvents

theorem callAt_projectSpan :
    (projectSpan runtime keys batch span).filterMap TraceEvent.callAt =
      ((spanCost runtime keys batch.perCallTokens span).map fun cost =>
        (some cost, startIn batch span)).toList := by
  rcases started : span.startedAt.ms with _ | startMs
  · simp [projectSpan, spanCost, started]
  · simp only [projectSpan, started, List.filterMap_append, callAt_artifactEvents,
      callAt_errorEvents, callAt_pointEvents, callAt_classEvents started, List.nil_append,
      List.append_nil]

theorem llmCost_eq (events : List TraceEvent) :
    events.filterMap TraceEvent.llmCost = (events.filterMap TraceEvent.callAt).map Prod.fst := by
  rw [List.map_filterMap]
  refine List.filterMap_congr fun event _ => ?_
  rw [TraceEvent.callAt, Option.map_map]
  exact Option.map_id'.symm

theorem llmCost_projectSpan :
    (projectSpan runtime keys batch span).filterMap TraceEvent.llmCost =
      ((spanCost runtime keys batch.perCallTokens span).map some).toList := by
  rw [llmCost_eq, callAt_projectSpan]
  rcases spanCost runtime keys batch.perCallTokens span <;> rfl

/-- A call is read off the plane and the operation of a bag, its tokens, and whether it names
a model. -/
theorem spanCost_eq (perCallTokens : Bool) (span : TraceSpan) :
    spanCost runtime keys perCallTokens span =
      if span.startedAt.ms.isNone then none
      else if Attrs.str (readable span) EVERDICT_ATTR.plane = some placementPlane then none
      else if Attrs.str (readable span) GEN_AI.operationName = some GEN_AI_OPERATION.invokeAgent then
        if !perCallTokens && ((inTok runtime keys (readable span)).isSome ||
            (outTok runtime keys (readable span)).isSome) then
          some (bagCost runtime keys (readable span))
        else none
      else if Attrs.str (readable span) GEN_AI.operationName = some GEN_AI_OPERATION.chat ||
          (pickStr (readable span) keys.model).isSome ||
          (inTok runtime keys (readable span)).isSome ||
          (outTok runtime keys (readable span)).isSome then
        some (bagCost runtime keys (readable span))
      else none := by
  unfold spanCost
  by_cases undated : span.startedAt.ms.isNone
  · rw [if_pos undated, if_pos undated]
  rw [if_neg undated, if_neg undated]
  by_cases plane : Attrs.str (readable span) EVERDICT_ATTR.plane = some placementPlane
  · have taken : classify runtime keys span (readable span) = .placement := if_pos plane
    rw [taken, if_pos plane]
  rw [if_neg plane]
  by_cases agent : Attrs.str (readable span) GEN_AI.operationName =
      some GEN_AI_OPERATION.invokeAgent
  · have taken : classify runtime keys span (readable span) = .invokeAgent :=
      (if_neg plane).trans (if_pos agent)
    rw [taken, if_pos agent]
  rw [if_neg agent]
  by_cases chat : (Attrs.str (readable span) GEN_AI.operationName = some GEN_AI_OPERATION.chat ||
      (pickStr (readable span) keys.model).isSome || (inTok runtime keys (readable span)).isSome ||
      (outTok runtime keys (readable span)).isSome) = true
  · have taken : classify runtime keys span (readable span) = .chat :=
      (if_neg plane).trans ((if_neg agent).trans (if_pos chat))
    rw [taken, if_pos chat]
  rw [if_neg chat]
  have taken : classify runtime keys span (readable span) ≠ .invokeAgent ∧
      classify runtime keys span (readable span) ≠ .chat := by
    simp only [classify, if_neg plane, if_neg agent, if_neg chat]
    repeat' split
    all_goals simp
  split
  · next isAgent => exact absurd isAgent taken.1
  · next isChat => exact absurd isChat taken.2
  · rfl

theorem spanCost_eq_none {perCallTokens : Bool}
    (noAgent : Attrs.str (readable span) GEN_AI.operationName ≠ some GEN_AI_OPERATION.invokeAgent)
    (noChat : Attrs.str (readable span) GEN_AI.operationName ≠ some GEN_AI_OPERATION.chat)
    (noModel : pickStr (readable span) keys.model = none)
    (noInput : inTok runtime keys (readable span) = none)
    (noOutput : outTok runtime keys (readable span) = none) :
    spanCost runtime keys perCallTokens span = none := by
  simp [spanCost_eq, noAgent, noChat, noModel, noInput, noOutput]

theorem perCallTokens_eq (spans : List TraceSpan) :
    (spanBatchFacts runtime spans).perCallTokens = spans.any (carriesTokens runtime) :=
  (sortBy_perm _ spans).any_eq

/-- The calls of a projection come in the order of the spans. -/
theorem llmCost_spansToEvents (spans : List TraceSpan) :
    (spansToEvents runtime spans {}).filterMap TraceEvent.llmCost =
      ((sortSpansForProjection spans).filterMap (spanCost runtime DEFAULT_SPAN_ATTR_KEYS
        (spans.any (carriesTokens runtime)))).map some := by
  let sorted := sortSpansForProjection spans
  let batch := spanBatchFacts runtime sorted
  let cost := spanCost runtime DEFAULT_SPAN_ATTR_KEYS (spans.any (carriesTokens runtime))
  have facts : batch.perCallTokens = spans.any (carriesTokens runtime) := by
    rw [perCallTokens_eq]
    exact (sortBy_perm _ spans).any_eq
  have calls : (sorted.flatMap (projectSpan runtime DEFAULT_SPAN_ATTR_KEYS batch)).filterMap
      TraceEvent.callAt = sorted.filterMap fun span =>
        (cost span).map fun cost => (some cost, startIn batch span) := by
    rw [List.filterMap_flatMap, List.filterMap_eq_flatMap_toList]
    simp only [callAt_projectSpan, facts]
    rfl
  -- the spans are sorted, so their calls are
  have inTime : (sorted.filterMap fun span =>
      (cost span).map fun cost => (some cost, startIn batch span)).Pairwise
        fun call call' => call.2 ≤ call'.2 := by
    rw [List.pairwise_filterMap]
    refine (sortBy_pairwise _ spans).imp fun le call isCall call' isCall' => ?_
    obtain ⟨_, _, rfl⟩ := Option.map_eq_some_iff.mp isCall
    obtain ⟨_, _, rfl⟩ := Option.map_eq_some_iff.mp isCall'
    exact Int.cast_le.mpr (Int.sub_le_sub_right le _)
  have picked : ∀ (event : TraceEvent) (call : Option Cost × ℚ),
      event.callAt = some call → call.2 = event.t := by
    intro event call isCall
    obtain ⟨_, _, rfl⟩ := Option.map_eq_some_iff.mp isCall
    rfl
  have whole : (spansToEvents runtime spans {}).filterMap TraceEvent.callAt =
      sortBy Prod.snd ((sorted.flatMap
        (projectSpan runtime DEFAULT_SPAN_ATTR_KEYS batch)).filterMap TraceEvent.callAt) :=
    sortBy_filterMap picked _
  rw [llmCost_eq, whole, calls, sortBy_of_pairwise inTime, List.map_filterMap, List.map_filterMap]
  refine List.filterMap_congr fun span _ => ?_
  rw [Option.map_map]
  rfl

/-- The usage of spans is that of their calls. -/
theorem usageFromTrace_spansToEvents (spans : List TraceSpan) :
    usageFromTrace runtime (spansToEvents runtime spans {}) =
      usageOfCosts runtime (((sortSpansForProjection spans).filterMap (spanCost runtime
        DEFAULT_SPAN_ATTR_KEYS (spans.any (carriesTokens runtime)))).map some) := by
  rw [usageFromTrace, llmCost_spansToEvents]

end Span

end Everdict.Trace
