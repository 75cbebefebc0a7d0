import Everdict.Trace.Projection

/-!
# A plane read page by page

A plane of spans is stored in the order of `sortSpansForProjection` and read in pages; each
page is projected with the facts of the plane and sorted by itself.  The pages put together
are the projection of the plane exactly when no span of an earlier page projects an event
after one of a later page (`paged_projection_iff`).

A span projects events at its start, where it closes with an answer, a result or an error
also at its end, and at each point inside it: `TraceSpan.instants`.
-/

namespace Everdict.Trace

open Submission (JsNumber)
open Sorting (sortBy sortBy_pairwise sortBy_of_pairwise flatMap_sortBy_iff)

/-! ## The instants of a span -/

section Instants

variable (runtime : Runtime) (keys : SpanAttrMapping)

/-- Does the span project an event at its end? -/
def TraceSpan.closes (span : TraceSpan) : Bool :=
  statusIsError span ||
    match classify runtime keys span (readable span) with
    | .chat => (outputText (readable span)).isSome
    | .tool _ => true
    | _ => false

def TraceSpan.instants (span : TraceSpan) : List Int :=
  match span.startedAt.ms with
  | none => []
  | some startMs =>
      startMs :: ((if span.closes runtime keys then [span.endedAt.ms.getD startMs] else [])
        ++ span.events.filterMap (·.stamp.ms))

variable {runtime keys} {batch : SpanBatchFacts} {span : TraceSpan} {a : Attrs} {startMs : Int}
  {event : TraceEvent}

/-- The event is placed at the instant. -/
def TraceEvent.IsAt (event : TraceEvent) (batch : SpanBatchFacts) (ms : Int) : Prop :=
  event.t = ((ms - batch.baseMs : Int) : ℚ)

theorem isAt_artifactEvents (isIn : event ∈ artifactEvents batch span a startMs) :
    event.IsAt batch startMs := by
  unfold artifactEvents at isIn
  split at isIn
  · cases isIn
  · rw [List.mem_singleton.mp isIn]
    rfl

theorem isAt_agentEvents (isIn : event ∈ agentEvents runtime keys batch span a startMs) :
    event.IsAt batch startMs := by
  simp only [agentEvents, List.mem_append, List.mem_singleton, Option.mem_toList,
    Option.map_eq_some_iff] at isIn
  rcases isIn with (rfl | ⟨text, _, rfl⟩) | isIn
  · rfl
  · rfl
  · split at isIn
    · rw [List.mem_singleton.mp isIn]
      rfl
    · cases isIn

theorem isAt_otherEvents (isIn : event ∈ otherEvents keys batch span a startMs) :
    event.IsAt batch startMs := by
  unfold otherEvents at isIn
  split at isIn
  · rw [List.mem_singleton.mp isIn]
    rfl
  · split at isIn
    · rw [List.mem_singleton.mp isIn]
      rfl
    · cases isIn

/-- What a class of spans projects is at the start of the span or, where the class closes, at
its end. -/
theorem isAt_classEvents
    (isIn : event ∈ classEvents runtime keys batch span (readable span) startMs) :
    event.IsAt batch startMs ∨
      span.closes runtime keys = true ∧ event.IsAt batch (span.endedAt.ms.getD startMs) := by
  unfold classEvents at isIn
  split at isIn
  · left
    rw [List.mem_singleton.mp isIn]
    rfl
  · exact .inl (isAt_agentEvents isIn)
  · next chat =>
      simp only [chatEvents, List.mem_append, List.mem_singleton, Option.mem_toList,
        Option.map_eq_some_iff] at isIn
      rcases isIn with rfl | ⟨text, answered, rfl⟩
      · exact .inl rfl
      · exact .inr ⟨by simp [TraceSpan.closes, chat, answered], rfl⟩
  · next name tool =>
      simp only [toolEvents, List.mem_cons, List.not_mem_nil, or_false] at isIn
      rcases isIn with rfl | rfl
      · exact .inl rfl
      · exact .inr ⟨by simp [TraceSpan.closes, tool], rfl⟩
  · left
    rw [List.mem_singleton.mp isIn]
    rfl
  · exact .inl (isAt_otherEvents isIn)

/-- Every event of a span is at one of the span's instants. -/
theorem exists_instant (isIn : event ∈ projectSpan runtime keys batch span) :
    ∃ ms ∈ span.instants runtime keys, event.IsAt batch ms := by
  rcases started : span.startedAt.ms with _ | startMs
  · simp [projectSpan, started] at isIn
  · simp only [projectSpan, started, List.mem_append] at isIn
    simp only [TraceSpan.instants, started]
    rcases isIn with ((isIn | isIn) | isIn) | isIn
    · exact ⟨startMs, by simp, isAt_artifactEvents isIn⟩
    · rcases isAt_classEvents isIn with starts | ⟨closes, ends⟩
      · exact ⟨startMs, by simp, starts⟩
      · exact ⟨_, by simp [closes], ends⟩
    · unfold errorEvents at isIn
      split at isIn
      · next failed =>
          refine ⟨span.endedAt.ms.getD startMs, ?_, ?_⟩
          · simp [TraceSpan.closes, failed]
          · rw [List.mem_singleton.mp isIn]
            rfl
      · cases isIn
    · obtain ⟨point, there, placed⟩ := List.mem_filterMap.mp isIn
      obtain ⟨ms, parsed, rfl⟩ := Option.map_eq_some_iff.mp placed
      refine ⟨ms, ?_, rfl⟩
      simp only [List.mem_cons, List.mem_append, List.mem_filterMap]
      exact .inr (.inr ⟨point, there, parsed⟩)

/-- A datable span projects an event at its start. -/
theorem exists_start (started : span.startedAt.ms = some startMs) :
    ∃ event ∈ projectSpan runtime keys batch span, event.IsAt batch startMs := by
  unfold projectSpan
  simp only [started]
  rcases produced : pickStr (readable span) ARTIFACT_KEYS.ref with _ | ref
  · have some' : ∃ event ∈ classEvents runtime keys batch span (readable span) startMs,
        event.IsAt batch startMs := by
      unfold classEvents
      split
      · exact ⟨_, List.mem_singleton_self _, rfl⟩
      · exact ⟨structural batch span startMs (.span span.name (some span.attributes)),
          by simp [agentEvents], rfl⟩
      · exact ⟨llmCall runtime keys batch span (readable span) startMs,
          by simp [chatEvents], rfl⟩
      · exact ⟨_, List.mem_cons_self .., rfl⟩
      · exact ⟨_, List.mem_singleton_self _, rfl⟩
      · unfold otherEvents
        rcases said : pickStr (readable span) keys.messageText with _ | text
        · simp only [produced, Option.isNone_none, if_true]
          exact ⟨_, List.mem_singleton_self _, rfl⟩
        · exact ⟨_, List.mem_singleton_self _, rfl⟩
    obtain ⟨event, isIn, starts⟩ := some'
    exact ⟨event, by simp [isIn], starts⟩
  · have made : ∃ event ∈ artifactEvents batch span (readable span) startMs,
        event.IsAt batch startMs := by
      unfold artifactEvents
      rw [produced]
      exact ⟨_, List.mem_singleton_self _, rfl⟩
    obtain ⟨event, isIn, starts⟩ := made
    exact ⟨event, by simp [isIn], starts⟩

/-- A span that closes projects an event at its end. -/
theorem exists_end (started : span.startedAt.ms = some startMs)
    (closes : span.closes runtime keys = true) :
    ∃ event ∈ projectSpan runtime keys batch span,
      event.IsAt batch (span.endedAt.ms.getD startMs) := by
  unfold projectSpan
  simp only [started]
  by_cases failed : statusIsError span = true
  · have reported : ∃ event ∈ errorEvents batch span (readable span) startMs,
        event.IsAt batch (span.endedAt.ms.getD startMs) := by
      unfold errorEvents
      rw [if_pos failed]
      exact ⟨_, List.mem_singleton_self _, rfl⟩
    obtain ⟨event, isIn, ends⟩ := reported
    exact ⟨event, by simp [isIn], ends⟩
  · have classified : ∃ event ∈ classEvents runtime keys batch span (readable span) startMs,
        event.IsAt batch (span.endedAt.ms.getD startMs) := by
      simp only [TraceSpan.closes, failed, Bool.false_or] at closes
      unfold classEvents
      split at closes
      · next chat =>
          obtain ⟨text, answered⟩ := Option.isSome_iff_exists.mp closes
          rw [chat]
          exact ⟨closing batch span startMs
            (.message (speaker (readable span) .user .assistant) text),
            by simp [chatEvents, answered], rfl⟩
      · next name tool =>
          rw [tool]
          exact ⟨_, List.mem_cons_of_mem _ (List.mem_cons_self ..), rfl⟩
      · cases closes
    obtain ⟨event, isIn, ends⟩ := classified
    exact ⟨event, by simp [isIn], ends⟩

theorem exists_point (started : span.startedAt.ms = some startMs) {ms : Int}
    (inside : ms ∈ span.events.filterMap (·.stamp.ms)) :
    ∃ event ∈ projectSpan runtime keys batch span, event.IsAt batch ms := by
  obtain ⟨point, there, parsed⟩ := List.mem_filterMap.mp inside
  unfold projectSpan
  simp only [started]
  refine ⟨pointOf batch span ms point.stamp (pointKind runtime
    (Attrs.str (readable span) EVERDICT_ATTR.plane = some placementPlane) point), ?_, rfl⟩
  have placed : _ ∈ pointEvents runtime batch span (readable span) :=
    List.mem_filterMap.mpr ⟨point, there, by rw [parsed]; rfl⟩
  exact List.mem_append_right _ placed

/-- The events of a span are at its instants, and at each of them. -/
theorem exists_event_of_instant {ms : Int} (instant : ms ∈ span.instants runtime keys) :
    ∃ event ∈ projectSpan runtime keys batch span, event.IsAt batch ms := by
  unfold TraceSpan.instants at instant
  split at instant
  · cases instant
  · next startMs started =>
      rcases List.mem_cons.mp instant with rfl | instant
      · exact exists_start started
      · rcases List.mem_append.mp instant with ends | inside
        · split at ends
          · next closes =>
              rw [List.mem_singleton.mp ends]
              exact exists_end started closes
          · cases ends
        · exact exists_point started inside

end Instants

/-! ## Pages -/

section Pages

variable (runtime : Runtime) (mapping : SpanAttrMapping)

/-- The projections of the pages, one after the other, as a reader of the stream has them. -/
def pagedEvents (batch : SpanBatchFacts) (pages : List (List TraceSpan)) : List TraceEvent :=
  pages.flatMap fun page => spansToEvents runtime page ⟨mapping, some batch⟩

/-- No span of an earlier page has an instant after one of a later page. -/
def PagesInOrder (pages : List (List TraceSpan)) : Prop :=
  pages.Pairwise fun page later => ∀ span ∈ page, ∀ next ∈ later,
    ∀ x ∈ span.instants runtime mapping.keys, ∀ y ∈ next.instants runtime mapping.keys, x ≤ y

instance (pages : List (List TraceSpan)) : Decidable (PagesInOrder runtime mapping pages) :=
  inferInstanceAs (Decidable (List.Pairwise _ pages))

variable {runtime mapping} {spans : List TraceSpan} {pages : List (List TraceSpan)}

theorem sortSpans_sorted :
    sortSpansForProjection (sortSpansForProjection spans) = sortSpansForProjection spans :=
  sortBy_of_pairwise (sortBy_pairwise _ spans)

theorem spanBatchFacts_sorted :
    spanBatchFacts runtime (sortSpansForProjection spans) = spanBatchFacts runtime spans := by
  unfold spanBatchFacts
  rw [sortSpans_sorted]

/-- A page of the sorted plane is in order. -/
theorem sortSpans_page (split : pages.flatten = sortSpansForProjection spans)
    {page : List TraceSpan} (isPage : page ∈ pages) : sortSpansForProjection page = page := by
  refine sortBy_of_pairwise ?_
  have ordered := sortBy_pairwise (fun span : TraceSpan => span.startedAt.ms.getD 0) spans
  change (sortSpansForProjection spans).Pairwise _ at ordered
  rw [← split] at ordered
  exact (List.pairwise_flatten.mp ordered).1 page isPage

theorem IsAt.le_iff {batch : SpanBatchFacts} {event event' : TraceEvent} {x y : Int}
    (first : event.IsAt batch x) (second : event'.IsAt batch y) : event.t ≤ event'.t ↔ x ≤ y := by
  rw [first, second, Int.cast_le]
  omega

theorem events_in_order_iff (batch : SpanBatchFacts) {page later : List TraceSpan} :
    (∀ a ∈ page.flatMap (projectSpan runtime mapping.keys batch),
        ∀ b ∈ later.flatMap (projectSpan runtime mapping.keys batch), a.t ≤ b.t) ↔
      ∀ span ∈ page, ∀ next ∈ later, ∀ x ∈ span.instants runtime mapping.keys,
        ∀ y ∈ next.instants runtime mapping.keys, x ≤ y := by
  constructor
  · intro ordered span onPage next onLater x instant y instant'
    have event_at : ∀ {span : TraceSpan} {ms : Int}, ms ∈ span.instants runtime mapping.keys →
        ∃ event ∈ projectSpan runtime mapping.keys batch span, event.IsAt batch ms :=
      exists_event_of_instant
    obtain ⟨a, ina, at_x⟩ := event_at instant
    obtain ⟨b, inb, at_y⟩ := event_at instant'
    exact (IsAt.le_iff at_x at_y).mp (ordered a (List.mem_flatMap.mpr ⟨span, onPage, ina⟩) b
      (List.mem_flatMap.mpr ⟨next, onLater, inb⟩))
  · intro ordered a ina b inb
    obtain ⟨span, onPage, ina⟩ := List.mem_flatMap.mp ina
    obtain ⟨next, onLater, inb⟩ := List.mem_flatMap.mp inb
    obtain ⟨x, instant, at_x⟩ := exists_instant ina
    obtain ⟨y, instant', at_y⟩ := exists_instant inb
    exact (IsAt.le_iff at_x at_y).mpr (ordered span onPage next onLater x instant y instant')

end Pages

/-- The pages of a plane read as the plane exactly when they are in order. -/
theorem paged_projection_iff (runtime : Runtime) (mapping : SpanAttrMapping)
    (spans : List TraceSpan) (pages : List (List TraceSpan))
    (split : pages.flatten = sortSpansForProjection spans) :
    pagedEvents runtime mapping (spanBatchFacts runtime spans) pages =
        spansToEvents runtime spans ⟨mapping, none⟩ ↔ PagesInOrder runtime mapping pages := by
  let project := projectSpan runtime mapping.keys (spanBatchFacts runtime spans)
  have paged : pagedEvents runtime mapping (spanBatchFacts runtime spans) pages =
      (pages.map (List.flatMap project)).flatMap (sortBy (·.t)) := by
    rw [List.flatMap_map]
    refine List.flatMap_congr fun page isPage => ?_
    unfold spansToEvents
    rw [sortSpans_page split isPage]
    rfl
  have whole : spansToEvents runtime spans ⟨mapping, none⟩ =
      sortBy (·.t) (pages.map (List.flatMap project)).flatten := by
    have facts : spanBatchFacts runtime (sortSpansForProjection spans) =
        spanBatchFacts runtime spans := spanBatchFacts_sorted
    have rows : (sortSpansForProjection spans).flatMap project =
        (pages.map (List.flatMap project)).flatten := by
      rw [← split, List.flatten_eq_flatMap, List.flatMap_assoc, List.flatMap_def]
      rfl
    simp only [spansToEvents, Option.getD_none, facts]
    rw [← rows]
  rw [paged, whole, flatMap_sortBy_iff, List.pairwise_map]
  unfold PagesInOrder
  simp only [project, events_in_order_iff]

/-! ## A turn with a log line inside -/

/-- The sum of two numbers that is a double itself. -/
def exactSum : JsNumber → JsNumber → JsNumber
  | .finite x, .finite y => .finite (x + y)
  | .nan, _ | _, .nan => .nan
  | .infinity, .negativeInfinity | .negativeInfinity, .infinity => .nan
  | .infinity, _ | _, .infinity => .infinity
  | .negativeInfinity, _ | _, .negativeInfinity => .negativeInfinity

def plainRuntime : Runtime := ⟨fun _ => "0", id, fun _ => none, toString, exactSum⟩

def stampOf (ms : Int) : Stamp := ⟨toString ms, some ms⟩

/-- A turn of 100 ms that logs a line in the middle. -/
def turnSpan : TraceSpan where
  traceId := "trace"
  spanId := "turn"
  name := "invoke_agent coder"
  startedAt := stampOf 0
  endedAt := stampOf 100
  attributes := [(GEN_AI.operationName, .text GEN_AI_OPERATION.invokeAgent)]
  events := [{ name := "log", stamp := stampOf 50, attributes := some [("message", .text "…")] }]

def stepSpan : TraceSpan where
  traceId := "trace"
  spanId := "step"
  parentSpanId := some "turn"
  name := "step"
  startedAt := stampOf 10
  endedAt := stampOf 20

/-- Page by page the line of the turn stands before the step that came first. -/
theorem paged_turn_differs :
    [[turnSpan], [stepSpan]].flatten = sortSpansForProjection [turnSpan, stepSpan] ∧
      pagedEvents plainRuntime {} (spanBatchFacts plainRuntime [turnSpan, stepSpan])
          [[turnSpan], [stepSpan]] ≠
        spansToEvents plainRuntime [turnSpan, stepSpan] ⟨{}, none⟩ := by
  refine ⟨rfl, fun same => ?_⟩
  have times := congrArg (List.map (·.t)) same
  revert times
  decide +kernel

/-- A step after the turn. -/
def nextSpan : TraceSpan where
  traceId := "trace"
  spanId := "next"
  name := "step"
  startedAt := stampOf 100
  endedAt := stampOf 120

/-- One page holds the whole turn, another what comes after it. -/
theorem paged_projection_turn :
    pagedEvents plainRuntime {} (spanBatchFacts plainRuntime [nextSpan, turnSpan, stepSpan])
        [[turnSpan, stepSpan], [nextSpan]] =
      spansToEvents plainRuntime [nextSpan, turnSpan, stepSpan] ⟨{}, none⟩ :=
  (paged_projection_iff plainRuntime {} [nextSpan, turnSpan, stepSpan]
    [[turnSpan, stepSpan], [nextSpan]] rfl).mpr (by decide +kernel)

end Everdict.Trace
