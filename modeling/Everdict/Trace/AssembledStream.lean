import Mathlib.Algebra.Order.Ring.Abs
import Mathlib.Data.List.Perm.Basic
import Everdict.Trace.AssembledSpans

/-!
# The spans of a stream

With its dates, a stream of the harness is assembled to a root over its children
(`eventsToSpans_eq`); an end that is no date throws.  `evidence_back` says what the spans are
read back as: failures, the log lines, the entries of the stream after `asRead`, and a result
under every call.
-/

namespace Everdict.Trace

open Sorting (sortBy sortBy_perm)

/-! ## Lists -/

theorem mapM_ok {α β ε : Type} {f : α → Except ε β} {g : α → β} {l : List α}
    (each : ∀ a ∈ l, f a = .ok (g a)) : l.mapM f = .ok (l.map g) := by
  induction l with
  | nil => rfl
  | cons a l ih =>
    rw [List.forall_mem_cons] at each
    rw [List.mapM_cons, each.1, ih each.2]
    rfl

theorem exists_of_mapM {α β ε : Type} {f : α → Except ε β} {l : List α} {bs : List β}
    (eq : l.mapM f = .ok bs) : ∀ a ∈ l, ∃ b, f a = .ok b := by
  induction l generalizing bs with
  | nil => simp
  | cons a l ih =>
    rw [List.mapM_cons] at eq
    rcases head : f a with err | b
    · rw [head] at eq
      cases eq
    · rcases rest : l.mapM f with err | bs'
      · rw [head, rest] at eq
        cases eq
      · rw [List.forall_mem_cons]
        exact ⟨⟨b, head⟩, ih rest⟩

section Root
variable {runtime : Runtime} {ctx : EventsToSpansContext} {events : List TraceEvent}
  {batch : SpanBatchFacts}

/-- The point of a log line. -/
def logPoint (runtime : Runtime) (event : TraceEvent) : Option SpanEvent :=
  match event.kind with
  | .log stream text =>
      some ⟨"log", stampAt runtime event.ms,
        some [(EVERDICT_ATTR.logStream, .text stream.name), ("message", .text text)]⟩
  | _ => none

def logEvidence (event : TraceEvent) : Option (Evidence × Option Int) :=
  match event.kind with
  | .log stream text => some (.log stream text, some event.ms)
  | _ => none

/-- What the root says on top of `common`. -/
def rootEntries (ctx : EventsToSpansContext) : Attrs :=
  [(GEN_AI.operationName, .text GEN_AI_OPERATION.invokeAgent),
    (GEN_AI.agentName, .text ctx.agentName)]

theorem evidence_pointEvents {a : Attrs} {span : TraceSpan}
    (plane : Attrs.str a EVERDICT_ATTR.plane ≠ some placementPlane)
    (logs : span.events = events.filterMap (logPoint runtime)) :
    evidence (pointEvents runtime batch span a) = events.filterMap logEvidence := by
  simp only [evidence, pointEvents, logs, List.filterMap_filterMap, plane]
  refine List.filterMap_congr fun event _ => ?_
  unfold logPoint logEvidence
  split
  · next stream text kind =>
      have said : (some (Value.text text)).filter notNull = some (Value.text text) := rfl
      rcases stream <;>
        simp [stampAt, pointKind, pointOf, EventKind.evidence, TraceEvent.ms?, Attrs.str,
          lookup_cons_eq, Value.text?, EVERDICT_ATTR.logStream, asText, said, LogStream.name]
  · simp

/-- The root is read back as the log lines, and as an error where one was seen. -/
theorem evidence_root (plain : ctx.Plain) {root : TraceSpan} {ms : Int}
    (bag : readable root = (common ctx).spread (rootEntries ctx))
    (started : root.startedAt.ms = some ms)
    (points : root.events = events.filterMap (logPoint runtime)) :
    ∃ failures : List (Evidence × Option Int),
      (∀ entry ∈ failures, ∃ text, entry.1 = .error text) ∧
        evidence (projectSpan runtime DEFAULT_SPAN_ATTR_KEYS batch root) =
          failures ++ events.filterMap logEvidence := by
  have only : OnlyNames (readable root) [GEN_AI.operationName, GEN_AI.agentName] := by
    rw [bag]
    exact onlyNames_spread plain (by simp [rootEntries]) (by decide +kernel)
  have operation : Attrs.str (readable root) GEN_AI.operationName =
      some GEN_AI_OPERATION.invokeAgent := by
    rw [bag, Attrs.str, lookup_spread]
    simp [rootEntries, Value.text?]
  have agent : classify runtime DEFAULT_SPAN_ATTR_KEYS root (readable root) = .invokeAgent := by
    unfold classify
    simp [only.plane, operation]
  have silent : Attrs.str _ GEN_AI.inputMessages = none := only.str (by decide +kernel)
  have silent' : Attrs.str _ EVERDICT_ATTR.input = none := only.str (by decide +kernel)
  have noModel : NoModel [GEN_AI.operationName, GEN_AI.agentName] := by decide +kernel
  refine ⟨evidence (errorEvents batch root (readable root) ms), ?_, ?_⟩
  · intro entry isIn
    unfold errorEvents at isIn
    split at isIn
    · simp only [evidence, closing, pointOf, EventKind.evidence, List.filterMap_cons,
        Option.map_some, List.filterMap_nil, List.mem_singleton] at isIn
      exact ⟨_, by rw [isIn]⟩
    · cases isIn
  · unfold projectSpan
    simp only [started, evidence_append, evidence_pointEvents only.plane points,
      artifactEvents_of_onlyNames only (by decide +kernel), classEvents, agent, agentEvents,
      silent, silent', only.inTok noModel, only.outTok noModel]
    simp [evidence, structural, EventKind.evidence]

end Root

/-! ## The spans of a stream -/

/-- A stream of the harness: its own kinds of events, each with a date, and no action in the
platform's voice. -/
structure HarnessStream (events : List TraceEvent) : Prop where
  nonempty : events ≠ []
  harness : ∀ event ∈ events, event.kind.isHarness = true
  dated : ∀ event ∈ events, ∃ ms, event.ms? = some ms ∧ |(ms : ℚ)| ≤ MAX_DATE_MS
  free : ∀ event ∈ events, ∀ action detail, event.kind = .envAction action detail →
    action ∉ RESERVED_OBSERVATION_ACTIONS

/-- Every event ends at a date. -/
def EndsDated (events : List TraceEvent) : Prop :=
  ∀ event ∈ events, |endMs events event| ≤ MAX_DATE_MS

section Spans

variable {runtime : Runtime} {ctx : EventsToSpansContext} {events : List TraceEvent}

theorem iso_eq {ms : ℚ} (dated : |ms| ≤ MAX_DATE_MS) : iso runtime ms = .ok (stampAt runtime ms) :=
  if_pos dated

theorem abs_truncate_le (ms : ℚ) : |(truncate ms : ℚ)| ≤ |ms| := by
  have den : (0 : ℚ) < ms.den := by exact_mod_cast ms.den_pos
  have whole : |(truncate ms : ℚ)| * ms.den ≤ |(ms.num : ℚ)| := by
    have bound : (truncate ms).natAbs * ms.den ≤ ms.num.natAbs := by
      rw [truncate, Int.natAbs_tdiv, Int.natAbs_natCast]
      exact Nat.div_mul_le_self _ _
    rw [← Int.cast_abs, ← Int.cast_abs, Int.abs_eq_natAbs, Int.abs_eq_natAbs]
    exact_mod_cast bound
  have split : |ms| * ms.den = |(ms.num : ℚ)| := by
    rw [← Rat.mul_den_eq_num ms, abs_mul, abs_of_pos den]
  rw [← split] at whole
  exact le_of_mul_le_mul_right whole den

theorem HarnessStream.start (stream : HarnessStream events) {event : TraceEvent}
    (isIn : event ∈ events) : event.ms? = some event.ms ∧ |(event.ms : ℚ)| ≤ MAX_DATE_MS := by
  obtain ⟨ms, dated, bound⟩ := stream.dated event isIn
  have same : event.ms = ms := by rw [TraceEvent.ms, dated]; rfl
  rw [same]
  exact ⟨dated, bound⟩

theorem childSpan_eq (stream : HarnessStream events) (ends : EndsDated events)
    {event : TraceEvent} (isIn : event ∈ events) (index : Nat) :
    childSpan runtime ctx events event index =
      .ok (if event.folds then none else some (childOf runtime ctx events event index)) := by
  unfold childSpan
  rw [iso_eq (stream.start isIn).2, iso_eq (ends event isIn)]
  rcases folded : event.folds <;> rfl

theorem rootPoint_eq (stream : HarnessStream events) {event : TraceEvent} (isIn : event ∈ events) :
    rootPoint runtime event = .ok (logPoint runtime event) := by
  unfold rootPoint logPoint
  rw [iso_eq (stream.start isIn).2]
  rcases event.kind <;> rfl

/-- The children of an assembly. -/
def children (runtime : Runtime) (ctx : EventsToSpansContext) (events : List TraceEvent) :
    List TraceSpan :=
  events.zipIdx.filterMap fun entry =>
    if entry.1.folds then none else some (childOf runtime ctx events entry.1 entry.2)

theorem earliest_mem {times : List Int} (some' : times ≠ []) : earliest times ∈ times := by
  unfold earliest
  rcases found : times.min? with _ | least
  · exact absurd (List.min?_eq_none_iff.mp found) some'
  · exact List.min?_mem found

theorem latest_mem {times : List Int} (some' : times ≠ []) : latest times ∈ times := by
  unfold latest
  rcases found : times.max? with _ | greatest
  · exact absurd (List.max?_eq_none_iff.mp found) some'
  · exact List.max?_mem found

theorem ended_child {span : TraceSpan} (ends : EndsDated events)
    (isIn : span ∈ children runtime ctx events) :
    |((span.endedAt.ms.getD 0 : Int) : ℚ)| ≤ MAX_DATE_MS := by
  obtain ⟨entry, there, made⟩ := List.mem_filterMap.mp isIn
  split at made
  · cases made
  · obtain rfl := Option.some.inj made
    exact (abs_truncate_le _).trans (ends entry.1 (List.fst_mem_of_mem_zipIdx there))

/-- With its dates, a stream of the harness is assembled to a root over its children. -/
theorem eventsToSpans_eq (stream : HarnessStream events) (ends : EndsDated events) :
    ∃ first last : Int, eventsToSpans runtime ctx events =
      .ok (some (rootSpan ctx events (stampAt runtime first) (stampAt runtime last)
        (events.filterMap (logPoint runtime)) :: children runtime ctx events)) := by
  have dated : ¬ (events.isEmpty || events.any (·.ms?.isNone)) = true := by
    simp only [Bool.or_eq_true, List.isEmpty_iff, List.any_eq_true, not_or, not_exists, not_and]
    refine ⟨stream.nonempty, fun event isIn => ?_⟩
    rw [(stream.start isIn).1]
    simp
  have spans : events.zipIdx.mapM (fun entry => childSpan runtime ctx events entry.1 entry.2) =
      .ok (events.zipIdx.map fun entry =>
        if entry.1.folds then none else some (childOf runtime ctx events entry.1 entry.2)) :=
    mapM_ok fun entry isIn => childSpan_eq stream ends (List.fst_mem_of_mem_zipIdx isIn) entry.2
  have points : events.mapM (rootPoint runtime) = .ok (events.map (logPoint runtime)) :=
    mapM_ok fun event isIn => rootPoint_eq stream isIn
  have stamps : events.map TraceEvent.ms ≠ [] := by simpa using stream.nonempty
  have first : |((earliest (events.map TraceEvent.ms) : Int) : ℚ)| ≤ MAX_DATE_MS := by
    obtain ⟨event, isIn, eq⟩ := List.mem_map.mp (earliest_mem stamps)
    rw [← eq]
    exact (stream.start isIn).2
  have last : |((latest ((children runtime ctx events).map (fun span => span.endedAt.ms.getD 0) ++
      events.map TraceEvent.ms) : Int) : ℚ)| ≤ MAX_DATE_MS := by
    rcases List.mem_append.mp (latest_mem (List.append_ne_nil_of_right_ne_nil _ stamps)) with
      ended | stamped
    · obtain ⟨span, isIn, eq⟩ := List.mem_map.mp ended
      rw [← eq]
      exact ended_child ends isIn
    · obtain ⟨event, isIn, eq⟩ := List.mem_map.mp stamped
      rw [← eq]
      exact (stream.start isIn).2
  have kept : (events.zipIdx.map fun entry => if entry.1.folds then none
      else some (childOf runtime ctx events entry.1 entry.2)).reduceOption =
        children runtime ctx events :=
    List.filterMap_map
  have kept' : (events.map (logPoint runtime)).reduceOption =
      events.filterMap (logPoint runtime) :=
    List.filterMap_map
  refine ⟨earliest (events.map TraceEvent.ms), latest ((children runtime ctx events).map
    (fun span => span.endedAt.ms.getD 0) ++ events.map TraceEvent.ms), ?_⟩
  unfold eventsToSpans
  rw [if_neg dated, spans, points]
  change (iso runtime _ >>= fun startedAt => iso runtime _ >>= fun endedAt => _) = _
  rw [kept, kept', iso_eq first, iso_eq last]
  rfl

/-- An end that is no date throws. -/
theorem endsDated_of_assembled (stream : HarnessStream events) {spans : List TraceSpan}
    (assembled : eventsToSpans runtime ctx events = .ok (some spans)) : EndsDated events := by
  intro event isIn
  obtain ⟨index, there⟩ : ∃ index, (event, index) ∈ events.zipIdx := by
    obtain ⟨index, bound, rfl⟩ := List.getElem_of_mem isIn
    exact ⟨index, List.mk_mem_zipIdx_iff_getElem?.mpr (List.getElem?_eq_getElem bound)⟩
  unfold eventsToSpans at assembled
  split at assembled
  · cases assembled
  · rcases mapped : events.zipIdx.mapM fun entry =>
        childSpan runtime ctx events entry.1 entry.2 with thrown | made
    · rw [mapped] at assembled
      cases assembled
    · obtain ⟨child, ok⟩ := exists_of_mapM mapped (event, index) there
      have start := (stream.start isIn).2
      by_cases folded : event.folds = true
      · have ends : endMs events event = event.ms := by
          unfold TraceEvent.folds at folded
          unfold endMs
          rcases kind : event.kind <;> simp_all
        rw [ends]
        exact start
      · by_contra late
        have thrown : iso runtime (endMs events event) = .error "Invalid time value" := if_neg late
        simp only [childSpan, iso_eq start, thrown, folded] at ok
        cases ok

end Spans
/-! ## Evidence of a stream -/

abbrev Entry := Evidence × Option Int

/-- What an event says that is neither a log line nor a result. -/
def mainEntry (event : TraceEvent) : Option Entry :=
  match event.kind with
  | .toolResult .. | .log .. => none
  | kind => kind.evidence.map fun found => (found, some event.ms)

def resultEntry (event : TraceEvent) : Option Entry :=
  match event.kind with
  | .toolResult id ok output => some (.toolResult id ok output, some event.ms)
  | _ => none

/-- The result that is read back under a call. -/
def foldedEntry (events : List TraceEvent) (event : TraceEvent) : Option Entry :=
  match event.kind with
  | .toolCall id _ _ => some (foldedResult events id, some (truncate (endMs events event)))
  | _ => none

/-- The error that is read back under a failed call. -/
def callFailure (events : List TraceEvent) (event : TraceEvent) : List Entry :=
  match event.kind with
  | .toolCall .. => failure events event
  | _ => []

/-- How an entry is read back: a call of a model always has a name and a cost. -/
def asRead (entry : Entry) : Entry :=
  match entry.1 with
  | .llmCall model cost =>
      (.llmCall (if model = "" then UNKNOWN_MODEL else model)
        (some (cost.getD ⟨.finite 0, .finite 0, .finite 0⟩)), entry.2)
  | _ => entry

section Streams

variable {runtime : Runtime} {ctx : EventsToSpansContext} {events : List TraceEvent}
  {batch : SpanBatchFacts} {event : TraceEvent}

theorem perm_filterMap_or {α β : Type*} {f g : α → Option β} (apart : ∀ a, f a = none ∨ g a = none)
    (l : List α) :
    (l.filterMap fun a => (f a).or (g a)).Perm (l.filterMap f ++ l.filterMap g) := by
  induction l with
  | nil => exact .nil
  | cons a l ih =>
    simp only [List.filterMap_cons]
    rcases left : f a with _ | b
    · rcases right : g a with _ | c
      · simpa using ih
      · simpa using (ih.cons c).trans List.perm_middle.symm
    · have none' : g a = none := (apart a).resolve_left (by simp [left])
      simpa [none'] using ih.cons b

theorem evidence_stream (stream : HarnessStream events) :
    (evidence events).Perm (events.filterMap logEvidence ++
      (events.filterMap mainEntry ++ events.filterMap resultEntry)) := by
  have parts : evidence events = events.filterMap fun event =>
      (logEvidence event).or ((mainEntry event).or (resultEntry event)) := by
    refine List.filterMap_congr fun event isIn => ?_
    rw [(stream.start isIn).1]
    unfold logEvidence mainEntry resultEntry
    rcases event.kind <;> rfl
  rw [parts]
  refine (perm_filterMap_or (fun event => ?_) events).trans
    ((perm_filterMap_or (fun event => ?_) events).append_left _)
  · unfold logEvidence mainEntry resultEntry
    rcases event.kind <;> simp
  · unfold mainEntry resultEntry
    rcases event.kind <;> simp

theorem evidence_childOf (plain : ctx.Plain) (stream : HarnessStream events) (isIn : event ∈ events)
    (interval : event.folds = false) (index : Nat) :
    evidence (projectSpan runtime DEFAULT_SPAN_ATTR_KEYS batch
        (childOf runtime ctx events event index)) =
      ((mainEntry event).map asRead).toList ++ (foldedEntry events event).toList ++
        callFailure events event := by
  unfold mainEntry foldedEntry callFailure
  rcases kind : event.kind with ⟨role, text⟩ | ⟨model, cost, latencyMs⟩ | ⟨id, name, args⟩ |
    ⟨id, ok, output⟩ | ⟨action, detail⟩ | text | ⟨logStream, text⟩ | ⟨name, ref, mediaType, role⟩ |
    ⟨name, attributes⟩ | _
  · rw [evidence_message plain rfl kind]
    rfl
  · rw [evidence_llmCall plain rfl kind]
    rfl
  · rw [evidence_toolCall plain rfl kind]
    rfl
  · simp [TraceEvent.folds, kind] at interval
  · rw [evidence_envAction plain rfl kind (stream.free event isIn action detail kind)]
    rfl
  · rw [evidence_error plain rfl kind]
    rfl
  · simp [TraceEvent.folds, kind] at interval
  · rw [evidence_artifact plain rfl kind]
    rfl
  · have harness := stream.harness event isIn
    rw [kind] at harness
    cases harness
  · have harness := stream.harness event isIn
    rw [kind] at harness
    cases harness

theorem error_of_mem_callFailure {entry : Entry} (isIn : entry ∈ callFailure events event) :
    ∃ text, entry.1 = .error text := by
  unfold callFailure failure at isIn
  split at isIn
  · split at isIn
    · rw [List.mem_singleton.mp isIn]
      exact ⟨_, rfl⟩
    · cases isIn
  · cases isIn

theorem flatMap_filterMap {α β γ : Type*} (f : α → Option β) (g : β → List γ) (l : List α) :
    (l.filterMap f).flatMap g = l.flatMap fun a => (f a).toList.flatMap g := by
  induction l with
  | nil => rfl
  | cons a l ih =>
    rw [List.filterMap_cons, List.flatMap_cons, ← ih]
    rcases f a <;> simp

/-- What the children are read back as. -/
theorem evidence_children (plain : ctx.Plain) (stream : HarnessStream events) :
    (children runtime ctx events).flatMap (fun span =>
        evidence (projectSpan runtime DEFAULT_SPAN_ATTR_KEYS batch span)) =
      events.flatMap fun event => (((mainEntry event).map asRead).toList ++
        (foldedEntry events event).toList) ++ callFailure events event := by
  unfold children
  rw [flatMap_filterMap]
  have each : ∀ entry ∈ events.zipIdx, (if entry.1.folds = true then none
      else some (childOf runtime ctx events entry.1 entry.2)).toList.flatMap (fun span =>
        evidence (projectSpan runtime DEFAULT_SPAN_ATTR_KEYS batch span)) =
      (((mainEntry entry.1).map asRead).toList ++
        (foldedEntry events entry.1).toList) ++ callFailure events entry.1 := by
    intro entry isIn
    rcases folded : entry.1.folds
    · simpa using evidence_childOf plain stream (List.fst_mem_of_mem_zipIdx isIn) folded entry.2
    · unfold TraceEvent.folds at folded
      unfold mainEntry foldedEntry callFailure
      rcases kind : entry.1.kind <;> simp_all
  have indexed : ∀ g : TraceEvent → List Entry,
      events.zipIdx.flatMap (fun entry => g entry.1) = events.flatMap g := by
    intro g
    rw [← List.flatMap_map Prod.fst, List.zipIdx_map_fst]
  rw [List.flatMap_congr each]
  exact indexed fun event => (((mainEntry event).map asRead).toList ++
    (foldedEntry events event).toList) ++ callFailure events event

/-- What an assembly is read back as: failures, the log lines, the entries of the stream as they
are read, and the result of every call. -/
theorem evidence_back (plain : ctx.Plain) (stream : HarnessStream events)
    (root : TraceSpan) {ms : Int}
    (bag : readable root = (common ctx).spread (rootEntries ctx))
    (started : root.startedAt.ms = some ms)
    (points : root.events = events.filterMap (logPoint runtime)) :
    ∃ failures : List Entry, (∀ entry ∈ failures, ∃ text, entry.1 = .error text) ∧
      (evidence (spansToEvents runtime (root :: children runtime ctx events) {})).Perm
        (failures ++ (events.filterMap logEvidence ++
          ((events.filterMap mainEntry).map asRead ++ events.filterMap (foldedEntry events)))) := by
  let batch := spanBatchFacts runtime (sortSpansForProjection (root :: children runtime ctx events))
  have ofRoot : ∃ failures : List Entry, (∀ entry ∈ failures, ∃ text, entry.1 = .error text) ∧
      evidence (projectSpan runtime DEFAULT_SPAN_ATTR_KEYS batch root) =
        failures ++ events.filterMap logEvidence := evidence_root plain bag started points
  obtain ⟨failed, areErrors, rootEvidence⟩ := ofRoot
  refine ⟨failed ++ events.flatMap (callFailure events), ?_, ?_⟩
  · intro entry isIn
    rcases List.mem_append.mp isIn with isIn | isIn
    · exact areErrors entry isIn
    · obtain ⟨event, _, isIn⟩ := List.mem_flatMap.mp isIn
      exact error_of_mem_callFailure isIn
  · have unsorted : (spansToEvents runtime (root :: children runtime ctx events) {}).Perm
        ((root :: children runtime ctx events).flatMap
          (projectSpan runtime DEFAULT_SPAN_ATTR_KEYS batch)) :=
      (sortBy_perm _ _).trans ((sortBy_perm _ _).flatMap_right _)
    have read : evidence ((root :: children runtime ctx events).flatMap
          (projectSpan runtime DEFAULT_SPAN_ATTR_KEYS batch)) =
        (failed ++ events.filterMap logEvidence) ++ events.flatMap fun event =>
          (((mainEntry event).map asRead).toList ++ (foldedEntry events event).toList) ++
            callFailure events event := by
      have spans : ∀ l : List TraceSpan,
          evidence (l.flatMap (projectSpan runtime DEFAULT_SPAN_ATTR_KEYS batch)) =
            l.flatMap fun span =>
              evidence (projectSpan runtime DEFAULT_SPAN_ATTR_KEYS batch span) :=
        fun l => List.filterMap_flatMap
      rw [spans, List.flatMap_cons, rootEvidence, evidence_children plain stream]
    have parts : (events.flatMap fun event =>
        (((mainEntry event).map asRead).toList ++ (foldedEntry events event).toList) ++
          callFailure events event).Perm
        (((events.filterMap mainEntry).map asRead ++ events.filterMap (foldedEntry events)) ++
          events.flatMap (callFailure events)) := by
      refine (List.flatMap_append_perm events _ _).symm.trans (List.Perm.append_right _ ?_)
      refine (List.flatMap_append_perm events _ _).symm.trans ?_
      rw [List.map_filterMap, List.filterMap_eq_flatMap_toList, List.filterMap_eq_flatMap_toList]
    refine (unsorted.filterMap _).trans ?_
    change (evidence _).Perm _
    rw [read]
    refine (List.Perm.append_left _ parts).trans (List.perm_iff_count.mpr fun entry => ?_)
    simp only [List.count_append]
    omega

end Streams

end Everdict.Trace
