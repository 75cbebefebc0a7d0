import Everdict.Trace.Assembly
import Everdict.Trace.Bags

/-!
# What an assembled span projects

A child of an assembly carries the entries of its event and those every child has, so the
chain of `classify` takes the arm of the event's own kind, and `evidence_child` says what the
child is read back as.
-/

namespace Everdict.Trace

open Submission (JsNumber)

/-! ## Evidence -/

/-- What a judge reads off an event. -/
inductive Evidence where
  | message (role : Role) (text : String)
  | llmCall (model : String) (cost : Option Cost)
  | toolCall (id name : String)
  | toolResult (id : String) (ok : Bool) (output : String)
  | envAction (action : String)
  | error (text : String)
  | log (stream : LogStream) (text : String)
  | artifact (ref : String)
  deriving DecidableEq

def EventKind.evidence : EventKind → Option Evidence
  | .message role text => some (.message role text)
  | .llmCall model cost _ => some (.llmCall model cost)
  | .toolCall id name _ => some (.toolCall id name)
  | .toolResult id ok output => some (.toolResult id ok output)
  | .envAction action _ => some (.envAction action)
  | .error text => some (.error text)
  | .log stream text => some (.log stream text)
  | .artifact _ ref _ _ => some (.artifact ref)
  | .span .. | .infra .. => none

/-- The evidence of the events, each at its instant. -/
def evidence (events : List TraceEvent) : List (Evidence × Option Int) :=
  events.filterMap fun event => event.kind.evidence.map fun found => (found, event.ms?)

theorem evidence_append (a b : List TraceEvent) : evidence (a ++ b) = evidence a ++ evidence b :=
  List.filterMap_append

/-! ## The bag of a child -/

/-- A context of the agent's own plane, without a resource. -/
structure EventsToSpansContext.Plain (ctx : EventsToSpansContext) : Prop where
  resource : ctx.resource = none
  plane : ctx.plane = none ∨ ctx.plane = some .agent

/-- The keys that a child of the kind may carry. -/
def EventKind.names : EventKind → List String
  | .toolCall .. =>
      [GEN_AI.operationName, GEN_AI.toolName, GEN_AI.toolCallId, EVERDICT_ATTR.input,
        EVERDICT_ATTR.output]
  | .llmCall .. =>
      [GEN_AI.operationName, GEN_AI.requestModel, GEN_AI.inputTokens, GEN_AI.outputTokens,
        EVERDICT_ATTR.costUsd]
  | .message .. => [EVERDICT_ATTR.messageRole, EVERDICT_ATTR.output]
  | .artifact .. => ["artifact.ref", "artifact.name", "artifact.media_type", "artifact.role"]
  | .envAction .. => [EVERDICT_ATTR.envAction, EVERDICT_ATTR.input]
  | .error .. => [errorTypeAttr]
  | _ => []

/-- The keys of `common`. -/
def COMMON_NAMES : List String :=
  [EVERDICT_ATTR.assembled, EVERDICT_ATTR.semconv, EVERDICT_ATTR.plane]

/-- The kinds of a harness' own stream. -/
def EventKind.isHarness : EventKind → Bool
  | .span .. | .infra .. => false
  | _ => true

section Child

variable (runtime : Runtime) (ctx : EventsToSpansContext) (events : List TraceEvent)

def stampAt (ms : ℚ) : Stamp := ⟨runtime.isoText (truncate ms), some (truncate ms)⟩

/-- The child of an event whose dates are dates. -/
def childOf (event : TraceEvent) (index : Nat) : TraceSpan where
  traceId := ctx.traceId
  spanId := ctx.newSpanId (index + 1)
  parentSpanId := some (ctx.newSpanId 0)
  name := childName event
  startedAt := stampAt runtime event.ms
  endedAt := stampAt runtime (endMs events event)
  attributes := (common ctx).spread (childEntries runtime events event)
  status := childStatus events event
  resource := ctx.resource

variable {runtime ctx events} {event : TraceEvent} {index : Nat}

@[simp] theorem truncate_intCast (ms : Int) : truncate ms = ms := by
  simp [truncate]

theorem readable_child (plain : ctx.Plain) :
    readable (childOf runtime ctx events event index) =
      (common ctx).spread (childEntries runtime events event) := by
  simp only [readable, childOf, plain.resource, Option.getD_none, List.append_nil]

theorem lookup_child (plain : ctx.Plain) (key : String) :
    (readable (childOf runtime ctx events event index)).lookup key =
      ((childEntries runtime events event).lookup key).or ((common ctx).lookup key) := by
  rw [readable_child plain, lookup_spread]

theorem lookup_textEntry (key name : String) (text : Option String) :
    (textEntry name text).lookup key = if key = name then text.map Value.text else none := by
  rcases text with _ | text
  · simp [textEntry]
  · simp only [textEntry, Option.map_some, Option.toList_some, lookup_cons_eq, List.lookup_nil]

theorem name_of_mem_textEntry {key : String} {text : Option String} {entry : String × Value}
    (isIn : entry ∈ textEntry key text) : entry.1 = key := by
  simp only [textEntry, Option.mem_toList, Option.map_eq_some_iff] at isIn
  obtain ⟨_, _, rfl⟩ := isIn
  rfl

theorem name_of_mem_costEntries {cost : Option Cost} {entry : String × Value}
    (isIn : entry ∈ costEntries cost) :
    entry.1 ∈ [GEN_AI.inputTokens, GEN_AI.outputTokens, EVERDICT_ATTR.costUsd] := by
  unfold costEntries at isIn
  split at isIn
  · cases isIn
  · simp only [List.mem_cons, List.not_mem_nil, or_false] at isIn
    rcases isIn with rfl | rfl | rfl <;> simp

theorem name_mem (harness : event.kind.isHarness = true) {entry : String × Value}
    (isIn : entry ∈ childEntries runtime events event) : entry.1 ∈ event.kind.names := by
  unfold childEntries at isIn
  rcases kind : event.kind <;> rw [kind] at isIn harness <;> dsimp only at isIn
  case toolCall =>
    simp only [List.mem_append, List.mem_cons, List.not_mem_nil, or_false] at isIn
    rcases isIn with ((rfl | rfl | rfl) | input) | output
    · simp [EventKind.names]
    · simp [EventKind.names]
    · simp [EventKind.names]
    · simp [EventKind.names, name_of_mem_textEntry input]
    · simp [EventKind.names, name_of_mem_textEntry output]
  case llmCall =>
    simp only [List.mem_append, List.mem_cons, List.not_mem_nil, or_false] at isIn
    rcases isIn with (rfl | named) | costs
    · simp [EventKind.names]
    · split at named
      · cases named
      · rw [List.mem_singleton.mp named]
        simp [EventKind.names]
    · have := name_of_mem_costEntries costs
      simp only [List.mem_cons, List.not_mem_nil, or_false] at this
      simp only [EventKind.names, List.mem_cons, List.not_mem_nil, or_false]
      tauto
  case message =>
    simp only [List.mem_cons, List.not_mem_nil, or_false] at isIn
    rcases isIn with rfl | rfl <;> simp [EventKind.names]
  case artifact =>
    simp only [List.mem_append, List.mem_cons, List.not_mem_nil, or_false] at isIn
    rcases isIn with ((rfl | rfl) | mediaType) | role
    · simp [EventKind.names]
    · simp [EventKind.names]
    · simp [EventKind.names, name_of_mem_textEntry mediaType]
    · simp [EventKind.names, name_of_mem_textEntry role]
  case envAction =>
    simp only [List.mem_append, List.mem_cons, List.not_mem_nil, or_false] at isIn
    rcases isIn with rfl | detail
    · simp [EventKind.names]
    · simp [EventKind.names, name_of_mem_textEntry detail]
  case error =>
    rw [List.mem_singleton.mp isIn]
    simp [EventKind.names]
  case span => cases harness
  all_goals cases isIn

theorem lookup_common_of_absent {key : String} (absent : key ∉ COMMON_NAMES) :
    (common ctx).lookup key = none := by
  rw [List.lookup_eq_none_iff]
  intro entry isIn
  simp only [bne_iff_ne, ne_eq]
  rintro rfl
  refine absent ?_
  simp only [common, List.mem_append, List.mem_cons, List.not_mem_nil, or_false,
    Option.mem_toList, Option.map_eq_some_iff] at isIn
  rcases isIn with (rfl | rfl) | ⟨plane, _, rfl⟩ <;> simp [COMMON_NAMES]

/-- The bag has no key but the names and those of `common`, and is not of the placement
plane. -/
structure OnlyNames (a : Attrs) (names : List String) : Prop where
  absent : ∀ key, key ∉ names ++ COMMON_NAMES → a.lookup key = none
  plane : Attrs.str a EVERDICT_ATTR.plane ≠ some placementPlane

theorem lookup_of_named {entries : Attrs} {names : List String}
    (named : ∀ entry ∈ entries, entry.1 ∈ names) {key : String} (absent : key ∉ names) :
    entries.lookup key = none := by
  rw [List.lookup_eq_none_iff]
  intro entry isIn
  simp only [bne_iff_ne, ne_eq]
  rintro rfl
  exact absent (named entry isIn)

theorem onlyNames_spread (plain : ctx.Plain) {entries : Attrs} {names : List String}
    (named : ∀ entry ∈ entries, entry.1 ∈ names) (free : EVERDICT_ATTR.plane ∉ names) :
    OnlyNames ((common ctx).spread entries) names where
  absent key apart := by
    rw [List.mem_append, not_or] at apart
    rw [lookup_spread, lookup_of_named named apart.1, lookup_common_of_absent apart.2]
    rfl
  plane := by
    rw [Attrs.str, lookup_spread, lookup_of_named named free]
    rcases plain.plane with none' | agent
    · simp [common, none', lookup_cons_eq, EVERDICT_ATTR.plane, EVERDICT_ATTR.assembled,
        EVERDICT_ATTR.semconv]
    · simp [common, agent, lookup_cons_eq, EVERDICT_ATTR.plane, EVERDICT_ATTR.assembled,
        EVERDICT_ATTR.semconv, Value.text?, TracePlane.name, placementPlane]

theorem onlyNames_child (plain : ctx.Plain) (harness : event.kind.isHarness = true) :
    OnlyNames (readable (childOf runtime ctx events event index)) event.kind.names := by
  rw [readable_child plain]
  refine onlyNames_spread plain (fun entry => name_mem harness) ?_
  rcases event.kind <;> simp [EventKind.names, EVERDICT_ATTR.plane, GEN_AI.operationName,
    GEN_AI.toolName, GEN_AI.toolCallId, GEN_AI.requestModel, GEN_AI.inputTokens,
    GEN_AI.outputTokens, EVERDICT_ATTR.input, EVERDICT_ATTR.output, EVERDICT_ATTR.costUsd,
    EVERDICT_ATTR.messageRole, EVERDICT_ATTR.envAction, errorTypeAttr]

theorem lookup_entry (plain : ctx.Plain) {key : String} {value : Value}
    (said : (childEntries runtime events event).lookup key = some value) :
    (readable (childOf runtime ctx events event index)).lookup key = some value := by
  rw [lookup_child plain, said]
  rfl

end Child

section Failure

variable {runtime : Runtime} {ctx : EventsToSpansContext} {events : List TraceEvent}
  {event : TraceEvent} {index : Nat} {batch : SpanBatchFacts}

/-- What a failed child says. -/
def failure (events : List TraceEvent) (event : TraceEvent) : List (Evidence × Option Int) :=
  match childStatus events event with
  | some ⟨.error, some text⟩ => [(.error text, some (truncate (endMs events event)))]
  | _ => []

theorem childStatus_cases (events : List TraceEvent) (event : TraceEvent) :
    childStatus events event = none ∨ childStatus events event = some ⟨.ok, none⟩ ∨
      ∃ text, childStatus events event = some ⟨.error, some text⟩ := by
  unfold childStatus
  split
  · split
    · split
      · exact .inr (.inl rfl)
      · exact .inr (.inr ⟨_, rfl⟩)
    · exact .inr (.inl rfl)
  · exact .inr (.inr ⟨_, rfl⟩)
  · exact .inl rfl

theorem evidence_errorEvents (a : Attrs) :
    evidence (errorEvents batch (childOf runtime ctx events event index) a event.ms) =
      failure events event := by
  have status : (childOf runtime ctx events event index).status = childStatus events event := rfl
  unfold errorEvents failure statusIsError
  rcases childStatus_cases events event with none' | ok | ⟨text, failed⟩
  · rw [status, none']
    rfl
  · rw [status, ok]
    rfl
  · rw [status, failed]
    rfl

theorem started_child :
    (childOf runtime ctx events event index).startedAt.ms = some event.ms :=
  congrArg some (truncate_intCast event.ms)

theorem evidence_child :
    evidence (projectSpan runtime DEFAULT_SPAN_ATTR_KEYS batch
        (childOf runtime ctx events event index)) =
      evidence (artifactEvents batch (childOf runtime ctx events event index)
          (readable (childOf runtime ctx events event index)) event.ms) ++
        evidence (classEvents runtime DEFAULT_SPAN_ATTR_KEYS batch
          (childOf runtime ctx events event index)
          (readable (childOf runtime ctx events event index)) event.ms) ++
        failure events event := by
  have points : (childOf runtime ctx events event index).events = [] := rfl
  unfold projectSpan
  simp only [started_child, evidence_append, evidence_errorEvents, pointEvents, points,
    List.filterMap_nil]
  exact List.append_nil _

end Failure

/-! ## The arm that a bag takes -/

section Classes

variable {runtime : Runtime} {batch : SpanBatchFacts} {a : Attrs} {span : TraceSpan}
  {startMs : Int} {names keys : List String}

theorem OnlyNames.pickStr (only : OnlyNames a names)
    (apart : ∀ key ∈ keys, key ∉ names ++ COMMON_NAMES) : pickStr a keys = none :=
  pickStr_of_absent fun key isKey => only.absent key (apart key isKey)

theorem OnlyNames.firstDefined (only : OnlyNames a names)
    (apart : ∀ key ∈ keys, key ∉ names ++ COMMON_NAMES) : firstDefined a keys = none :=
  firstDefined_of_absent fun key isKey => only.absent key (apart key isKey)

theorem OnlyNames.str (only : OnlyNames a names) {key : String}
    (apart : key ∉ names ++ COMMON_NAMES) : Attrs.str a key = none :=
  str_of_absent (only.absent key apart)

def modelKeys : List String :=
  "mlflow.chat.tokenUsage" :: DEFAULT_SPAN_ATTR_KEYS.model
    ++ DEFAULT_SPAN_ATTR_KEYS.inputTokens ++ DEFAULT_SPAN_ATTR_KEYS.outputTokens

def operationKeys : List String :=
  GEN_AI.operationName :: DEFAULT_SPAN_ATTR_KEYS.toolName ++ SPAN_KIND_KEYS

/-- No key of the model or of its tokens is among the names. -/
def NoModel (names : List String) : Prop :=
  ∀ key ∈ "mlflow.chat.tokenUsage" :: DEFAULT_SPAN_ATTR_KEYS.model
      ++ DEFAULT_SPAN_ATTR_KEYS.inputTokens ++ DEFAULT_SPAN_ATTR_KEYS.outputTokens,
    key ∉ names ++ COMMON_NAMES

instance : Decidable (NoModel names) := inferInstanceAs (Decidable (∀ _ ∈ _, _))

theorem OnlyNames.inTok (only : OnlyNames a names) (noModel : NoModel names) :
    inTok runtime DEFAULT_SPAN_ATTR_KEYS a = none :=
  inTok_of_absent fun key isKey => only.absent key (noModel key (by
    rcases List.mem_cons.mp isKey with rfl | isKey
    · simp
    · simp [isKey]))

theorem OnlyNames.outTok (only : OnlyNames a names) (noModel : NoModel names) :
    outTok runtime DEFAULT_SPAN_ATTR_KEYS a = none :=
  outTok_of_absent fun key isKey => only.absent key (noModel key (by
    rcases List.mem_cons.mp isKey with rfl | isKey
    · simp
    · simp [isKey]))

theorem OnlyNames.model (only : OnlyNames a names) (noModel : NoModel names) :
    Trace.pickStr a DEFAULT_SPAN_ATTR_KEYS.model = none :=
  pickStr_of_absent fun key isKey => only.absent key (noModel key (by simp [isKey]))

theorem classify_toolCall {name : String} (only : OnlyNames a names) (noModel : NoModel names)
    (operation : Attrs.str a GEN_AI.operationName = some GEN_AI_OPERATION.executeTool)
    (tool : Attrs.str a GEN_AI.toolName = some name) :
    classify runtime DEFAULT_SPAN_ATTR_KEYS span a = .tool name := by
  have named : Trace.pickStr a DEFAULT_SPAN_ATTR_KEYS.toolName = some name := by
    simp [Trace.pickStr, DEFAULT_SPAN_ATTR_KEYS, tool]
  have notAgent : GEN_AI_OPERATION.executeTool ≠ GEN_AI_OPERATION.invokeAgent := by decide
  have notChat : GEN_AI_OPERATION.executeTool ≠ GEN_AI_OPERATION.chat := by decide
  unfold classify
  simp [only.plane, operation, only.model noModel, only.inTok noModel, only.outTok noModel,
    executedTool, named, notAgent, notChat]

theorem classify_chat (only : OnlyNames a names)
    (operation : Attrs.str a GEN_AI.operationName = some GEN_AI_OPERATION.chat) :
    classify runtime DEFAULT_SPAN_ATTR_KEYS span a = .chat := by
  have notAgent : GEN_AI_OPERATION.chat ≠ GEN_AI_OPERATION.invokeAgent := by decide
  unfold classify
  simp [only.plane, operation, notAgent]

/-- No key of an operation, a tool or a declared kind is among the names. -/
def NoOperation (names : List String) : Prop :=
  ∀ key ∈ GEN_AI.operationName :: DEFAULT_SPAN_ATTR_KEYS.toolName ++ SPAN_KIND_KEYS,
    key ∉ names ++ COMMON_NAMES

instance : Decidable (NoOperation names) := inferInstanceAs (Decidable (∀ _ ∈ _, _))

section Plain

variable (only : OnlyNames a names) (noModel : NoModel names) (noOperation : NoOperation names)

include only noModel noOperation

theorem classify_envAction {action : String}
    (acted : Attrs.str a EVERDICT_ATTR.envAction = some action)
    (free : action ∉ RESERVED_OBSERVATION_ACTIONS) :
    classify runtime DEFAULT_SPAN_ATTR_KEYS span a = .envAction action := by
  have operation : Attrs.str a GEN_AI.operationName = none := only.str (noOperation _ (by simp))
  have tool : Trace.pickStr a DEFAULT_SPAN_ATTR_KEYS.toolName = none :=
    only.pickStr fun key isKey => noOperation key (by simp [isKey])
  have declared : Trace.pickStr a SPAN_KIND_KEYS = none :=
    only.pickStr fun key isKey => noOperation key (by simp [isKey])
  unfold classify
  simp [only.plane, operation, only.model noModel, only.inTok noModel, only.outTok noModel,
    executedTool, tool, declaredKindIsTool, declared, acted, free]

theorem classify_other (silent : Attrs.str a EVERDICT_ATTR.envAction = none) :
    classify runtime DEFAULT_SPAN_ATTR_KEYS span a = .other := by
  have operation : Attrs.str a GEN_AI.operationName = none := only.str (noOperation _ (by simp))
  have tool : Trace.pickStr a DEFAULT_SPAN_ATTR_KEYS.toolName = none :=
    only.pickStr fun key isKey => noOperation key (by simp [isKey])
  have declared : Trace.pickStr a SPAN_KIND_KEYS = none :=
    only.pickStr fun key isKey => noOperation key (by simp [isKey])
  unfold classify
  simp [only.plane, operation, only.model noModel, only.inTok noModel, only.outTok noModel,
    executedTool, tool, declaredKindIsTool, declared, silent]

end Plain

end Classes

/-- The keys that the projection asks for and a child of the kind does not have. -/
def EventKind.unread : EventKind → List String
  | .toolCall .. => GEN_AI.outputMessages :: "tool.result" :: modelKeys ++ IO_OUTPUT_KEYS
      ++ ARTIFACT_KEYS.ref
  | .llmCall .. => GEN_AI.outputMessages :: EVERDICT_ATTR.output :: GEN_AI.responseModel
      :: "mlflow.llm.model" :: "llm.model_name" :: "mlflow.chat.tokenUsage" :: "mlflow.llm.cost"
      :: "llm.token_count.prompt" :: "llm.token_count.completion" :: "gen_ai.usage.cost"
      :: ARTIFACT_KEYS.ref
  | .message .. => GEN_AI.outputMessages :: EVERDICT_ATTR.envAction :: modelKeys ++ operationKeys
      ++ ARTIFACT_KEYS.ref
  | .artifact .. => EVERDICT_ATTR.envAction :: modelKeys ++ operationKeys
      ++ DEFAULT_SPAN_ATTR_KEYS.messageText
  | .envAction .. => modelKeys ++ operationKeys ++ ARTIFACT_KEYS.ref
  | .error .. => EVERDICT_ATTR.envAction :: modelKeys ++ operationKeys
      ++ DEFAULT_SPAN_ATTR_KEYS.messageText ++ ARTIFACT_KEYS.ref
  | _ => []

theorem unread_absent (kind : EventKind) {key : String} (unread : key ∈ kind.unread) :
    key ∉ kind.names ++ COMMON_NAMES := by
  revert key
  rcases kind <;> dsimp only [EventKind.unread, EventKind.names] <;> decide +kernel

/-- No name of a kind is among those of `common`. -/
theorem names_uncommon (kind : EventKind) {key : String} (named : key ∈ kind.names) :
    key ∉ COMMON_NAMES := by
  revert key
  rcases kind <;> dsimp only [EventKind.names] <;> decide +kernel

variable {kind : EventKind}

theorem OnlyNames.lookup_unread {a : Attrs} (only : OnlyNames a kind.names) {key : String}
    (unread : key ∈ kind.unread) : a.lookup key = none :=
  only.absent key (unread_absent kind unread)

theorem OnlyNames.str_unread {a : Attrs} (only : OnlyNames a kind.names) {key : String}
    (unread : key ∈ kind.unread) : Attrs.str a key = none :=
  only.str (unread_absent kind unread)

theorem OnlyNames.pickStr_unread {a : Attrs} (only : OnlyNames a kind.names) {keys : List String}
    (unread : ∀ key ∈ keys, key ∈ kind.unread) :
    Trace.pickStr a keys = none :=
  only.pickStr fun key isKey => unread_absent kind (unread key isKey)

theorem noModel_names (unread : ∀ key ∈ modelKeys, key ∈ kind.unread) :
    NoModel kind.names :=
  fun key isKey => unread_absent kind (unread key isKey)

theorem artifactEvents_of_onlyNames {a : Attrs} {span : TraceSpan} {names : List String}
    (only : OnlyNames a names) (apart : ∀ key ∈ ARTIFACT_KEYS.ref, key ∉ names ++ COMMON_NAMES)
    (startMs : Int) : artifactEvents batch span a startMs = [] := by
  unfold artifactEvents
  rw [only.pickStr apart]

/-! ## Each kind of event, read back -/

section Kinds

variable {runtime : Runtime} {ctx : EventsToSpansContext} {events : List TraceEvent}
  {event : TraceEvent} {index : Nat} {batch : SpanBatchFacts}

variable {a : Attrs} (plain : ctx.Plain)
  (bag : readable (childOf runtime ctx events event index) = a)

include plain bag

theorem lookup_bag (key : String) :
    a.lookup key =
      ((childEntries runtime events event).lookup key).or ((common ctx).lookup key) := by
  rw [← bag, lookup_child plain]

theorem onlyNames_bag (harness : event.kind.isHarness = true) : OnlyNames a event.kind.names := by
  rw [← bag]
  exact onlyNames_child plain harness

theorem plain_bag (harness : event.kind.isHarness = true)
    (unread : modelKeys ++ operationKeys <:+: event.kind.unread) :
    OnlyNames a event.kind.names ∧ NoModel event.kind.names ∧ NoOperation event.kind.names :=
  ⟨onlyNames_bag plain bag harness,
    noModel_names fun _ isKey => unread.subset (List.mem_append_left _ isKey),
    fun _ isKey => unread_absent _ (unread.subset (List.mem_append_right _ isKey))⟩

theorem str_entry {key text : String}
    (said : (childEntries runtime events event).lookup key = some (.text text)) :
    Attrs.str a key = some text := by
  rw [Attrs.str, ← bag, lookup_entry plain said]
  rfl

theorem evidence_message {role : Role} {text : String}
    (kind : event.kind = .message role text) :
    evidence (projectSpan runtime DEFAULT_SPAN_ATTR_KEYS batch
        (childOf runtime ctx events event index)) =
      [(.message role text, some event.ms)] := by
  obtain ⟨only, noModel, noOperation⟩ := plain_bag plain bag (by rw [kind]; rfl)
    (by rw [kind]; exact ⟨[_, _], _, rfl⟩)
  have speaks : Attrs.str a EVERDICT_ATTR.messageRole = some role.name :=
    str_entry plain bag (by simp [childEntries, kind])
  have said : Attrs.str a EVERDICT_ATTR.output = some text :=
    str_entry plain bag (by simp [childEntries, kind, lookup_cons_eq, EVERDICT_ATTR.output,
      EVERDICT_ATTR.messageRole])
  have fails : failure events event = [] := by simp [failure, childStatus, kind]
  have chosen : pickStr a DEFAULT_SPAN_ATTR_KEYS.messageText = some text := by
    have other : Attrs.str _ GEN_AI.outputMessages = none :=
      only.str_unread (by simp [kind, EventKind.unread])
    simp [pickStr, DEFAULT_SPAN_ATTR_KEYS, other, said]
  have action : Attrs.str _ EVERDICT_ATTR.envAction = none :=
    only.str_unread (by simp [kind, EventKind.unread])
  rw [evidence_child, bag, fails, artifactEvents_of_onlyNames only fun _ isKey =>
    unread_absent _ (by simp [kind, EventKind.unread, isKey]), classEvents,
    classify_other only noModel noOperation action]
  simp only [otherEvents, chosen, speaker, speaks]
  rcases role <;>
    simp [evidence, structural, EventKind.evidence, TraceEvent.ms?, started_child, Role.name]

theorem evidence_artifact {name ref : String} {mediaType role : Option String}
    (kind : event.kind = .artifact name ref mediaType role) :
    evidence (projectSpan runtime DEFAULT_SPAN_ATTR_KEYS batch
        (childOf runtime ctx events event index)) =
      [(.artifact ref, some event.ms)] := by
  obtain ⟨only, noModel, noOperation⟩ := plain_bag plain bag (by rw [kind]; rfl)
    (by rw [kind]; exact ⟨[_], _, rfl⟩)
  have produced : Attrs.str a "artifact.ref" = some ref :=
    str_entry plain bag (by simp [childEntries, kind])
  have fails : failure events event = [] := by simp [failure, childStatus, kind]
  have chosen : pickStr a ARTIFACT_KEYS.ref = some ref := by
    simp [pickStr, ARTIFACT_KEYS.ref, produced]
  have action : Attrs.str _ EVERDICT_ATTR.envAction = none :=
    only.str_unread (by simp [kind, EventKind.unread])
  rw [evidence_child, bag, fails, artifactEvents, chosen, classEvents,
    classify_other only noModel noOperation action]
  have silent : pickStr _ DEFAULT_SPAN_ATTR_KEYS.messageText = none :=
    only.pickStr_unread fun _ isKey => by simp [kind, EventKind.unread, isKey]
  simp only [otherEvents, chosen, silent]
  simp [evidence, pointOf, EventKind.evidence, TraceEvent.ms?, started_child]

theorem evidence_envAction {action : String} {detail : Option Value}
    (kind : event.kind = .envAction action detail)
    (free : action ∉ RESERVED_OBSERVATION_ACTIONS) :
    evidence (projectSpan runtime DEFAULT_SPAN_ATTR_KEYS batch
        (childOf runtime ctx events event index)) =
      [(.envAction action, some event.ms)] := by
  obtain ⟨only, noModel, noOperation⟩ := plain_bag plain bag (by rw [kind]; rfl)
    (by rw [kind]; exact ⟨[], _, rfl⟩)
  have acted : Attrs.str a EVERDICT_ATTR.envAction = some action :=
    str_entry plain bag (by simp [childEntries, kind])
  have fails : failure events event = [] := by simp [failure, childStatus, kind]
  rw [evidence_child, bag, fails, artifactEvents_of_onlyNames only fun _ isKey =>
    unread_absent _ (by simp [kind, EventKind.unread, isKey]), classEvents,
    classify_envAction only noModel noOperation acted free]
  simp [evidence, structural, EventKind.evidence, TraceEvent.ms?, started_child]

theorem evidence_error {text : String} (kind : event.kind = .error text) :
    evidence (projectSpan runtime DEFAULT_SPAN_ATTR_KEYS batch
        (childOf runtime ctx events event index)) =
      [(.error text, some event.ms)] := by
  obtain ⟨only, noModel, noOperation⟩ := plain_bag plain bag (by rw [kind]; rfl)
    (by rw [kind]; exact ⟨[_], _, rfl⟩)
  have fails : failure events event = [(.error text, some event.ms)] := by
    simp [failure, childStatus, kind, endMs]
  have action : Attrs.str _ EVERDICT_ATTR.envAction = none :=
    only.str_unread (by simp [kind, EventKind.unread])
  rw [evidence_child, bag, fails, artifactEvents_of_onlyNames only fun _ isKey =>
    unread_absent _ (by simp [kind, EventKind.unread, isKey]), classEvents,
    classify_other only noModel noOperation action]
  have silent : pickStr _ DEFAULT_SPAN_ATTR_KEYS.messageText = none :=
    only.pickStr_unread fun _ isKey => by simp [kind, EventKind.unread, isKey]
  have nothing : pickStr _ ARTIFACT_KEYS.ref = none := only.pickStr_unread fun _ isKey => by
    simp [kind, EventKind.unread, isKey]
  simp only [otherEvents, silent, nothing]
  simp [evidence, structural, EventKind.evidence]

/-- The result that a call is read back with. -/
def foldedResult (events : List TraceEvent) (id : String) : Evidence :=
  .toolResult id (((resultAt events id).map (·.ok)).getD true)
    (((resultAt events id).map (·.output)).getD "")

theorem evidence_toolCall {id name : String} {args : Option Value}
    (kind : event.kind = .toolCall id name args) :
    evidence (projectSpan runtime DEFAULT_SPAN_ATTR_KEYS batch
        (childOf runtime ctx events event index)) =
      [(.toolCall id name, some event.ms),
        (foldedResult events id, some (truncate (endMs events event)))] ++
          failure events event := by
  have only : OnlyNames a event.kind.names := onlyNames_bag plain bag (by rw [kind]; rfl)
  have noModel : NoModel event.kind.names :=
    noModel_names fun _ isKey => by simp [kind, EventKind.unread, isKey]
  have operation : Attrs.str a GEN_AI.operationName = some GEN_AI_OPERATION.executeTool :=
    str_entry plain bag (by simp [childEntries, kind])
  have tool : Attrs.str a GEN_AI.toolName = some name :=
    str_entry plain bag (by
      simp [childEntries, kind, lookup_cons_eq, GEN_AI.toolName, GEN_AI.operationName])
  have called : Attrs.str a GEN_AI.toolCallId = some id :=
    str_entry plain bag (by
      simp [childEntries, kind, lookup_cons_eq, GEN_AI.toolName, GEN_AI.operationName,
        GEN_AI.toolCallId])
  have result : Attrs.str a EVERDICT_ATTR.output = (resultAt events id).map (·.output) := by
    rw [Attrs.str, lookup_bag plain bag,
      lookup_common_of_absent (names_uncommon event.kind (by simp [kind, EventKind.names]))]
    simp only [childEntries, kind, List.lookup_append, lookup_textEntry, lookup_cons_eq]
    rcases resultAt events id with _ | answer <;>
      simp [EVERDICT_ATTR.output, EVERDICT_ATTR.input, GEN_AI.operationName, GEN_AI.toolName,
        GEN_AI.toolCallId, Value.text?]
  have identified : pickStr a DEFAULT_SPAN_ATTR_KEYS.toolCallId = some id := by
    simp [pickStr, DEFAULT_SPAN_ATTR_KEYS, called]
  have answered : pickStr a DEFAULT_SPAN_ATTR_KEYS.toolResult =
      (resultAt events id).map (·.output) := by
    have other : Attrs.str _ GEN_AI.outputMessages = none :=
      only.str_unread (by simp [kind, EventKind.unread])
    have other' : Attrs.str _ "tool.result" = none :=
      only.str_unread (by simp [kind, EventKind.unread])
    simp [pickStr, DEFAULT_SPAN_ATTR_KEYS, other, other', result]
  have bare : firstDefined _ IO_OUTPUT_KEYS = none :=
    only.firstDefined fun _ isKey => unread_absent _ (by simp [kind, EventKind.unread, isKey])
  have fails : statusIsError (childOf runtime ctx events event index) =
      !((resultAt events id).map (·.ok)).getD true := by
    have status : (childOf runtime ctx events event index).status = childStatus events event := rfl
    rw [statusIsError, status]
    simp only [childStatus, kind]
    rcases resultAt events id with _ | answer
    · rfl
    · rcases ok : answer.ok <;> simp [ok]
  rw [evidence_child, bag, artifactEvents_of_onlyNames only fun _ isKey =>
    unread_absent _ (by simp [kind, EventKind.unread, isKey]), classEvents,
    classify_toolCall only noModel operation tool]
  simp only [toolEvents, identified, answered, bare, fails, Bool.not_not, asText]
  have ended : (childOf runtime ctx events event index).endedAt.ms =
      some (truncate (endMs events event)) := rfl
  simp [evidence, structural, closing, pointOf, EventKind.evidence, TraceEvent.ms?, started_child,
    ended, foldedResult]

section Llm

variable {model : String} {cost : Option Cost} {latencyMs : Option ℚ}

theorem named_llmCall (kind : event.kind = .llmCall model cost latencyMs)
    (only : OnlyNames a event.kind.names) :
    (pickStr a DEFAULT_SPAN_ATTR_KEYS.model).getD UNKNOWN_MODEL =
        if model = "" then UNKNOWN_MODEL else model := by
  have other : Attrs.str _ GEN_AI.responseModel = none :=
    only.str_unread (by simp [kind, EventKind.unread])
  have other' : Attrs.str _ "mlflow.llm.model" = none :=
    only.str_unread (by simp [kind, EventKind.unread])
  have other'' : Attrs.str _ "llm.model_name" = none :=
    only.str_unread (by simp [kind, EventKind.unread])
  have asked : Attrs.str a GEN_AI.requestModel =
      if model = "" ∨ model = UNKNOWN_MODEL then none else some model := by
    rw [Attrs.str, lookup_bag plain bag,
      lookup_common_of_absent (names_uncommon event.kind (by simp [kind, EventKind.names]))]
    simp only [childEntries, kind, List.lookup_append]
    rcases cost with _ | cost <;> split_ifs <;>
      simp_all [costEntries, lookup_cons_eq, GEN_AI.requestModel, GEN_AI.operationName,
        GEN_AI.inputTokens, GEN_AI.outputTokens, EVERDICT_ATTR.costUsd, Value.text?]
  simp only [pickStr, DEFAULT_SPAN_ATTR_KEYS, List.findSome?_cons, List.findSome?_nil, other,
    other', other'', asked]
  by_cases empty : model = ""
  · simp [empty]
  · by_cases unknown : model = UNKNOWN_MODEL <;> simp [empty, unknown]

/-- A number of the cost is read under its key. -/
theorem pickNum_llmCall (kind : event.kind = .llmCall model cost latencyMs)
    {key other : String} {part : Cost → JsNumber}
    (said : (costEntries cost).lookup key = cost.map fun cost => Value.number (part cost))
    (named : key ∈ event.kind.names)
      (apart : key ≠ GEN_AI.operationName ∧ key ≠ GEN_AI.requestModel)
    (absent : a.lookup other = none) :
    pickNum runtime a [key, other] =
      cost.map part := by
  obtain ⟨notOperation, notModel⟩ := apart
  have notCommon : key ∉ COMMON_NAMES := names_uncommon event.kind named
  have entry : (childEntries runtime events event).lookup key = (costEntries cost).lookup key := by
    simp only [childEntries, kind, List.lookup_append, lookup_cons_eq, if_neg notOperation,
      List.lookup_nil, Option.none_or]
    split_ifs <;> simp [lookup_cons_eq, notModel]
  simp only [pickNum, List.findSome?_cons, List.findSome?_nil, absent, lookup_bag plain bag key,
    entry, said, lookup_common_of_absent notCommon]
  rcases cost with _ | cost <;> rfl

theorem evidence_llmCall (kind : event.kind = .llmCall model cost latencyMs) :
    evidence (projectSpan runtime DEFAULT_SPAN_ATTR_KEYS batch
        (childOf runtime ctx events event index)) =
      [(.llmCall (if model = "" then UNKNOWN_MODEL else model)
        (some (cost.getD ⟨.finite 0, .finite 0, .finite 0⟩)), some event.ms)] := by
  have only : OnlyNames a event.kind.names := onlyNames_bag plain bag (by rw [kind]; rfl)
  have operation : Attrs.str a GEN_AI.operationName = some GEN_AI_OPERATION.chat :=
    str_entry plain bag (by simp [childEntries, kind])
  have fails : failure events event = [] := by simp [failure, childStatus, kind]
  have input : pickNum runtime a DEFAULT_SPAN_ATTR_KEYS.inputTokens = cost.map (·.inputTokens) :=
    pickNum_llmCall plain bag kind (by rcases cost with _ | cost <;> rfl)
      (by simp [kind, EventKind.names]) (by decide)
      (only.lookup_unread (by simp [kind, EventKind.unread]))
  have output : pickNum runtime a DEFAULT_SPAN_ATTR_KEYS.outputTokens = cost.map (·.outputTokens) :=
    pickNum_llmCall plain bag kind (by rcases cost with _ | cost <;> rfl)
      (by simp [kind, EventKind.names]) (by decide)
      (only.lookup_unread (by simp [kind, EventKind.unread]))
  have spent : pickNum runtime a DEFAULT_SPAN_ATTR_KEYS.costUsd = cost.map (·.usd) :=
    pickNum_llmCall plain bag kind (by rcases cost with _ | cost <;> rfl)
      (by simp [kind, EventKind.names]) (by decide)
      (only.lookup_unread (by simp [kind, EventKind.unread]))
  have usage : List.lookup "mlflow.chat.tokenUsage" _ = none :=
    only.lookup_unread (by simp [kind, EventKind.unread])
  have price : List.lookup "mlflow.llm.cost" _ = none :=
    only.lookup_unread (by simp [kind, EventKind.unread])
  have answer : outputText a = none := by
    have other : Attrs.str _ GEN_AI.outputMessages = none :=
      only.str_unread (by simp [kind, EventKind.unread])
    have other' : Attrs.str _ EVERDICT_ATTR.output = none :=
      only.str_unread (by simp [kind, EventKind.unread])
    rw [outputText, other, other']
    rfl
  rw [evidence_child, bag, fails, artifactEvents_of_onlyNames only fun _ isKey =>
    unread_absent _ (by simp [kind, EventKind.unread, isKey]), classEvents,
    classify_chat only operation]
  simp only [chatEvents, llmCall, named_llmCall plain bag kind only, answer, inTok, outTok, usd,
    input, output, spent, nested, usage, price]
  rcases cost with _ | cost <;>
    simp [evidence, structural, EventKind.evidence, TraceEvent.ms?, started_child]

end Llm

end Kinds

end Everdict.Trace