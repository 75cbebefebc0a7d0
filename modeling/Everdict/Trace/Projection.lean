import Everdict.Sorting
import Everdict.Trace.Events

/-!
# The projection of spans to events

`spansToEvents` sorts the spans by their start, projects each of them, and sorts the events
by their time.  What it reads off the whole batch, the origin of the times and whether any
chat span carries its own tokens, is `SpanBatchFacts`: a reader of a page passes the facts of
the plane.

The `else if` chain of the source is `classify`; every other part of a span's projection
depends on its class alone.
-/

namespace Everdict.Trace

open Sorting (sortBy)
open Submission (JsNumber)

/-! ## Attribute keys -/

namespace GEN_AI

def operationName : String := "gen_ai.operation.name"
def requestModel : String := "gen_ai.request.model"
def responseModel : String := "gen_ai.response.model"
def inputTokens : String := "gen_ai.usage.input_tokens"
def outputTokens : String := "gen_ai.usage.output_tokens"
def toolName : String := "gen_ai.tool.name"
def toolCallId : String := "gen_ai.tool.call.id"
def agentName : String := "gen_ai.agent.name"
def inputMessages : String := "gen_ai.input.messages"
def outputMessages : String := "gen_ai.output.messages"

end GEN_AI

namespace GEN_AI_OPERATION

def chat : String := "chat"
def executeTool : String := "execute_tool"
def invokeAgent : String := "invoke_agent"

end GEN_AI_OPERATION

namespace EVERDICT_ATTR

def plane : String := "everdict.plane"
def costUsd : String := "everdict.cost.usd"
def input : String := "everdict.input"
def output : String := "everdict.output"
def semconv : String := "everdict.semconv"
def assembled : String := "everdict.assembled"
def messageRole : String := "everdict.message.role"
def logStream : String := "everdict.log.stream"
def envAction : String := "everdict.env_action"

end EVERDICT_ATTR

def errorTypeAttr : String := "error.type"

/-- The value of `everdict.plane` on the orchestrator's own spans. -/
def placementPlane : String := "placement"

def UNKNOWN_MODEL : String := "unknown"

/-- The attribute keys to try for each field, in order. -/
structure SpanAttrMapping where
  model : List String := []
  inputTokens : List String := []
  outputTokens : List String := []
  costUsd : List String := []
  toolName : List String := []
  toolCallId : List String := []
  toolArgs : List String := []
  toolResult : List String := []
  messageText : List String := []

def DEFAULT_SPAN_ATTR_KEYS : SpanAttrMapping where
  model := [GEN_AI.requestModel, GEN_AI.responseModel, "mlflow.llm.model", "llm.model_name"]
  inputTokens := [GEN_AI.inputTokens, "llm.token_count.prompt"]
  outputTokens := [GEN_AI.outputTokens, "llm.token_count.completion"]
  costUsd := [EVERDICT_ATTR.costUsd, "gen_ai.usage.cost"]
  toolName := [GEN_AI.toolName, "tool.name"]
  toolCallId := [GEN_AI.toolCallId, "tool.call_id"]
  toolArgs := ["tool.arguments", GEN_AI.inputMessages, EVERDICT_ATTR.input]
  toolResult := ["tool.result", GEN_AI.outputMessages, EVERDICT_ATTR.output]
  messageText := [GEN_AI.outputMessages, EVERDICT_ATTR.output, "message.content", "output.value"]

/-- The keys of the mapping before the default ones. -/
def SpanAttrMapping.keys (mapping : SpanAttrMapping) : SpanAttrMapping where
  model := mapping.model ++ DEFAULT_SPAN_ATTR_KEYS.model
  inputTokens := mapping.inputTokens ++ DEFAULT_SPAN_ATTR_KEYS.inputTokens
  outputTokens := mapping.outputTokens ++ DEFAULT_SPAN_ATTR_KEYS.outputTokens
  costUsd := mapping.costUsd ++ DEFAULT_SPAN_ATTR_KEYS.costUsd
  toolName := mapping.toolName ++ DEFAULT_SPAN_ATTR_KEYS.toolName
  toolCallId := mapping.toolCallId ++ DEFAULT_SPAN_ATTR_KEYS.toolCallId
  toolArgs := mapping.toolArgs ++ DEFAULT_SPAN_ATTR_KEYS.toolArgs
  toolResult := mapping.toolResult ++ DEFAULT_SPAN_ATTR_KEYS.toolResult
  messageText := mapping.messageText ++ DEFAULT_SPAN_ATTR_KEYS.messageText

def SPAN_KIND_KEYS : List String :=
  ["mlflow.spanType", "openinference.span.kind", "span.kind", "traceloop.span.kind"]

def IO_INPUT_KEYS : List String :=
  ["mlflow.spanInputs", "input.value", "gen_ai.prompt", "llm.input_messages", "input"]

def IO_OUTPUT_KEYS : List String :=
  ["mlflow.spanOutputs", "output.value", "gen_ai.completion", "llm.output_messages", "output"]

namespace ARTIFACT_KEYS

def ref : List String := ["artifact.ref", "artifact.uri", "mlflow.artifact.uri"]
def name : List String := ["artifact.name"]
def mediaType : List String := ["artifact.media_type", "artifact.mediaType"]
def role : List String := ["artifact.role"]

end ARTIFACT_KEYS

def RESERVED_OBSERVATION_ACTIONS : List String :=
  ["platform_observation_sample", "platform_observation_channel"]

/-! ## Reading a bag -/

section Reading

variable (runtime : Runtime)

def num : Value → Option JsNumber
  | .number value => some value
  | .text value => runtime.numberOf value
  | _ => none

def Attrs.str (a : Attrs) (key : String) : Option String := (a.lookup key).bind Value.text?

def pickStr (a : Attrs) (keys : List String) : Option String := keys.findSome? (Attrs.str a)

def pickNum (a : Attrs) (keys : List String) : Option JsNumber :=
  keys.findSome? fun key => (a.lookup key).bind (num runtime)

def firstDefined (a : Attrs) (keys : List String) : Option Value :=
  keys.findSome? fun key => a.lookup key

def asText : Option Value → String
  | none => ""
  | some (.text value) => value
  | some value => stringify runtime.toText value

def notNull : Value → Bool
  | .null => false
  | _ => true

/-- A text that is there and not empty. -/
def truthy (text : Option String) : Option String := text.filter fun s => s ≠ ""

/-- Does the text hold the other one? -/
def includes (s part : String) : Bool := s.toList.tails.any part.toList.isPrefixOf

def declaredKindIsTool (a : Attrs) : Bool :=
  ((pickStr a SPAN_KIND_KEYS).map runtime.upper).any fun declared =>
    includes declared "TOOL" || includes declared "FUNCTION"

/-- The span's own bag over its resource bag. -/
def readable (span : TraceSpan) : Attrs := span.attributes ++ span.resource.getD []

/-- MLflow's nested object under the key, empty where there is none. -/
def nested (a : Attrs) (key field : String) : Option Value :=
  (a.lookup key).bind (Value.field? field)

end Reading

/-! ## The facts of a batch -/

structure SpanBatchFacts where
  baseMs : Int
  perCallTokens : Bool
  deriving DecidableEq

def sortSpansForProjection (spans : List TraceSpan) : List TraceSpan :=
  sortBy (fun span => span.startedAt.ms.getD 0) spans

/-- A chat span that carries its own token counts. -/
def carriesTokens (runtime : Runtime) (span : TraceSpan) : Bool :=
  let sa := readable span
  Attrs.str sa GEN_AI.operationName = some GEN_AI_OPERATION.chat &&
    ((pickNum runtime sa DEFAULT_SPAN_ATTR_KEYS.inputTokens).isSome ||
      (pickNum runtime sa DEFAULT_SPAN_ATTR_KEYS.outputTokens).isSome)

def spanBatchFacts (runtime : Runtime) (spans : List TraceSpan) : SpanBatchFacts :=
  let sorted := sortSpansForProjection spans
  { baseMs := (sorted.head?.bind (·.startedAt.ms)).getD 0
    perCallTokens := sorted.any (carriesTokens runtime) }

/-! ## The projection of one span -/

/-- The arm of the chain that a span takes, with what the arm has read. -/
inductive SpanClass where
  | placement
  | invokeAgent
  | chat
  | tool (name : String)
  | envAction (action : String)
  | other
  deriving DecidableEq

section Span

variable (runtime : Runtime) (keys : SpanAttrMapping) (batch : SpanBatchFacts)
  (span : TraceSpan)

def inTok (a : Attrs) : Option JsNumber :=
  (pickNum runtime a keys.inputTokens).or
    ((nested a "mlflow.chat.tokenUsage" "input_tokens").bind (num runtime))

def outTok (a : Attrs) : Option JsNumber :=
  (pickNum runtime a keys.outputTokens).or
    ((nested a "mlflow.chat.tokenUsage" "output_tokens").bind (num runtime))

def usd (a : Attrs) : JsNumber :=
  ((pickNum runtime a keys.costUsd).or
    ((nested a "mlflow.llm.cost" "total_cost").bind (num runtime))).getD (.finite 0)

/-- `toolName`: only of a span that declares itself a tool's execution. -/
def executedTool (a : Attrs) : Option String :=
  if Attrs.str a GEN_AI.operationName = some GEN_AI_OPERATION.executeTool then
    some ((pickStr a keys.toolName).getD span.name)
  else none

def classify (a : Attrs) : SpanClass :=
  let operation := Attrs.str a GEN_AI.operationName
  if Attrs.str a EVERDICT_ATTR.plane = some placementPlane then .placement
  else if operation = some GEN_AI_OPERATION.invokeAgent then .invokeAgent
  else if operation = some GEN_AI_OPERATION.chat || (pickStr a keys.model).isSome
      || (inTok runtime keys a).isSome || (outTok runtime keys a).isSome then .chat
  else
    match (executedTool keys span a).or (pickStr a keys.toolName) with
    | some name => .tool name
    | none =>
        if declaredKindIsTool runtime a then .tool span.name
        else
          match Attrs.str a EVERDICT_ATTR.envAction with
          | some action =>
              if action ∈ RESERVED_OBSERVATION_ACTIONS then .other else .envAction action
          | none => .other

def durationMs (startMs : Int) : ℚ :=
  match span.endedAt.ms with
  | some endMs => if startMs < endMs then ((endMs - startMs : Int) : ℚ) else 0
  | none => 0

/-- An event that carries the structure of its span. -/
def structural (startMs : Int) (kind : EventKind) : TraceEvent where
  t := ((startMs - batch.baseMs : Int) : ℚ)
  stamp := some span.startedAt
  spanId := some span.spanId
  parentId := span.parentSpanId
  durationMs := some (durationMs span startMs)
  kind

/-- An event under the span, at an instant of its own. -/
def pointOf (ms : Int) (stamp : Stamp) (kind : EventKind) : TraceEvent where
  t := ((ms - batch.baseMs : Int) : ℚ)
  stamp := some stamp
  parentId := some span.spanId
  kind

/-- An event at the end of the span, or at its start where the end is no date. -/
def closing (startMs : Int) (kind : EventKind) : TraceEvent :=
  pointOf batch span (span.endedAt.ms.getD startMs) span.endedAt kind

def artifactEvents (a : Attrs) (startMs : Int) : List TraceEvent :=
  match pickStr a ARTIFACT_KEYS.ref with
  | none => []
  | some ref =>
      [pointOf batch span startMs span.startedAt
        (.artifact ((pickStr a ARTIFACT_KEYS.name).getD span.name) ref
          (truthy (pickStr a ARTIFACT_KEYS.mediaType)) (truthy (pickStr a ARTIFACT_KEYS.role)))]

def llmCall (a : Attrs) (startMs : Int) : TraceEvent :=
  structural batch span startMs
    (.llmCall ((pickStr a keys.model).getD UNKNOWN_MODEL)
      (some ⟨(inTok runtime keys a).getD (.finite 0), (outTok runtime keys a).getD (.finite 0),
        usd runtime keys a⟩)
      (some (durationMs span startMs)))

def infraEvents (a : Attrs) (startMs : Int) : List TraceEvent :=
  let pod := truthy ((Attrs.str a "k8s_pod_name").or (Attrs.str a "k8s.pod.name"))
  let host := truthy ((Attrs.str a "k8s.node.name").or (Attrs.str a "host.name"))
  let nodeName := (a.lookup "k8s.node.name").filter notNull
  [structural batch span startMs
    (.infra .placement (if span.name ≠ "" then some span.name else none)
      (((pickStr a IO_OUTPUT_KEYS).or (span.status.bind (·.message))).getD span.name)
      (pod.map fun _ => asText runtime (a.lookup "k8s.pod.name"))
      (host.map fun _ => asText runtime (nodeName.or (a.lookup "host.name"))))]

/-- `messageRole` on the span, with the speaker where it names no other. -/
def speaker (a : Attrs) (other default : Role) : Role :=
  if Attrs.str a EVERDICT_ATTR.messageRole = some other.name then other else default

def agentEvents (a : Attrs) (startMs : Int) : List TraceEvent :=
  let input := (Attrs.str a GEN_AI.inputMessages).or (Attrs.str a EVERDICT_ATTR.input)
  let aggregated := (inTok runtime keys a).isSome || (outTok runtime keys a).isSome
  [structural batch span startMs (.span span.name (some span.attributes))]
    ++ (input.map fun text =>
      pointOf batch span startMs span.startedAt (.message (speaker a .assistant .user) text)).toList
    ++ (if !batch.perCallTokens && aggregated then [llmCall runtime keys batch span a startMs]
      else [])

/-- What a chat span answered. -/
def outputText (a : Attrs) : Option String :=
  (Attrs.str a GEN_AI.outputMessages).or (Attrs.str a EVERDICT_ATTR.output)

def chatEvents (a : Attrs) (startMs : Int) : List TraceEvent :=
  [llmCall runtime keys batch span a startMs]
    ++ ((outputText a).map fun text =>
      closing batch span startMs (.message (speaker a .user .assistant) text)).toList

def statusIsError : Bool := span.status.any fun status => status.code = .error

def toolEvents (a : Attrs) (startMs : Int) (name : String) : List TraceEvent :=
  let id := (pickStr a keys.toolCallId).getD span.spanId
  [structural batch span startMs
      (.toolCall id name (firstDefined a (keys.toolArgs ++ IO_INPUT_KEYS))),
    closing batch span startMs
      (.toolResult id (!statusIsError span)
        ((pickStr a keys.toolResult).getD (asText runtime (firstDefined a IO_OUTPUT_KEYS))))]

def otherEvents (a : Attrs) (startMs : Int) : List TraceEvent :=
  match pickStr a keys.messageText with
  | some text => [structural batch span startMs (.message (speaker a .user .assistant) text)]
  | none =>
      if (pickStr a ARTIFACT_KEYS.ref).isNone then
        [structural batch span startMs (.span span.name (some span.attributes))]
      else []

def classEvents (a : Attrs) (startMs : Int) : List TraceEvent :=
  match classify runtime keys span a with
  | .placement => infraEvents runtime batch span a startMs
  | .invokeAgent => agentEvents runtime keys batch span a startMs
  | .chat => chatEvents runtime keys batch span a startMs
  | .tool name => toolEvents runtime keys batch span a startMs name
  | .envAction action =>
      [structural batch span startMs (.envAction action (a.lookup EVERDICT_ATTR.input))]
  | .other => otherEvents keys batch span a startMs

def errorEvents (a : Attrs) (startMs : Int) : List TraceEvent :=
  if statusIsError span then
    let name := span.name
    [closing batch span startMs
      (.error (((span.status.bind (·.message)).or (Attrs.str a errorTypeAttr)).getD
        s!"{name} failed"))]
  else []

def eventDetail (attributes : Option Attrs) : String :=
  match attributes with
  | none | some [] => ""
  | some fields => ": " ++ asText runtime (some (.object fields))

/-- What a point inside the span says. -/
def pointKind (placement : Bool) (event : SpanEvent) : EventKind :=
  let attributes := event.attributes.getD []
  let message := (attributes.lookup "message").filter notNull
  if placement then
    .infra .placement (some event.name) (asText runtime (some (message.getD (.text event.name))))
      none none
  else if event.name = "log" then
    .log (if Attrs.str attributes EVERDICT_ATTR.logStream = some LogStream.stderr.name then .stderr
        else .stdout)
      (asText runtime (some (message.getD (.text ""))))
  else .log .stdout (event.name ++ eventDetail runtime event.attributes)

def pointEvents (a : Attrs) : List TraceEvent :=
  span.events.filterMap fun event =>
    event.stamp.ms.map fun ms =>
      pointOf batch span ms event.stamp
        (pointKind runtime (Attrs.str a EVERDICT_ATTR.plane = some placementPlane) event)

/-- The body of the loop; an undatable span is dropped. -/
def projectSpan : List TraceEvent :=
  match span.startedAt.ms with
  | none => []
  | some startMs =>
      let a := readable span
      artifactEvents batch span a startMs
        ++ classEvents runtime keys batch span a startMs
        ++ errorEvents batch span a startMs
        ++ pointEvents runtime batch span a

end Span

structure SpansToEventsOptions where
  mapping : SpanAttrMapping := {}
  batch : Option SpanBatchFacts := none

def spansToEvents (runtime : Runtime) (spans : List TraceSpan) (opts : SpansToEventsOptions) :
    List TraceEvent :=
  let sorted := sortSpansForProjection spans
  let batch := opts.batch.getD (spanBatchFacts runtime sorted)
  sortBy (·.t) (sorted.flatMap (projectSpan runtime opts.mapping.keys batch))

end Everdict.Trace
