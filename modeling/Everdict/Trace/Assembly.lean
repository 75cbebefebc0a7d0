import Everdict.Trace.Projection

/-!
# Assembling spans from a stream of events

`eventsToSpans` puts a root span over the stream and makes a child of every event but two
kinds: a tool result is folded into the call of its id, and a log line is a point of the
root.  A stream with an event that has no absolute time is refused as a whole, and an end
that is no date throws.
-/

namespace Everdict.Trace

open Submission (JsNumber)

def GENAI_SEMCONV_VERSION : String := "1.37.0"

inductive TracePlane where
  | agent
  | placement
  | service
  | eval
  deriving DecidableEq

def TracePlane.name : TracePlane → String
  | .agent => "agent"
  | .placement => placementPlane
  | .service => "service"
  | .eval => "eval"

/-- `newSpanId n` is the id that the factory mints as its `n`-th. -/
structure EventsToSpansContext where
  traceId : String
  parentSpanId : Option String := none
  agentName : String
  plane : Option TracePlane := none
  resource : Option Attrs := none
  newSpanId : Nat → String

/-- The last instant a `Date` has. -/
def MAX_DATE_MS : ℚ := 8640000000000000

/-- A `Date` drops the fraction of its milliseconds. -/
def truncate (ms : ℚ) : Int := ms.num.tdiv ms.den

def iso (runtime : Runtime) (ms : ℚ) : Except String Stamp :=
  if |ms| ≤ MAX_DATE_MS then
    .ok ⟨runtime.isoText (truncate ms), some (truncate ms)⟩
  else .error "Invalid time value"

def textOf (runtime : Runtime) : Value → String
  | .text value => value
  | value => stringify runtime.toText value

def TraceEvent.ms? (event : TraceEvent) : Option Int := event.stamp.bind (·.ms)

/-- `at(index)` of the event. -/
def TraceEvent.ms (event : TraceEvent) : Int := event.ms?.getD 0

/-! ## Results -/

structure ToolAnswer where
  ms : Int
  ok : Bool
  output : String
  deriving DecidableEq

/-- What the event answers to the call of the id. -/
def TraceEvent.answerTo (id : String) (event : TraceEvent) : Option ToolAnswer :=
  match event.kind with
  | .toolResult id' ok output => if id' = id then some ⟨event.ms, ok, output⟩ else none
  | _ => none

/-- All answers to the id, in the order of the stream. -/
def answersTo (events : List TraceEvent) (id : String) : List ToolAnswer :=
  events.filterMap (TraceEvent.answerTo id)

/-- The map keeps the last answer to an id. -/
def resultAt (events : List TraceEvent) (id : String) : Option ToolAnswer :=
  (answersTo events id).getLast?

/-! ## Spans -/

section Spans

variable (runtime : Runtime) (ctx : EventsToSpansContext) (events : List TraceEvent)

def common : Attrs :=
  [(EVERDICT_ATTR.assembled, .bool true), (EVERDICT_ATTR.semconv, .text GENAI_SEMCONV_VERSION)]
    ++ (ctx.plane.map fun plane => (EVERDICT_ATTR.plane, Value.text plane.name)).toList

/-- When a call of the id ends that starts here. -/
def callEnd (id : String) (startMs : Int) (durationMs : Option ℚ) : ℚ :=
  match resultAt events id with
  | some result => if startMs < result.ms then result.ms else startMs + durationMs.getD 0
  | none => startMs + durationMs.getD 0

def endMs (event : TraceEvent) : ℚ :=
  match event.kind with
  | .toolCall id _ _ => callEnd events id event.ms event.durationMs
  | .llmCall _ _ latencyMs => event.ms + (event.durationMs.or latencyMs).getD 0
  | .envAction .. | .span .. | .infra .. => event.ms + event.durationMs.getD 0
  | .message .. | .artifact .. | .error .. | .log .. | .toolResult .. => event.ms

def childName (event : TraceEvent) : String :=
  match event.kind with
  | .toolCall _ name _ => GEN_AI_OPERATION.executeTool ++ " " ++ name
  | .llmCall model _ _ => Text.trim (GEN_AI_OPERATION.chat ++ " " ++ model)
  | .message role _ => "message " ++ role.name
  | .artifact name _ _ _ => name
  | .envAction action _ => action
  | .error _ => "error"
  | .span name _ => name
  | .infra .. => "infra"
  | .toolResult .. => "tool_result"
  | .log .. => "log"

def textEntry (key : String) (text : Option String) : Attrs :=
  (text.map fun text => (key, Value.text text)).toList

def costEntries : Option Cost → Attrs
  | none => []
  | some cost =>
      [(GEN_AI.inputTokens, .number cost.inputTokens),
        (GEN_AI.outputTokens, .number cost.outputTokens),
        (EVERDICT_ATTR.costUsd, .number cost.usd)]

/-- What a child says on top of `common`. -/
def childEntries (event : TraceEvent) : Attrs :=
  match event.kind with
  | .toolCall id name args =>
      [(GEN_AI.operationName, .text GEN_AI_OPERATION.executeTool), (GEN_AI.toolName, .text name),
          (GEN_AI.toolCallId, .text id)]
        ++ textEntry EVERDICT_ATTR.input (args.map (textOf runtime))
        ++ textEntry EVERDICT_ATTR.output ((resultAt events id).map (·.output))
  | .llmCall model cost _ =>
      [(GEN_AI.operationName, .text GEN_AI_OPERATION.chat)]
        ++ (if model = "" || model = UNKNOWN_MODEL then []
          else [(GEN_AI.requestModel, .text model)])
        ++ costEntries cost
  | .message role text =>
      [(EVERDICT_ATTR.messageRole, .text role.name), (EVERDICT_ATTR.output, .text text)]
  | .artifact name ref mediaType role =>
      [("artifact.ref", .text ref), ("artifact.name", .text name)]
        ++ textEntry "artifact.media_type" (truthy mediaType)
        ++ textEntry "artifact.role" (truthy role)
  | .envAction action detail =>
      [(EVERDICT_ATTR.envAction, .text action)]
        ++ textEntry EVERDICT_ATTR.input (detail.map (textOf runtime))
  | .error _ => [(errorTypeAttr, .text "harness")]
  | .span _ attributes => attributes.getD []
  | .infra .. | .toolResult .. | .log .. => []

def childStatus (event : TraceEvent) : Option SpanStatus :=
  match event.kind with
  | .toolCall id _ _ =>
      match resultAt events id with
      | some result =>
          if result.ok then some ⟨.ok, none⟩
          else some ⟨.error, some (Text.sliceTo result.output 2000)⟩
      | none => some ⟨.ok, none⟩
  | .error message => some ⟨.error, some message⟩
  | _ => none

/-- An event that is no interval of its own: a result is folded into its call, a log line
becomes a point of the root. -/
def TraceEvent.folds (event : TraceEvent) : Bool :=
  match event.kind with
  | .toolResult .. | .log .. => true
  | _ => false

def childSpan (event : TraceEvent) (index : Nat) : Except String (Option TraceSpan) := do
  let startedAt ← iso runtime event.ms
  if event.folds then return none
  let endedAt ← iso runtime (endMs events event)
  return some {
    traceId := ctx.traceId
    spanId := ctx.newSpanId (index + 1)
    parentSpanId := some (ctx.newSpanId 0)
    name := childName event
    startedAt
    endedAt
    attributes := (common ctx).spread (childEntries runtime events event)
    status := childStatus events event
    resource := ctx.resource }

def rootPoint (event : TraceEvent) : Except String (Option SpanEvent) :=
  match event.kind with
  | .log stream text => do
      let stamp ← iso runtime event.ms
      return some {
        name := "log"
        stamp
        attributes := some
          [(EVERDICT_ATTR.logStream, .text stream.name), ("message", .text text)] }
  | _ => return none

def TraceEvent.isError (event : TraceEvent) : Bool :=
  match event.kind with
  | .error _ => true
  | _ => false

def rootSpan (startedAt endedAt : Stamp) (points : List SpanEvent) : TraceSpan where
  traceId := ctx.traceId
  spanId := ctx.newSpanId 0
  parentSpanId := ctx.parentSpanId
  name := GEN_AI_OPERATION.invokeAgent ++ " " ++ ctx.agentName
  startedAt
  endedAt
  attributes := (common ctx).spread
    [(GEN_AI.operationName, .text GEN_AI_OPERATION.invokeAgent),
      (GEN_AI.agentName, .text ctx.agentName)]
  events := points
  status := some ⟨if events.any TraceEvent.isError then .error else .ok, none⟩
  resource := ctx.resource

/-- `Math.min` of the list. -/
def earliest (times : List Int) : Int := times.min?.getD 0

/-- `Math.max` of the list. -/
def latest (times : List Int) : Int := times.max?.getD 0

def eventsToSpans : Except String (Option (List TraceSpan)) :=
  if events.isEmpty || events.any (·.ms?.isNone) then return none
  else do
    let children ← events.zipIdx.mapM fun entry => childSpan runtime ctx events entry.1 entry.2
    let points ← events.mapM (rootPoint runtime)
    let spans := children.reduceOption
    let stamps := events.map TraceEvent.ms
    let startedAt ← iso runtime (earliest stamps)
    let endedAt ← iso runtime (latest (spans.map (fun span => span.endedAt.ms.getD 0) ++ stamps))
    return some (rootSpan ctx events startedAt endedAt points.reduceOption :: spans)

end Spans

end Everdict.Trace
