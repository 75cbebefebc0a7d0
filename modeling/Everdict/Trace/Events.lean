import Everdict.Submission.ScoreRows

/-!
# Spans and events

A span is an interval of the record, an event is a point of the stream that graders and
judges read.  A date is kept as its text together with what `Date.parse` makes of it, and a
bag of attributes as its properties in order.
-/

namespace Everdict.Trace

open Submission (JsNumber)

/-! ## Values -/

/-- A date string, with the instant it is parsed to if it is one. -/
structure Stamp where
  text : String
  ms : Option Int
  deriving DecidableEq

/-- A value of a bag; its numbers need not be finite. -/
inductive Value where
  | null
  | bool (value : Bool)
  | number (value : JsNumber)
  | text (value : String)
  | array (items : List Value)
  | object (fields : List (String × Value))

def Value.text? : Value → Option String
  | .text value => some value
  | _ => none

def Value.field? (name : String) : Value → Option Value
  | .object fields => fields.lookup name
  | _ => none

/-- What the language itself answers: `String` of a number, `toUpperCase`, the number of
a text that is neither blank nor refused by `Number`, `toISOString` of an instant, and the sum
of two numbers, which is rounded to a double. -/
structure Runtime where
  toText : ℚ → String
  upper : String → String
  numberOf : String → Option JsNumber
  isoText : Int → String
  add : JsNumber → JsNumber → JsNumber

abbrev Attrs := List (String × Value)

/-- `{ ...a, ...b }` -/
def Attrs.spread (a b : Attrs) : Attrs :=
  a.map (fun entry => (entry.1, (b.lookup entry.1).getD entry.2))
    ++ b.filter fun entry => (a.lookup entry.1).isNone

section Stringify

variable (toText : ℚ → String)

mutual

/-- `JSON.stringify` of a value. -/
def stringify : Value → String
  | .null => "null"
  | .bool true => "true"
  | .bool false => "false"
  | .number (.finite value) => toText value
  | .number _ => "null"
  | .text value => Text.json value
  | .array items => "[" ++ ",".intercalate (stringifyItems items) ++ "]"
  | .object fields => "\x7b" ++ ",".intercalate (stringifyFields fields) ++ "\x7d"

def stringifyItems : List Value → List String
  | [] => []
  | item :: items => stringify item :: stringifyItems items

def stringifyFields : List (String × Value) → List String
  | [] => []
  | (key, value) :: fields =>
      (Text.json key ++ ":" ++ stringify value) :: stringifyFields fields

end

end Stringify

/-! ## Events -/

structure Cost where
  inputTokens : JsNumber
  outputTokens : JsNumber
  usd : JsNumber
  deriving DecidableEq

inductive Role where
  | user
  | assistant
  deriving DecidableEq

def Role.name : Role → String
  | .user => "user"
  | .assistant => "assistant"

inductive LogStream where
  | stdout
  | stderr
  deriving DecidableEq

def LogStream.name : LogStream → String
  | .stdout => "stdout"
  | .stderr => "stderr"

inductive InfraScope where
  | placement
  | service
  deriving DecidableEq

/-- What an event is of. -/
inductive EventKind where
  | message (role : Role) (text : String)
  | llmCall (model : String) (cost : Option Cost) (latencyMs : Option ℚ)
  | toolCall (id name : String) (args : Option Value)
  | toolResult (id : String) (ok : Bool) (output : String)
  | envAction (action : String) (detail : Option Value)
  | error (message : String)
  | log (stream : LogStream) (text : String)
  | artifact (name ref : String) (mediaType role : Option String)
  | span (name : String) (attributes : Option Attrs)
  | infra (scope : InfraScope) (event : Option String) (message : String)
      (unit node : Option String)

/-- An event; `stamp` is its `at`, and `payloadRef` the ref of the one field of its kind that
may be moved to the object store. -/
structure TraceEvent where
  t : ℚ
  stamp : Option Stamp := none
  spanId : Option String := none
  parentId : Option String := none
  durationMs : Option ℚ := none
  kind : EventKind
  payloadRef : Option String := none

structure RunUsageSummary where
  promptTokens : JsNumber
  completionTokens : JsNumber
  totalTokens : JsNumber
  usd : JsNumber
  calls : Nat
  deriving DecidableEq

/-- The cost of an event: `none` where it is no call of a model. -/
def TraceEvent.llmCost (event : TraceEvent) : Option (Option Cost) :=
  match event.kind with
  | .llmCall _ cost _ => some cost
  | _ => none

/-- One step of the sum. -/
def RunUsageSummary.add (runtime : Runtime) (usage : RunUsageSummary) (cost : Option Cost) :
    RunUsageSummary :=
  match cost with
  | none => { usage with calls := usage.calls + 1 }
  | some cost =>
      { usage with
        calls := usage.calls + 1
        promptTokens := runtime.add usage.promptTokens cost.inputTokens
        completionTokens := runtime.add usage.completionTokens cost.outputTokens
        usd := runtime.add usage.usd cost.usd }

/-- The usage of calls with these costs, in the order they are added up. -/
def usageOfCosts (runtime : Runtime) (costs : List (Option Cost)) : RunUsageSummary :=
  let zero : JsNumber := .finite 0
  let sum := costs.foldl (RunUsageSummary.add runtime) ⟨zero, zero, zero, zero, 0⟩
  { sum with totalTokens := runtime.add sum.promptTokens sum.completionTokens }

def usageFromTrace (runtime : Runtime) (trace : List TraceEvent) : RunUsageSummary :=
  usageOfCosts runtime (trace.filterMap TraceEvent.llmCost)

/-! ## Spans -/

inductive StatusCode where
  | unset
  | ok
  | error
  deriving DecidableEq

structure SpanStatus where
  code : StatusCode
  message : Option String := none
  deriving DecidableEq

/-- A point in time inside a span. -/
structure SpanEvent where
  name : String
  stamp : Stamp
  attributes : Option Attrs := none

structure TraceSpan where
  traceId : String
  spanId : String
  parentSpanId : Option String := none
  name : String
  startedAt : Stamp
  endedAt : Stamp
  attributes : Attrs := []
  attributesRef : Option String := none
  events : List SpanEvent := []
  status : Option SpanStatus := none
  resource : Option Attrs := none

end Everdict.Trace
