import Everdict.Submission.Producers

/-!
# Score rows on the wire

A row as a producer submits it, with the fields that `sanitizeScore` and the reader
`normalizeScore` look at.  A row that breaks the contract, or wears a name that its
producer does not own, is replaced by an invalid one; the others are stamped with the
coordinates of their producer.  A stored row is read back through `normalizeScoreShape`,
which maps the shapes of every era onto the present ones, and then parsed.
-/

namespace Everdict.Submission

/-! ## Values -/

inductive Json where
  | null
  | bool (value : Bool)
  | number (value : ℚ)
  | text (value : String)
  | array (items : List Json)
  | object (fields : List (String × Json))

def Json.text? : Json → Option String
  | .text value => some value
  | _ => none

def Json.bool? : Json → Option Bool
  | .bool value => some value
  | _ => none

def Json.number? : Json → Option ℚ
  | .number value => some value
  | _ => none

def Json.array? : Json → Option (List Json)
  | .array items => some items
  | _ => none

def Json.field? (name : String) : Json → Option Json
  | .object fields => fields.lookup name
  | _ => none

/-- A JavaScript number; the sign of zero is not kept. -/
inductive JsNumber where
  | finite (value : ℚ)
  | nan
  | infinity
  | negativeInfinity
  deriving DecidableEq

def JsNumber.isFinite : JsNumber → Bool
  | .finite _ => true
  | _ => false

/-- `String` of a number, given how a finite one is written. -/
def JsNumber.shown (toText : ℚ → String) : JsNumber → String
  | .finite value => toText value
  | .nan => "NaN"
  | .infinity => "Infinity"
  | .negativeInfinity => "-Infinity"

/-- `JSON.stringify` writes a number that is not finite as `null`. -/
def JsNumber.json : JsNumber → Json
  | .finite value => .number value
  | _ => .null

/-! ## Rows -/

inductive UnmeasuredReason where
  | graderError
  | missingEvidence
  | missingSecret
  | unsupported
  | policySkip
  | contractViolation
  | graderTimeout
  deriving DecidableEq

def UnmeasuredReason.name : UnmeasuredReason → String
  | .graderError => "grader_error"
  | .missingEvidence => "missing_evidence"
  | .missingSecret => "missing_secret"
  | .unsupported => "unsupported"
  | .policySkip => "policy_skip"
  | .contractViolation => "contract_violation"
  | .graderTimeout => "grader_timeout"

def UNMEASURED_REASONS : List UnmeasuredReason :=
  [.graderError, .missingEvidence, .missingSecret, .unsupported, .policySkip,
    .contractViolation, .graderTimeout]

def UnmeasuredReason.ofName (name : String) : Option UnmeasuredReason :=
  UNMEASURED_REASONS.find? fun reason => reason.name = name

@[simp]
theorem UnmeasuredReason.ofName_name (reason : UnmeasuredReason) :
    ofName reason.name = some reason := by
  cases reason <;> decide

inductive AssessmentStatus where
  | consistent
  | divergent
  | unclear
  deriving DecidableEq

def AssessmentStatus.name : AssessmentStatus → String
  | .consistent => "consistent"
  | .divergent => "divergent"
  | .unclear => "unclear"

structure ObservationAssessment where
  status : AssessmentStatus
  note : Option String := none
  deriving DecidableEq

/-- What every row says of itself.  An event of the trace is carried as it was parsed:
nothing here looks inside. -/
structure RowIdentity where
  measurement : Option MeasurementIdentity := none
  graderId : String
  metric : String
  detail : Option Json := none
  traceEvents : Option (List Json) := none

/-- A measurement; `stamped` when its `status` is written. -/
structure MeasuredRow extends RowIdentity where
  value : JsNumber
  pass : Option Bool := none
  label : Option String := none
  stamped : Bool := false
  observationAssessment : Option ObservationAssessment := none

structure UnmeasuredRow extends RowIdentity where
  reason : UnmeasuredReason
  retryable : Bool
  attempts : Option Nat := none

inductive ScoreRow where
  | measured (row : MeasuredRow)
  | unmeasured (row : UnmeasuredRow)
  | invalid (identity : RowIdentity)

def ScoreRow.identity : ScoreRow → RowIdentity
  | .measured row => row.toRowIdentity
  | .unmeasured row => row.toRowIdentity
  | .invalid identity => identity

/-- The row with another measurement written on it. -/
def ScoreRow.claiming (measurement : Option MeasurementIdentity) : ScoreRow → ScoreRow
  | .measured row => .measured { row with measurement }
  | .unmeasured row => .unmeasured { row with measurement }
  | .invalid identity => .invalid { identity with measurement }

def ScoreRow.isMeasured : ScoreRow → Bool
  | .measured _ => true
  | _ => false

def ScoreRow.isInvalid : ScoreRow → Bool
  | .invalid _ => true
  | _ => false

def ScoreRow.graderId (score : ScoreRow) : String := score.identity.graderId

def ScoreRow.metric (score : ScoreRow) : String := score.identity.metric

def ScoreRow.measurement (score : ScoreRow) : Option MeasurementIdentity :=
  score.identity.measurement

/-! ## The contract of a row -/

def ScoreRow.idsBroken (score : ScoreRow) : Bool := score.metric = "" || score.graderId = ""

def ScoreRow.valueBroken : ScoreRow → Bool
  | .measured row => !row.value.isFinite
  | _ => false

def ScoreRow.shownValue (toText : ℚ → String) : ScoreRow → String
  | .measured row => row.value.shown toText
  | _ => "none"

/-- The row that stands for one that broke the contract; the events of its producer travel
on. -/
def contractViolation (toText : ℚ → String) (score : ScoreRow) (forged : Option String) :
    RowIdentity where
  traceEvents := score.identity.traceEvents.filter fun events => !events.isEmpty
  graderId := if score.graderId = "" then "unknown" else score.graderId
  metric :=
    if score.metric = "" then if score.graderId = "" then "unknown" else score.graderId
    else score.metric
  detail :=
    some (.text (match forged with
      | some reason => "[invalid-score] " ++ reason
      | none =>
          "[invalid-score] value=" ++ score.shownValue toText ++ " metric="
            ++ Text.json score.metric ++ " graderId=" ++ Text.json score.graderId))

def sanitizeScore (toText : ℚ → String) (score : ScoreRow) (producer : Option ScoreProducer) :
    ScoreRow :=
  if score.isInvalid && !score.idsBroken then score
  else
    let forged := producer.bind (forgedMetricReason score.metric)
    if !score.idsBroken && !score.valueBroken && forged = none then
      match producer with
      | none => score
      | some producer => score.claiming (some (measurementIdentityOf score.metric producer))
    else .invalid (contractViolation toText score forged)

/-! ## The row as it is written -/

/-- The properties of a stored row; `none` is a property that is not there. -/
structure RawScore where
  graderId : Option Json := none
  metric : Option Json := none
  measurement : Option Json := none
  detail : Option Json := none
  traceEvents : Option Json := none
  value : Option Json := none
  pass : Option Json := none
  label : Option Json := none
  observationAssessment : Option Json := none
  status : Option Json := none
  reason : Option Json := none
  retryable : Option Json := none
  attempts : Option Json := none

def writeMeasurement (m : MeasurementIdentity) : Json :=
  .object ([("producer", .object [("kind", .text m.producer.kind.name),
      ("id", .text m.producer.id)]), ("metric", .text m.metric)]
    ++ (m.criterion.map fun criterion => ("criterion", Json.text criterion)).toList)

def writeAssessment (a : ObservationAssessment) : Json :=
  .object ([("status", .text a.status.name)]
    ++ (a.note.map fun note => ("note", Json.text note)).toList)

def RowIdentity.write (identity : RowIdentity) : RawScore where
  graderId := some (.text identity.graderId)
  metric := some (.text identity.metric)
  measurement := identity.measurement.map writeMeasurement
  detail := identity.detail
  traceEvents := identity.traceEvents.map .array

/-- `JSON.stringify` of a row. -/
def ScoreRow.write : ScoreRow → RawScore
  | .measured row =>
      { row.toRowIdentity.write with
        value := some row.value.json
        pass := row.pass.map .bool
        label := row.label.map .text
        status := if row.stamped then some (.text "measured") else none
        observationAssessment := row.observationAssessment.map writeAssessment }
  | .unmeasured row =>
      { row.toRowIdentity.write with
        status := some (.text "unmeasured")
        reason := some (.text row.reason.name)
        retryable := some (.bool row.retryable)
        attempts := row.attempts.map fun (n : Nat) => .number n }
  | .invalid identity =>
      { identity.write with
        status := some (.text "invalid")
        reason := some (.text "contract_violation") }

/-! ## The row as it is read -/

/-- `attempts` when it is a natural number. -/
def Json.nat? (json : Json) : Option Nat :=
  json.number?.bind fun q => if q.den = 1 ∧ 0 ≤ q.num then some q.num.toNat else none

/-- The mark of a skipped grader in a row from before `status` existed. -/
inductive LegacySentinel where
  | graderError
  | skipped
  deriving DecidableEq

def legacySentinel (raw : RawScore) : Option LegacySentinel :=
  if raw.status.isNone && raw.pass.isNone then
    (raw.detail.bind Json.text?).bind fun detail =>
      if Text.startsWith detail "[grader-error]" then some .graderError
      else if Text.startsWith detail "skipped: " then some .skipped
      else none
  else none

/-- The properties of a row that each of its readings keeps. -/
def RawScore.identity (raw : RawScore) : RawScore where
  graderId := raw.graderId
  metric := raw.metric
  measurement := raw.measurement
  detail := raw.detail
  traceEvents := raw.traceEvents.filter fun events => events.array?.any fun items => !items.isEmpty

def RawScore.asInvalid (raw : RawScore) : RawScore :=
  { raw.identity with
    status := some (.text "invalid")
    reason := some (.text "contract_violation") }

def RawScore.asUnmeasured (raw : RawScore) (reason : UnmeasuredReason) (retryable : Bool) :
    RawScore :=
  { raw.identity with
    status := some (.text "unmeasured")
    reason := some (.text reason.name)
    retryable := some (.bool retryable) }

def RawScore.asMeasured (raw : RawScore) : RawScore :=
  { raw.identity with
    value := raw.value
    pass := raw.pass
    label := raw.label
    status := some (.text "measured")
    -- only a row with structured coordinates retains it
    observationAssessment :=
      if raw.measurement.isSome then raw.observationAssessment else none }

/-- A value that is no number, or an empty name. -/
def RawScore.broken (raw : RawScore) : Bool :=
  (raw.value.bind Json.number?).isNone || raw.metric.bind Json.text? = some ""
    || raw.graderId.bind Json.text? = some ""

def normalizeScoreShape (raw : RawScore) : RawScore :=
  let status := raw.status.bind Json.text?
  if status = some "invalid" then raw.asInvalid
  else if status = some "unmeasured" then
    { raw.asUnmeasured
        (((raw.reason.bind Json.text?).bind UnmeasuredReason.ofName).getD .unsupported)
        ((raw.retryable.bind Json.bool?).getD false) with
      attempts := raw.attempts.filter fun attempts => attempts.nat?.isSome }
  else
    match legacySentinel raw with
    | some .graderError => raw.asUnmeasured .graderError true
    | some .skipped => raw.asUnmeasured .unsupported false
    | none => if raw.broken then raw.asInvalid else raw.asMeasured

/-- An optional property: absent, or one that parses. -/
def optional {α : Type} (parse : Json → Option α) : Option Json → Option (Option α)
  | none => some none
  | some json => (parse json).map some

/-- A text that is not empty. -/
def Json.name? (json : Json) : Option String := json.text?.filter fun s => s ≠ ""

def parseKind (json : Json) : Option ProducerKind :=
  json.text?.bind fun name =>
    [ProducerKind.grader, .judge].find? fun kind => kind.name = name

def parseMeasurement (json : Json) : Option MeasurementIdentity := do
  let owner ← json.field? "producer"
  let kind ← (owner.field? "kind").bind parseKind
  let id ← (owner.field? "id").bind Json.name?
  let metric ← (json.field? "metric").bind Json.name?
  let criterion ← optional Json.name? (json.field? "criterion")
  return { producer := ⟨kind, id⟩, metric, criterion }

def parseAssessmentStatus (json : Json) : Option AssessmentStatus :=
  json.text?.bind fun name =>
    [AssessmentStatus.consistent, .divergent, .unclear].find? fun status => status.name = name

def parseNote (json : Json) : Option String := json.text?.filter fun s => (Text.utf16 s).length ≤ 2000

def parseAssessment (json : Json) : Option ObservationAssessment := do
  let status ← (json.field? "status").bind parseAssessmentStatus
  let note ← optional parseNote (json.field? "note")
  return { status, note }

def parseIdentity (raw : RawScore) : Option RowIdentity := do
  let measurement ← optional parseMeasurement raw.measurement
  let graderId ← raw.graderId.bind Json.text?
  let metric ← raw.metric.bind Json.text?
  let traceEvents ← optional Json.array? raw.traceEvents
  return { measurement, graderId, metric, detail := raw.detail, traceEvents }

def parseMeasured (raw : RawScore) (identity : RowIdentity) : Option ScoreRow := do
  guard (raw.reason.isNone && raw.retryable.isNone && raw.attempts.isNone)
  let value ← raw.value.bind Json.number?
  let pass ← optional Json.bool? raw.pass
  let label ← optional Json.text? raw.label
  let observationAssessment ← optional parseAssessment raw.observationAssessment
  return .measured
    { identity with
      value := .finite value, pass, label, stamped := raw.status.isSome, observationAssessment }

/-- The properties that only a measured row may have. -/
def RawScore.carriesMeasurement (raw : RawScore) : Bool :=
  raw.value.isSome || raw.pass.isSome || raw.label.isSome || raw.observationAssessment.isSome

def parseUnmeasured (raw : RawScore) (identity : RowIdentity) : Option ScoreRow := do
  guard (!raw.carriesMeasurement)
  let reason ← (raw.reason.bind Json.text?).bind UnmeasuredReason.ofName
  let retryable ← raw.retryable.bind Json.bool?
  let attempts ← optional Json.nat? raw.attempts
  return .unmeasured { identity with reason, retryable, attempts }

def parseInvalid (raw : RawScore) (identity : RowIdentity) : Option ScoreRow := do
  guard (!raw.carriesMeasurement && raw.retryable.isNone && raw.attempts.isNone)
  guard (raw.reason.bind Json.text? = some "contract_violation")
  return .invalid identity

/-- The union of the three strict schemas, by `status`. -/
def parseStatus (raw : RawScore) (identity : RowIdentity) : Option ScoreRow :=
  match raw.status.map Json.text? with
  | none => parseMeasured raw identity
  | some (some "measured") => parseMeasured raw identity
  | some (some "unmeasured") => parseUnmeasured raw identity
  | some (some "invalid") => parseInvalid raw identity
  | some _ => none

def parseScore (raw : RawScore) : Option ScoreRow := (parseIdentity raw).bind (parseStatus raw)

def normalizeScore (raw : RawScore) : Option ScoreRow := parseScore (normalizeScoreShape raw)

/-- A write and a read. -/
def ScoreRow.reread (score : ScoreRow) : Option ScoreRow := normalizeScore score.write

end Everdict.Submission
