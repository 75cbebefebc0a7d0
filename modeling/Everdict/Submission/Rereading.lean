import Everdict.Submission.ScoreRows

/-!
# Writing a row and reading it back

A row that the reader has produced is found again by a write and a read
(`reread_of_canonical`).  Of any row that can be read back the reading keeps the names
and the measurement (`reread_keeps`), and an invalid row is read as invalid.
-/

namespace Everdict.Submission

/-! ## Parts of a row -/

/-- Are the coordinates ones that the record schema accepts? -/
structure WellFormed (m : MeasurementIdentity) : Prop where
  id : m.producer.id ≠ ""
  metric : m.metric ≠ ""
  criterion : m.criterion ≠ some ""

variable {json : Json}

theorem name?_eq_some {s : String} :
    json.name? = some s ↔ json.text? = some s ∧ s ≠ "" := by
  simp [Json.name?, Option.filter_eq_some_iff]

theorem eq_of_name?_text {s s' : String} (read : (Json.text s).name? = some s') : s' = s :=
  (Option.some.inj (name?_eq_some.mp read).1).symm

theorem optional_eq_some {α : Type} {parse : Json → Option α} {json : Option Json}
    {a : Option α} : optional parse json = some a ↔
      (json = none ∧ a = none) ∨ ∃ j x, json = some j ∧ parse j = some x ∧ a = some x := by
  cases json with
  | none => simp [optional, eq_comm]
  | some j => simp [optional, eq_comm]

theorem parseMeasurement_eq_some {m : MeasurementIdentity} :
    parseMeasurement json = some m ↔
      (∃ owner, json.field? "producer" = some owner ∧
        (owner.field? "kind").bind parseKind = some m.producer.kind ∧
        (owner.field? "id").bind Json.name? = some m.producer.id) ∧
      (json.field? "metric").bind Json.name? = some m.metric ∧
      optional Json.name? (json.field? "criterion") = some m.criterion := by
  obtain ⟨⟨kind, id⟩, metric, criterion⟩ := m
  simp only [parseMeasurement, Option.bind_eq_bind, Option.bind_eq_some_iff, Option.pure_def,
    Option.some.injEq, MeasurementIdentity.mk.injEq, Producer.mk.injEq]
  constructor
  · rintro ⟨owner, found, _, kind', _, id', _, metric', _, criterion', ⟨rfl, rfl⟩, rfl, rfl⟩
    exact ⟨⟨owner, found, kind', id'⟩, metric', criterion'⟩
  · rintro ⟨⟨owner, found, kind', id'⟩, metric', criterion'⟩
    exact ⟨owner, found, _, kind', _, id', _, metric', _, criterion', ⟨rfl, rfl⟩, rfl, rfl⟩

theorem wellFormed_of_parse {m : MeasurementIdentity} (read : parseMeasurement json = some m) :
    WellFormed m := by
  obtain ⟨⟨owner, _, _, id⟩, metric, criterion⟩ := parseMeasurement_eq_some.mp read
  obtain ⟨_, _, id⟩ := Option.bind_eq_some_iff.mp id
  obtain ⟨_, _, metric⟩ := Option.bind_eq_some_iff.mp metric
  refine ⟨(name?_eq_some.mp id).2, (name?_eq_some.mp metric).2, ?_⟩
  intro empty
  rcases optional_eq_some.mp criterion with ⟨_, absent⟩ | ⟨_, _, _, named, eq⟩
  · rw [absent] at empty
    cases empty
  · rw [eq] at empty
    cases empty
    exact (name?_eq_some.mp named).2 rfl

theorem parseKind_name (kind : ProducerKind) : parseKind (.text kind.name) = some kind := by
  cases kind <;> decide

theorem parseMeasurement_write {m : MeasurementIdentity} (wf : WellFormed m) :
    parseMeasurement (writeMeasurement m) = some m := by
  rw [parseMeasurement_eq_some]
  refine ⟨⟨_, rfl, parseKind_name _, name?_eq_some.mpr ⟨rfl, wf.id⟩⟩,
    name?_eq_some.mpr ⟨rfl, wf.metric⟩, ?_⟩
  rw [optional_eq_some]
  rcases found : m.criterion with _ | criterion
  · exact Or.inl ⟨by simp [writeMeasurement, Json.field?, List.lookup_cons, found], rfl⟩
  · refine Or.inr ⟨.text criterion, criterion, ?_, ?_, rfl⟩
    · simp [writeMeasurement, Json.field?, List.lookup_cons, found]
    · exact name?_eq_some.mpr ⟨rfl, fun empty => wf.criterion (by rw [found, empty])⟩

theorem eq_of_parseMeasurement_write {m m' : MeasurementIdentity}
    (read : parseMeasurement (writeMeasurement m) = some m') : m' = m := by
  obtain ⟨⟨owner, found, kind, id⟩, metric, criterion⟩ := parseMeasurement_eq_some.mp read
  cases found
  have kind : m'.producer.kind = m.producer.kind := by
    have written : parseKind (.text m.producer.kind.name) = some m'.producer.kind := kind
    rw [parseKind_name] at written
    exact (Option.some.inj written).symm
  have id : m'.producer.id = m.producer.id := eq_of_name?_text id
  have metric : m'.metric = m.metric := eq_of_name?_text metric
  have criterion : m'.criterion = m.criterion := by
    rcases found : m.criterion with _ | c
    · have absent : (writeMeasurement m).field? "criterion" = none := by
        simp [writeMeasurement, Json.field?, List.lookup_cons, found]
      rw [absent] at criterion
      exact (Option.some.inj criterion).symm
    · have present : (writeMeasurement m).field? "criterion" = some (.text c) := by
        simp [writeMeasurement, Json.field?, List.lookup_cons, found]
      rw [present] at criterion
      obtain ⟨c', named, eq⟩ := Option.map_eq_some_iff.mp criterion
      rw [← eq, eq_of_name?_text named]
  obtain ⟨⟨kind', id'⟩, metric', criterion'⟩ := m'
  cases kind
  cases id
  cases metric
  cases criterion
  rfl

/-! ## The readings of a row -/

section Readings

variable {raw : RawScore}

@[simp]
theorem parseStatus_asInvalid (identity : RowIdentity) :
    parseStatus raw.asInvalid identity = some (.invalid identity) := by
  simp [parseStatus, RawScore.asInvalid, RawScore.identity, Json.text?, parseInvalid,
    RawScore.carriesMeasurement]

theorem parseStatus_asUnmeasured (reason : UnmeasuredReason) (retryable : Bool)
    (attempts : Option Json) (identity : RowIdentity) :
    parseStatus { raw.asUnmeasured reason retryable with attempts } identity =
      (optional Json.nat? attempts).map fun attempts =>
        .unmeasured { identity with reason, retryable, attempts } := by
  simp only [parseStatus, RawScore.asUnmeasured, RawScore.identity, Option.map_some, Json.text?,
    parseUnmeasured, RawScore.carriesMeasurement]
  cases optional Json.nat? attempts <;> simp [guard, Json.text?, Json.bool?]

@[simp]
theorem optional_filter {α : Type} (parse : Json → Option α) (json : Option Json) :
    optional parse (json.filter fun j => (parse j).isSome) = some (json.bind parse) := by
  rcases json with _ | j
  · rfl
  · cases read : parse j <;> simp [optional, Option.filter, read]

theorem parseStatus_asMeasured {identity : RowIdentity} {row : ScoreRow} :
    parseStatus raw.asMeasured identity = some row ↔
      ∃ value pass label observationAssessment,
        raw.value.bind Json.number? = some value ∧
        optional Json.bool? raw.pass = some pass ∧
        optional Json.text? raw.label = some label ∧
        optional parseAssessment
          (if raw.measurement.isSome then raw.observationAssessment else none) =
            some observationAssessment ∧
        row = .measured { identity with
          value := .finite value, pass, label, stamped := true, observationAssessment } := by
  simp only [parseStatus, RawScore.asMeasured, RawScore.identity, Option.map_some, Json.text?,
    parseMeasured, Option.bind_eq_bind, Option.bind_eq_some_iff, Option.pure_def, guard,
    Option.isNone_none, Bool.and_self, if_true, Option.some.injEq, exists_const, true_and,
    Option.isSome_some, @eq_comm _ _ row]
  constructor
  · intro ⟨value, read, pass, passed, label, labelled, assessment, assessed, eq⟩
    exact ⟨value, pass, label, assessment, read, passed, labelled, assessed, eq⟩
  · intro ⟨value, pass, label, assessment, read, passed, labelled, assessed, eq⟩
    exact ⟨value, read, pass, passed, label, labelled, assessment, assessed, eq⟩

theorem normalizeScore_invalid (status : raw.status.bind Json.text? = some "invalid") :
    normalizeScore raw = (parseIdentity raw.identity).map .invalid := by
  unfold normalizeScore normalizeScoreShape
  rw [if_pos status]
  change (parseIdentity raw.identity).bind (parseStatus raw.asInvalid) = _
  cases parseIdentity raw.identity <;> simp

theorem normalizeScore_unmeasured (status : raw.status.bind Json.text? = some "unmeasured") :
    normalizeScore raw = (parseIdentity raw.identity).map fun identity =>
      .unmeasured { identity with
        reason := ((raw.reason.bind Json.text?).bind UnmeasuredReason.ofName).getD .unsupported
        retryable := (raw.retryable.bind Json.bool?).getD false
        attempts := raw.attempts.bind Json.nat? } := by
  unfold normalizeScore normalizeScoreShape
  simp only [status, Option.some.injEq, String.reduceEq, if_false, if_true]
  change (parseIdentity raw.identity).bind (parseStatus { raw.asUnmeasured _ _ with
    attempts := raw.attempts.filter fun attempts => attempts.nat?.isSome }) = _
  cases parseIdentity raw.identity with
  | none => rfl
  | some identity => simp [parseStatus_asUnmeasured]

theorem normalizeScore_measured (status : raw.status.bind Json.text? = some "measured")
    (whole : raw.broken = false) :
    normalizeScore raw = (parseIdentity raw.identity).bind (parseStatus raw.asMeasured) := by
  have there : raw.status.isNone = false := by
    cases found : raw.status with
    | none =>
        rw [found] at status
        cases status
    | some _ => rfl
  have sentinel : legacySentinel raw = none := by
    unfold legacySentinel
    rw [there]
    rfl
  unfold normalizeScore normalizeScoreShape
  simp only [status, Option.some.injEq, String.reduceEq, if_false, sentinel, whole,
    Bool.false_eq_true]
  rfl

/-- What every reading of a stored row has in common. -/
structure ReadAs (raw : RawScore) (row : ScoreRow) : Prop where
  identity : parseIdentity raw.identity = some row.identity
  invalid : raw.status.bind Json.text? = some "invalid" → row.isInvalid = true
  measured : ∀ m, row = .measured m →
    raw.broken = false ∧ parseStatus raw.asMeasured m.toRowIdentity = some row

theorem normalizeScore_readAs {row : ScoreRow} (read : normalizeScore raw = some row) :
    ReadAs raw row := by
  by_cases invalid : raw.status.bind Json.text? = some "invalid"
  · rw [normalizeScore_invalid invalid] at read
    obtain ⟨identity, parsed, rfl⟩ := Option.map_eq_some_iff.mp read
    exact ⟨parsed, fun _ => rfl, fun _ eq => nomatch eq⟩
  by_cases skipped : raw.status.bind Json.text? = some "unmeasured"
  · rw [normalizeScore_unmeasured skipped] at read
    obtain ⟨identity, parsed, rfl⟩ := Option.map_eq_some_iff.mp read
    exact ⟨parsed, fun status => absurd status invalid, fun _ eq => nomatch eq⟩
  unfold normalizeScore normalizeScoreShape parseScore at read
  simp only [invalid, skipped, if_false] at read
  split at read
  · obtain ⟨identity, parsed, stat⟩ := Option.bind_eq_some_iff.mp read
    cases stat
    exact ⟨parsed, fun status => absurd status invalid, fun _ eq => nomatch eq⟩
  · obtain ⟨identity, parsed, stat⟩ := Option.bind_eq_some_iff.mp read
    cases stat
    exact ⟨parsed, fun status => absurd status invalid, fun _ eq => nomatch eq⟩
  · by_cases broken : raw.broken = true
    · rw [if_pos broken] at read
      obtain ⟨identity, parsed, stat⟩ := Option.bind_eq_some_iff.mp read
      rw [parseStatus_asInvalid] at stat
      cases stat
      exact ⟨parsed, fun _ => rfl, fun _ eq => nomatch eq⟩
    · rw [if_neg broken] at read
      obtain ⟨identity, parsed, stat⟩ := Option.bind_eq_some_iff.mp read
      obtain ⟨_, _, _, _, _, _, _, _, rfl⟩ := parseStatus_asMeasured.mp stat
      refine ⟨parsed, fun status => absurd status invalid, ?_⟩
      intro m eq
      cases eq
      exact ⟨by simpa using broken, stat⟩

end Readings

/-! ## Identities -/

theorem parseIdentity_eq_some {raw : RawScore} {identity : RowIdentity} :
    parseIdentity raw = some identity ↔
      optional parseMeasurement raw.measurement = some identity.measurement ∧
      raw.graderId.bind Json.text? = some identity.graderId ∧
      raw.metric.bind Json.text? = some identity.metric ∧
      raw.detail = identity.detail ∧
      optional Json.array? raw.traceEvents = some identity.traceEvents := by
  obtain ⟨measurement, graderId, metric, detail, traceEvents⟩ := identity
  simp only [parseIdentity, Option.bind_eq_bind, Option.bind_eq_some_iff, Option.pure_def,
    Option.some.injEq, RowIdentity.mk.injEq]
  constructor
  · intro ⟨_, stamp, _, named, _, measures, _, events, rfl, rfl, rfl, same, rfl⟩
    exact ⟨stamp, named, measures, same, events⟩
  · intro ⟨stamp, named, measures, same, events⟩
    exact ⟨_, stamp, _, named, _, measures, _, events, rfl, rfl, rfl, same, rfl⟩

/-- A read identity has the names and the measurement of the written one. -/
theorem parseIdentity_write_keeps {written identity : RowIdentity}
    (read : parseIdentity written.write.identity = some identity) :
    identity.graderId = written.graderId ∧ identity.metric = written.metric ∧
      identity.measurement = written.measurement := by
  obtain ⟨stamp, named, measures, _, _⟩ := parseIdentity_eq_some.mp read
  refine ⟨(Option.some.inj named).symm, (Option.some.inj measures).symm, ?_⟩
  have written_measurement :
      written.write.identity.measurement = written.measurement.map writeMeasurement := rfl
  rw [written_measurement] at stamp
  rcases found : written.measurement with _ | m
  · rw [found] at stamp
    exact (Option.some.inj stamp).symm
  · rw [found] at stamp
    obtain ⟨m', parsed, eq⟩ := Option.map_eq_some_iff.mp stamp
    rw [← eq, eq_of_parseMeasurement_write parsed]

/-- An identity as the reader leaves it. -/
structure RowIdentity.Canonical (identity : RowIdentity) : Prop where
  measurement : ∀ m, identity.measurement = some m → WellFormed m
  events : identity.traceEvents ≠ some []

theorem canonical_of_parseIdentity {raw : RawScore} {identity : RowIdentity}
    (read : parseIdentity raw.identity = some identity) : identity.Canonical := by
  obtain ⟨stamp, _, _, _, events⟩ := parseIdentity_eq_some.mp read
  constructor
  · intro m found
    rw [found] at stamp
    rcases optional_eq_some.mp stamp with ⟨_, absent⟩ | ⟨_, _, _, parsed, eq⟩
    · cases absent
    · cases eq
      exact wellFormed_of_parse parsed
  · intro empty
    rw [empty] at events
    rcases optional_eq_some.mp events with ⟨_, absent⟩ | ⟨json, items, kept, parsed, eq⟩
    · cases absent
    · cases eq
      have some_item := (Option.filter_eq_some_iff.mp kept).2
      rw [parsed] at some_item
      simp at some_item

theorem parseIdentity_write {identity : RowIdentity} (canonical : identity.Canonical) :
    parseIdentity identity.write.identity = some identity := by
  rw [parseIdentity_eq_some]
  refine ⟨?_, rfl, rfl, rfl, ?_⟩
  · change optional parseMeasurement (identity.measurement.map writeMeasurement) = _
    rcases found : identity.measurement with _ | m
    · rfl
    · simp [optional, parseMeasurement_write (canonical.measurement m found)]
  · change optional Json.array? ((identity.traceEvents.map Json.array).filter _) = _
    rcases found : identity.traceEvents with _ | events
    · rfl
    · have some_item : events ≠ [] := fun empty => canonical.events (by rw [found, empty])
      simp [optional, Option.filter, Json.array?, some_item]

/-! ## Rows -/

def ObservationAssessment.Short (a : ObservationAssessment) : Prop :=
  ∀ note, a.note = some note → (Text.utf16 note).length ≤ 2000

theorem parseNote_eq_some {note : String} :
    parseNote json = some note ↔ json.text? = some note ∧ (Text.utf16 note).length ≤ 2000 := by
  simp [parseNote, Option.filter_eq_some_iff]

theorem parseAssessmentStatus_name (status : AssessmentStatus) :
    parseAssessmentStatus (.text status.name) = some status := by
  cases status <;> decide

theorem parseAssessment_eq_some {a : ObservationAssessment} :
    parseAssessment json = some a ↔
      (json.field? "status").bind parseAssessmentStatus = some a.status ∧
      optional parseNote (json.field? "note") = some a.note := by
  obtain ⟨status, note⟩ := a
  simp only [parseAssessment, Option.bind_eq_bind, Option.bind_eq_some_iff, Option.pure_def,
    Option.some.injEq, ObservationAssessment.mk.injEq]
  constructor
  · intro ⟨_, read, _, noted, rfl, rfl⟩
    exact ⟨read, noted⟩
  · intro ⟨read, noted⟩
    exact ⟨_, read, _, noted, rfl, rfl⟩

theorem short_of_parse {a : ObservationAssessment} (read : parseAssessment json = some a) :
    a.Short := by
  intro note found
  have noted := (parseAssessment_eq_some.mp read).2
  rw [found] at noted
  rcases optional_eq_some.mp noted with ⟨_, absent⟩ | ⟨_, _, _, parsed, eq⟩
  · cases absent
  · cases eq
    exact (parseNote_eq_some.mp parsed).2

theorem parseAssessment_write {a : ObservationAssessment} (short : a.Short) :
    parseAssessment (writeAssessment a) = some a := by
  rw [parseAssessment_eq_some]
  refine ⟨parseAssessmentStatus_name _, ?_⟩
  rw [optional_eq_some]
  rcases found : a.note with _ | note
  · exact Or.inl ⟨by simp [writeAssessment, Json.field?, List.lookup_cons, found], rfl⟩
  · refine Or.inr ⟨.text note, note, ?_, ?_, rfl⟩
    · simp [writeAssessment, Json.field?, List.lookup_cons, found]
    · exact parseNote_eq_some.mpr ⟨rfl, short note found⟩

/-- A measured row as the reader leaves it. -/
structure MeasuredRow.Canonical (row : MeasuredRow) : Prop where
  identity : row.toRowIdentity.Canonical
  stamped : row.stamped = true
  finite : ∃ value, row.value = .finite value
  named : row.graderId ≠ "" ∧ row.metric ≠ ""
  /-- An assessment stands beside structured coordinates only. -/
  assessed : ∀ a, row.observationAssessment = some a → row.measurement.isSome = true ∧ a.Short

def ScoreRow.Canonical : ScoreRow → Prop
  | .measured row => row.Canonical
  | .unmeasured row => row.toRowIdentity.Canonical
  | .invalid identity => identity.Canonical

theorem canonical_of_normalize {raw : RawScore} {row : ScoreRow}
    (read : normalizeScore raw = some row) : row.Canonical := by
  have facts := normalizeScore_readAs read
  have identity := canonical_of_parseIdentity facts.identity
  cases row with
  | unmeasured row => exact identity
  | invalid row => exact identity
  | measured row =>
      obtain ⟨whole, stat⟩ := facts.measured row rfl
      obtain ⟨value, pass, label, assessment, _, _, _, assessed, eq⟩ :=
        parseStatus_asMeasured.mp stat
      obtain ⟨stamp, named, measures, _, _⟩ := parseIdentity_eq_some.mp facts.identity
      have named : raw.graderId.bind Json.text? = some row.graderId := named
      have measures : raw.metric.bind Json.text? = some row.metric := measures
      simp only [RawScore.broken, named, measures, Bool.or_eq_false_iff, Option.some.injEq,
        decide_eq_false_iff_not] at whole
      have fields := ScoreRow.measured.inj eq
      refine ⟨identity, ?_, ⟨value, ?_⟩, ⟨whole.2, whole.1.2⟩, ?_⟩
      · rw [fields]
      · rw [fields]
      · intro a found
        rw [fields] at found
        have found : assessment = some a := found
        subst found
        rcases optional_eq_some.mp assessed with ⟨_, absent⟩ | ⟨_, _, kept, parsed, eq'⟩
        · cases absent
        · cases eq'
          refine ⟨?_, short_of_parse parsed⟩
          split at kept
          · next present =>
              obtain ⟨json, there⟩ := Option.isSome_iff_exists.mp present
              have stamp : optional parseMeasurement raw.measurement = some row.measurement :=
                stamp
              rw [there] at stamp
              obtain ⟨_, _, eq'⟩ := Option.map_eq_some_iff.mp stamp
              rw [← eq']
              rfl
          · cases kept

theorem nat?_number (n : Nat) : (Json.number n).nat? = some n := by
  simp [Json.nat?, Json.number?]

theorem optional_map {α : Type} {parse : Json → Option α} {write : α → Json}
    {value : Option α} (each : ∀ a, value = some a → parse (write a) = some a) :
    optional parse (value.map write) = some value := by
  cases value with
  | none => rfl
  | some a => simp [optional, each a rfl]

/-- A row as the reader leaves it is found again by a write and a read. -/
theorem reread_of_canonical {row : ScoreRow} (canonical : row.Canonical) :
    row.reread = some row := by
  unfold ScoreRow.reread
  cases row with
  | invalid identity =>
      rw [normalizeScore_invalid rfl]
      change (parseIdentity identity.write.identity).map _ = _
      rw [parseIdentity_write canonical]
      rfl
  | unmeasured row =>
      rw [normalizeScore_unmeasured rfl]
      change (parseIdentity row.toRowIdentity.write.identity).map _ = _
      rw [parseIdentity_write canonical]
      have counted : (row.attempts.map fun (n : Nat) => Json.number n).bind Json.nat? = row.attempts := by
        cases row.attempts with
        | none => rfl
        | some n => exact nat?_number n
      simp [ScoreRow.write, Json.text?, Json.bool?, counted]
  | measured row =>
      obtain ⟨identity, stamped, ⟨value, finite⟩, ⟨named, measures⟩, assessed⟩ := canonical
      have status : (ScoreRow.measured row).write.status.bind Json.text? = some "measured" := by
        simp [ScoreRow.write, stamped, Json.text?]
      have whole : (ScoreRow.measured row).write.broken = false := by
        simp [RawScore.broken, ScoreRow.write, RowIdentity.write, finite, JsNumber.json,
          Json.number?, Json.text?, named, measures]
      rw [normalizeScore_measured status whole]
      change (parseIdentity row.toRowIdentity.write.identity).bind _ = _
      rw [parseIdentity_write identity]
      apply parseStatus_asMeasured.mpr
      refine ⟨value, row.pass, row.label, row.observationAssessment, ?_, ?_, ?_, ?_, ?_⟩
      · simp [ScoreRow.write, finite, JsNumber.json, Json.number?]
      · exact optional_map fun _ _ => rfl
      · exact optional_map fun _ _ => rfl
      · rcases found : row.observationAssessment with _ | a
        · simp [ScoreRow.write, found, optional]
        · obtain ⟨beside, short⟩ := assessed a found
          simp [ScoreRow.write, RowIdentity.write, found, beside, optional,
            parseAssessment_write short]
      · rw [← finite, ← stamped]

theorem ScoreRow.Canonical.valueBroken {row : ScoreRow} (canonical : row.Canonical) :
    row.valueBroken = false := by
  cases row with
  | invalid identity => rfl
  | unmeasured row => rfl
  | measured row =>
      obtain ⟨value, finite⟩ := canonical.finite
      simp [ScoreRow.valueBroken, finite, JsNumber.isFinite]

/-- A reading keeps the names and the measurement of a row. -/
theorem reread_keeps {row row' : ScoreRow} (read : row.reread = some row') :
    row'.graderId = row.graderId ∧ row'.metric = row.metric ∧
      row'.measurement = row.measurement := by
  have parsed := (normalizeScore_readAs read).identity
  have same : row.write.identity = row.identity.write.identity := by
    cases row <;> rfl
  rw [same] at parsed
  exact parseIdentity_write_keeps parsed

theorem reread_invalid {row row' : ScoreRow} (read : row.reread = some row')
    (invalid : row.isInvalid = true) : row'.isInvalid = true := by
  apply (normalizeScore_readAs read).invalid
  cases row with
  | invalid identity => rfl
  | unmeasured row => cases invalid
  | measured row => cases invalid

end Everdict.Submission
