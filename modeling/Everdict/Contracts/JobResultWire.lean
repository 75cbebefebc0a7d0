import Everdict.JsonMarks

/-!
# A result on standard output

A job prints its result, and while it runs its events, as lines of their own between the lines
of the harness; a sentinel in front tells them apart.  The result is looked for behind the last
of its sentinels, an event behind the first of its line.  So the texts of the events are
harmless, and so are those of the result as far as the events go: what follows a sentinel
within a text is no event (`readLine_result`).  The result is read back where none of its own
texts holds its sentinel (`result_survives_iff`).
-/

namespace Everdict.Contracts

open JsonText Occurrence

def RESULT_SENTINEL : List Nat := units "__EVERDICT_RESULT__"

def EVENT_SENTINEL : List Nat := units "__EVERDICT_EVENT__"

/-- `"\n"` -/
def newline : Nat := 0x0A

def LIVE_TEXT_CAP : Nat := 4000

def LIVE_LINE_CAP : Nat := 32000

/-- A schema of objects, by what it makes of a value; it asks for a property of that name. -/
structure Schema (ν α : Type) (name : String) where
  read : Value ν → Option α
  asks : ∀ {value out}, read value = some out →
    ∃ fields, value = .object fields ∧ units name ∈ fields.map Prod.fst

section Wire

variable {ν ρ ε : Type} (format : NumberFormat ν)

/-! ## Printing -/

def encodeResult (result : Value ν) : List Nat := RESULT_SENTINEL ++ write format result

def cut (s : List Nat) : List Nat :=
  if s.length > LIVE_TEXT_CAP then s.take LIVE_TEXT_CAP ++ units "… [truncated]" else s

/-- `{ ...event, [name]: cut(event[name]) }` -/
def cutField (name : String) (fields : List (List Nat × Value ν)) : List (List Nat × Value ν) :=
  match fields.lookup (units name) with
  | some (.text s) => upsert fields (units name) (.text (cut s))
  | _ => fields

def trimmedForLive : Value ν → Value ν
  | .object fields =>
      match fields.lookup (units "kind") with
      | some (.text kind) =>
          .object
            (if kind = units "message" ∨ kind = units "log" then cutField "text" fields
            else if kind = units "tool_result" then cutField "output" fields
            else if kind = units "tool_call" then
              upsert fields (units "args") (.text (units "[truncated]"))
            else if kind = units "env_action" then upsert fields (units "detail") .undefined
            else if kind = units "span" then upsert fields (units "attributes") .undefined
            else fields)
      | _ => .object fields
  | event => event

def encodeLiveEvent (event : Value ν) : Option (List Nat) :=
  let line := EVENT_SENTINEL ++ write format event
  if line.length ≤ LIVE_LINE_CAP then some line
  else
    let trimmed := EVENT_SENTINEL ++ write format (trimmedForLive event)
    if trimmed.length ≤ LIVE_LINE_CAP then some trimmed else none

/-! ## Reading -/

inductive WireError where
  | noSentinel
  | syntaxError
  | schemaError
  deriving DecidableEq

def parseResult (results : Schema ν ρ "caseId") (stdout : List Nat) : Except WireError ρ :=
  match lastIndexOf RESULT_SENTINEL stdout with
  | none => .error .noSentinel
  | some idx =>
      let line := ((stdout.drop (idx + RESULT_SENTINEL.length)).splitOn newline).headD []
      match parse format line with
      | none => .error .syntaxError
      | some value =>
          match results.read value with
          | none => .error .schemaError
          | some result => .ok result

def stripSentinel (stdout : List Nat) : List Nat :=
  let text := match lastIndexOf RESULT_SENTINEL stdout with
    | none => stdout
    | some idx => stdout.take idx
  if indexOf EVENT_SENTINEL text = none then text
  else [newline].intercalate
    ((text.splitOn newline).filter fun line => indexOf EVENT_SENTINEL line = none)

/-- The event of one line, if it holds one. -/
def readLine (events : Schema ν ε "kind") (line : List Nat) : Option ε :=
  (indexOf EVENT_SENTINEL line).bind fun idx =>
    (parse format (line.drop (idx + EVENT_SENTINEL.length))).bind events.read

def extractLiveEvents (events : Schema ν ε "kind") (stdout : List Nat) : List ε :=
  if indexOf EVENT_SENTINEL stdout = none then []
  else (stdout.splitOn newline).filterMap (readLine format events)

/-! ## What a job prints -/

/-- A line before the result: one of the harness, or an event. -/
inductive Line (ν : Type) where
  | harness (text : List Nat)
  | event (value : Value ν)

/-- The event that is encoded: as it is, trimmed, or none. -/
def liveEvent (event : Value ν) : Option (Value ν) :=
  if (EVENT_SENTINEL ++ write format event).length ≤ LIVE_LINE_CAP then some event
  else if (EVENT_SENTINEL ++ write format (trimmedForLive event)).length ≤ LIVE_LINE_CAP then
    some (trimmedForLive event)
  else none

def Line.text : Line ν → Option (List Nat)
  | .harness text => some text
  | .event value => encodeLiveEvent format value

def Line.encoded : Line ν → Option (Value ν)
  | .harness _ => none
  | .event value => liveEvent format value

def Line.harness? : Line ν → Option (List Nat)
  | .harness text => some text
  | .event _ => none

/-- A line without an end within it, and without a sentinel. -/
structure Plain (text : List Nat) : Prop where
  whole : newline ∉ text
  noResult : ¬ RESULT_SENTINEL <:+: text
  noEvent : ¬ EVENT_SENTINEL <:+: text

def printed (before : List (Line ν)) (result : Value ν) (after : List (List Nat)) : List Nat :=
  lines newline (before.filterMap (Line.text format))
    ++ (encodeResult format result ++ newline :: lines newline after)

/-- The readers of the channel say what was printed. -/
structure Delivered (results : Schema ν ρ "caseId") (events : Schema ν ε "kind")
    (before : List (Line ν)) (result : Value ν) (after : List (List Nat)) : Prop where
  answer : ∀ out, results.read result = some out →
    parseResult format results (printed format before result after) = .ok out
  preview : extractLiveEvents format events (printed format before result after)
    = (before.filterMap (Line.encoded format)).filterMap events.read
  log : stripSentinel (printed format before result after)
    = lines newline (before.filterMap Line.harness?)

/-! ## Sentinels -/

theorem result_ne_nil : RESULT_SENTINEL ≠ [] := by decide

theorem event_ne_nil : EVENT_SENTINEL ≠ [] := by decide

theorem result_marker : ∀ u ∈ RESULT_SENTINEL, isMarker u = true := by decide

theorem event_marker : ∀ u ∈ EVENT_SENTINEL, isMarker u = true := by decide

theorem newline_not_mem_result : newline ∉ RESULT_SENTINEL := by decide

theorem newline_not_mem_event : newline ∉ EVENT_SENTINEL := by decide

theorem event_not_infix_result : ¬ EVENT_SENTINEL <:+: RESULT_SENTINEL := by decide

/-- An encoded event is its sentinel and its text. -/
theorem encodeLiveEvent_eq (event : Value ν) : encodeLiveEvent format event
    = (liveEvent format event).map fun event => EVENT_SENTINEL ++ write format event := by
  unfold encodeLiveEvent liveEvent
  simp only
  split_ifs <;> rfl

theorem whole_of_event {text : List Nat} {event : Value ν}
    (encoded : encodeLiveEvent format event = some text) : newline ∉ text := by
  rw [encodeLiveEvent_eq] at encoded
  obtain ⟨event, -, rfl⟩ := Option.map_eq_some_iff.mp encoded
  rw [List.mem_append, not_or]
  exact ⟨newline_not_mem_event, newline_not_mem_write format event⟩

variable {format} in
theorem whole_before {before : List (Line ν)}
    (plain : ∀ text, .harness text ∈ before → Plain text) :
    ∀ text ∈ before.filterMap (Line.text format), newline ∉ text := by
  intro text inside
  obtain ⟨line, there, shown⟩ := List.mem_filterMap.mp inside
  cases line with
  | harness text' =>
      obtain rfl := Option.some_inj.mp shown
      exact (plain text' there).whole
  | event value => exact whole_of_event format shown

/-! ## The result -/

section Result

variable {format} {before : List (Line ν)} {result : Value ν} {after : List (List Nat)}
  {results : Schema ν ρ "caseId"}

theorem no_result_after (plain : ∀ text ∈ after, Plain text) :
    ¬ RESULT_SENTINEL <:+: lines newline after := by
  rw [infix_lines result_ne_nil newline_not_mem_result]
  rintro ⟨text, inside, here⟩
  exact (plain text inside).noResult here

/-- What is read of the line behind a sentinel within the result, or of the whole. -/
theorem parseResult_eq {a b : List Nat} {i : Nat} (plain : ∀ text ∈ after, Plain text)
    (found : lastIndexOf RESULT_SENTINEL (encodeResult format result) = some i)
    (eq : (encodeResult format result).drop (i + RESULT_SENTINEL.length) = b) :
    parseResult format results
        (a ++ (encodeResult format result ++ newline :: lines newline after))
      = match parse format b with
        | none => .error .syntaxError
        | some value =>
            match results.read value with
            | none => .error .schemaError
            | some result => .ok result := by
  have last := lastIndexOf_append_stop result_ne_nil (encodeResult format result)
    newline_not_mem_result (no_result_after plain)
  rw [found] at last
  have whole : newline ∉ b := by
    rw [← eq]
    intro inside
    have there := List.mem_of_mem_drop inside
    rw [encodeResult, List.mem_append] at there
    exact there.elim newline_not_mem_result (newline_not_mem_write format result)
  have drops : (a ++ (encodeResult format result ++ newline :: lines newline after)).drop
      (a.length + i + RESULT_SENTINEL.length) = b ++ newline :: lines newline after := by
    have spec := lastIndexOf_some found
    have fits : i + RESULT_SENTINEL.length ≤ (encodeResult format result).length := by
      have length := congrArg List.length spec
      have pos := List.length_pos_iff.mpr result_ne_nil
      rw [List.length_append, List.length_append, List.length_take, List.length_drop] at length
      omega
    rw [Nat.add_assoc, List.drop_append, Nat.add_sub_cancel_left, List.drop_of_length_le (by omega),
      List.nil_append, List.drop_append_of_le_length fits, eq]
  rw [parseResult, lastIndexOf_append_right a last]
  simp only [drops, List.splitOn_append_cons_self_of_not_mem whole, List.headD_cons]

/-- Where no text of the result holds the sentinel, the last one is the one in front. -/
theorem lastIndexOf_result (fields : List (List Nat × Value ν))
    (absent : mentions RESULT_SENTINEL (.object fields : Value ν) = false) :
    lastIndexOf RESULT_SENTINEL (encodeResult format (.object fields)) = some 0 := by
  have none := (infix_write format result_marker result_ne_nil (.object fields)).not.mpr
    (Bool.eq_false_iff.mp absent)
  rw [write, infix_of_not_marker result_marker result_ne_nil (by decide)] at none
  rw [encodeResult, write]
  exact lastIndexOf_front result_ne_nil (by decide) none

/-- What follows a sentinel within a text of the result is no result. -/
theorem not_read_within {name : String} {α : Type} (schema : Schema ν α name)
    (foreign : ∃ u ∈ units name, u ∉ MARKS) {b : List Nat}
    (inside : scan .inside b = some .outside) (out : α) :
    (parse format b).bind schema.read ≠ some out := by
  intro read
  obtain ⟨value, parsed, accepted⟩ := Option.bind_eq_some_iff.mp read
  obtain ⟨fields, rfl, named⟩ := schema.asks accepted
  obtain ⟨field, there, eq⟩ := List.mem_map.mp named
  obtain ⟨u, inName, other⟩ := foreign
  rw [← eq] at inName
  exact other (keys_of_inside inside parsed field there u inName)

end Result

/-! ## The events -/

section Events

variable {format} {before : List (Line ν)} {result : Value ν} {after : List (List Nat)}
  {events : Schema ν ε "kind"}

theorem readLine_of_absent {text : List Nat} (absent : ¬ EVENT_SENTINEL <:+: text) :
    readLine format events text = none := by
  rw [readLine, (indexOf_none_iff event_ne_nil).mpr absent, Option.bind_none]

theorem readLine_event (value : Value ν) :
    readLine format events (EVENT_SENTINEL ++ write format value) = events.read (image value) := by
  rw [readLine, indexOf_append, Option.bind_some, Nat.zero_add, List.drop_left, parse_write,
    Option.bind_some]

/-- The line of the result holds no event, whatever its texts say. -/
theorem readLine_result (fields : List (List Nat × Value ν)) :
    readLine format events (encodeResult format (.object fields)) = none := by
  cases found : indexOf EVENT_SENTINEL (encodeResult format (.object fields)) with
  | none =>
      rw [readLine, found, Option.bind_none]
  | some idx =>
      have spec := indexOf_some found
      generalize eq : (encodeResult format (.object fields)).drop (idx + EVENT_SENTINEL.length) = b
        at spec
      rw [encodeResult, write] at spec
      obtain ⟨a, -, there⟩ := occurrence_behind event_ne_nil (by decide) event_not_infix_result spec
      have inside : scan .inside b = some .outside := by
        refine @scan_behind b EVENT_SENTINEL ν format (.object fields) (0x7B :: a) event_ne_nil
          event_marker ?_
        rw [write, there, List.cons_append]
      rw [readLine, found, Option.bind_some, eq]
      by_contra some'
      obtain ⟨out, read⟩ := Option.ne_none_iff_exists'.mp some'
      exact not_read_within events (by decide) inside out read

theorem printed_eq_lines : printed format before result after = lines newline
    (before.filterMap (Line.text format) ++ encodeResult format result :: after) := by
  rw [printed, lines, lines, lines, List.flatMap_append, List.flatMap_cons, List.append_assoc,
    List.singleton_append]

theorem splitOn_printed (plainBefore : ∀ text, .harness text ∈ before → Plain text)
    (plainAfter : ∀ text ∈ after, Plain text) :
    (printed format before result after).splitOn newline
      = before.filterMap (Line.text format) ++ encodeResult format result :: after ++ [[]] := by
  rw [printed_eq_lines, splitOn_lines]
  intro text inside
  rcases List.mem_append.mp inside with there | there
  · exact whole_before plainBefore text there
  · rcases List.mem_cons.mp there with rfl | there
    · rw [encodeResult, List.mem_append, not_or]
      exact ⟨newline_not_mem_result, newline_not_mem_write format result⟩
    · exact (plainAfter text there).whole

/-- The lines before the result that hold events are those of the events. -/
theorem readLines_before (plain : ∀ text, .harness text ∈ before → Plain text) :
    (before.filterMap (Line.text format)).filterMap (readLine format events)
      = (before.filterMap (Line.encoded format)).filterMap fun value => events.read (image value) := by
  induction before with
  | nil => rfl
  | cons line before ih =>
      have rest := ih fun text inside => plain text (List.mem_cons_of_mem _ inside)
      cases line with
      | harness text =>
          have absent := (plain text List.mem_cons_self).noEvent
          have shown : Line.text format (.harness text) = some text := rfl
          have none : Line.encoded format (.harness text) = none := rfl
          rw [List.filterMap_cons_some shown, List.filterMap_cons_none none,
            List.filterMap_cons_none (readLine_of_absent absent), rest]
      | event value =>
          have shown : Line.text format (.event value) = _ := encodeLiveEvent_eq format value
          cases live : liveEvent format value with
          | none =>
              have none : Line.encoded format (.event value) = none := live
              rw [live, Option.map_none] at shown
              rw [List.filterMap_cons_none shown, List.filterMap_cons_none none, rest]
          | some event =>
              have here : Line.encoded format (.event value) = some event := live
              rw [live, Option.map_some] at shown
              rw [List.filterMap_cons_some shown, List.filterMap_cons_some here,
                List.filterMap_cons, List.filterMap_cons, readLine_event, rest]

theorem extractLiveEvents_printed {fields : List (List Nat × Value ν)}
    (plainBefore : ∀ text, .harness text ∈ before → Plain text)
    (plainAfter : ∀ text ∈ after, Plain text) :
    extractLiveEvents format events (printed format before (.object fields) after)
      = (before.filterMap (Line.encoded format)).filterMap fun value =>
          events.read (image value) := by
  have all : ((printed format before (.object fields) after).splitOn newline).filterMap
      (readLine format events)
      = (before.filterMap (Line.encoded format)).filterMap fun value =>
          events.read (image value) := by
    have none_after : after.filterMap (readLine format events) = [] :=
      List.filterMap_eq_nil_iff.mpr fun text inside =>
        readLine_of_absent (plainAfter text inside).noEvent
    have none_last : readLine format events [] = none :=
      readLine_of_absent (not_infix_nil event_ne_nil)
    rw [splitOn_printed plainBefore plainAfter, List.filterMap_append, List.filterMap_append,
      List.filterMap_cons_none (readLine_result fields), none_after,
      List.filterMap_cons_none none_last, List.filterMap_nil, List.append_nil, List.append_nil,
      readLines_before plainBefore]
  unfold extractLiveEvents
  split
  · next absent =>
      rw [← all]
      refine (List.filterMap_eq_nil_iff.mpr fun text inside => ?_).symm
      rw [indexOf_none_iff event_ne_nil, printed_eq_lines,
        infix_lines event_ne_nil newline_not_mem_event] at absent
      rw [splitOn_printed plainBefore plainAfter] at inside
      refine readLine_of_absent fun here => ?_
      rcases List.mem_append.mp inside with there | last
      · exact absent ⟨text, there, here⟩
      · rw [List.mem_singleton.mp last] at here
        exact not_infix_nil event_ne_nil here
  · exact all

end Events

/-! ## The log -/

section Log

variable {format} {before : List (Line ν)}

/-- Leaving the event lines out leaves the lines of the harness. -/
theorem filter_before (plain : ∀ text, .harness text ∈ before → Plain text) :
    (before.filterMap (Line.text format)).filter (fun line => indexOf EVENT_SENTINEL line = none)
      = before.filterMap Line.harness? := by
  induction before with
  | nil => rfl
  | cons line before ih =>
      have rest := ih fun text inside => plain text (List.mem_cons_of_mem _ inside)
      cases line with
      | harness text =>
          have absent := (indexOf_none_iff event_ne_nil).mpr (plain text List.mem_cons_self).noEvent
          have shown : Line.text format (.harness text) = some text := rfl
          have here : Line.harness? (.harness text : Line ν) = some text := rfl
          rw [List.filterMap_cons_some shown, List.filterMap_cons_some here,
            List.filter_cons_of_pos (by simpa using absent), rest]
      | event value =>
          have shown : Line.text format (.event value) = _ := encodeLiveEvent_eq format value
          have none : Line.harness? (.event value) = none := rfl
          rw [List.filterMap_cons_none none, ← rest]
          cases live : liveEvent format value with
          | none =>
              rw [live, Option.map_none] at shown
              rw [List.filterMap_cons_none shown]
          | some event =>
              rw [live, Option.map_some] at shown
              rw [List.filterMap_cons_some shown, List.filter_cons_of_neg]
              rw [indexOf_append, decide_eq_true_iff]
              exact Option.some_ne_none 0

theorem stripSentinel_printed {fields : List (List Nat × Value ν)} {after : List (List Nat)}
    (plainBefore : ∀ text, .harness text ∈ before → Plain text)
    (plainAfter : ∀ text ∈ after, Plain text)
    (absent : mentions RESULT_SENTINEL (.object fields : Value ν) = false) :
    stripSentinel (printed format before (.object fields) after)
      = lines newline (before.filterMap Line.harness?) := by
  have found : lastIndexOf RESULT_SENTINEL (printed format before (.object fields) after)
      = some (lines newline (before.filterMap (Line.text format))).length := by
    have last := lastIndexOf_append_stop result_ne_nil (encodeResult format (.object fields))
      newline_not_mem_result (no_result_after plainAfter)
    rw [lastIndexOf_result fields absent] at last
    exact lastIndexOf_append_right _ last
  unfold stripSentinel
  simp only [found]
  rw [printed, List.take_left]
  split
  · next none =>
      rw [indexOf_none_iff event_ne_nil, infix_lines event_ne_nil newline_not_mem_event] at none
      rw [← filter_before plainBefore, List.filter_eq_self.mpr]
      intro text inside
      refine decide_eq_true ((indexOf_none_iff event_ne_nil).mpr fun here => ?_)
      exact none ⟨text, inside, here⟩
  · rw [splitOn_lines (whole_before plainBefore), List.filter_append, filter_before plainBefore]
    exact intercalate_lines newline _

end Log

/-- The channel delivers exactly where no text of the result holds the result's sentinel, and
the schemas read what JSON holds of the result and the events as they read these. -/
theorem result_survives_iff (results : Schema ν ρ "caseId") (events : Schema ν ε "kind")
    (before : List (Line ν)) (result : Value ν) (after : List (List Nat)) (out : ρ)
    (accepted : results.read result = some out)
    (plainBefore : ∀ text, .harness text ∈ before → Plain text)
    (plainAfter : ∀ text ∈ after, Plain text) :
    Delivered format results events before result after ↔
      mentions RESULT_SENTINEL result = false ∧
      results.read (image result) = results.read result ∧
      (before.filterMap (Line.encoded format)).filterMap (fun value => events.read (image value))
        = (before.filterMap (Line.encoded format)).filterMap events.read := by
  obtain ⟨fields, rfl, -⟩ := results.asks accepted
  have preview : extractLiveEvents format events (printed format before (.object fields) after)
      = (before.filterMap (Line.encoded format)).filterMap fun value =>
          events.read (image value) := extractLiveEvents_printed plainBefore plainAfter
  constructor
  · rintro ⟨answer, sameEvents, -⟩
    have read := answer out accepted
    have absent : mentions RESULT_SENTINEL (.object fields : Value ν) = false := by
      by_contra mentioned
      rw [Bool.not_eq_false, ← infix_write format result_marker result_ne_nil] at mentioned
      obtain ⟨i, found⟩ := Option.ne_none_iff_exists'.mp
        ((lastIndexOf_none_iff result_ne_nil).not.mpr (not_not_intro mentioned))
      have within := scan_behind result_ne_nil result_marker (lastIndexOf_some found)
      have there := lastIndexOf_append_right RESULT_SENTINEL found
      rw [printed, parseResult_eq plainAfter there rfl] at read
      rw [encodeResult, Nat.add_assoc, List.drop_append, Nat.add_sub_cancel_left,
        List.drop_of_length_le (Nat.le_add_right _ _), List.nil_append] at read
      refine @not_read_within ν format "caseId" ρ results (by decide) _ within out ?_
      split at read
      · cases read
      · next value parsed =>
          rw [parsed, Option.bind_some]
          split at read
          · cases read
          · next accepts =>
              rw [accepts, Except.ok.inj read]
    refine ⟨absent, ?_, ?_⟩
    · rw [printed, parseResult_eq plainAfter (lastIndexOf_result fields absent) rfl, Nat.zero_add,
        encodeResult, List.drop_left, parse_write] at read
      rw [accepted]
      simp only at read
      split at read
      · cases read
      · next accepts => rw [accepts, Except.ok.inj read]
    · rw [← preview, sameEvents]
  · rintro ⟨absent, sameResult, sameEvents⟩
    refine ⟨fun out' accepts => ?_, preview.trans sameEvents,
      stripSentinel_printed plainBefore plainAfter absent⟩
    rw [printed, parseResult_eq plainAfter (lastIndexOf_result fields absent) rfl, Nat.zero_add,
      encodeResult, List.drop_left, parse_write]
    simp only [sameResult, accepts]

end Wire

/-! ### A result with an event that speaks of results -/

/-- The natural numbers in decimal. -/
def wholeNumbers : NumberFormat Nat where
  write n := (Nat.toDigits 10 n).map Char.toNat
  read text := some (Nat.ofDigitChars 10 (text.map Char.ofNat) 0)
  read_write n := by
    have chars : Char.ofNat ∘ Char.toNat = id := funext Char.ofNat_toNat
    rw [List.map_map, chars, List.map_id, Nat.ofDigitChars_ten_toDigits]
  write_ne_nil n none := Nat.toDigits_ne_nil (List.map_eq_nil_iff.mp none)
  write_units n u inside := by
    obtain ⟨c, there, rfl⟩ := List.mem_map.mp inside
    have digit := Nat.isDigit_of_mem_toDigits (by decide) (by decide) there
    simp only [Char.isDigit, Bool.and_eq_true, decide_eq_true_eq] at digit
    have low : 48 ≤ c.toNat := digit.1
    have high : c.toNat ≤ 57 := digit.2
    have all : ∀ k < 10, 48 + k ∈ units "0123456789+-.e" := by decide
    have here := all (c.toNat - 48) (by omega)
    rwa [Nat.add_sub_of_le low] at here

/-- Objects with a text under a name. -/
def named (name : String) : Schema Nat (Value Nat) name where
  read
    | .object fields =>
        match fields.lookup (units name) with
        | some (.text _) => some (.object fields)
        | _ => none
    | _ => none
  asks := by
    intro value out read
    split at read
    · next fields =>
        refine ⟨fields, rfl, ?_⟩
        split at read
        · next text found =>
            obtain ⟨front, back, rfl, -⟩ := List.lookup_eq_some_iff.mp found
            rw [List.map_append, List.map_cons]
            exact List.mem_append_right _ List.mem_cons_self
        · cases read
    · cases read

/-- A message that quotes a result line. -/
def quotingMessage : Value Nat :=
  .object [(units "t", .number 1), (units "kind", .text (units "message")),
    (units "text", .text (RESULT_SENTINEL ++ units "\x7b\x7d"))]

def doneResult : Value Nat :=
  .object [(units "caseId", .text (units "c1")), (units "scores", .array [])]

theorem result_survives_quotingMessage : Delivered wholeNumbers (named "caseId") (named "kind")
    [.harness (units "working"), .event quotingMessage] doneResult [units "done"] := by
  refine (result_survives_iff wholeNumbers (named "caseId") (named "kind") _ doneResult _
    doneResult rfl ?_ ?_).mpr ⟨by decide, rfl, rfl⟩
  · intro text inside
    rcases List.mem_cons.mp inside with eq | inside
    · cases eq
      exact ⟨by decide, by decide, by decide⟩
    · cases List.mem_singleton.mp inside
  · intro text inside
    obtain rfl := List.mem_singleton.mp inside
    exact ⟨by decide, by decide, by decide⟩

end Everdict.Contracts
