import Mathlib.Data.List.Infix
import Mathlib.Data.List.TakeWhile
import Mathlib.Tactic.Common

/-!
# JSON texts

Values as `JSON.stringify` writes them and `JSON.parse` reads them, over UTF-16 code units: a
text may hold half a surrogate pair, which is written with an escape.  A number format says how
a finite number is written and read.  What is written is read back (`parse_write`).
-/

namespace JsonText

/-- The code units of a text of the first plane. -/
def units (s : String) : List Nat := s.toList.map Char.toNat

/-- How the finite numbers are written and read. -/
structure NumberFormat (ν : Type) where
  write : ν → List Nat
  read : List Nat → Option ν
  read_write : ∀ x, read (write x) = some x
  write_ne_nil : ∀ x, write x ≠ []
  write_units : ∀ x, ∀ u ∈ write x, u ∈ units "0123456789+-.e"

inductive Value (ν : Type) where
  | undefined
  | null
  | bool (value : Bool)
  | number (value : ν)
  | nan
  | infinity (negative : Bool)
  | text (value : List Nat)
  | array (items : List (Value ν))
  | object (fields : List (List Nat × Value ν))

def Value.isUndefined {ν : Type} : Value ν → Bool
  | .undefined => true
  | _ => false

/-- Set a property: in its place if there is one, else behind the others. -/
def upsert {ν : Type} (fields : List (List Nat × Value ν)) (key : List Nat)
    (value : Value ν) : List (List Nat × Value ν) :=
  if key ∈ fields.map Prod.fst then
    fields.map fun field => if field.1 = key then (key, value) else field
  else fields ++ [(key, value)]

/-! ## Quoting -/

def isLead (u : Nat) : Bool := 0xD800 ≤ u && u < 0xDC00

def isTrail (u : Nat) : Bool := 0xDC00 ≤ u && u < 0xE000

def hexDigit (n : Nat) : Nat := if n < 10 then 0x30 + n else 0x57 + n

def hexEscape (u : Nat) : List Nat :=
  [0x5C, 0x75, hexDigit (u / 4096 % 16), hexDigit (u / 256 % 16), hexDigit (u / 16 % 16),
    hexDigit (u % 16)]

/-- A code unit that is not half of a pair. -/
def quoteUnit (u : Nat) : List Nat :=
  if u = 0x22 then [0x5C, 0x22]
  else if u = 0x5C then [0x5C, 0x5C]
  else if u = 0x08 then [0x5C, 0x62]
  else if u = 0x0C then [0x5C, 0x66]
  else if u = 0x0A then [0x5C, 0x6E]
  else if u = 0x0D then [0x5C, 0x72]
  else if u = 0x09 then [0x5C, 0x74]
  else if u < 0x20 || isLead u || isTrail u then hexEscape u
  else [u]

def quoteUnits : List Nat → List Nat
  | [] => []
  | [u] => quoteUnit u
  | u :: u' :: rest =>
      if isLead u && isTrail u' then u :: u' :: quoteUnits rest
      else quoteUnit u ++ quoteUnits (u' :: rest)

/-- `JSON.stringify` of a text. -/
def quote (s : List Nat) : List Nat := 0x22 :: (quoteUnits s ++ [0x22])

/-! ## Writing -/

section Write

variable {ν : Type} (format : NumberFormat ν)

def comma (first : Bool) : List Nat := if first then [] else [0x2C]

mutual

/-- `JSON.stringify`; it leaves out what is undefined, and writes what is no number as `null`. -/
def write : Value ν → List Nat
  | .undefined => units "null"
  | .null => units "null"
  | .bool true => units "true"
  | .bool false => units "false"
  | .number value => format.write value
  | .nan => units "null"
  | .infinity _ => units "null"
  | .text value => quote value
  | .array items => 0x5B :: writeItems true items
  | .object fields => 0x7B :: writeFields true fields

def writeItems : Bool → List (Value ν) → List Nat
  | _, [] => [0x5D]
  | first, item :: items => comma first ++ (write item ++ writeItems false items)

def writeFields : Bool → List (List Nat × Value ν) → List Nat
  | _, [] => [0x7D]
  | first, (key, value) :: fields =>
      if value.isUndefined then writeFields first fields
      else comma first ++ (quote key ++ 0x3A :: (write value ++ writeFields false fields))

end

end Write

mutual

/-- What of a value its JSON holds. -/
def image {ν : Type} : Value ν → Value ν
  | .undefined => .null
  | .null => .null
  | .bool value => .bool value
  | .number value => .number value
  | .nan => .null
  | .infinity _ => .null
  | .text value => .text value
  | .array items => .array (imageItems items)
  | .object fields => .object (imageFields [] fields)

def imageItems {ν : Type} : List (Value ν) → List (Value ν)
  | [] => []
  | item :: items => image item :: imageItems items

def imageFields {ν : Type} (done : List (List Nat × Value ν)) :
    List (List Nat × Value ν) → List (List Nat × Value ν)
  | [] => done
  | (key, value) :: fields =>
      if value.isUndefined then imageFields done fields
      else imageFields (upsert done key (image value)) fields

end

/-! ## Reading -/

def isSpace (u : Nat) : Bool := u = 0x20 || u = 0x09 || u = 0x0A || u = 0x0D

def skipSpace (text : List Nat) : List Nat := text.dropWhile isSpace

def hexValue (u : Nat) : Option Nat :=
  if 0x30 ≤ u ∧ u ≤ 0x39 then some (u - 0x30)
  else if 0x61 ≤ u ∧ u ≤ 0x66 then some (u - 0x57)
  else if 0x41 ≤ u ∧ u ≤ 0x46 then some (u - 0x37)
  else none

def hexValues : List Nat → Nat → Option Nat
  | [], value => some value
  | u :: us, value => (hexValue u).bind fun digit => hexValues us (16 * value + digit)

/-- What stands behind a backslash, but for `u`. -/
def escapeValue (u : Nat) : Option Nat :=
  if u = 0x22 ∨ u = 0x5C ∨ u = 0x2F then some u
  else if u = 0x62 then some 0x08
  else if u = 0x66 then some 0x0C
  else if u = 0x6E then some 0x0A
  else if u = 0x72 then some 0x0D
  else if u = 0x74 then some 0x09
  else none

/-- A text up to its closing quote, and what follows. -/
def readText : List Nat → Option (List Nat × List Nat)
  | [] => none
  | 0x22 :: rest => some ([], rest)
  | 0x5C :: 0x75 :: a :: b :: c :: d :: rest =>
      (hexValues [a, b, c, d] 0).bind fun u => (readText rest).map fun r => (u :: r.1, r.2)
  | 0x5C :: u :: rest => (escapeValue u).bind fun u => (readText rest).map fun r => (u :: r.1, r.2)
  | u :: rest =>
      if u = 0x5C || u < 0x20 then none else (readText rest).map fun r => (u :: r.1, r.2)

/-- The units of numbers and of the three names. -/
def WORD : List Nat := units "0123456789+-.eEtrufalsn"

def isWord (u : Nat) : Bool := u ∈ WORD

/-- What follows an expected unit. -/
def expect (u : Nat) : List Nat → Option (List Nat)
  | [] => none
  | u' :: rest => if u' = u then some rest else none

section Read

variable {ν : Type} (format : NumberFormat ν)

def wordValue (word : List Nat) : Option (Value ν) :=
  if word = units "null" then some .null
  else if word = units "true" then some (.bool true)
  else if word = units "false" then some (.bool false)
  else if word = [] then none
  else (format.read word).map .number

def readWord (text : List Nat) : Option (Value ν × List Nat) :=
  (wordValue format (text.takeWhile isWord)).map fun value => (value, text.dropWhile isWord)

/-- What stands behind the comma between two members. -/
def behindComma (first : Bool) (text : List Nat) : Option (List Nat) :=
  if first then some text else expect 0x2C text

mutual

def readValue : Nat → List Nat → Option (Value ν × List Nat)
  | 0, _ => none
  | n + 1, text =>
      match skipSpace text with
      | [] => none
      | u :: rest =>
          if u = 0x22 then (readText rest).map fun r => (.text r.1, r.2)
          else if u = 0x5B then (readItems true n rest).map fun r => (.array r.1, r.2)
          else if u = 0x7B then (readFields true n [] rest).map fun r => (.object r.1, r.2)
          else readWord format (u :: rest)

def readItems (first : Bool) : Nat → List Nat → Option (List (Value ν) × List Nat)
  | 0, _ => none
  | n + 1, text =>
      match expect 0x5D (skipSpace text) with
      | some rest => some ([], rest)
      | none =>
          (behindComma first (skipSpace text)).bind fun text =>
            (readValue n text).bind fun item =>
              (readItems false n item.2).map fun r => (item.1 :: r.1, r.2)

def readFields (first : Bool) : Nat → List (List Nat × Value ν) → List Nat →
    Option (List (List Nat × Value ν) × List Nat)
  | 0, _, _ => none
  | n + 1, done, text =>
      match expect 0x7D (skipSpace text) with
      | some rest => some (done, rest)
      | none =>
          (behindComma first (skipSpace text)).bind fun text =>
            (expect 0x22 (skipSpace text)).bind fun text =>
              (readText text).bind fun key =>
                (expect 0x3A (skipSpace key.2)).bind fun text =>
                  (readValue n text).bind fun value =>
                    readFields false n (upsert done key.1 value.1) value.2

end

/-- `JSON.parse`: a value, and nothing but space behind it. -/
def parse (text : List Nat) : Option (Value ν) :=
  (readValue format (text.length + 1) text).bind fun r =>
    if skipSpace r.2 = [] then some r.1 else none

end Read

/-! ## Quoted texts -/

/-- How a text stands between quotes, one unit after the other. -/
inductive Quoted : List Nat → List Nat → Prop
  | nil : Quoted [] []
  | raw {u : Nat} {s t : List Nat} (quote : u ≠ 0x22) (backslash : u ≠ 0x5C)
      (control : 0x20 ≤ u) : Quoted s t → Quoted (u :: s) (u :: t)
  | short {u e : Nat} {s t : List Nat} (value : escapeValue e = some u) :
      Quoted s t → Quoted (u :: s) (0x5C :: e :: t)
  | hex {u : Nat} {s t : List Nat}
      (special : (decide (u < 0x20) || isLead u || isTrail u) = true) :
      Quoted s t → Quoted (u :: s) (hexEscape u ++ t)

variable {s t rest : List Nat} {u : Nat}

theorem Quoted.unit (quoted : Quoted s t) (u : Nat) : Quoted (u :: s) (quoteUnit u ++ t) := by
  unfold quoteUnit
  split_ifs with h1 h2 h3 h4 h5 h6 h7 special
  · subst h1
    exact .short rfl quoted
  · subst h2
    exact .short rfl quoted
  · subst h3
    exact .short rfl quoted
  · subst h4
    exact .short rfl quoted
  · subst h5
    exact .short rfl quoted
  · subst h6
    exact .short rfl quoted
  · subst h7
    exact .short rfl quoted
  · exact .hex special quoted
  · refine .raw h1 h2 ?_ quoted
    simp only [Bool.or_eq_true, decide_eq_true_eq, not_or] at special
    exact Nat.not_lt.mp special.1.1

theorem quoted_quoteUnits (s : List Nat) : Quoted s (quoteUnits s) := by
  induction s using quoteUnits.induct with
  | case1 => exact .nil
  | case2 u =>
      rw [quoteUnits, ← List.append_nil (quoteUnit u)]
      exact Quoted.nil.unit u
  | case3 u u' rest pair ih =>
      rw [quoteUnits, if_pos pair]
      simp only [isLead, isTrail, Bool.and_eq_true, decide_eq_true_eq] at pair
      refine .raw ?_ ?_ ?_ (.raw ?_ ?_ ?_ ih) <;> omega
  | case4 u u' rest single ih =>
      rw [quoteUnits, if_neg single]
      exact ih.unit u

theorem hexValue_hexDigit : ∀ n < 16, hexValue (hexDigit n) = some n := by decide

theorem readText_hexEscape (small : u < 65536) : readText (hexEscape u ++ rest)
    = (readText rest).map fun r => (u :: r.1, r.2) := by
  have value : hexValues [hexDigit (u / 4096 % 16), hexDigit (u / 256 % 16),
      hexDigit (u / 16 % 16), hexDigit (u % 16)] 0 = some u := by
    simp only [hexValues, hexValue_hexDigit _ (Nat.mod_lt _ (by omega)), Option.bind_some,
      Option.some.injEq]
    have h2 : u / 16 / 16 = u / 256 := Nat.div_div_eq_div_mul ..
    have h3 : u / 256 / 16 = u / 4096 := Nat.div_div_eq_div_mul ..
    omega
  rw [hexEscape, List.cons_append, List.cons_append, List.cons_append, List.cons_append,
    List.cons_append, List.cons_append, List.nil_append, readText, value, Option.bind_some]

theorem readText_short {e : Nat} (value : escapeValue e = some u) :
    readText (0x5C :: e :: rest) = (readText rest).map fun r => (u :: r.1, r.2) := by
  have notHex : e ≠ 0x75 := by
    rintro rfl
    cases value
  rw [readText.eq_def]
  split
  · contradiction
  · next eq => cases eq
  · next eq =>
      cases eq
      exact absurd rfl notHex
  · next eq =>
      cases eq
      rw [value, Option.bind_some]
  · next notShort eq =>
      cases eq
      exact (notShort e rest rfl rfl).elim

theorem readText_raw (quote : u ≠ 0x22) (backslash : u ≠ 0x5C) (control : 0x20 ≤ u) :
    readText (u :: rest) = (readText rest).map fun r => (u :: r.1, r.2) := by
  rw [readText.eq_def]
  split
  · contradiction
  · next eq =>
      cases eq
      exact absurd rfl quote
  · next eq =>
      cases eq
      exact absurd rfl backslash
  · next eq =>
      cases eq
      exact absurd rfl backslash
  · next eq =>
      cases eq
      rw [if_neg]
      simp only [Bool.or_eq_true, decide_eq_true_eq, not_or]
      exact ⟨backslash, Nat.not_lt.mpr control⟩

/-- A quoted text is read back up to its closing quote. -/
theorem Quoted.read (quoted : Quoted s t) : readText (t ++ 0x22 :: rest) = some (s, rest) := by
  induction quoted with
  | nil => rfl
  | raw quote backslash control _ ih =>
      rw [List.cons_append, readText_raw quote backslash control, ih, Option.map_some]
  | short value _ ih =>
      rw [List.cons_append, List.cons_append, readText_short value, ih, Option.map_some]
  | @hex u s t special _ ih =>
      have small : u < 65536 := by
        simp only [isLead, isTrail, Bool.or_eq_true, Bool.and_eq_true, decide_eq_true_eq]
          at special
        omega
      rw [List.append_assoc, readText_hexEscape small, ih, Option.map_some]

theorem quote_append (s rest : List Nat) :
    quote s ++ rest = 0x22 :: (quoteUnits s ++ 0x22 :: rest) := by
  rw [quote, List.cons_append, List.append_assoc, List.singleton_append]

theorem readText_quoteUnits (s rest : List Nat) :
    readText (quoteUnits s ++ 0x22 :: rest) = some (s, rest) :=
  (quoted_quoteUnits s).read

/-! ## What is written is read back -/

section RoundTrip

variable {ν : Type} (format : NumberFormat ν)

/-- No word goes on here. -/
def Stops (rest : List Nat) : Prop := ∀ u t, rest = u :: t → isWord u = false

theorem stops_nil : Stops [] := by
  intro u t eq
  cases eq

theorem stops_cons (mark : isWord u = false) : Stops (u :: t) := by
  intro u' t' eq
  cases eq
  exact mark

theorem skipSpace_cons (mark : isSpace u = false) : skipSpace (u :: t) = u :: t :=
  List.dropWhile_cons_of_neg (by rw [mark]; exact Bool.false_ne_true)

theorem expect_self : expect u (u :: t) = some t := if_pos rfl

theorem expect_of_ne {u' : Nat} (ne : u' ≠ u) : expect u (u' :: t) = none := if_neg ne

theorem readWord_append {word : List Nat} (isOne : ∀ u ∈ word, isWord u = true)
    (stops : Stops rest) :
    readWord format (word ++ rest) = (wordValue format word).map fun value => (value, rest) := by
  have none_more : rest.takeWhile isWord = [] ∧ rest.dropWhile isWord = rest := by
    cases rest with
    | nil => exact ⟨rfl, rfl⟩
    | cons u t =>
        have mark := stops u t rfl
        exact ⟨List.takeWhile_cons_of_neg (by rw [mark]; exact Bool.false_ne_true),
          List.dropWhile_cons_of_neg (by rw [mark]; exact Bool.false_ne_true)⟩
  rw [readWord, List.takeWhile_append_of_pos isOne, List.dropWhile_append_of_pos isOne,
    none_more.1, none_more.2, List.append_nil]

/-- A word of the language is no space and opens nothing. -/
theorem word_marks : ∀ u ∈ WORD, isSpace u = false ∧ u ≠ 0x22 ∧ u ≠ 0x5B ∧ u ≠ 0x7B ∧
    u ≠ 0x5D ∧ u ≠ 0x7D ∧ u ≠ 0x2C := by
  decide

theorem isWord_iff : isWord u = true ↔ u ∈ WORD := decide_eq_true_iff

theorem readValue_word {word : List Nat} {value : Value ν} {n : Nat} (some' : word ≠ [])
    (isOne : ∀ u ∈ word, isWord u = true) (means : wordValue format word = some value)
    (stops : Stops rest) :
    readValue format (n + 1) (word ++ rest) = some (value, rest) := by
  obtain ⟨u, t, rfl⟩ := List.exists_cons_of_ne_nil some'
  obtain ⟨space, text, array, object, -⟩ :=
    word_marks u (isWord_iff.mp (isOne u List.mem_cons_self))
  have read := readWord_append format isOne stops
  rw [means, Option.map_some] at read
  rw [readValue, List.cons_append, skipSpace_cons space]
  simp only [if_neg text, if_neg array, if_neg object]
  exact read

theorem number_word : ∀ u ∈ units "0123456789+-.e", isWord u = true := by decide

theorem number_write_ne_units (x : ν) {word : List Nat}
    (letters : ∃ u ∈ word, u ∉ units "0123456789+-.e") : format.write x ≠ word := by
  rintro rfl
  obtain ⟨u, inside, other⟩ := letters
  exact other (format.write_units x u inside)

theorem wordValue_write (x : ν) : wordValue format (format.write x) = some (.number x) := by
  rw [wordValue, if_neg (number_write_ne_units format x (by decide)),
    if_neg (number_write_ne_units format x (by decide)), if_neg (number_write_ne_units format x (by decide)),
    if_neg (format.write_ne_nil x), format.read_write, Option.map_some]

theorem name_word : ∀ word ∈ [units "null", units "true", units "false"],
    word ≠ [] ∧ ∀ u ∈ word, isWord u = true := by
  decide

/-- A value is written as one word, or it is a text, an array or an object. -/
theorem write_cases (value : Value ν) :
    (write format value ≠ [] ∧ (∀ u ∈ write format value, isWord u = true) ∧
      wordValue format (write format value) = some (image value)) ∨
    (∃ s, value = .text s) ∨ (∃ items, value = .array items) ∨ ∃ fields, value = .object fields := by
  cases value with
  | text s => exact Or.inr (Or.inl ⟨s, rfl⟩)
  | array items => exact Or.inr (Or.inr (Or.inl ⟨items, rfl⟩))
  | object fields => exact Or.inr (Or.inr (Or.inr ⟨fields, rfl⟩))
  | number x =>
      rw [write, image]
      exact Or.inl ⟨format.write_ne_nil x, fun u inside => number_word u (format.write_units x u inside),
        wordValue_write format x⟩
  | bool value =>
      cases value with
      | true =>
          have word := name_word (units "true") (by decide)
          exact Or.inl ⟨word.1, word.2, rfl⟩
      | false =>
          have word := name_word (units "false") (by decide)
          exact Or.inl ⟨word.1, word.2, rfl⟩
  | undefined | null | nan | infinity =>
      have word := name_word (units "null") (by decide)
      exact Or.inl ⟨word.1, word.2, rfl⟩

/-- What is written begins with no space, no closing mark and no comma. -/
theorem write_head (value : Value ν) : ∃ u t, write format value = u :: t ∧ isSpace u = false ∧
    u ≠ 0x5D ∧ u ≠ 0x7D ∧ u ≠ 0x2C := by
  rcases write_cases format value with ⟨some', isOne, -⟩ | ⟨s, rfl⟩ | ⟨items, rfl⟩ |
    ⟨fields, rfl⟩
  · obtain ⟨u, t, eq⟩ := List.exists_cons_of_ne_nil some'
    obtain ⟨space, -, -, -, array, object, comma⟩ :=
      word_marks u (isWord_iff.mp (isOne u (eq ▸ List.mem_cons_self)))
    exact ⟨u, t, eq, space, array, object, comma⟩
  · rw [write]
    exact ⟨_, _, rfl, by decide⟩
  · rw [write]
    exact ⟨_, _, rfl, by decide⟩
  · rw [write]
    exact ⟨_, _, rfl, by decide⟩

theorem write_length_pos (value : Value ν) : 0 < (write format value).length := by
  obtain ⟨u, t, eq, -⟩ := write_head format value
  rw [eq]
  exact Nat.succ_pos _

/-- Behind a member the text goes on with a comma or a closing mark. -/
theorem stops_writeItems (items : List (Value ν)) (rest : List Nat) :
    Stops (writeItems format false items ++ rest) := by
  cases items with
  | nil => exact stops_cons (by decide)
  | cons => exact stops_cons (by decide)

theorem stops_writeFields (fields : List (List Nat × Value ν)) (rest : List Nat) :
    Stops (writeFields format false fields ++ rest) := by
  induction fields with
  | nil => exact stops_cons (by decide)
  | cons field fields ih =>
      rw [writeFields]
      split
      · exact ih
      · exact stops_cons (by decide)

/-- A member is found behind its comma, if it has one. -/
theorem behindComma_comma {first : Bool} (space : isSpace u = false) (closes : Nat)
    (isMark : closes ≠ 0x2C) (opens : u ≠ closes) :
    expect closes (skipSpace (comma first ++ u :: t)) = none ∧
      behindComma first (skipSpace (comma first ++ u :: t)) = some (u :: t) := by
  cases first with
  | true =>
      rw [comma, if_pos rfl, List.nil_append, skipSpace_cons space]
      exact ⟨expect_of_ne opens, rfl⟩
  | false =>
      rw [comma, if_neg Bool.false_ne_true, List.singleton_append, skipSpace_cons (by decide)]
      refine ⟨expect_of_ne isMark.symm, ?_⟩
      rw [behindComma, if_neg Bool.false_ne_true]
      exact expect_self

mutual

theorem readValue_write (value : Value ν) (n : Nat) (rest : List Nat)
    (enough : (write format value).length ≤ n) (stops : Stops rest) :
    readValue format n (write format value ++ rest) = some (image value, rest) := by
  obtain ⟨n, rfl⟩ : ∃ k, n = k + 1 := by
    have pos := write_length_pos format value
    exact ⟨n - 1, by omega⟩
  rcases cases : value with _ | _ | _ | _ | _ | _ | s | items | fields
  case text =>
    rw [write, image, quote_append, readValue, skipSpace_cons (by decide)]
    simp only [↓reduceIte, readText_quoteUnits, Option.map_some]
  case array =>
    subst cases
    rw [write, List.length_cons] at enough
    have read := readItems_write items true n rest (Nat.le_of_succ_le_succ enough)
    rw [write, image, readValue, List.cons_append, skipSpace_cons (by decide)]
    simp [read]
  case object =>
    subst cases
    rw [write, List.length_cons] at enough
    have read := readFields_write fields [] true n rest (Nat.le_of_succ_le_succ enough)
    rw [write, image, readValue, List.cons_append, skipSpace_cons (by decide)]
    simp [read]
  all_goals
    rw [← cases]
    rcases write_cases format value with ⟨some', isOne, means⟩ | ⟨_, eq⟩ | ⟨_, eq⟩ |
      ⟨_, eq⟩
    · exact readValue_word format some' isOne means stops
    all_goals
      rw [eq] at cases
      cases cases

theorem readItems_write (items : List (Value ν)) (first : Bool) (n : Nat) (rest : List Nat)
    (enough : (writeItems format first items).length ≤ n) :
    readItems format first n (writeItems format first items ++ rest)
      = some (imageItems items, rest) := by
  cases items with
  | nil =>
      obtain ⟨n, rfl⟩ : ∃ k, n = k + 1 := ⟨n - 1, by
        rw [writeItems, List.length_singleton] at enough
        omega⟩
      rfl
  | cons item items =>
      rw [writeItems, List.length_append, List.length_append] at enough
      have pos := write_length_pos format item
      have read := readItems_write items false (n - 1) rest (by omega)
      have tail : 0 < (writeItems format false items).length := by
        cases items with
        | nil => exact Nat.succ_pos _
        | cons => exact Nat.succ_pos _
      have here := readValue_write item (n - 1) (writeItems format false items ++ rest)
        (by omega) (stops_writeItems format items rest)
      obtain ⟨n, rfl⟩ : ∃ k, n = k + 1 := ⟨n - 1, by omega⟩
      obtain ⟨u, t, eq, space, opens, -⟩ := write_head format item
      rw [Nat.add_sub_cancel] at here read
      rw [writeItems, imageItems, readItems, List.append_assoc, List.append_assoc]
      rw [eq, List.cons_append] at here ⊢
      obtain ⟨goesOn, member⟩ := @behindComma_comma (t ++ (writeItems format false items ++ rest))
        u first space 0x5D (by decide) opens
      rw [goesOn, member]
      simp only [Option.bind_some, here, read, Option.map_some]

theorem readFields_write (fields done : List (List Nat × Value ν)) (first : Bool) (n : Nat)
    (rest : List Nat) (enough : (writeFields format first fields).length ≤ n) :
    readFields format first n done (writeFields format first fields ++ rest)
      = some (imageFields done fields, rest) := by
  cases fields with
  | nil =>
      obtain ⟨n, rfl⟩ : ∃ k, n = k + 1 := ⟨n - 1, by
        rw [writeFields, List.length_singleton] at enough
        omega⟩
      rfl
  | cons field fields =>
      obtain ⟨key, value⟩ := field
      rw [writeFields] at enough ⊢
      rw [imageFields]
      split at enough
      · next isUndefined =>
          rw [if_pos isUndefined, if_pos isUndefined]
          exact readFields_write fields done first n rest enough
      · next isDefined =>
          rw [if_neg isDefined, if_neg isDefined]
          rw [List.length_append, List.length_append, List.length_cons, List.length_append]
            at enough
          have read := readFields_write fields (upsert done key (image value)) false (n - 1) rest
            (by omega)
          have here := readValue_write value (n - 1) (writeFields format false fields ++ rest)
            (by omega) (stops_writeFields format fields rest)
          obtain ⟨n, rfl⟩ : ∃ k, n = k + 1 := ⟨n - 1, by omega⟩
          rw [Nat.add_sub_cancel] at here read
          rw [readFields, List.append_assoc, List.append_assoc, List.cons_append,
            List.append_assoc, quote_append]
          obtain ⟨goesOn, member⟩ := @behindComma_comma (quoteUnits key ++ 0x22 :: 0x3A ::
            (write format value ++ (writeFields format false fields ++ rest))) 0x22 first
            (by decide) 0x7D (by decide) (by decide)
          rw [goesOn, member]
          have colon : skipSpace (0x3A :: (write format value ++
              (writeFields format false fields ++ rest))) = 0x3A :: (write format value ++
              (writeFields format false fields ++ rest)) := skipSpace_cons (by decide)
          simp only [Option.bind_some, skipSpace_cons (by decide : isSpace 0x22 = false),
            expect_self, readText_quoteUnits, colon, here, read]

end

/-- `JSON.parse` of what `JSON.stringify` wrote. -/
theorem parse_write (value : Value ν) : parse format (write format value) = some (image value) := by
  have read := readValue_write format value _ [] (Nat.le_succ _) stops_nil
  rw [List.append_nil] at read
  rw [parse, read]
  rfl

end RoundTrip

end JsonText
