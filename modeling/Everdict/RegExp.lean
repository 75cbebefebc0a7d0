import Mathlib.Computability.Language
import Mathlib.Tactic.Common

/-!
# Regular expressions of JavaScript

The expressions without flags that are written with characters, escaped ones, `.`, `[^c]`,
`(?:…)`, `?` and `*` of one character, between `^` and `$`.  A text is read as tokens, the
tokens as an expression, and the expression is run by the backtracking matcher of the
language, which finds a match exactly where the text is in the language of the expression
(`test_iff`).  Texts are lists of UTF-16 code units.
-/

namespace RegExp

abbrev CodeUnit := Nat

/-- The code unit of a character of the basic plane. -/
def code (c : Char) : CodeUnit := c.toNat

/-- The code units that `.` does not stand for. -/
def isLineEnd (u : CodeUnit) : Bool := u ∈ [0x0A, 0x0D, 0x2028, 0x2029]

/-- The characters that mean something in an expression. -/
def syntaxUnits : List CodeUnit := "^$\\.*+?()[]\x7b\x7d|".toList.map code

inductive UnitSet where
  | only (u : CodeUnit)
  | notOnly (u : CodeUnit)
  | dot
  deriving DecidableEq

def UnitSet.has : UnitSet → CodeUnit → Bool
  | .only u, v => v = u
  | .notOnly u, v => v ≠ u
  | .dot, v => !isLineEnd v

/-! ## Reading an expression -/

inductive Token where
  | start
  | finish
  | groupOpen
  | groupClose
  | star
  | maybe
  | set (units : UnitSet)
  deriving DecidableEq

/-- The token that one character is. -/
def single (u : CodeUnit) : Option Token :=
  if u = code '^' then some .start
  else if u = code '$' then some .finish
  else if u = code ')' then some .groupClose
  else if u = code '*' then some .star
  else if u = code '?' then some .maybe
  else if u = code '.' then some (.set .dot)
  else if u ∈ syntaxUnits then none
  else some (.set (.only u))

def tokens : List CodeUnit → Option (List Token)
  | [] => some []
  | u :: rest =>
      if u = code '\\' then
        match rest with
        | escaped :: rest =>
            if escaped ∈ syntaxUnits then (tokens rest).map (.set (.only escaped) :: ·) else none
        | [] => none
      else if u = code '(' then
        match rest with
        | mark :: colon :: rest =>
            if mark = code '?' ∧ colon = code ':' then (tokens rest).map (.groupOpen :: ·)
            else none
        | _ => none
      else if u = code '[' then
        match rest with
        | caret :: but :: close :: rest =>
            if caret = code '^' ∧ but ∉ [code '\\', code ']'] ∧ close = code ']' then
              (tokens rest).map (.set (.notOnly but) :: ·)
            else none
        | _ => none
      else
        match single u with
        | some token => (tokens rest).map (token :: ·)
        | none => none

inductive Regex where
  | empty
  | unit (units : UnitSet)
  | star (units : UnitSet)
  | maybe (inner : Regex)
  | seq (first second : Regex)
  deriving DecidableEq

def seqOf : List Regex → Regex
  | [] => .empty
  | r :: rs => .seq r (seqOf rs)

/-- The terms read so far, the last one first, and those in front of each group that is open. -/
def build : List Token → List Regex → List (List Regex) → Option Regex
  | [], terms, [] => some (seqOf terms.reverse)
  | .set units :: ts, terms, outer => build ts (.unit units :: terms) outer
  | .star :: ts, .unit units :: terms, outer => build ts (.star units :: terms) outer
  | .maybe :: ts, .unit units :: terms, outer => build ts (.maybe (.unit units) :: terms) outer
  | .maybe :: ts, .seq r s :: terms, outer => build ts (.maybe (.seq r s) :: terms) outer
  | .groupOpen :: ts, terms, outer => build ts [] (terms :: outer)
  | .groupClose :: ts, terms, before :: outer =>
      build ts (seqOf terms.reverse :: before) outer
  | _, _, _ => none

/-- `new RegExp(source)` -/
def compile (source : List CodeUnit) : Option Regex :=
  match tokens source with
  | some (.start :: ts) =>
      if ts.getLast? = some .finish then build ts.dropLast [] [] else none
  | _ => none

theorem tokens_escaped {u : CodeUnit} (special : u ∈ syntaxUnits) (rest : List CodeUnit) :
    tokens (code '\\' :: u :: rest) = (tokens rest).map (.set (.only u) :: ·) := by
  rw [tokens.eq_def]
  simp only [if_pos special, if_true]

theorem tokens_group (rest : List CodeUnit) :
    tokens (code '(' :: code '?' :: code ':' :: rest) = (tokens rest).map (.groupOpen :: ·) := by
  rw [tokens.eq_def]
  simp [code]

theorem tokens_class {u : CodeUnit} (plain : u ∉ [code '\\', code ']']) (rest : List CodeUnit) :
    tokens (code '[' :: code '^' :: u :: code ']' :: rest) =
      (tokens rest).map (.set (.notOnly u) :: ·) := by
  rw [tokens.eq_def]
  simp only [plain, not_false_eq_true, and_self, if_true]
  simp [code]

theorem tokens_single {u : CodeUnit} {token : Token} (isToken : single u = some token)
    (rest : List CodeUnit) : tokens (u :: rest) = (tokens rest).map (token :: ·) := by
  have escape : u ≠ code '\\' := by
    rintro rfl
    cases isToken
  have group : u ≠ code '(' := by
    rintro rfl
    cases isToken
  have set : u ≠ code '[' := by
    rintro rfl
    cases isToken
  rw [tokens.eq_def]
  simp only [if_neg escape, if_neg group, if_neg set, isToken]

theorem single_of_plain {u : CodeUnit} (plain : u ∉ syntaxUnits) :
    single u = some (.set (.only u)) := by
  have other : ∀ c, code c ∈ syntaxUnits → u ≠ code c := fun c isIn eq => plain (eq ▸ isIn)
  rw [single, if_neg (other '^' (by decide)), if_neg (other '$' (by decide)),
    if_neg (other ')' (by decide)), if_neg (other '*' (by decide)),
    if_neg (other '?' (by decide)), if_neg (other '.' (by decide)), if_neg plain]

/-! ## Matching -/

/-- What follows a repetition is tried with the longest run first. -/
def runStar (units : UnitSet) (next : List CodeUnit → Bool) : List CodeUnit → Bool
  | [] => next []
  | u :: text => (units.has u && runStar units next text) || next (u :: text)

def run : Regex → (List CodeUnit → Bool) → List CodeUnit → Bool
  | .empty, next, text => next text
  | .unit _, _, [] => false
  | .unit units, next, u :: text => units.has u && next text
  | .star units, next, text => runStar units next text
  | .maybe inner, next, text => run inner next text || next text
  | .seq first second, next, text => run first (run second next) text

def test (r : Regex) (text : List CodeUnit) : Bool := run r List.isEmpty text

/-- The texts that an expression stands for. -/
def lang : Regex → Language CodeUnit
  | .empty => 1
  | .unit units => {text | ∃ u, units.has u = true ∧ text = [u]}
  | .star units => {text | ∀ u ∈ text, units.has u = true}
  | .maybe inner => lang inner + 1
  | .seq first second => lang first * lang second

theorem runStar_iff (units : UnitSet) (next : List CodeUnit → Bool) (text : List CodeUnit) :
    runStar units next text = true ↔
      ∃ front rest, front ++ rest = text ∧ (∀ u ∈ front, units.has u = true) ∧
        next rest = true := by
  induction text with
  | nil =>
      rw [runStar]
      constructor
      · exact fun goes => ⟨[], [], rfl, by simp, goes⟩
      · rintro ⟨front, rest, split, _, goes⟩
        rw [(List.append_eq_nil_iff.mp split).2] at goes
        exact goes
  | cons u text ih =>
      rw [runStar, Bool.or_eq_true, Bool.and_eq_true, ih]
      constructor
      · rintro (⟨here, front, rest, rfl, all, goes⟩ | goes)
        · exact ⟨u :: front, rest, rfl, List.forall_mem_cons.mpr ⟨here, all⟩, goes⟩
        · exact ⟨[], u :: text, rfl, by simp, goes⟩
      · rintro ⟨front, rest, split, all, goes⟩
        cases front with
        | nil =>
            rw [List.nil_append] at split
            rw [split] at goes
            exact .inr goes
        | cons v front =>
            obtain ⟨rfl, rfl⟩ := List.cons_eq_cons.mp split
            rw [List.forall_mem_cons] at all
            exact .inl ⟨all.1, front, rest, rfl, all.2, goes⟩

theorem run_iff (r : Regex) (next : List CodeUnit → Bool) (text : List CodeUnit) :
    run r next text = true ↔
      ∃ front rest, front ++ rest = text ∧ front ∈ lang r ∧ next rest = true := by
  induction r generalizing next text with
  | empty =>
      rw [run]
      constructor
      · exact fun goes => ⟨[], text, rfl, rfl, goes⟩
      · rintro ⟨front, rest, rfl, none, goes⟩
        cases (none : front = [])
        exact goes
  | unit units =>
      constructor
      · intro goes
        cases text with
        | nil => cases goes
        | cons u text =>
            rw [run, Bool.and_eq_true] at goes
            exact ⟨[u], text, rfl, ⟨u, goes.1, rfl⟩, goes.2⟩
      · rintro ⟨_, rest, rfl, ⟨u, here, rfl⟩, goes⟩
        rw [List.singleton_append, run, here, goes]
        rfl
  | star units => exact runStar_iff units next text
  | maybe inner ih =>
      rw [run, Bool.or_eq_true, ih]
      constructor
      · rintro (⟨front, rest, split, isIn, goes⟩ | goes)
        · exact ⟨front, rest, split, .inl isIn, goes⟩
        · exact ⟨[], text, rfl, .inr rfl, goes⟩
      · rintro ⟨front, rest, split, isIn | none, goes⟩
        · exact .inl ⟨front, rest, split, isIn, goes⟩
        · cases (none : front = [])
          rw [List.nil_append] at split
          rw [split] at goes
          exact .inr goes
  | seq first second ih ih' =>
      rw [run, ih]
      constructor
      · rintro ⟨front, rest, rfl, isIn, goes⟩
        obtain ⟨front', rest', rfl, isIn', goes⟩ := (ih' _ _).mp goes
        exact ⟨front ++ front', rest', List.append_assoc _ _ _,
          Language.mem_mul.mpr ⟨front, isIn, front', isIn', rfl⟩, goes⟩
      · rintro ⟨_, rest, rfl, both, goes⟩
        obtain ⟨front, isIn, front', isIn', rfl⟩ := Language.mem_mul.mp both
        refine ⟨front, front' ++ rest, (List.append_assoc _ _ _).symm, isIn, (ih' _ _).mpr ?_⟩
        exact ⟨front', rest, rfl, isIn', goes⟩

/-- The matcher accepts the texts of the language. -/
theorem test_iff (r : Regex) (text : List CodeUnit) : test r text = true ↔ text ∈ lang r := by
  rw [test, run_iff]
  constructor
  · rintro ⟨front, rest, rfl, isIn, done⟩
    rw [List.isEmpty_iff.mp done, List.append_nil]
    exact isIn
  · exact fun isIn => ⟨text, [], List.append_nil _, isIn, rfl⟩

end RegExp
