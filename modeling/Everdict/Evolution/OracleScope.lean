import Everdict.RegExp
import Everdict.Sorting
import Mathlib.Data.List.Lex

/-!
# Paths that a candidate may not touch

The oracle of an experiment is a list of path patterns.  A pattern with wildcards is written
out as a regular expression, which is run on the path.  Patterns and paths are strings as the
language has them, lists of code units, and a character is a code unit.
-/

namespace Everdict.Evolution

open RegExp

abbrev JsString := List CodeUnit

def js (text : String) : JsString := text.toList.map code

def SLASH : CodeUnit := code '/'

def STAR : CodeUnit := code '*'

def QUESTION : CodeUnit := code '?'

/-! ## The code -/

/-- The white space that `trim` removes. -/
def isSpace (u : CodeUnit) : Bool :=
  u ∈ [0x09, 0x0A, 0x0B, 0x0C, 0x0D, 0x20, 0xA0, 0x1680, 0x2028, 0x2029, 0x202F, 0x205F, 0x3000,
    0xFEFF] || 0x2000 ≤ u && u ≤ 0x200A

def trim (s : JsString) : JsString :=
  ((s.dropWhile isSpace).reverse.dropWhile isSpace).reverse

/-- `while (p.startsWith("./")) p = p.slice(2)` -/
def withoutDots : JsString → JsString
  | u :: v :: rest => if u = code '.' ∧ v = SLASH then withoutDots rest else u :: v :: rest
  | p => p

def normalizePath (path : JsString) : JsString :=
  (withoutDots ((trim path).map fun u => if u = code '\\' then SLASH else u)).dropWhile (· = SLASH)

def escapeRegExp (u : CodeUnit) : JsString :=
  if u ∈ js ".+^$\x7b\x7d()|[]\\" then [code '\\', u] else [u]

def hasWildcard (pattern : JsString) : Bool := pattern.any fun u => u = STAR || u = QUESTION

/-- The loop over the pattern, which steps past what it looked ahead at. -/
def regExpSource : Nat → JsString → JsString
  | _, [] => []
  | skip + 1, _ :: rest => regExpSource skip rest
  | 0, ch :: rest =>
      if ch = STAR then
        if rest[0]? = some STAR then
          if rest[1]? = some SLASH then js "(?:.*/)?" ++ regExpSource 2 rest
          else js ".*" ++ regExpSource 1 rest
        else js "[^/]*" ++ regExpSource 0 rest
      else if ch = QUESTION then js "[^/]" ++ regExpSource 0 rest
      else escapeRegExp ch ++ regExpSource 0 rest

/-- The terms of the expression. -/
inductive Piece where
  /-- `(?:.*/)?` -/
  | gap
  /-- `.*` -/
  | rest
  /-- `[^/]*` -/
  | run
  /-- `[^/]` -/
  | one
  | literal (u : CodeUnit)
  deriving DecidableEq

def pieces : Nat → JsString → List Piece
  | _, [] => []
  | skip + 1, _ :: rest => pieces skip rest
  | 0, ch :: rest =>
      if ch = STAR then
        if rest[0]? = some STAR then
          if rest[1]? = some SLASH then .gap :: pieces 2 rest else .rest :: pieces 1 rest
        else .run :: pieces 0 rest
      else if ch = QUESTION then .one :: pieces 0 rest
      else .literal ch :: pieces 0 rest

def Piece.tokens : Piece → List Token
  | .gap => [.groupOpen, .set .dot, .star, .set (.only SLASH), .groupClose, .maybe]
  | .rest => [.set .dot, .star]
  | .run => [.set (.notOnly SLASH), .star]
  | .one => [.set (.notOnly SLASH)]
  | .literal u => [.set (.only u)]

def Piece.regex : Piece → Regex
  | .gap => .maybe (seqOf [.star .dot, .unit (.only SLASH)])
  | .rest => .star .dot
  | .run => .star (.notOnly SLASH)
  | .one => .unit (.notOnly SLASH)
  | .literal u => .unit (.only u)

def regexOf (ps : List Piece) : Regex := seqOf (ps.map Piece.regex)

/-! ## The expression is read as it is meant -/

theorem tokens_escapeRegExp {u : CodeUnit} (notStar : u ≠ STAR) (notQuestion : u ≠ QUESTION)
    (source : JsString) :
    tokens (escapeRegExp u ++ source) = (tokens source).map (.set (.only u) :: ·) := by
  unfold escapeRegExp
  split_ifs with special
  · have isSyntax : ∀ u ∈ js ".+^${}()|[]\\", u ∈ syntaxUnits := by decide
    exact tokens_escaped (isSyntax u special) source
  · have cases : ∀ u ∈ syntaxUnits, u ∈ js ".+^${}()|[]\\" ∨ u = STAR ∨ u = QUESTION := by
      decide
    have plain : u ∉ syntaxUnits := by
      intro isSyntax
      rcases cases u isSyntax with isIn | isStar | isQuestion
      · exact special isIn
      · exact notStar isStar
      · exact notQuestion isQuestion
    exact tokens_single (single_of_plain plain) source

theorem tokens_dotStar (source : JsString) :
    tokens (code '.' :: code '*' :: source) = (tokens source).map (Piece.rest.tokens ++ ·) := by
  rw [tokens_single rfl, tokens_single rfl, Option.map_map]
  rfl

theorem tokens_gap (source : JsString) :
    tokens (js "(?:.*/)?" ++ source) = (tokens source).map (Piece.gap.tokens ++ ·) := by
  show tokens (code '(' :: code '?' :: code ':' :: code '.' :: code '*' :: SLASH :: code ')' ::
    code '?' :: source) = _
  rw [tokens_group, tokens_dotStar, tokens_single rfl, tokens_single rfl, tokens_single rfl,
    Option.map_map, Option.map_map, Option.map_map, Option.map_map]
  rfl

theorem tokens_one (source : JsString) :
    tokens (js "[^/]" ++ source) = (tokens source).map (Piece.one.tokens ++ ·) :=
  tokens_class (by decide) source

theorem tokens_run (source : JsString) :
    tokens (js "[^/]*" ++ source) = (tokens source).map (Piece.run.tokens ++ ·) := by
  show tokens (js "[^/]" ++ code '*' :: source) = _
  rw [tokens_one, tokens_single rfl, Option.map_map]
  rfl

theorem tokens_regExpSource (skip : Nat) (pattern : JsString) :
    tokens (regExpSource skip pattern ++ [code '$']) =
      some ((pieces skip pattern).flatMap Piece.tokens ++ [.finish]) := by
  induction pattern generalizing skip with
  | nil => rfl
  | cons ch rest ih =>
      cases skip with
      | succ skip => exact ih skip
      | zero =>
          rw [regExpSource, pieces]
          split_ifs with star next third question
          · rw [List.append_assoc, tokens_gap, ih]
            rfl
          · rw [List.append_assoc, show js ".*" = [code '.', code '*'] from rfl, List.cons_append,
              List.singleton_append, tokens_dotStar, ih]
            rfl
          · rw [List.append_assoc, tokens_run, ih]
            rfl
          · rw [List.append_assoc, tokens_one, ih]
            rfl
          · rw [List.append_assoc, tokens_escapeRegExp star question, ih]
            rfl

theorem build_pieces (ps : List Piece) (terms : List Regex) :
    build (ps.flatMap Piece.tokens) terms [] =
      some (seqOf (terms.reverse ++ ps.map Piece.regex)) := by
  induction ps generalizing terms with
  | nil => rw [List.map_nil, List.append_nil]; rfl
  | cons piece ps ih =>
      have step : build ((piece :: ps).flatMap Piece.tokens) terms [] =
          build (ps.flatMap Piece.tokens) (piece.regex :: terms) [] := by
        cases piece <;> rfl
      rw [step, ih, List.reverse_cons, List.append_assoc, List.map_cons, List.singleton_append]

theorem compile_regExpSource (pattern : JsString) :
    compile (code '^' :: regExpSource 0 pattern ++ [code '$']) =
      some (regexOf (pieces 0 pattern)) := by
  rw [compile, List.cons_append, tokens_single rfl, tokens_regExpSource]
  simp only [Option.map_some, List.getLast?_concat, if_true, List.dropLast_concat]
  exact build_pieces _ []

/-! ## The matcher -/

def patternToRegExp (pattern : JsString) : Regex :=
  (compile (code '^' :: regExpSource 0 pattern ++ [code '$'])).get
    (Option.isSome_of_eq_some (compile_regExpSource pattern))

def pathMatchesPattern (path pattern : JsString) : Bool :=
  let p := normalizePath path
  let pat := normalizePath pattern
  if pat = [] then false
  else
    let pat := if pat.getLast? = some SLASH then pat ++ js "**" else pat
    if !hasWildcard pat then p = pat || (pat ++ [SLASH]).isPrefixOf p
    else test (patternToRegExp pat) p

/-- The paths that some pattern covers, each once, in the order of their code units. -/
def oracleTouched (changedPaths scope : List JsString) : List JsString :=
  if scope.length = 0 then []
  else
    Sorting.sortBy id ((changedPaths.filter fun path =>
      scope.any fun pattern => pathMatchesPattern path pattern).map normalizePath).dedup

theorem patternToRegExp_eq (pattern : JsString) :
    patternToRegExp pattern = regexOf (pieces 0 pattern) := by
  unfold patternToRegExp
  simp only [compile_regExpSource, Option.get_some]

end Everdict.Evolution
