import Everdict.Text

/-!
# Case keys

The unit of an evaluation's identity is a case and a trial of it.  `encodeCaseKey` spells it
for maps and digests: injectively, but for an absent trial, which reads as trial 0
(`encodeCaseKey_inj`).  `caseKeyAddress` spells it for storage and leaves the id of a case
without trials bare, so it tells two units apart unless such an id reads as the key of the
other (`address_tells_iff`).
-/

namespace Everdict

structure CaseKey where
  caseId : String
  trial : Option Nat := none
  deriving DecidableEq

def CASE_KEY_SEPARATOR : Char := '#'

def escapeChar (c : Char) : List Char :=
  if c = '%' then ['%', '2', '5'] else if c = CASE_KEY_SEPARATOR then ['%', '2', '3'] else [c]

def escapeCaseId (caseId : String) : String := String.ofList (caseId.toList.flatMap escapeChar)

def encodeCaseKey (key : CaseKey) : String :=
  escapeCaseId key.caseId ++ String.singleton CASE_KEY_SEPARATOR ++ toString (key.trial.getD 0)

def childKey (caseId : String) (trial : Option Nat) : String := encodeCaseKey { caseId, trial }

theorem escapeChar_cons_inj {c c' : Char} {rest rest' : List Char}
    (eq : escapeChar c ++ rest = escapeChar c' ++ rest') : c = c' ∧ rest = rest' := by
  unfold escapeChar CASE_KEY_SEPARATOR at eq
  split_ifs at eq <;> grind

theorem escapeChars_inj {cs cs' : List Char}
    (eq : cs.flatMap escapeChar = cs'.flatMap escapeChar) : cs = cs' := by
  refine Text.flatMap_code_inj (fun c => ?_) escapeChar_cons_inj eq
  unfold escapeChar
  split_ifs <;> exact List.cons_ne_nil _ _

theorem toList_encodeCaseKey (key : CaseKey) :
    (encodeCaseKey key).toList =
      key.caseId.toList.flatMap escapeChar ++ '#' :: Nat.toDigits 10 (key.trial.getD 0) := by
  simp [encodeCaseKey, escapeCaseId, CASE_KEY_SEPARATOR]

theorem encodeCaseKey_inj {key key' : CaseKey} :
    encodeCaseKey key = encodeCaseKey key' ↔
      key.caseId = key'.caseId ∧ key.trial.getD 0 = key'.trial.getD 0 := by
  constructor
  · intro eq
    have chars := congrArg String.toList eq
    rw [toList_encodeCaseKey, toList_encodeCaseKey] at chars
    obtain ⟨ids, trials⟩ := Text.append_mark_inj (Text.not_mem_digits (by decide) _)
      (Text.not_mem_digits (by decide) _) chars
    exact ⟨String.toList_inj.mp (escapeChars_inj ids), Text.toDigits_inj trials⟩
  · intro same
    obtain ⟨ids, trials⟩ := same
    unfold encodeCaseKey
    rw [ids, trials]

/-! ## Addresses -/

def caseKeyAddress (key : CaseKey) : String :=
  match key.trial with
  | none => key.caseId
  | some _ => encodeCaseKey key

/-- The characters that `escapeCaseId` writes so. -/
def unescape : List Char → Option (List Char)
  | [] => some []
  | '%' :: '2' :: '5' :: text => (unescape text).map ('%' :: ·)
  | '%' :: '2' :: '3' :: text => (unescape text).map ('#' :: ·)
  | c :: text => if c = '%' ∨ c = '#' then none else (unescape text).map (c :: ·)

theorem unescape_escapeChar (c : Char) (text : List Char) :
    unescape (escapeChar c ++ text) = (unescape text).map (c :: ·) := by
  unfold escapeChar CASE_KEY_SEPARATOR
  split_ifs with percent mark
  · subst percent
    rfl
  · subst mark
    rfl
  · rw [List.singleton_append, unescape, if_neg (not_or.mpr ⟨percent, mark⟩)]
    all_goals
      intro _ eq
      exact absurd eq percent

theorem unescape_escape (id : List Char) : unescape (id.flatMap escapeChar) = some id := by
  induction id with
  | nil => rfl
  | cons c id ih => rw [List.flatMap_cons, unescape_escapeChar, ih, Option.map_some]

theorem escape_of_unescape {text id : List Char} (read : unescape text = some id) :
    text = id.flatMap escapeChar := by
  induction text using unescape.induct generalizing id with
  | case1 =>
      cases read
      rfl
  | case2 text ih =>
      obtain ⟨id', rest, rfl⟩ := Option.map_eq_some_iff.mp read
      rw [ih rest]
      rfl
  | case3 text ih =>
      obtain ⟨id', rest, rfl⟩ := Option.map_eq_some_iff.mp read
      rw [ih rest]
      rfl
  | case4 c text _ _ reserved =>
      rw [unescape, if_pos reserved] at read
      · cases read
      all_goals assumption
  | case5 c text _ _ plain ih =>
      rw [unescape, if_neg plain] at read
      · obtain ⟨id', rest, rfl⟩ := Option.map_eq_some_iff.mp read
        rw [not_or] at plain
        rw [ih rest, List.flatMap_cons, escapeChar, if_neg plain.1, CASE_KEY_SEPARATOR,
          if_neg plain.2]
        rfl
      all_goals assumption

/-- The case and the trial a text names when it is read as an encoded key. -/
def readCaseKey (text : String) : Option (String × Nat) := do
  let (front, back) ← Text.cutLast CASE_KEY_SEPARATOR text.toList
  let trial := Nat.ofDigitChars 10 back 0
  if Nat.toDigits 10 trial = back then
    let caseId ← unescape front
    return (String.ofList caseId, trial)
  else none

theorem readCaseKey_eq_some {text caseId : String} {trial : Nat} :
    readCaseKey text = some (caseId, trial) ↔
      text.toList = caseId.toList.flatMap escapeChar ++ '#' :: Nat.toDigits 10 trial := by
  constructor
  · intro read
    simp only [readCaseKey, Option.bind_eq_bind, Option.bind_eq_some_iff,
      Option.ite_none_right_eq_some, Option.pure_def, Option.some.injEq, Prod.exists,
      Prod.mk.injEq] at read
    obtain ⟨front, back, cut, digits, chars, unescaped, rfl, rfl⟩ := read
    rw [Text.eq_of_cutLast cut, String.toList_ofList, ← escape_of_unescape unescaped, digits]
    rfl
  · intro spelled
    have cut : Text.cutLast CASE_KEY_SEPARATOR text.toList =
        some (caseId.toList.flatMap escapeChar, Nat.toDigits 10 trial) := by
      rw [spelled]
      exact Text.cutLast_append (Text.not_mem_digits (by decide) trial)
    simp [readCaseKey, cut, unescape_escape]

/-- An id without a trial that reads as the encoded key of the other. -/
def Shadows (key other : CaseKey) : Prop :=
  key.trial = none ∧ ∃ trial ∈ other.trial, readCaseKey key.caseId = some (other.caseId, trial)

theorem shadows_iff {key other : CaseKey} :
    Shadows key other ↔
      key.trial = none ∧ other.trial ≠ none ∧ key.caseId = encodeCaseKey other := by
  have spelled : ∀ trial, other.trial = some trial →
      (readCaseKey key.caseId = some (other.caseId, trial) ↔ key.caseId = encodeCaseKey other) := by
    intro trial has
    rw [readCaseKey_eq_some, ← String.toList_inj, toList_encodeCaseKey, has, Option.getD_some]
  constructor
  · rintro ⟨bare, trial, has, read⟩
    refine ⟨bare, ?_, (spelled trial has).mp read⟩
    rw [Option.mem_def.mp has]
    exact Option.some_ne_none trial
  · rintro ⟨bare, has, eq⟩
    obtain ⟨trial, has⟩ := Option.ne_none_iff_exists'.mp has
    exact ⟨bare, trial, has, (spelled trial has).mpr eq⟩

/-- Addresses of keys with trials, or of keys without, are as different as the keys. -/
theorem caseKeyAddress_inj {key key' : CaseKey} (alike : key.trial = none ↔ key'.trial = none)
    (eq : caseKeyAddress key = caseKeyAddress key') : key = key' := by
  obtain ⟨id, trial⟩ := key
  obtain ⟨id', trial'⟩ := key'
  cases trial with
  | none =>
      obtain rfl : trial' = none := alike.mp rfl
      cases (eq : id = id')
      rfl
  | some n =>
      cases trial' with
      | none => cases alike.mpr rfl
      | some n' =>
          obtain ⟨ids, trials⟩ := encodeCaseKey_inj.mp eq
          cases (ids : id = id')
          cases (trials : n = n')
          rfl

theorem address_tells_iff {key key' : CaseKey} :
    (caseKeyAddress key = caseKeyAddress key' → key = key') ↔
      ¬ Shadows key key' ∧ ¬ Shadows key' key := by
  constructor
  · intro tells
    have apart : ∀ {k k' : CaseKey}, Shadows k k' →
        caseKeyAddress k = caseKeyAddress k' ∧ k ≠ k' := by
      intro k k' shadows
      obtain ⟨bare, trialled, eq⟩ := shadows_iff.mp shadows
      obtain ⟨n, has⟩ := Option.ne_none_iff_exists'.mp trialled
      constructor
      · rw [caseKeyAddress, caseKeyAddress, bare, has]
        exact eq
      · rintro rfl
        exact trialled bare
    constructor
    · intro shadows
      exact (apart shadows).2 (tells (apart shadows).1)
    · intro shadows
      exact (apart shadows).2 (tells (apart shadows).1.symm).symm
  · intro clear eq
    by_cases bare : key.trial = none <;> by_cases bare' : key'.trial = none
    · exact caseKeyAddress_inj (iff_of_true bare bare') eq
    · obtain ⟨n, has⟩ := Option.ne_none_iff_exists'.mp bare'
      rw [caseKeyAddress, caseKeyAddress, bare, has] at eq
      exact absurd (shadows_iff.mpr ⟨bare, bare', eq⟩) clear.1
    · obtain ⟨n, has⟩ := Option.ne_none_iff_exists'.mp bare
      rw [caseKeyAddress, caseKeyAddress, bare', has] at eq
      exact absurd (shadows_iff.mpr ⟨bare', bare, eq.symm⟩) clear.2
    · exact caseKeyAddress_inj (iff_of_false bare bare') eq

end Everdict
