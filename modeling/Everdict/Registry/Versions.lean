import Everdict.ArraySort
import Mathlib.Data.Prod.Lex

/-!
# The order of versions

Versions are ordered by their three leading numbers, and a label without them is equal to
every version.  Where no label stands among numbered versions the comparator is the order
of a key, so the latest version does not depend on the order of registration
(`latest_of_plain`), and what a bump writes comes after it (`bump_greater`).
-/

namespace Everdict.Registry

open Double

def LATEST : String := "latest"

structure NotFoundError where
  id : String
  version : Option String
  message : String
  deriving DecidableEq

/-- `(\d+)` at the head of a text. -/
def digits (text : List Char) : Option (Whole × List Char) :=
  if text.takeWhile Char.isDigit = [] then none
  else some (read (text.takeWhile Char.isDigit), text.dropWhile Char.isDigit)

/-- `\.` at the head of a text. -/
def dot : List Char → Option (List Char)
  | '.' :: text => some text
  | _ => none

def parseSemver (v : String) : Option (Whole × Whole × Whole) := do
  let (major, text) ← digits v.toList
  let (minor, text) ← digits (← dot text)
  let (patch, _) ← digits (← dot text)
  return (major, minor, patch)

/-- The loop over the three places: the first difference that is not zero. -/
def difference : List (Whole × Whole) → Number
  | [] => .finite 0
  | (a, b) :: rest => if sub a b ≠ .finite 0 then sub a b else difference rest

def compareVersions (a b : String) : Number :=
  match parseSemver a, parseSemver b with
  | some sa, some sb => difference [(sa.1, sb.1), (sa.2.1, sb.2.1), (sa.2.2, sb.2.2)]
  | _, _ => .finite 0

def sortVersions (sort : ArraySort String) (versions : List String) : List String :=
  sort.run compareVersions versions

def versionsBeyondKeep (sort : ArraySort String) (versions : List String) (keep : ℤ) :
    List String :=
  if keep < 1 then []
  else
    let ordered := sortVersions sort versions
    ordered.take (max 0 (ordered.length - keep)).toNat

inductive VersionBump where
  | major
  | minor
  | patch
  deriving DecidableEq

def bumpVersion (base : String) (bump : VersionBump) : String :=
  match parseSemver base with
  | none => "1.0.0"
  | some (major, minor, patch) =>
      match bump with
      | .major => toString (succ major) ++ ".0.0"
      | .minor => toString major ++ "." ++ toString (succ minor) ++ ".0"
      | .patch => toString major ++ "." ++ toString minor ++ "." ++ toString (succ patch)

def resolveRef (id ref : String) (sorted : List String) : Except NotFoundError String :=
  match sorted.getLast? with
  | none => .error { id, version := none, message := "Harness '" ++ id ++ "' not found." }
  | some last =>
      if ref = LATEST then .ok last
      else if ref ∈ sorted then .ok ref
      else
        .error
          { id, version := some ref, message := "Harness " ++ id ++ "@" ++ ref ++ " not found." }

/-! ## The key of a version -/

/-- Every number of the version is finite. -/
def Measured (v : String) : Prop :=
  ∀ numbers ∈ parseSemver v, numbers.1 ≠ ⊤ ∧ numbers.2.1 ≠ ⊤ ∧ numbers.2.2 ≠ ⊤

instance (v : String) : Decidable (Measured v) := inferInstanceAs (Decidable (∀ _ ∈ _, _))

def size (x : Whole) : ℕ := x.untopD 0

def key (v : String) : ℕ ×ₗ ℕ ×ₗ ℕ :=
  match parseSemver v with
  | some (major, minor, patch) => toLex (size major, toLex (size minor, size patch))
  | none => toLex (0, toLex (0, 0))

/-- No label stands among numbered versions, and every number is finite. -/
structure Plain (held : List String) : Prop where
  uniform : (∀ v ∈ held, (parseSemver v).isSome = true) ∨ ∀ v ∈ held, parseSemver v = none
  measured : ∀ v ∈ held, Measured v

theorem difference_cons_same (n : ℕ) (rest : List (Whole × Whole)) :
    difference ((↑n, ↑n) :: rest) = difference rest := by
  rw [difference, sub_same, if_neg (by simp)]

theorem difference_of_lt {m n : ℕ} (lt : m < n) (rest : List (Whole × Whole)) :
    ∃ d : ℤ, difference ((↑m, ↑n) :: rest) = .finite d ∧ d < 0 := by
  obtain ⟨d, eq, neg⟩ := sub_of_lt lt
  refine ⟨d, ?_, neg⟩
  rw [difference, eq, if_pos]
  intro zero
  cases zero
  omega

theorem difference_of_gt {m n : ℕ} (gt : n < m) (rest : List (Whole × Whole)) :
    ∃ d : ℤ, difference ((↑m, ↑n) :: rest) = .finite d ∧ 0 < d := by
  obtain ⟨d, eq, pos⟩ := sub_of_gt gt
  refine ⟨d, ?_, pos⟩
  rw [difference, eq, if_pos]
  intro zero
  cases zero
  omega

section Compare

variable {a b : String} {m m' n n' p p' : ℕ} (parsed : parseSemver a = some (↑m, ↑n, ↑p))
  (parsed' : parseSemver b = some (↑m', ↑n', ↑p'))

include parsed

theorem key_of_parsed : key a = toLex (m, toLex (n, p)) := by
  rw [key, parsed]
  rfl

include parsed'

theorem compareVersions_of_parsed :
    compareVersions a b = difference [(↑m, ↑m'), (↑n, ↑n'), (↑p, ↑p')] := by
  rw [compareVersions, parsed, parsed']

theorem compare_less (lt : key a < key b) :
    ∃ d : ℤ, compareVersions a b = .finite d ∧ d < 0 := by
  rw [compareVersions_of_parsed parsed parsed']
  rw [key_of_parsed parsed, key_of_parsed parsed', Prod.Lex.toLex_lt_toLex] at lt
  rcases lt with lt | ⟨rfl, lt⟩
  · exact difference_of_lt lt _
  rw [difference_cons_same]
  rcases Prod.Lex.toLex_lt_toLex.mp lt with lt | ⟨rfl, lt⟩
  · exact difference_of_lt lt _
  rw [difference_cons_same]
  exact difference_of_lt lt _

theorem compare_greater (gt : key b < key a) :
    ∃ d : ℤ, compareVersions a b = .finite d ∧ 0 < d := by
  rw [compareVersions_of_parsed parsed parsed']
  rw [key_of_parsed parsed, key_of_parsed parsed', Prod.Lex.toLex_lt_toLex] at gt
  rcases gt with gt | ⟨rfl, gt⟩
  · exact difference_of_gt gt _
  rw [difference_cons_same]
  rcases Prod.Lex.toLex_lt_toLex.mp gt with gt | ⟨rfl, gt⟩
  · exact difference_of_gt gt _
  rw [difference_cons_same]
  exact difference_of_gt gt _

/-- A key is the numbers of the version. -/
theorem parsed_of_key (same : key a = key b) : parseSemver a = parseSemver b := by
  rw [key_of_parsed parsed, key_of_parsed parsed'] at same
  cases same
  rw [parsed, parsed']

theorem compare_same (same : key a = key b) : compareVersions a b = .finite 0 := by
  rw [compareVersions_of_parsed parsed parsed']
  rw [key_of_parsed parsed, key_of_parsed parsed'] at same
  cases same
  rw [difference_cons_same, difference_cons_same, difference_cons_same]
  rfl

end Compare

theorem compareVersions_label {a : String} (label : parseSemver a = none) (b : String) :
    compareVersions a b = .finite 0 := by
  rw [compareVersions, label]

theorem key_label {v : String} (label : parseSemver v = none) :
    key v = toLex (0, toLex (0, 0)) := by
  rw [key, label]

theorem Measured.parsed {v : String} (measured : Measured v)
    (numbered : (parseSemver v).isSome = true) :
    ∃ m n p : ℕ, parseSemver v = some (↑m, ↑n, ↑p) := by
  obtain ⟨⟨x, y, z⟩, eq⟩ := Option.isSome_iff_exists.mp numbered
  obtain ⟨finiteX, finiteY, finiteZ⟩ := measured _ eq
  obtain ⟨m, rfl⟩ := WithTop.ne_top_iff_exists.mp finiteX
  obtain ⟨n, rfl⟩ := WithTop.ne_top_iff_exists.mp finiteY
  obtain ⟨p, rfl⟩ := WithTop.ne_top_iff_exists.mp finiteZ
  exact ⟨m, n, p, eq⟩

theorem Plain.agrees {held : List String} (plain : Plain held) :
    ArraySort.Agrees compareVersions key held := by
  rcases plain.uniform with numbered | labels
  · have parsed : ∀ v ∈ held, ∃ m n p : ℕ, parseSemver v = some (↑m, ↑n, ↑p) :=
      fun v isIn => (plain.measured v isIn).parsed (numbered v isIn)
    refine .of_order ?_ ?_ ?_ <;> intro a ina b inb order <;>
      obtain ⟨_, _, _, parsedA⟩ := parsed a ina <;> obtain ⟨_, _, _, parsedB⟩ := parsed b inb
    · exact compare_less parsedA parsedB order
    · exact compare_same parsedA parsedB order
    · exact compare_greater parsedA parsedB order
  · have tie : ∀ a ∈ held, ∀ b ∈ held, key a = key b := by
      intro a ina b inb
      rw [key_label (labels a ina), key_label (labels b inb)]
    refine .of_order ?_ ?_ ?_
    · intro a ina b inb lt
      exact absurd (tie a ina b inb) lt.ne
    · intro a ina b _ _
      exact compareVersions_label (labels a ina) b
    · intro a ina b inb gt
      exact absurd (tie a ina b inb) gt.ne'

theorem Plain.perm {held held' : List String} (plain : Plain held) (same : held'.Perm held) :
    Plain held' where
  uniform := by simpa only [same.mem_iff] using plain.uniform
  measured := by simpa only [same.mem_iff] using plain.measured

theorem Plain.parsed_of_key {held : List String} (plain : Plain held) {a b : String}
    (ina : a ∈ held) (inb : b ∈ held) (same : key a = key b) : parseSemver a = parseSemver b := by
  rcases plain.uniform with numbered | labels
  · obtain ⟨_, _, _, parsedA⟩ := (plain.measured a ina).parsed (numbered a ina)
    obtain ⟨_, _, _, parsedB⟩ := (plain.measured b inb).parsed (numbered b inb)
    exact Registry.parsed_of_key parsedA parsedB same
  · rw [labels a ina, labels b inb]

/-! ## The latest version -/

section Latest

variable (sort : ArraySort String) {id : String} {held : List String} {latest : String}

theorem resolveRef_latest {sorted : List String} :
    resolveRef id LATEST sorted = .ok latest ↔ sorted.getLast? = some latest := by
  unfold resolveRef
  cases sorted.getLast? with
  | none => simp
  | some last => simp

theorem exists_latest (id : String) (nonempty : held ≠ []) :
    ∃ latest, resolveRef id LATEST (sortVersions sort held) = .ok latest := by
  have some : sortVersions sort held ≠ [] := by
    intro empty
    have perm := sort.perm compareVersions held
    rw [sortVersions] at empty
    rw [empty] at perm
    exact nonempty (List.nil_perm.mp perm)
  exact ⟨_, resolveRef_latest.mpr (List.getLast?_eq_some_getLast some)⟩

variable {sort}

theorem latest_mem (named : resolveRef id LATEST (sortVersions sort held) = .ok latest) :
    latest ∈ held :=
  (sort.perm compareVersions held).mem_iff.mp
    (List.mem_of_getLast? (resolveRef_latest.mp named))

/-- The latest of a plain line has the greatest key. -/
theorem key_le_latest (plain : Plain held)
    (named : resolveRef id LATEST (sortVersions sort held) = .ok latest) :
    ∀ v ∈ held, key v ≤ key latest := by
  intro v isIn
  have sorted : (sortVersions sort held).Pairwise fun a b => key a ≤ key b := by
    rw [sortVersions, sort.run_eq_sortBy plain.agrees]
    exact Sorting.sortBy_pairwise key held
  have last := resolveRef_latest.mp named
  obtain ⟨front, eq⟩ := List.getLast?_eq_some_iff.mp last
  have mem : v ∈ sortVersions sort held := (sort.perm compareVersions held).mem_iff.mpr isIn
  rw [eq] at sorted mem
  rcases List.mem_append.mp mem with before | same
  · exact (List.pairwise_append.mp sorted).2.2 v before latest (List.mem_singleton_self latest)
  · rw [List.mem_singleton.mp same]

/-- No version of a plain line exceeds its latest. -/
theorem latest_not_exceeded (plain : Plain held)
    (named : resolveRef id LATEST (sortVersions sort held) = .ok latest) :
    ∀ v ∈ held, (compareVersions v latest).positive = false := by
  intro v isIn
  have le := key_le_latest plain named v isIn
  rw [← Bool.not_eq_true, plain.agrees.positive v isIn latest (latest_mem named)]
  exact le.not_gt

theorem latest_same {held' : List String} {latest' : String} (plain : Plain held)
    (same : held'.Perm held)
    (named : resolveRef id LATEST (sortVersions sort held) = .ok latest)
    (named' : resolveRef id LATEST (sortVersions sort held') = .ok latest') :
    parseSemver latest' = parseSemver latest := by
  have mem : latest' ∈ held := same.mem_iff.mp (latest_mem named')
  refine plain.parsed_of_key mem (latest_mem named) (le_antisymm ?_ ?_)
  · exact key_le_latest plain named latest' mem
  · exact key_le_latest (plain.perm same) named' latest (same.mem_iff.mpr (latest_mem named))

/-- What falls outside the versions kept is before the last one. -/
theorem latest_kept {keep : ℤ} (distinct : held.Nodup) (some : 1 ≤ keep)
    (named : resolveRef id LATEST (sortVersions sort held) = .ok latest) :
    latest ∉ versionsBeyondKeep sort held keep := by
  have sorted : (sortVersions sort held).Nodup :=
    (sort.perm compareVersions held).nodup_iff.mpr distinct
  obtain ⟨front, eq⟩ := List.getLast?_eq_some_iff.mp (resolveRef_latest.mp named)
  rw [eq, List.nodup_append] at sorted
  have cut : (max 0 ((front ++ [latest]).length - keep)).toNat ≤ front.length := by
    simp only [List.length_append, List.length_singleton]
    omega
  simp only [versionsBeyondKeep, if_neg (not_lt.mpr some), eq]
  rw [List.take_append_of_le_length cut]
  intro dropped
  exact sorted.2.2 latest (List.mem_of_mem_take dropped) latest (List.mem_singleton_self latest) rfl

end Latest

/-! ## Bumps -/

/-- Digits that are read as `x`. -/
structure Written (x : Whole) (text : List Char) : Prop where
  some : text ≠ []
  digit : ∀ c ∈ text, c.isDigit = true
  back : read text = x

theorem written_toDigits (m : ℕ) : Written (cut (round m)) (Nat.toDigits 10 m) where
  some := Nat.toDigits_ne_nil
  digit := fun _ isIn => Nat.isDigit_of_mem_toDigits (by decide) (by decide) isIn
  back := read_toDigits m

theorem written_zero : Written (0 : ℕ) ['0'] := by
  have zero := written_toDigits 0
  rwa [cut_round (Nat.zero_le _)] at zero

/-- A double below `10 ^ 21` is written in digits that are read as it. -/
theorem toString_written {n : ℕ} (exact : Exact n) (plain : n < 10 ^ 21) :
    Written n (Double.toString n).toList := by
  obtain ⟨text, back⟩ := read_text exact plain
  have chars : (Double.toString n).toList = decimalText (shortest n) := String.toList_ofList
  rw [chars, text]
  exact ⟨Nat.toDigits_ne_nil, (written_toDigits _).digit, back⟩

theorem digits_written {x : Whole} {text rest : List Char} (written : Written x text)
    (stop : rest.takeWhile Char.isDigit = []) : digits (text ++ rest) = some (x, rest) := by
  have taken : (text ++ rest).takeWhile Char.isDigit = text := by
    rw [List.takeWhile_append_of_pos written.digit, stop, List.append_nil]
  have left : (text ++ rest).dropWhile Char.isDigit = rest := by
    rw [List.dropWhile_append_of_pos written.digit]
    have whole := List.takeWhile_append_dropWhile (p := Char.isDigit) (l := rest)
    rwa [stop, List.nil_append] at whole
  rw [digits, taken, left, if_neg written.some, written.back]

theorem parseSemver_written {x y z : Whole} {xs ys zs : List Char} (first : Written x xs)
    (second : Written y ys) (third : Written z zs) {v : String}
    (text : v.toList = xs ++ '.' :: (ys ++ '.' :: zs)) : parseSemver v = some (x, y, z) := by
  have stop : ∀ text, ('.' :: text).takeWhile Char.isDigit = [] := fun _ => rfl
  have head := digits_written first (stop (ys ++ '.' :: zs))
  have middle := digits_written second (stop zs)
  have last := @digits_written z zs [] third rfl
  rw [List.append_nil] at last
  simp only [parseSemver, text, head, middle, last, dot, Option.bind_eq_bind, Option.bind_some,
    Option.pure_def]

/-- The numbers of a version are doubles. -/
theorem exact_of_parsed {v : String} {x y z : Whole} (parsed : parseSemver v = some (x, y, z)) :
    (∀ n : ℕ, x = n → Exact n) ∧ (∀ n : ℕ, y = n → Exact n) := by
  have exact : ∀ {text rest : List Char} {w : Whole}, digits text = some (w, rest) →
      ∀ n : ℕ, w = n → Exact n := by
    intro text rest w found n eq
    rw [digits, Option.ite_none_left_eq_some, Option.some.injEq, Prod.mk.injEq] at found
    exact (exact_of_read (found.2.1.trans eq)).1
  simp only [parseSemver, Option.bind_eq_bind, Option.bind_eq_some_iff, Option.pure_def,
    Option.some.injEq, Prod.exists, Prod.mk.injEq] at parsed
  obtain ⟨x', _, first, _, _, y', _, second, _, _, z', _, _, rfl, rfl, rfl⟩ := parsed
  exact ⟨exact first, exact second⟩

/-- The number a bump raises is a safe integer, and those before it are written without an
exponent. -/
def Bumpable (v : String) (bump : VersionBump) : Prop :=
  ∃ major minor patch : Whole, parseSemver v = some (major, minor, patch) ∧
    match bump with
    | .major => major < (2 ^ 53 : ℕ)
    | .minor => major < (10 ^ 21 : ℕ) ∧ minor < (2 ^ 53 : ℕ)
    | .patch => major < (10 ^ 21 : ℕ) ∧ minor < (10 ^ 21 : ℕ) ∧ patch < (2 ^ 53 : ℕ)

/-- The number that is raised. -/
theorem raised_written {n : ℕ} (safe : n < 2 ^ 53) :
    Written (n + 1 : ℕ) (Double.toString (succ n)).toList := by
  rw [succ_of_lt safe]
  exact toString_written (exact_of_le safe) (by omega)

theorem bump_greater {v : String} {bump : VersionBump} (bumpable : Bumpable v bump) :
    (compareVersions (bumpVersion v bump) v).positive = true := by
  obtain ⟨major, minor, patch, parsed, bound⟩ := bumpable
  obtain ⟨exactMajor, exactMinor⟩ := exact_of_parsed parsed
  have greater : ∀ {x y z : Whole}, parseSemver (bumpVersion v bump) = some (x, y, z) →
      (∃ d : ℤ, difference [(x, major), (y, minor), (z, patch)] = .finite d ∧ 0 < d) →
      (compareVersions (bumpVersion v bump) v).positive = true := by
    intro x y z bumped ⟨d, value, pos⟩
    have compared : compareVersions (bumpVersion v bump) v = .finite d := by
      simp only [compareVersions, bumped, parsed, value]
    rw [compared, Number.positive, decide_eq_true_eq]
    exact pos
  cases bump with
  | major =>
      obtain ⟨m, rfl, safe⟩ := exists_of_lt bound
      refine greater (parseSemver_written (raised_written safe) written_zero written_zero ?_)
        (difference_of_gt (Nat.lt_succ_self m) _)
      simp [bumpVersion, parsed]
  | minor =>
      obtain ⟨plain, bound⟩ := bound
      obtain ⟨m, rfl, small⟩ := exists_of_lt plain
      obtain ⟨n, rfl, safe⟩ := exists_of_lt bound
      have kept := toString_written (exactMajor m rfl) small
      refine greater (parseSemver_written kept (raised_written safe) written_zero ?_) ?_
      · simp [bumpVersion, parsed]
      · rw [difference_cons_same]
        exact difference_of_gt (Nat.lt_succ_self n) _
  | patch =>
      obtain ⟨plain, plain', bound⟩ := bound
      obtain ⟨m, rfl, small⟩ := exists_of_lt plain
      obtain ⟨n, rfl, small'⟩ := exists_of_lt plain'
      obtain ⟨p, rfl, safe⟩ := exists_of_lt bound
      have kept := toString_written (exactMajor m rfl) small
      have kept' := toString_written (exactMinor n rfl) small'
      refine greater (parseSemver_written kept kept' (raised_written safe) ?_) ?_
      · simp [bumpVersion, parsed]
      · rw [difference_cons_same, difference_cons_same]
        exact difference_of_gt (Nat.lt_succ_self p) _

/-! ## The latest of a plain line -/

/-- On a plain line `latest` is a greatest version whatever the order of storage, retention keeps
it, and its bump is greater and not yet taken. -/
theorem latest_of_plain (sort : ArraySort String) :
    (∀ id held, held ≠ [] → Plain held →
      ∃ latest, resolveRef id LATEST (sortVersions sort held) = .ok latest ∧ latest ∈ held ∧
        (∀ v ∈ held, (compareVersions v latest).positive = false) ∧
        ∀ held', held'.Perm held → ∃ latest',
          resolveRef id LATEST (sortVersions sort held') = .ok latest' ∧
            parseSemver latest' = parseSemver latest) ∧
    (∀ id held latest keep, held.Nodup → 1 ≤ keep →
      resolveRef id LATEST (sortVersions sort held) = .ok latest →
        latest ∉ versionsBeyondKeep sort held keep) ∧
    (∀ v bump, Bumpable v bump → (compareVersions (bumpVersion v bump) v).positive = true) ∧
    ∀ id held v bump, Plain held → Bumpable v bump →
      resolveRef id LATEST (sortVersions sort held) = .ok v → bumpVersion v bump ∉ held := by
  refine ⟨?_, ?_, fun v bump => bump_greater, ?_⟩
  · intro id held nonempty plain
    obtain ⟨latest, named⟩ := exists_latest sort id nonempty
    refine ⟨latest, named, latest_mem named, latest_not_exceeded plain named, ?_⟩
    intro held' same
    have nonempty' : held' ≠ [] := fun empty => nonempty (List.nil_perm.mp (empty ▸ same))
    obtain ⟨latest', named'⟩ := exists_latest sort id nonempty'
    exact ⟨latest', named', latest_same plain same named named'⟩
  · intro id held latest keep distinct some named
    exact latest_kept distinct some named
  · intro id held v bump plain bumpable named isIn
    have below := latest_not_exceeded plain named _ isIn
    rw [bump_greater bumpable] at below
    cases below

/-- Three versions of a line, one of them with a suffix. -/
def line : List String := ["1.10.0", "1.2.0-rc.1", "1.2.0"]

theorem plain_line : Plain line where
  uniform := by decide +kernel
  measured := by decide +kernel

theorem bumpable_line : Bumpable "1.10.0" .minor :=
  ⟨↑1, ↑10, ↑0, by decide +kernel⟩

theorem latest_of_line :
    (∃ latest, resolveRef "h" LATEST (sortVersions .insertion line) = .ok latest ∧
      latest ∈ line ∧ (∀ v ∈ line, (compareVersions v latest).positive = false) ∧
      ∀ held', held'.Perm line → ∃ latest',
        resolveRef "h" LATEST (sortVersions .insertion held') = .ok latest' ∧
          parseSemver latest' = parseSemver latest) ∧
    "1.10.0" ∉ versionsBeyondKeep .insertion line 1 ∧
    (compareVersions (bumpVersion "1.10.0" .minor) "1.10.0").positive = true ∧
    bumpVersion "1.10.0" .minor ∉ line := by
  obtain ⟨latest, beyond, greater, absent⟩ := latest_of_plain .insertion
  have named : resolveRef "h" LATEST (sortVersions .insertion line) = .ok "1.10.0" := by
    decide +kernel
  refine ⟨latest "h" line (by decide) plain_line, ?_, greater _ _ bumpable_line, ?_⟩
  · exact beyond "h" line "1.10.0" 1 (by decide) le_rfl named
  · exact absent "h" line "1.10.0" .minor plain_line bumpable_line named

/-- A label is equal to every version, so the last one registered is the latest. -/
theorem label_takes_the_order :
    ¬ ∃ sort : ArraySort String, ∀ id held held' latest latest',
      held.Nodup → held'.Perm held →
      resolveRef id LATEST (sortVersions sort held) = .ok latest →
      resolveRef id LATEST (sortVersions sort held') = .ok latest' →
        parseSemver latest' = parseSemver latest := by
  rintro ⟨sort, same⟩
  have ties : ∀ a ∈ ["1.0.0", "beta"], ∀ b ∈ ["1.0.0", "beta"],
      compareVersions a b = .finite 0 := by
    decide +kernel
  have kept : ∀ held : List String, held ⊆ ["1.0.0", "beta"] → sortVersions sort held = held := by
    intro held sub
    have agrees : ArraySort.Agrees compareVersions (fun _ => ()) held := by
      refine .of_order ?_ ?_ ?_
      · intro a _ b _ lt
        exact absurd lt (lt_irrefl _)
      · intro a ina b inb _
        exact ties a (sub ina) b (sub inb)
      · intro a _ b _ lt
        exact absurd lt (lt_irrefl _)
    rw [sortVersions, sort.run_eq_sortBy agrees]
    exact Sorting.sortBy_of_pairwise (List.pairwise_of_forall fun _ _ => le_rfl)
  have apart := same "h" ["1.0.0", "beta"] ["beta", "1.0.0"] "beta" "1.0.0" (by decide)
    (List.Perm.swap _ _ _) (by rw [kept _ (by simp)]; rfl) (by rw [kept _ (by simp)]; rfl)
  revert apart
  decide +kernel

end Everdict.Registry
