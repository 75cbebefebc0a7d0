import Mathlib.Data.List.Basic
import Mathlib.Data.Nat.Digits.Defs
import Mathlib.Tactic.Common
import Mathlib.Tactic.Ring

/-!
# Internet addresses and their spellings

An IPv4 address is four octets, written in dotted decimal.  An IPv6 address is eight groups; a
spelling of it has one to four hexadecimal digits for a group, in either case, may write `::` for
a run of zero groups and the last two groups as a dotted quad, and may stand in brackets.  The
addresses that are not routed publicly are told by the address.
-/

namespace Address

def HEX : List Char := "0123456789abcdef".toList

def lower (cs : List Char) : List Char := cs.map Char.toLower

def decimal (n : Nat) : List Char := Nat.toDigits 10 n

def hexDigit (c : Char) : Nat := HEX.idxOf c.toLower

def hexValue (cs : List Char) : Nat := cs.foldl (fun n c => 16 * n + hexDigit c) 0

/-! ## IPv4 -/

structure V4 where
  a : Nat
  b : Nat
  c : Nat
  d : Nat
  bound : a < 256 ∧ b < 256 ∧ c < 256 ∧ d < 256

def V4.parts (x : V4) : List (List Char) := [decimal x.a, decimal x.b, decimal x.c, decimal x.d]

def V4.text (x : V4) : List Char := ['.'].intercalate x.parts

/-- 0/8, 10/8, 127/8, 169.254/16, 172.16/12, 192.168/16 and 100.64/10, by the first two octets. -/
def Reserved4 (a b : Nat) : Prop :=
  a = 0 ∨ a = 10 ∨ a = 127 ∨ (a = 169 ∧ b = 254) ∨ (a = 172 ∧ b / 16 = 1) ∨
    (a = 192 ∧ b = 168) ∨ (a = 100 ∧ b / 64 = 1)

/-! ## IPv6 -/

/-- The digits of one group. -/
structure Group where
  digits : List Char
  some' : digits ≠ []
  short : digits.length ≤ 4
  hex : ∀ c ∈ digits, c.toLower ∈ HEX

def Group.value (g : Group) : Nat := hexValue g.digits

structure V6 where
  front : List Group
  compressed : Bool
  back : List Group
  quad : Option V4
  bracketed : Bool
  fits : if compressed then front.length + back.length + (if quad.isSome then 2 else 0) ≤ 7
    else back = [] ∧ front.length + (if quad.isSome then 2 else 0) = 8

namespace V6

variable (x : V6)

/-- The texts in front of `::`, or up to the end. -/
def frontParts : List (List Char) :=
  x.front.map Group.digits ++ if x.compressed then [] else x.quad.toList.map V4.text

/-- The texts behind `::`. -/
def backParts : List (List Char) := x.back.map Group.digits ++ x.quad.toList.map V4.text

def bare : List Char :=
  if x.compressed then
    [':'].intercalate x.frontParts ++ ':' :: ':' :: [':'].intercalate x.backParts
  else [':'].intercalate x.frontParts

def text : List Char := if x.bracketed then '[' :: x.bare ++ [']'] else x.bare

def quadGroups : List Nat :=
  x.quad.toList.flatMap fun quad => [256 * quad.a + quad.b, 256 * quad.c + quad.d]

/-- The eight groups of the address. -/
def groups : List Nat :=
  let front := x.front.map Group.value
  let back := x.back.map Group.value ++ x.quadGroups
  front ++ List.replicate (8 - (front.length + back.length)) 0 ++ back

end V6

/-- `::`, `::1`, fc00::/7, fe80::/10 and the mapped forms of reserved IPv4 addresses. -/
def Reserved6 (groups : List Nat) : Prop :=
  groups = [0, 0, 0, 0, 0, 0, 0, 0] ∨ groups = [0, 0, 0, 0, 0, 0, 0, 1] ∨
    (∃ first ∈ groups.head?, first / 2 ^ 9 = 0xfc00 / 2 ^ 9 ∨ first / 2 ^ 6 = 0xfe80 / 2 ^ 6) ∨
    ∃ high low, groups = [0, 0, 0, 0, 0, 0xffff, high, low] ∧ Reserved4 (high / 256) (high % 256)

/-! ## Names -/

/-- The labels of a host name; the last one is not a number, as that of an address would be. -/
structure HostName where
  labels : List (List Char)
  some' : labels ≠ []
  each : ∀ label ∈ labels, label ≠ [] ∧ ∀ c ∈ label, c.isAlphanum = true ∨ c = '-' ∨ c = '_'
  named : ∀ last ∈ labels.getLast?, ∃ c ∈ last, c.isDigit = false

def HostName.text (name : HostName) : List Char := ['.'].intercalate name.labels

/-! ## Letters of either case -/

variable {c : Char}

theorem toLower_of_not_isUpper (other : c.isUpper = false) : c.toLower = c := by
  have outside : ¬ (c.val ≥ 'A'.val ∧ c.val ≤ 'Z'.val) := of_decide_eq_false other
  exact dif_neg outside

theorem isLower_toLower (upper : c.isUpper = true) : c.toLower.isLower = true := by
  have inside : c.val ≥ 'A'.val ∧ c.val ≤ 'Z'.val := of_decide_eq_true upper
  have moved : c.toLower.val = c.val + ('a'.val - 'A'.val) := congrArg Char.val (dif_pos inside)
  have low := UInt32.le_iff_toNat_le.mp inside.1
  have high := UInt32.le_iff_toNat_le.mp inside.2
  refine Bool.and_eq_true_iff.mpr ⟨decide_eq_true ?_, decide_eq_true ?_⟩
  all_goals
    rw [moved]
    refine UInt32.le_iff_toNat_le.mpr ?_
    simp at low high ⊢
    omega

theorem isUpper_toLower (c : Char) : c.toLower.isUpper = false := by
  cases upper : c.isUpper with
  | false => rwa [toLower_of_not_isUpper upper]
  | true =>
      have low := (Bool.and_eq_true_iff.mp (isLower_toLower upper)).1
      have above : 'a'.val ≤ c.toLower.val := of_decide_eq_true low
      refine decide_eq_false fun inside => ?_
      exact absurd (UInt32.le_trans above inside.2) (by decide)

theorem toLower_eq_iff {c mark : Char} (noLetter : mark.isAlpha = false) :
    c.toLower = mark ↔ c = mark := by
  replace noLetter : mark.isUpper = false ∧ mark.isLower = false :=
    Bool.or_eq_false_iff.mp noLetter
  constructor
  · intro eq
    cases upper : c.isUpper with
    | true =>
        have isLower := isLower_toLower upper
        rw [eq, noLetter.2] at isLower
        cases isLower
    | false => exact (toLower_of_not_isUpper upper).symm.trans eq
  · rintro rfl
    exact toLower_of_not_isUpper noLetter.1

theorem lower_append (cs cs' : List Char) : lower (cs ++ cs') = lower cs ++ lower cs' :=
  List.map_append

theorem lower_intercalate {mark : Char} (noLetter : mark.isAlpha = false)
    (parts : List (List Char)) :
    lower ([mark].intercalate parts) = [mark].intercalate (parts.map lower) := by
  have same : lower [mark] = [mark] := congrArg (· :: []) ((toLower_eq_iff noLetter).mpr rfl)
  induction parts with
  | nil => rfl
  | cons part parts ih =>
      cases parts with
      | nil => rw [List.intercalate_singleton, List.map_singleton, List.intercalate_singleton]
      | cons part' parts =>
          rw [List.intercalate_cons_cons, lower_append, lower_append, ih, same]
          simp only [List.map_cons, List.intercalate_cons_cons]

theorem lower_of_isDigit {cs : List Char} (digits : ∀ c ∈ cs, c.isAlpha = false) :
    lower cs = cs := by
  refine (List.map_congr_left fun c isIn => ?_).trans (List.map_id cs)
  exact (toLower_eq_iff (digits c isIn)).mpr rfl

theorem lower_eq_iff {cs plain : List Char} (noLetters : ∀ c ∈ plain, c.isAlpha = false) :
    lower cs = plain ↔ cs = plain := by
  constructor
  · intro eq
    induction cs generalizing plain with
    | nil => exact eq
    | cons c cs ih =>
        cases plain with
        | nil => cases eq
        | cons c' plain =>
            rw [List.forall_mem_cons] at noLetters
            obtain ⟨head, tail⟩ := List.cons.inj eq
            rw [ih noLetters.2 tail, (toLower_eq_iff noLetters.1).mp head]
  · rintro rfl
    exact lower_of_isDigit noLetters

/-! ## Digits -/

theorem isDigit_of_mem_decimal {n : Nat} (isIn : c ∈ decimal n) : c.isDigit = true :=
  Nat.isDigit_of_mem_toDigits (by decide) (by decide) isIn

theorem decimal_inj {m n : Nat} : decimal m = decimal n ↔ m = n := by
  constructor
  · intro eq
    have read := congrArg (Nat.ofDigitChars 10 · 0) eq
    simpa [decimal, Nat.ofDigitChars_ten_toDigits] using read
  · exact congrArg decimal

theorem not_mem_decimal {mark : Char} (noDigit : mark.isDigit = false) (n : Nat) :
    mark ∉ decimal n := fun isIn => by
  have digit := isDigit_of_mem_decimal isIn
  rw [noDigit] at digit
  cases digit

theorem length_decimal {n : Nat} (bound : n < 256) : (decimal n).length ≤ 3 ∧ decimal n ≠ [] := by
  have all : ∀ n < 256, (decimal n).length ≤ 3 ∧ decimal n ≠ [] := by decide +kernel
  exact all n bound

theorem exists_digit (digit : c.isDigit = true) : ∃ n < 10, c = n.digitChar := by
  obtain ⟨low, high⟩ := Char.isDigit_iff_toNat.mp digit
  have all : ∀ n < 10, Char.ofNat (48 + n) = n.digitChar := by decide
  have low : 48 ≤ c.toNat := low
  have high : c.toNat ≤ 57 := high
  refine ⟨c.toNat - 48, by omega, ?_⟩
  rw [← all _ (by omega), Nat.add_sub_cancel' low, Char.ofNat_toNat]

theorem isAlpha_of_isDigit (digit : c.isDigit = true) : c.isAlpha = false := by
  obtain ⟨n, lt, rfl⟩ := exists_digit digit
  have all : ∀ n < 10, n.digitChar.isAlpha = false := by decide
  exact all n lt

theorem mem_HEX_of_isDigit (digit : c.isDigit = true) : c.toLower ∈ HEX := by
  obtain ⟨n, lt, rfl⟩ := exists_digit digit
  have all : ∀ n < 10, n.digitChar.toLower ∈ HEX := by decide
  exact all n lt

theorem mem_HEX_of_all {cs : List Char}
    (all : (cs.all fun c => decide (c.toLower ∈ HEX)) = true) : ∀ c ∈ cs, c.toLower ∈ HEX := by
  simpa using all

theorem hexDigit_lt (hex : c.toLower ∈ HEX) : hexDigit c < 16 :=
  List.idxOf_lt_length_iff.mpr hex

theorem hexDigit_eq_iff {c mark : Char} {n : Nat} (hex : c.toLower ∈ HEX)
    (digit : HEX.idxOf mark = n) : hexDigit c = n ↔ c.toLower = mark := by
  rw [← digit]
  exact List.idxOf_inj hex

theorem hexValue_lower (cs : List Char) : hexValue (lower cs) = hexValue cs := by
  have digit : ∀ c : Char, hexDigit c.toLower = hexDigit c := fun c => by
    rw [hexDigit, toLower_of_not_isUpper (isUpper_toLower c), hexDigit]
  rw [hexValue, lower, List.foldl_map]
  simp only [digit]
  rfl

theorem hexValue_cons (c : Char) (cs : List Char) :
    hexValue (c :: cs) = 16 ^ cs.length * hexDigit c + hexValue cs := by
  have carried : ∀ (cs : List Char) (n : Nat),
      cs.foldl (fun n c => 16 * n + hexDigit c) n = 16 ^ cs.length * n + hexValue cs := by
    intro cs
    induction cs with
    | nil => intro n; simp [hexValue]
    | cons c cs ih =>
        intro n
        have split : hexValue (c :: cs) = 16 ^ cs.length * (16 * 0 + hexDigit c) + hexValue cs :=
          ih _
        rw [List.foldl_cons, ih, split, List.length_cons, Nat.pow_succ]
        ring
  rw [hexValue, List.foldl_cons, Nat.mul_zero, Nat.zero_add, carried]

theorem hexValue_lt {cs : List Char} (hex : ∀ c ∈ cs, c.toLower ∈ HEX) :
    hexValue cs < 16 ^ cs.length := by
  induction cs with
  | nil => decide
  | cons c cs ih =>
      rw [List.forall_mem_cons] at hex
      have digit := Nat.mul_le_mul_left (16 ^ cs.length) (Nat.le_of_lt_succ (hexDigit_lt hex.1))
      have rest := ih hex.2
      rw [hexValue_cons, List.length_cons, Nat.pow_succ]
      omega

/-! ## Texts joined by a mark -/

theorem intercalate_append {mark : Char} {front back : List (List Char)} (some' : front ≠ [])
    (some'' : back ≠ []) :
    [mark].intercalate (front ++ back)
      = [mark].intercalate front ++ mark :: [mark].intercalate back := by
  induction front with
  | nil => exact absurd rfl some'
  | cons part front ih =>
      cases front with
      | nil =>
          rw [List.singleton_append, List.intercalate_cons_of_ne_nil some'',
            List.intercalate_singleton, List.append_assoc, List.singleton_append]
      | cons part' front =>
          rw [List.cons_append, List.intercalate_cons_of_ne_nil (by simp),
            ih (List.cons_ne_nil _ _), List.intercalate_cons_of_ne_nil (List.cons_ne_nil _ _)]
          simp only [List.append_assoc, List.cons_append]

theorem mem_intercalate {mark c : Char} {parts : List (List Char)}
    (isIn : c ∈ [mark].intercalate parts) : c = mark ∨ ∃ part ∈ parts, c ∈ part := by
  induction parts with
  | nil => cases isIn
  | cons part parts ih =>
      by_cases last : parts = []
      · rw [last, List.intercalate_singleton] at isIn
        exact Or.inr ⟨part, List.mem_cons_self, isIn⟩
      · rw [List.intercalate_cons_of_ne_nil last, List.append_assoc, List.mem_append,
          List.mem_append, List.mem_singleton] at isIn
        rcases isIn with inPart | isMark | later
        · exact Or.inr ⟨part, List.mem_cons_self, inPart⟩
        · exact Or.inl isMark
        · exact (ih later).imp_right fun ⟨part, isIn, inPart⟩ =>
            ⟨part, List.mem_cons_of_mem _ isIn, inPart⟩

/-- A stem without the mark is a prefix of the joined texts if it is one of the first of them. -/
theorem isPrefixOf_intercalate {mark : Char} {stem : List Char} (noMark : mark ∉ stem)
    (part : List Char) (parts : List (List Char)) :
    stem.isPrefixOf ([mark].intercalate (part :: parts)) = stem.isPrefixOf part := by
  have stops : ∀ (stem part rest : List Char), mark ∉ stem →
      stem.isPrefixOf (part ++ mark :: rest) = stem.isPrefixOf part := by
    intro stem
    induction stem with
    | nil => intro part rest _; rw [List.isPrefixOf_nil_left, List.isPrefixOf_nil_left]
    | cons c stem ih =>
        intro part rest noMark
        rw [List.mem_cons, not_or] at noMark
        cases part with
        | nil =>
            rw [List.nil_append, List.isPrefixOf_cons_cons, beq_false_of_ne (Ne.symm noMark.1)]
            rfl
        | cons c' part =>
            rw [List.cons_append, List.isPrefixOf_cons_cons, List.isPrefixOf_cons_cons,
              ih part rest noMark.2]
  by_cases last : parts = []
  · rw [last, List.intercalate_singleton]
  · rw [List.intercalate_cons_of_ne_nil last, List.append_assoc, List.singleton_append]
    exact stops _ _ _ noMark

namespace Group

/-- Does the group start with digits, in either case? -/
def startsWith (g : Group) (stem : List Char) : Bool := stem.isPrefixOf (lower g.digits)

variable {g : Group}

theorem value_lt (g : Group) : g.value < 0x10000 :=
  (hexValue_lt g.hex).trans_le (Nat.pow_le_pow_right (by decide) g.short)

theorem value_lt_of_short (short : g.digits.length < 4) : g.value < 0x1000 :=
  (hexValue_lt g.hex).trans_le (Nat.pow_le_pow_right (by decide) (Nat.le_of_lt_succ short))

theorem value_of_four {a b c d : Char} (digits : g.digits = [a, b, c, d]) :
    g.value = 4096 * hexDigit a + 256 * hexDigit b + 16 * hexDigit c + hexDigit d := by
  simp [value, digits, hexValue]
  omega

/-- A group of four digits that starts with `fc` or `fd` is in fc00::/7, as are no others. -/
theorem uniqueLocal_iff :
    g.value / 2 ^ 9 = 0xfc00 / 2 ^ 9 ↔
      g.digits.length = 4 ∧ (g.startsWith ['f', 'c'] ∨ g.startsWith ['f', 'd']) := by
  by_cases long : g.digits.length = 4
  · obtain ⟨a, b, c, d, eq⟩ := List.length_eq_four.mp long
    have hex := g.hex
    rw [eq] at hex
    have ltB := hexDigit_lt (hex b (by simp))
    have ltC := hexDigit_lt (hex c (by simp))
    have ltD := hexDigit_lt (hex d (by simp))
    have isF : hexDigit a = 15 ↔ a.toLower = 'f' := hexDigit_eq_iff (hex a (by simp)) (by decide)
    have isC : hexDigit b = 12 ↔ b.toLower = 'c' := hexDigit_eq_iff (hex b (by simp)) (by decide)
    have isD : hexDigit b = 13 ↔ b.toLower = 'd' := hexDigit_eq_iff (hex b (by simp)) (by decide)
    have starts : (g.startsWith ['f', 'c'] = true ∨ g.startsWith ['f', 'd'] = true) ↔
        hexDigit a = 15 ∧ (hexDigit b = 12 ∨ hexDigit b = 13) := by
      rw [isF, isC, isD, startsWith, startsWith, eq]
      simp only [lower, List.map_cons, List.isPrefixOf_cons_cons, List.isPrefixOf_nil_left,
        Bool.and_true, Bool.and_eq_true, beq_iff_eq, eq_comm (a := 'f'), eq_comm (a := 'c'),
        eq_comm (a := 'd'), and_or_left]
    rw [starts, value_of_four eq]
    have ltA := hexDigit_lt (hex a (by simp))
    omega
  · have short := value_lt_of_short (g := g) (by have := g.short; omega)
    exact iff_of_false (by omega) fun both => long both.1

/-- A group that starts so has a value that is not zero. -/
theorem value_pos_of_starts
    (starts : g.startsWith ['f', 'c'] = true ∨ g.startsWith ['f', 'd'] = true) : 0 < g.value := by
  have hex := g.hex
  rw [startsWith, startsWith] at starts
  rw [value]
  cases digits : g.digits with
  | nil => exact absurd digits g.some'
  | cons a rest =>
      rw [digits] at hex starts
      have first : a.toLower = 'f' := by
        simp only [lower, List.map_cons, List.isPrefixOf_cons_cons, Bool.and_eq_true,
          beq_iff_eq] at starts
        exact (starts.elim And.left And.left).symm
      have digit : hexDigit a = 15 := (hexDigit_eq_iff (hex a (by simp)) (by decide)).mpr first
      rw [hexValue_cons, digit]
      have := Nat.pow_pos (n := rest.length) (show 0 < 16 by decide)
      omega

/-- The value fe80 has one spelling. -/
theorem linkLocal_iff : g.value = 0xfe80 ↔ g.startsWith ['f', 'e', '8', '0'] = true := by
  by_cases long : g.digits.length = 4
  · obtain ⟨a, b, c, d, eq⟩ := List.length_eq_four.mp long
    have hex := g.hex
    rw [eq] at hex
    have ltA := hexDigit_lt (hex a (by simp))
    have ltB := hexDigit_lt (hex b (by simp))
    have ltC := hexDigit_lt (hex c (by simp))
    have ltD := hexDigit_lt (hex d (by simp))
    have isF : hexDigit a = 15 ↔ a.toLower = 'f' := hexDigit_eq_iff (hex a (by simp)) (by decide)
    have isE : hexDigit b = 14 ↔ b.toLower = 'e' := hexDigit_eq_iff (hex b (by simp)) (by decide)
    have is8 : hexDigit c = 8 ↔ c.toLower = '8' := hexDigit_eq_iff (hex c (by simp)) (by decide)
    have is0 : hexDigit d = 0 ↔ d.toLower = '0' := hexDigit_eq_iff (hex d (by simp)) (by decide)
    have starts : g.startsWith ['f', 'e', '8', '0'] = true ↔
        hexDigit a = 15 ∧ hexDigit b = 14 ∧ hexDigit c = 8 ∧ hexDigit d = 0 := by
      rw [isF, isE, is8, is0, startsWith, eq]
      simp only [lower, List.map_cons, List.isPrefixOf_cons_cons, List.isPrefixOf_nil_left,
        Bool.and_true, Bool.and_eq_true, beq_iff_eq, eq_comm (a := 'f'), eq_comm (a := 'e'),
        eq_comm (a := '8'), eq_comm (a := '0')]
    rw [starts, value_of_four eq]
    omega
  · have short := value_lt_of_short (g := g) (by have := g.short; omega)
    refine iff_of_false (by omega) fun starts => long ?_
    have within := (List.isPrefixOf_iff_prefix.mp starts).length_le
    rw [lower, List.length_map] at within
    exact Nat.le_antisymm g.short within

theorem value_eq_ffff_iff :
    g.value = 0xffff ↔ lower g.digits = "ffff".toList := by
  by_cases long : g.digits.length = 4
  · obtain ⟨a, b, c, d, eq⟩ := List.length_eq_four.mp long
    have hex := g.hex
    rw [eq] at hex
    have ltA := hexDigit_lt (hex a (by simp))
    have ltB := hexDigit_lt (hex b (by simp))
    have ltC := hexDigit_lt (hex c (by simp))
    have ltD := hexDigit_lt (hex d (by simp))
    have isF : ∀ e ∈ [a, b, c, d], hexDigit e = 15 ↔ e.toLower = 'f' := fun e isIn =>
      hexDigit_eq_iff (hex e isIn) (by decide)
    have same : lower g.digits = "ffff".toList ↔
        hexDigit a = 15 ∧ hexDigit b = 15 ∧ hexDigit c = 15 ∧ hexDigit d = 15 := by
      rw [isF a (by simp), isF b (by simp), isF c (by simp), isF d (by simp), eq]
      simp [lower]
    rw [same, value_of_four eq]
    omega
  · have short := value_lt_of_short (g := g) (by have := g.short; omega)
    refine iff_of_false (by omega) fun eq => long ?_
    have length := congrArg List.length eq
    rwa [lower, List.length_map] at length

end Group

/-! ## The parts of a spelling -/

namespace V6

variable (x : V6)

/-- What stands between the colons. -/
def parts : List (List Char) :=
  if x.compressed then
    (if x.frontParts = [] then [[]] else x.frontParts) ++
      [] :: (if x.backParts = [] then [[]] else x.backParts)
  else x.frontParts

theorem bare_eq : x.bare = [':'].intercalate x.parts := by
  have padded : ∀ parts : List (List Char),
      [':'].intercalate (if parts = [] then [[]] else parts) = [':'].intercalate parts := by
    intro parts
    split
    case isTrue none' => rw [none']; rfl
    case isFalse => rfl
  rw [bare, parts]
  split
  case isTrue =>
      rw [intercalate_append (by split <;> simp_all) (List.cons_ne_nil _ _),
        List.intercalate_cons_of_ne_nil (by split <;> simp_all), padded, padded]
      rfl
  case isFalse => rfl

theorem parts_of_front {g : Group} {front : List Group} (eq : x.front = g :: front) :
    ∃ rest, x.parts = g.digits :: rest := by
  have some' : x.frontParts ≠ [] := by simp [frontParts, eq]
  rw [parts, if_neg some', frontParts, eq]
  split
  · exact ⟨_, rfl⟩
  · exact ⟨_, rfl⟩

theorem compressed_of_front (eq : x.front = []) : x.compressed = true := by
  have fits := x.fits
  rw [eq] at fits
  cases compressed : x.compressed with
  | true => rfl
  | false => simp [compressed] at fits; split at fits <;> simp_all

theorem parts_of_no_front (eq : x.front = []) :
    x.parts = [] :: [] :: (if x.backParts = [] then [[]] else x.backParts) := by
  have compressed := x.compressed_of_front eq
  have none' : x.frontParts = [] := by simp [frontParts, eq, compressed]
  rw [parts, if_pos compressed, if_pos none']
  rfl

end V6

theorem V4.mem_text {v : V4} (isIn : c ∈ v.text) : c.isDigit = true ∨ c = '.' := by
  rcases mem_intercalate isIn with mark | ⟨part, isPart, inPart⟩
  · exact Or.inr mark
  · simp only [V4.parts, List.mem_cons, List.not_mem_nil, or_false] at isPart
    rcases isPart with rfl | rfl | rfl | rfl
    all_goals exact Or.inl (isDigit_of_mem_decimal inPart)

theorem V4.lower_text (v : V4) : lower v.text = v.text := by
  refine lower_of_isDigit fun c isIn => ?_
  rcases v.mem_text isIn with digit | rfl
  · exact isAlpha_of_isDigit digit
  · rfl

theorem V6.mem_parts {x : V6} {part : List Char} (isIn : part ∈ x.parts) (inPart : c ∈ part) :
    c.toLower ∈ HEX ∨ c = '.' := by
  have ofGroups : ∀ groups : List Group, part ∈ groups.map Group.digits → c.toLower ∈ HEX := by
    intro groups isIn
    obtain ⟨g, _, rfl⟩ := List.mem_map.mp isIn
    exact g.hex c inPart
  have ofQuad : part ∈ x.quad.toList.map V4.text → c.toLower ∈ HEX ∨ c = '.' := by
    intro isIn
    obtain ⟨v, _, rfl⟩ := List.mem_map.mp isIn
    exact (v.mem_text inPart).imp_left mem_HEX_of_isDigit
  have ofFront : part ∈ x.frontParts → c.toLower ∈ HEX ∨ c = '.' := by
    intro isIn
    rcases List.mem_append.mp isIn with inFront | inQuad
    · exact Or.inl (ofGroups _ inFront)
    · split at inQuad
      · cases inQuad
      · exact ofQuad inQuad
  have ofBack : part ∈ x.backParts → c.toLower ∈ HEX ∨ c = '.' := by
    intro isIn
    rcases List.mem_append.mp isIn with inBack | inQuad
    · exact Or.inl (ofGroups _ inBack)
    · exact ofQuad inQuad
  have padded : ∀ parts : List (List Char), part ∈ (if parts = [] then [[]] else parts) →
      part ∈ parts := by
    intro parts isIn
    split at isIn
    · rw [List.mem_singleton.mp isIn] at inPart
      cases inPart
    · exact isIn
  rw [parts] at isIn
  split at isIn
  · rcases List.mem_append.mp isIn with inFront | later
    · exact ofFront (padded _ inFront)
    · rcases List.mem_cons.mp later with rfl | inBack
      · cases inPart
      · exact ofBack (padded _ inBack)
  · exact ofFront isIn

theorem V6.parts_ne_nil (x : V6) : x.parts ≠ [] := by
  cases eq : x.front with
  | nil => rw [x.parts_of_no_front eq]; exact List.cons_ne_nil _ _
  | cons g front =>
      obtain ⟨rest, parts⟩ := x.parts_of_front eq
      rw [parts]
      exact List.cons_ne_nil _ _

theorem V6.lower_bare (x : V6) : lower x.bare = [':'].intercalate (x.parts.map lower) := by
  rw [x.bare_eq, lower_intercalate (by decide)]

theorem V6.mem_lower_part {x : V6} {part : List Char} (isIn : part ∈ x.parts.map lower)
    (inPart : c ∈ part) : c ∈ HEX ∨ c = '.' := by
  obtain ⟨part', isIn', rfl⟩ := List.mem_map.mp isIn
  obtain ⟨c', inPart', rfl⟩ := List.mem_map.mp inPart
  exact (V6.mem_parts isIn' inPart').imp_right fun dot => by rw [dot]; rfl

theorem V6.splitOn_lower_bare (x : V6) : (lower x.bare).splitOn ':' = x.parts.map lower := by
  rw [x.lower_bare]
  refine List.splitOn_intercalate _ (fun part isIn inPart => ?_) ?_
  · rcases V6.mem_lower_part isIn inPart with hex | dot
    · exact absurd hex (by decide)
    · cases dot
  · simpa using x.parts_ne_nil

theorem V4.splitOn_text (v : V4) : v.text.splitOn '.' = v.parts := by
  refine List.splitOn_intercalate _ (fun part isIn => ?_) (List.cons_ne_nil _ _)
  simp only [V4.parts, List.mem_cons, List.not_mem_nil, or_false] at isIn
  rcases isIn with rfl | rfl | rfl | rfl
  all_goals exact not_mem_decimal (by decide) _

theorem V4.length_splitOn_text (v : V4) : (v.text.splitOn '.').length = 4 := by
  rw [v.splitOn_text]
  rfl

/-! ## The groups of a spelling -/

namespace V6

variable {x : V6}

/-- Behind `::` stand only the carried address and the mark in front of it. -/
def Mapped (x : V6) (v : V4) : Prop :=
  x.front = [] ∧
    x.back.map Group.value ++ x.quadGroups = [0xffff, 256 * v.a + v.b, 256 * v.c + v.d]

theorem head_groups_of_front {g : Group} {front : List Group} (eq : x.front = g :: front) :
    x.groups.head? = some g.value := by
  rw [groups, eq]
  rfl

theorem length_quadGroups (x : V6) : x.quadGroups.length = if x.quad.isSome then 2 else 0 := by
  cases eq : x.quad <;> simp [quadGroups, eq]

theorem backGroup_lt {n : Nat} (isIn : n ∈ x.back.map Group.value ++ x.quadGroups) :
    n < 0x10000 := by
  rcases List.mem_append.mp isIn with inBack | inQuad
  · obtain ⟨g, _, rfl⟩ := List.mem_map.mp inBack
    exact g.value_lt
  · obtain ⟨v, _, isIn⟩ := List.mem_flatMap.mp inQuad
    have bound := v.bound
    simp only [List.mem_cons, List.not_mem_nil, or_false] at isIn
    omega

theorem groups_of_no_front (eq : x.front = []) :
    ∃ n, x.groups = 0 :: List.replicate n 0 ++ (x.back.map Group.value ++ x.quadGroups) := by
  have compressed := x.compressed_of_front eq
  have fits := x.fits
  rw [if_pos compressed, eq] at fits
  simp only [List.length_nil] at fits
  refine ⟨7 - (x.back.map Group.value ++ x.quadGroups).length, ?_⟩
  have count : 8 - (x.back.map Group.value ++ x.quadGroups).length
      = (7 - (x.back.map Group.value ++ x.quadGroups).length) + 1 := by
    simp only [List.length_append, List.length_map, x.length_quadGroups]
    omega
  simp only [groups, eq, List.map_nil, List.nil_append, List.length_nil, Nat.zero_add]
  rw [count, List.replicate_succ]

theorem head_groups_of_no_front (eq : x.front = []) : x.groups.head? = some 0 := by
  obtain ⟨n, groups⟩ := groups_of_no_front eq
  rw [groups]
  rfl

theorem groups_of_mapped {v : V4} (mapped : x.Mapped v) :
    x.groups = [0, 0, 0, 0, 0, 0xffff, 256 * v.a + v.b, 256 * v.c + v.d] := by
  simp only [groups, mapped.1, mapped.2]
  rfl

theorem mapped_of_groups {high low : Nat} (eq : x.groups = [0, 0, 0, 0, 0, 0xffff, high, low])
    (front : x.front = []) (three : x.back.length + (if x.quad.isSome then 2 else 0) = 3) :
    ∃ v : V4, x.Mapped v ∧ v.a = high / 256 ∧ v.b = high % 256 := by
  have count : (x.back.map Group.value ++ x.quadGroups).length = 3 := by
    rw [List.length_append, List.length_map, x.length_quadGroups, three]
  have behind : x.back.map Group.value ++ x.quadGroups = [0xffff, high, low] := by
    simp only [groups, front, List.map_nil, List.nil_append, List.length_nil, Nat.zero_add] at eq
    rw [count] at eq
    exact (List.append_right_inj (List.replicate 5 0)).mp eq
  have high' : high < 0x10000 := backGroup_lt (x := x) (by rw [behind]; simp)
  have low' : low < 0x10000 := backGroup_lt (x := x) (by rw [behind]; simp)
  refine ⟨⟨high / 256, high % 256, low / 256, low % 256, by omega⟩, ⟨front, ?_⟩, rfl, rfl⟩
  rw [behind, Nat.div_add_mod, Nat.div_add_mod]

theorem length_of_mapped {v : V4} (mapped : x.Mapped v) :
    x.back.length + (if x.quad.isSome then 2 else 0) = 3 := by
  have count := congrArg List.length mapped.2
  rwa [List.length_append, List.length_map, x.length_quadGroups] at count

/-! ## The parts of the shortest spellings -/

/-- The parts tell how much stands in front of `::`. -/
theorem front_of_parts {rest : List (List Char)} (eq : x.parts.map lower = [] :: rest) :
    x.front = [] := by
  cases front : x.front with
  | nil => rfl
  | cons g front' =>
      obtain ⟨rest', parts⟩ := x.parts_of_front front
      rw [parts, List.map_cons] at eq
      exact absurd (List.map_eq_nil_iff.mp (List.cons.inj eq).1) g.some'

theorem behind_of_parts {rest : List (List Char)} (eq : x.parts.map lower = [] :: [] :: rest) :
    x.front = [] ∧ ((x.backParts = [] ∧ rest = [[]]) ∨ x.backParts.map lower = rest) := by
  have front := front_of_parts eq
  rw [x.parts_of_no_front front] at eq
  have tail := (List.cons.inj (List.cons.inj eq).2).2
  refine ⟨front, ?_⟩
  split at tail
  case isTrue none' => exact Or.inl ⟨none', tail.symm⟩
  case isFalse => exact Or.inr tail

theorem backPart_ne_nil {part : List Char} (isIn : part ∈ x.backParts) : part ≠ [] := by
  rcases List.mem_append.mp isIn with inBack | inQuad
  · obtain ⟨g, _, rfl⟩ := List.mem_map.mp inBack
    exact g.some'
  · obtain ⟨v, _, rfl⟩ := List.mem_map.mp inQuad
    intro none'
    have four := v.length_splitOn_text
    rw [none'] at four
    exact absurd four (by decide)

theorem groups_of_unspecified (eq : x.bare = "::".toList) :
    x.groups = [0, 0, 0, 0, 0, 0, 0, 0] := by
  have split := x.splitOn_lower_bare
  rw [eq] at split
  have parts : x.parts.map lower = [[], [], []] := split.symm.trans (by decide)
  obtain ⟨front, ⟨none', _⟩ | behind⟩ := behind_of_parts parts
  · obtain ⟨noBack, noQuad⟩ := List.append_eq_nil_iff.mp none'
    rw [List.map_eq_nil_iff] at noBack noQuad
    simp only [groups, front, noBack, quadGroups, noQuad]
    rfl
  · obtain ⟨part, parts, single, noPart, _⟩ := List.map_eq_cons_iff.mp behind
    exact absurd (List.map_eq_nil_iff.mp noPart)
      (backPart_ne_nil (single ▸ List.mem_cons_self))

theorem groups_of_loopback (eq : x.bare = "::1".toList) :
    x.groups = [0, 0, 0, 0, 0, 0, 0, 1] := by
  have split := x.splitOn_lower_bare
  rw [eq] at split
  have parts : x.parts.map lower = [[], [], ['1']] := split.symm.trans (by decide)
  obtain ⟨front, ⟨_, absurd'⟩ | behind⟩ := behind_of_parts parts
  · cases absurd'
  · rw [backParts] at behind
    cases quad : x.quad with
    | none =>
        rw [quad, Option.toList_none, List.map_nil, List.append_nil, List.map_map] at behind
        obtain ⟨g, rest, back, one, noRest⟩ := List.map_eq_cons_iff.mp behind
        rw [List.map_eq_nil_iff] at noRest
        have value : g.value = 1 := by
          rw [Group.value, ← hexValue_lower]
          exact congrArg hexValue one
        simp only [groups, front, back, noRest, quadGroups, quad, List.map_cons, value]
        rfl
    | some v =>
        rw [quad, List.map_append] at behind
        have last := congrArg List.getLast? behind
        rw [List.getLast?_append] at last
        have one : lower v.text = ['1'] := by simpa using last
        have four := v.length_splitOn_text
        rw [← v.lower_text, one] at four
        exact absurd four (by decide)

end V6

end Address
