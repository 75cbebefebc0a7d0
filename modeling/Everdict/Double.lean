import Everdict.Decimal
import Mathlib.Algebra.Order.Ring.WithTop
import Mathlib.Tactic.Ring

/-!
# Whole numbers as doubles

A double has fifty-three significant bits.  Up to `2 ^ 53` every whole number is one
(`round_of_le`); beyond, a digit string reads as the nearest double, and from `2 ^ 1024` on
as infinity.  `Number.prototype.toString` writes the shortest digits that read back as the
number (`round_shortest`), with an exponent from `10 ^ 21` on.
-/

namespace Double

/-- The distance of doubles around `n`. -/
def unit (n : ℕ) : ℕ := 2 ^ (n.log2 - 52)

/-- The double nearest to `n`, an even one where two are. -/
def round (n : ℕ) : ℕ :=
  if 2 * (n % unit n) < unit n ∨ 2 * (n % unit n) = unit n ∧ n / unit n % 2 = 0 then
    n / unit n * unit n
  else (n / unit n + 1) * unit n

/-- A double has no bits below its unit. -/
def Exact (n : ℕ) : Prop := unit n ∣ n

theorem unit_pos (n : ℕ) : 0 < unit n := Nat.two_pow_pos _

variable {n : ℕ}

theorem round_of_exact (exact : Exact n) : round n = n := by
  have whole : n % unit n = 0 := Nat.mod_eq_zero_of_dvd exact
  rw [round, if_pos (Or.inl (by rw [whole]; exact unit_pos n)), Nat.div_mul_cancel exact]

theorem exact_of_lt (small : n < 2 ^ 53) : Exact n := by
  have log : n.log2 ≤ 52 := by
    by_cases zero : n = 0
    · simp [zero]
    · have := (Nat.log2_lt zero).mpr small
      omega
  rw [Exact, unit, show n.log2 - 52 = 0 by omega, Nat.pow_zero]
  exact Nat.one_dvd n

theorem exact_mul_pow {m : ℕ} (e : ℕ) (bits : m ≤ 2 ^ 53) : Exact (m * 2 ^ e) := by
  by_cases zero : m = 0
  · subst zero
    rw [Nat.zero_mul]
    exact Nat.dvd_zero _
  have nonzero : m * 2 ^ e ≠ 0 := by positivity
  rcases Nat.lt_or_eq_of_le bits with small | rfl
  · have log : (m * 2 ^ e).log2 < 53 + e := by
      rw [Nat.log2_lt nonzero, Nat.pow_add]
      exact Nat.mul_lt_mul_of_pos_right small (Nat.two_pow_pos e)
    exact Dvd.dvd.mul_left (Nat.pow_dvd_pow 2 (by omega)) m
  · rw [Exact, unit, ← Nat.pow_add, Nat.log2_two_pow]
    exact Nat.pow_dvd_pow 2 (by omega)

theorem round_of_le (le : n ≤ 2 ^ 53) : round n = n := by
  have exact := exact_mul_pow 0 le
  rw [Nat.pow_zero, Nat.mul_one] at exact
  exact round_of_exact exact

/-- Of the multiples of the unit next to `n` one is rounded to. -/
theorem round_cases (n : ℕ) :
    round n = n / unit n * unit n ∨ round n = (n / unit n + 1) * unit n := by
  unfold round
  split
  · exact Or.inl rfl
  · exact Or.inr rfl

theorem quotient_lt (n : ℕ) : n / unit n < 2 ^ 53 := by
  rw [Nat.div_lt_iff_lt_mul (unit_pos n), unit, ← Nat.pow_add]
  calc n < 2 ^ (n.log2 + 1) := Nat.lt_log2_self
    _ ≤ 2 ^ (53 + (n.log2 - 52)) := Nat.pow_le_pow_right (by omega) (by omega)

/-- What a number is rounded to is a double. -/
theorem exact_round (n : ℕ) : Exact (round n) := by
  have bound := quotient_lt n
  rcases round_cases n with eq | eq <;> rw [eq]
  · exact exact_mul_pow _ (by omega)
  · exact exact_mul_pow _ (by omega)

theorem le_multiple {m n : ℕ} (multiple : unit n ∣ m) (le : m ≤ n) :
    m ≤ n / unit n * unit n := by
  calc m = m / unit n * unit n := (Nat.div_mul_cancel multiple).symm
    _ ≤ n / unit n * unit n := Nat.mul_le_mul_right _ (Nat.div_le_div_right le)

/-- No double that is at most `n` is above what `n` is rounded to. -/
theorem le_round {r n : ℕ} (exact : Exact r) (le : r ≤ n) : r ≤ round n := by
  have lower : r ≤ n / unit n * unit n := by
    by_cases low : r.log2 < n.log2
    · -- the leading bit of `n` alone is above `r`
      have nonzero : n ≠ 0 := by
        rintro rfl
        simp at low
      have leading : 2 ^ n.log2 ≤ n / unit n * unit n :=
        le_multiple (Nat.pow_dvd_pow 2 (Nat.sub_le _ _)) (Nat.log2_self_le nonzero)
      calc r ≤ 2 ^ (r.log2 + 1) := Nat.lt_log2_self.le
        _ ≤ 2 ^ n.log2 := Nat.pow_le_pow_right (by omega) low
        _ ≤ n / unit n * unit n := leading
    · refine le_multiple ?_ le
      exact (Nat.pow_dvd_pow 2 (by omega)).trans exact
  rcases round_cases n with eq | eq <;> rw [eq]
  · exact lower
  · exact lower.trans (Nat.mul_le_mul_right _ (Nat.le_succ _))

/-! ## Numbers from digits -/

/-- A whole number that is not negative: a double, or infinity. -/
abbrev Whole := WithTop ℕ

/-- The first power of two beyond the largest double. -/
def limit : ℕ := 2 ^ 1024

def cut (n : ℕ) : Whole := if n < limit then (n : Whole) else ⊤

/-- `Number(digits)`. -/
def read (digits : List Char) : Whole := cut (round (Nat.ofDigitChars 10 digits 0))

/-- `x + 1`. -/
def succ : Whole → Whole
  | ⊤ => ⊤
  | (n : ℕ) => cut (round (n + 1))

theorem read_toDigits (n : ℕ) : read (Nat.toDigits 10 n) = cut (round n) := by
  rw [read, Nat.ofDigitChars_ten_toDigits]

theorem exists_of_lt {x : Whole} (lt : x < n) : ∃ m : ℕ, x = m ∧ m < n := by
  obtain ⟨m, rfl⟩ := WithTop.ne_top_iff_exists.mp lt.ne_top
  exact ⟨m, rfl, WithTop.coe_lt_coe.mp lt⟩

/-- Up to `2 ^ 53` nothing is rounded or cut. -/
theorem cut_round (le : n ≤ 2 ^ 53) : cut (round n) = n := by
  have finite : n < limit := by
    calc n ≤ 2 ^ 53 := le
      _ < limit := pow_lt_pow_right₀ one_lt_two (by norm_num)
  rw [round_of_le le, cut, if_pos finite]

theorem succ_of_lt (lt : n < 2 ^ 53) : succ n = (n + 1 : ℕ) := cut_round lt

theorem exact_of_le (le : n ≤ 2 ^ 53) : Exact n := by
  have same := exact_round n
  rwa [round_of_le le] at same

theorem exact_of_read {digits : List Char} (eq : read digits = n) :
    Exact n ∧ n < limit := by
  unfold read cut at eq
  split at eq
  · next finite =>
      have same : round (Nat.ofDigitChars 10 digits 0) = n := WithTop.coe_inj.mp eq
      rw [same] at finite
      exact ⟨same ▸ exact_round _, finite⟩
  · cases eq

/-! ## Differences -/

/-- The difference of two whole numbers. -/
inductive Number where
  | finite (n : ℤ)
  | infinity (negative : Bool)
  | nan
  deriving DecidableEq

/-- `x - y`. -/
def sub : Whole → Whole → Number
  | ⊤, ⊤ => .nan
  | ⊤, (_ : ℕ) => .infinity false
  | (_ : ℕ), ⊤ => .infinity true
  | (m : ℕ), (n : ℕ) => .finite ((m - n : ℤ).sign * round (m - n : ℤ).natAbs)

def Number.negative : Number → Bool
  | .finite n => n < 0
  | .infinity negative => negative
  | .nan => false

def Number.positive : Number → Bool
  | .finite n => 0 < n
  | .infinity negative => !negative
  | .nan => false

theorem round_pos (pos : 0 < n) : 0 < round n :=
  Nat.lt_of_lt_of_le Nat.one_pos (le_round (exact_of_lt (by decide)) pos)

theorem sub_finite (m n : ℕ) :
    sub m n = .finite ((m - n : ℤ).sign * round (m - n : ℤ).natAbs) := rfl

theorem sub_same (n : ℕ) : sub n n = .finite 0 := by
  rw [sub_finite, sub_self, Int.sign_zero, zero_mul]

theorem sub_of_lt {m n : ℕ} (lt : m < n) : ∃ d : ℤ, sub m n = .finite d ∧ d < 0 := by
  have apart : 0 < (m - n : ℤ).natAbs := by omega
  refine ⟨_, sub_finite m n, ?_⟩
  rw [Int.sign_eq_neg_one_of_neg (by omega)]
  have := round_pos apart
  omega

theorem sub_of_gt {m n : ℕ} (gt : n < m) : ∃ d : ℤ, sub m n = .finite d ∧ 0 < d := by
  have apart : 0 < (m - n : ℤ).natAbs := by omega
  refine ⟨_, sub_finite m n, ?_⟩
  rw [Int.sign_eq_one_of_pos (by omega)]
  have := round_pos apart
  omega

/-! ## Shortest digits -/

/-- The multiples of `10 ^ j` next to `x`, the nearer one first. -/
def candidates (x j : ℕ) : List ℕ :=
  let lower := x / 10 ^ j * 10 ^ j
  let rest := x % 10 ^ j
  if 2 * rest < 10 ^ j ∨ 2 * rest = 10 ^ j ∧ x / 10 ^ j % 2 = 0 then [lower, lower + 10 ^ j]
  else [lower + 10 ^ j, lower]

/-- The number of the fewest digits before its zeros that is read as `x`, the nearest such
where there are more. -/
def shortest (x : ℕ) : ℕ :=
  (((List.range 309).reverse.flatMap (candidates x)).find? (round · = x)).getD x

theorem round_shortest {x : ℕ} (exact : Exact x) : round (shortest x) = x := by
  unfold shortest
  cases found : ((List.range 309).reverse.flatMap (candidates x)).find? (round · = x) with
  | none => exact round_of_exact exact
  | some m => simpa using List.find?_some found

/-- Numbers from `10 ^ 21` on are written with an exponent. -/
def decimalText (m : ℕ) : List Char :=
  let digits := Nat.toDigits 10 m
  if m < 10 ^ 21 then digits
  else
    Decimal.mantissa (digits.reverse.dropWhile (· = '0')).reverse ++
      Decimal.exponentText (digits.length - 1)

/-- `Number.prototype.toString`. -/
def toString : Whole → String
  | ⊤ => "Infinity"
  | (n : ℕ) => String.ofList (decimalText (shortest n))

theorem exact_limit : Exact (10 ^ 21) := by
  have factors : (10 : ℕ) ^ 21 = 5 ^ 21 * 2 ^ 21 := by norm_num
  rw [factors]
  exact exact_mul_pow 21 (by norm_num)

/-- What is written without an exponent is digits that are read back. -/
theorem read_text (exact : Exact n) (plain : n < 10 ^ 21) :
    decimalText (shortest n) = Nat.toDigits 10 (shortest n) ∧
      read (Nat.toDigits 10 (shortest n)) = n := by
  have back := round_shortest exact
  have bound : shortest n < 10 ^ 21 := by
    by_contra large
    have above := le_round exact_limit (Nat.le_of_not_lt large)
    omega
  have finite : n < limit := by
    calc n < 10 ^ 21 := plain
      _ ≤ 2 ^ 70 := by norm_num
      _ ≤ limit := pow_le_pow_right₀ one_le_two (by norm_num)
  constructor
  · rw [decimalText, if_pos bound]
  · rw [read_toDigits, back, cut, if_pos finite]

end Double
