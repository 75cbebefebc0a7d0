import Everdict.Text
import Mathlib.Data.List.TakeWhile

/-!
# Numbers as JavaScript writes them

A finite number is known by the shortest decimal that reads back as it.
`Number.prototype.toString` writes this decimal as a whole number, with a point among its
digits or before them, or with an exponent.  One rule reads every shape back (`read_shape`),
so two numbers are never written alike (`toString_inj`).  The sign of zero is not written.
-/

namespace Decimal

/-- The significant digits, without zeros at either end. -/
structure Digits where
  chars : List Char
  digit : ∀ c ∈ chars, c.isDigit = true
  first : ∃ c rest, chars = c :: rest ∧ c ≠ '0'
  last : ∃ front c, chars = front ++ [c] ∧ c ≠ '0'

/-- `decimal` is `0.d₁…dₖ · 10^point`. -/
inductive Number where
  | zero
  | decimal (negative : Bool) (digits : Digits) (point : Int)

theorem Digits.ext_chars {d d' : Digits} (eq : d.chars = d'.chars) : d = d' := by
  cases d
  cases d'
  cases eq
  rfl

/-- Digits with the point after the first of them. -/
def mantissa : List Char → List Char
  | c :: c' :: cs => c :: '.' :: c' :: cs
  | cs => cs

def exponentText (e : Int) : List Char :=
  'e' :: (if e < 0 then '-' else '+') :: Nat.toDigits 10 e.natAbs

def shape (digits : List Char) (point : Int) : List Char :=
  if digits.length ≤ point ∧ point ≤ 21 then
    digits ++ List.replicate (point - digits.length).toNat '0'
  else if 0 < point ∧ point ≤ 21 then
    digits.take point.toNat ++ '.' :: digits.drop point.toNat
  else if -6 < point ∧ point ≤ 0 then
    '0' :: '.' :: (List.replicate (-point).toNat '0' ++ digits)
  else mantissa digits ++ exponentText (point - 1)

def Number.toString : Number → String
  | .zero => "0"
  | .decimal negative digits point =>
      String.ofList ((if negative then ['-'] else []) ++ shape digits.chars point)

/-! ## Reading -/

def readExponent : List Char → Int
  | _ :: '-' :: digits => -Nat.ofDigitChars 10 digits 0
  | _ :: _ :: digits => Nat.ofDigitChars 10 digits 0
  | _ => 0

/-- The digits on both sides of the point, and where the point stands in front of them. -/
def assemble (whole fraction : List Char) (exponent : Int) : List Char × Int :=
  ((((whole ++ fraction).dropWhile (· = '0')).reverse.dropWhile (· = '0')).reverse,
    whole.length - ((whole ++ fraction).takeWhile (· = '0')).length + exponent)

def read (text : List Char) : List Char × Int :=
  let plain := text.takeWhile (· ≠ 'e')
  assemble (plain.takeWhile (· ≠ '.')) ((plain.dropWhile (· ≠ '.')).drop 1)
    (readExponent (text.dropWhile (· ≠ 'e')))

theorem readExponent_exponentText (e : Int) : readExponent (exponentText e) = e := by
  unfold exponentText
  split
  · simp only [readExponent, Nat.ofDigitChars_ten_toDigits]
    omega
  · have plus : ∀ digits, readExponent ('e' :: '+' :: digits) = Nat.ofDigitChars 10 digits 0 :=
      fun _ => rfl
    rw [plus, Nat.ofDigitChars_ten_toDigits]
    omega

theorem assemble_padded (d : Digits) {whole fraction : List Char} (zeros zeros' : Nat)
    (eq : whole ++ fraction = List.replicate zeros '0' ++ (d.chars ++ List.replicate zeros' '0'))
    (exponent : Int) :
    assemble whole fraction exponent = (d.chars, whole.length - zeros + exponent) := by
  obtain ⟨c, rest, head, nonzero⟩ := d.first
  obtain ⟨front, c', last, nonzero'⟩ := d.last
  have leading : (whole ++ fraction).takeWhile (· = '0') = List.replicate zeros '0' := by
    rw [eq, head]
    simp [nonzero]
  have stripped : (whole ++ fraction).dropWhile (· = '0') =
      d.chars ++ List.replicate zeros' '0' := by
    rw [eq, List.dropWhile_append_of_pos (by simp)]
    rw [head]
    simp [nonzero]
  have trailing : ((d.chars ++ List.replicate zeros' '0').reverse.dropWhile (· = '0')).reverse =
      d.chars := by
    rw [List.reverse_append, List.reverse_replicate, List.dropWhile_append_of_pos (by simp), last]
    simp [nonzero']
  simp only [assemble, stripped, trailing, leading, List.length_replicate]

/-- Nothing in the digits is read as a mark. -/
theorem not_mark {c mark : Char} (digit : c.isDigit = true) (isMark : mark.isDigit = false) :
    c ≠ mark := by
  rintro rfl
  rw [digit] at isMark
  cases isMark

section Marks

variable {mark : Char} {xs ys : List Char} (free : ∀ c ∈ xs, c ≠ mark)

include free

theorem takeWhile_mark : (xs ++ mark :: ys).takeWhile (· ≠ mark) = xs := by
  rw [List.takeWhile_append_of_pos (by simpa using free)]
  simp

theorem dropWhile_mark : (xs ++ mark :: ys).dropWhile (· ≠ mark) = mark :: ys := by
  rw [List.dropWhile_append_of_pos (by simpa using free)]
  simp

theorem takeWhile_free : xs.takeWhile (· ≠ mark) = xs :=
  List.takeWhile_eq_self_iff.mpr (by simpa using free)

theorem dropWhile_free : xs.dropWhile (· ≠ mark) = [] :=
  List.dropWhile_eq_nil_iff.mpr (by simpa using free)

end Marks

section Read

variable {whole fraction : List Char} (wholeDigits : ∀ c ∈ whole, c.isDigit = true)
  (fractionDigits : ∀ c ∈ fraction, c.isDigit = true)

include wholeDigits

theorem read_whole : read whole = assemble whole [] 0 := by
  have noE : ∀ c ∈ whole, c ≠ 'e' := fun c isIn => not_mark (wholeDigits c isIn) rfl
  have noPoint : ∀ c ∈ whole, c ≠ '.' := fun c isIn => not_mark (wholeDigits c isIn) rfl
  simp only [read, takeWhile_free noE, dropWhile_free noE, takeWhile_free noPoint,
    dropWhile_free noPoint, readExponent, List.drop_nil]

theorem read_whole_exponent (e : Int) : read (whole ++ exponentText e) = assemble whole [] e := by
  have noE : ∀ c ∈ whole, c ≠ 'e' := fun c isIn => not_mark (wholeDigits c isIn) rfl
  have noPoint : ∀ c ∈ whole, c ≠ '.' := fun c isIn => not_mark (wholeDigits c isIn) rfl
  have front : (whole ++ exponentText e).takeWhile (· ≠ 'e') = whole := takeWhile_mark noE
  have rest : (whole ++ exponentText e).dropWhile (· ≠ 'e') = exponentText e := dropWhile_mark noE
  simp only [read, front, rest, takeWhile_free noPoint, dropWhile_free noPoint,
    readExponent_exponentText, List.drop_nil]

include fractionDigits

theorem read_point : read (whole ++ '.' :: fraction) = assemble whole fraction 0 := by
  have noE : ∀ c ∈ whole ++ '.' :: fraction, c ≠ 'e' := by
    intro c isIn
    rcases List.mem_append.mp isIn with inWhole | isIn
    · exact not_mark (wholeDigits c inWhole) rfl
    · rcases List.mem_cons.mp isIn with rfl | inFraction
      · decide
      · exact not_mark (fractionDigits c inFraction) rfl
  have noPoint : ∀ c ∈ whole, c ≠ '.' := fun c isIn => not_mark (wholeDigits c isIn) rfl
  simp only [read, takeWhile_free noE, dropWhile_free noE, takeWhile_mark noPoint,
    dropWhile_mark noPoint, readExponent, List.drop_one, List.tail_cons]

theorem read_point_exponent (e : Int) :
    read (whole ++ '.' :: fraction ++ exponentText e) = assemble whole fraction e := by
  have noE : ∀ c ∈ whole ++ '.' :: fraction, c ≠ 'e' := by
    intro c isIn
    rcases List.mem_append.mp isIn with inWhole | isIn
    · exact not_mark (wholeDigits c inWhole) rfl
    · rcases List.mem_cons.mp isIn with rfl | inFraction
      · decide
      · exact not_mark (fractionDigits c inFraction) rfl
  have noPoint : ∀ c ∈ whole, c ≠ '.' := fun c isIn => not_mark (wholeDigits c isIn) rfl
  have front : (whole ++ '.' :: fraction ++ exponentText e).takeWhile (· ≠ 'e') =
      whole ++ '.' :: fraction := takeWhile_mark noE
  have rest : (whole ++ '.' :: fraction ++ exponentText e).dropWhile (· ≠ 'e') =
      exponentText e := dropWhile_mark noE
  simp only [read, front, rest, takeWhile_mark noPoint, dropWhile_mark noPoint,
    readExponent_exponentText, List.drop_one, List.tail_cons]

end Read

theorem read_shape (d : Digits) (point : Int) : read (shape d.chars point) = (d.chars, point) := by
  have digit := d.digit
  have zeros : ∀ n, ∀ c ∈ List.replicate n '0', c.isDigit = true := by
    intro n c isIn
    rw [List.eq_of_mem_replicate isIn]
    rfl
  unfold shape
  split_ifs with whole inside front
  · -- a whole number
    have digits : ∀ c ∈ d.chars ++ List.replicate (point - d.chars.length).toNat '0',
        c.isDigit = true :=
      fun c isIn => (List.mem_append.mp isIn).elim (digit c) (zeros _ c)
    rw [read_whole digits, assemble_padded d 0 (point - d.chars.length).toNat (by simp)]
    simp only [List.length_append, List.length_replicate, Prod.mk.injEq, true_and]
    omega
  · -- the point stands among the digits
    have taken : ∀ c ∈ d.chars.take point.toNat, c.isDigit = true :=
      fun c isIn => digit c (List.mem_of_mem_take isIn)
    have left : ∀ c ∈ d.chars.drop point.toNat, c.isDigit = true :=
      fun c isIn => digit c (List.mem_of_mem_drop isIn)
    rw [read_point taken left, assemble_padded d 0 0 (by simp)]
    simp only [List.length_take, Prod.mk.injEq, true_and]
    omega
  · -- the point stands before them
    have digits : ∀ c ∈ List.replicate (-point).toNat '0' ++ d.chars, c.isDigit = true :=
      fun c isIn => (List.mem_append.mp isIn).elim (zeros _ c) (digit c)
    have padded : ['0'] ++ (List.replicate (-point).toNat '0' ++ d.chars) =
        List.replicate ((-point).toNat + 1) '0' ++ (d.chars ++ List.replicate 0 '0') := by
      simp [List.replicate_succ]
    have eq : read (['0'] ++ '.' :: (List.replicate (-point).toNat '0' ++ d.chars)) = _ :=
      read_point (zeros 1) digits
    refine eq.trans ?_
    rw [assemble_padded d _ _ padded]
    simp only [List.length_singleton, Prod.mk.injEq, true_and]
    omega
  · -- an exponent
    obtain ⟨c, rest, head, -⟩ := d.first
    have all : ∀ x ∈ c :: rest, x.isDigit = true := head ▸ digit
    have alone : ∀ x ∈ [c], x.isDigit = true :=
      fun x isIn => all x (by simp [List.mem_singleton.mp isIn])
    rw [head]
    rcases rest with _ | ⟨c', rest⟩
    · have eq : mantissa [c] = [c] := rfl
      rw [eq, read_whole_exponent alone, assemble_padded d 0 0 (by simp [head]), head]
      simp only [List.length_singleton, Prod.mk.injEq, true_and]
      omega
    · have left : ∀ x ∈ c' :: rest, x.isDigit = true := fun x isIn => all x (by simp [isIn])
      have eq : read ([c] ++ '.' :: (c' :: rest) ++ exponentText (point - 1)) = _ :=
        read_point_exponent alone left (point - 1)
      refine eq.trans ?_
      rw [assemble_padded d 0 0 (by simp [head]), head]
      simp only [List.length_singleton, Prod.mk.injEq, true_and]
      omega

theorem shape_inj {d d' : Digits} {point point' : Int}
    (eq : shape d.chars point = shape d'.chars point') : d = d' ∧ point = point' := by
  have same := congrArg read eq
  rw [read_shape, read_shape, Prod.mk.injEq] at same
  exact ⟨Digits.ext_chars same.1, same.2⟩

/-! ## The characters of a number -/

def isMark (c : Char) : Bool := c.isDigit || c ∈ ['-', '+', '.', 'e']

theorem isMark_of_digit {c : Char} (digit : c.isDigit = true) : isMark c = true := by
  rw [isMark, digit, Bool.true_or]

theorem isMark_exponentText (e : Int) : ∀ c ∈ exponentText e, isMark c = true := by
  intro c isIn
  unfold exponentText at isIn
  rcases List.mem_cons.mp isIn with rfl | isIn
  · rfl
  rcases List.mem_cons.mp isIn with rfl | isIn
  · split <;> rfl
  · exact isMark_of_digit (Nat.isDigit_of_mem_toDigits (by decide) (by decide) isIn)

theorem isMark_mantissa {digits : List Char} (digit : ∀ c ∈ digits, c.isDigit = true) :
    ∀ c ∈ mantissa digits, isMark c = true := by
  intro c isIn
  unfold mantissa at isIn
  split at isIn
  · next x x' rest =>
      simp only [List.mem_cons] at isIn digit
      rcases isIn with rfl | rfl | rfl | isIn
      · exact isMark_of_digit (digit _ (.inl rfl))
      · rfl
      · exact isMark_of_digit (digit _ (.inr (.inl rfl)))
      · exact isMark_of_digit (digit _ (.inr (.inr isIn)))
  · exact isMark_of_digit (digit c isIn)

theorem isMark_shape (d : Digits) (point : Int) : ∀ c ∈ shape d.chars point, isMark c = true := by
  intro c isIn
  have digit : ∀ c ∈ d.chars, isMark c = true := fun c isIn => isMark_of_digit (d.digit c isIn)
  have zeros : ∀ n, ∀ c ∈ List.replicate n '0', isMark c = true := by
    intro n c isIn
    rw [List.eq_of_mem_replicate isIn]
    rfl
  unfold shape at isIn
  split_ifs at isIn
  · exact (List.mem_append.mp isIn).elim (digit c) (zeros _ c)
  · rcases List.mem_append.mp isIn with taken | isIn
    · exact digit c (List.mem_of_mem_take taken)
    · rcases List.mem_cons.mp isIn with rfl | left
      · rfl
      · exact digit c (List.mem_of_mem_drop left)
  · rcases List.mem_cons.mp isIn with rfl | isIn
    · rfl
    rcases List.mem_cons.mp isIn with rfl | isIn
    · rfl
    · exact (List.mem_append.mp isIn).elim (zeros _ c) (digit c)
  · exact (List.mem_append.mp isIn).elim (isMark_mantissa d.digit c) (isMark_exponentText _ c)

/-- A shape starts with a digit. -/
theorem shape_eq_cons (d : Digits) (point : Int) :
    ∃ c rest, shape d.chars point = c :: rest ∧ c.isDigit = true := by
  obtain ⟨c, rest, head, -⟩ := d.first
  have digit : c.isDigit = true := d.digit c (by simp [head])
  unfold shape
  split_ifs with whole inside front
  · exact ⟨c, _, by rw [head]; rfl, digit⟩
  · obtain ⟨n, point_eq⟩ : ∃ n, point.toNat = n + 1 := ⟨point.toNat - 1, by omega⟩
    exact ⟨c, _, by rw [head, point_eq, List.take_succ_cons]; rfl, digit⟩
  · exact ⟨'0', _, rfl, rfl⟩
  · rw [head]
    rcases rest with _ | ⟨c', rest⟩
    · exact ⟨c, _, rfl, digit⟩
    · exact ⟨c, _, rfl, digit⟩

/-- The digit `0` alone is no shape. -/
theorem shape_ne_zero (d : Digits) (point : Int) : shape d.chars point ≠ ['0'] := by
  intro eq
  have same := congrArg read eq
  rw [read_shape] at same
  obtain ⟨c, rest, head, -⟩ := d.first
  rw [head] at same
  cases (Prod.mk.inj same).1

theorem toList_decimal (negative : Bool) (d : Digits) (point : Int) :
    (Number.decimal negative d point).toString.toList =
      (if negative then ['-'] else []) ++ shape d.chars point := by
  rw [Number.toString, String.toList_ofList]

theorem isMark_toString (x : Number) : ∀ c ∈ x.toString.toList, isMark c = true := by
  intro c isIn
  cases x with
  | zero =>
      have zero : c ∈ ['0'] := isIn
      rw [List.mem_singleton.mp zero]
      rfl
  | decimal negative d point =>
      rw [toList_decimal] at isIn
      rcases List.mem_append.mp isIn with isIn | isIn
      · cases negative
        · cases isIn
        · rw [List.mem_singleton.mp isIn]
          rfl
      · exact isMark_shape d point c isIn

theorem toString_nonempty (x : Number) : x.toString.toList ≠ [] := by
  cases x with
  | zero => exact List.cons_ne_nil _ _
  | decimal negative d point =>
      obtain ⟨c, rest, head, -⟩ := shape_eq_cons d point
      rw [toList_decimal, head]
      simp

theorem zero_ne_decimal (negative : Bool) (d : Digits) (point : Int) :
    Number.zero.toString ≠ (Number.decimal negative d point).toString := by
  intro eq
  have chars : ['0'] = (if negative then ['-'] else []) ++ shape d.chars point := by
    rw [← toList_decimal, ← eq]
    rfl
  cases negative with
  | false => exact shape_ne_zero d point chars.symm
  | true => cases (List.cons.inj chars).1

theorem toString_inj {x y : Number} (eq : x.toString = y.toString) : x = y := by
  rcases x with _ | ⟨negative, d, point⟩ <;> rcases y with _ | ⟨negative', d', point'⟩
  · rfl
  · exact absurd eq (zero_ne_decimal negative' d' point')
  · exact absurd eq.symm (zero_ne_decimal negative d point)
  have chars := congrArg String.toList eq
  rw [toList_decimal, toList_decimal] at chars
  obtain ⟨c, rest, head, digit⟩ := shape_eq_cons d point
  obtain ⟨c', rest', head', digit'⟩ := shape_eq_cons d' point'
  have notMinus : c ≠ '-' := not_mark digit rfl
  have notMinus' : c' ≠ '-' := not_mark digit' rfl
  have sign : negative = negative' := by
    rw [head, head'] at chars
    cases negative <;> cases negative'
    · rfl
    · exact absurd (List.cons.inj chars).1 notMinus
    · exact absurd (List.cons.inj chars).1.symm notMinus'
    · rfl
  rw [sign] at chars
  obtain ⟨rfl, rfl⟩ := shape_inj (List.append_cancel_left chars)
  rw [sign]

end Decimal
