import Mathlib.Tactic.Common

/-!
# base64url

Three bytes are four digits of six bits; one or two bytes at the end are two or three digits,
without padding.  What is encoded is decoded (`decode_encode`), for bytes and for the UTF-8 of a
text (`readText_ofText`).
-/

namespace Base64Url

def ALPHABET : List Char :=
  "ABCDEFGHIJKLMNOPQRSTUVWXYZabcdefghijklmnopqrstuvwxyz0123456789-_".toList

/-- The digits of some bytes. -/
def digits : List Nat → List Nat
  | [] => []
  | [a] => [a / 4, a % 4 * 16]
  | [a, b] => [a / 4, a % 4 * 16 + b / 16, b % 16 * 4]
  | a :: b :: c :: bytes =>
      a / 4 :: (a % 4 * 16 + b / 16) :: (b % 16 * 4 + c / 64) :: c % 64 :: digits bytes

/-- The bytes of some digits; bits that do not fill a byte are dropped. -/
def bytesOf : List Nat → List Nat
  | w :: x :: y :: z :: digits =>
      (w * 4 + x / 16) :: (x % 16 * 16 + y / 4) :: (y % 4 * 64 + z) :: bytesOf digits
  | [w, x, y] => [w * 4 + x / 16, x % 16 * 16 + y / 4]
  | [w, x] => [w * 4 + x / 16]
  | _ => []

def encode (bytes : List Nat) : List Char := (digits bytes).map fun n => ALPHABET.getD n 'A'

/-- Characters outside the alphabet are skipped. -/
def decode (cs : List Char) : List Nat :=
  bytesOf ((cs.filter (ALPHABET.contains ·)).map ALPHABET.idxOf)

theorem bytesOf_digits (bytes : List Nat) (small : ∀ b ∈ bytes, b < 256) :
    bytesOf (digits bytes) = bytes := by
  induction bytes using digits.induct with
  | case1 => rfl
  | case2 a =>
      have := small a (by simp)
      simp only [digits, bytesOf, List.cons.injEq, and_true]
      omega
  | case3 a b =>
      have := small a (by simp)
      have := small b (by simp)
      simp only [digits, bytesOf, List.cons.injEq, and_true]
      omega
  | case4 a b c bytes ih =>
      have := small a (by simp)
      have := small b (by simp)
      have := small c (by simp)
      simp only [digits, bytesOf, List.cons.injEq]
      exact ⟨by omega, by omega, by omega, ih fun b isIn => small b (by simp [isIn])⟩

theorem digits_lt (bytes : List Nat) (small : ∀ b ∈ bytes, b < 256) :
    ∀ n ∈ digits bytes, n < 64 := by
  induction bytes using digits.induct with
  | case1 => simp [digits]
  | case2 a =>
      have := small a (by simp)
      simp only [digits, List.mem_cons, List.not_mem_nil, or_false, forall_eq_or_imp, forall_eq]
      omega
  | case3 a b =>
      have := small a (by simp)
      have := small b (by simp)
      simp only [digits, List.mem_cons, List.not_mem_nil, or_false, forall_eq_or_imp, forall_eq]
      omega
  | case4 a b c bytes ih =>
      have := small a (by simp)
      have := small b (by simp)
      have := small c (by simp)
      simp only [digits, List.forall_mem_cons]
      exact ⟨by omega, by omega, by omega, by omega, ih fun b isIn => small b (by simp [isIn])⟩

/-- A digit is found again at its place in the alphabet. -/
theorem idxOf_getD {n : Nat} (digit : n < 64) :
    ALPHABET.contains (ALPHABET.getD n 'A') = true ∧ ALPHABET.idxOf (ALPHABET.getD n 'A') = n := by
  have all : ∀ n < 64, ALPHABET.contains (ALPHABET.getD n 'A') = true ∧
      ALPHABET.idxOf (ALPHABET.getD n 'A') = n := by decide +kernel
  exact all n digit

theorem decode_encode (bytes : List Nat) (small : ∀ b ∈ bytes, b < 256) :
    decode (encode bytes) = bytes := by
  have inside : ∀ c ∈ encode bytes, ALPHABET.contains c = true := by
    intro c isIn
    obtain ⟨n, isDigit, rfl⟩ := List.mem_map.mp isIn
    exact (idxOf_getD (digits_lt bytes small n isDigit)).1
  unfold decode
  rw [List.filter_eq_self.mpr inside, encode, List.map_map]
  have back : (digits bytes).map (ALPHABET.idxOf ∘ fun n => ALPHABET.getD n 'A') = digits bytes := by
    refine (List.map_congr_left fun n isDigit => ?_).trans (List.map_id _)
    exact (idxOf_getD (digits_lt bytes small n isDigit)).2
  rw [back, bytesOf_digits bytes small]

/-! ## Texts -/

/-- The token of a text's UTF-8. -/
def ofText (text : String) : String :=
  String.ofList (encode (text.toByteArray.data.toList.map UInt8.toNat))

/-- The text whose UTF-8 a token writes; a replacement character where it writes none. -/
def readText (token : String) : String :=
  (String.fromUTF8? ⟨((decode token.toList).map UInt8.ofNat).toArray⟩).getD "\uFFFD"

theorem readText_ofText (text : String) : readText (ofText text) = text := by
  have small : ∀ b ∈ text.toByteArray.data.toList.map UInt8.toNat, b < 256 := by
    intro b isIn
    obtain ⟨byte, -, rfl⟩ := List.mem_map.mp isIn
    exact byte.toNat_lt
  have bytes : (text.toByteArray.data.toList.map UInt8.toNat).map UInt8.ofNat =
      text.toByteArray.data.toList := by
    rw [List.map_map]
    exact (List.map_congr_left fun byte _ => UInt8.ofNat_toNat).trans (List.map_id _)
  unfold readText ofText
  rw [String.toList_ofList, decode_encode _ small, bytes, Array.toArray_toList]
  unfold String.fromUTF8?
  rw [dif_pos text.isValidUTF8, Option.getD_some]
  rfl

end Base64Url
