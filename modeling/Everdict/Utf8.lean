import Mathlib.Tactic.Common

/-!
# Texts cut at a number of bytes

UTF-8 bytes are cut at a boundary of characters by a walk back over continuation bytes.  What
the walk leaves are the bytes of the characters that fit (`take_walkBack`).
-/

namespace Utf8

/-- The UTF-8 bytes of some characters. -/
def bytesOf (cs : List Char) : List UInt8 := cs.flatMap String.utf8EncodeChar

/-- A byte `10xxxxxx`. -/
def isContinuation (byte : UInt8) : Bool := byte &&& 0b11000000 = 0b10000000

/-- The last place from `at` down that a character starts at. -/
def walkBack (bytes : List UInt8) : Nat → Nat
  | 0 => 0
  | place + 1 =>
      if isContinuation (bytes.getD (place + 1) 0) then walkBack bytes place else place + 1

/-- The characters whose bytes all stand in front of a mark. -/
def takeFitting : List Char → Nat → List Char
  | [], _ => []
  | c :: cs, bytes => if c.utf8Size ≤ bytes then c :: takeFitting cs (bytes - c.utf8Size) else []

/-! ## The bytes of a character -/

theorem not_isContinuation_of_first {byte : UInt8} (first : byte.IsUTF8FirstByte) :
    isContinuation byte = false := by
  have all : ∀ bits : BitVec 8, (UInt8.ofBitVec bits).IsUTF8FirstByte →
      isContinuation (UInt8.ofBitVec bits) = false := by
    decide
  exact all byte.toBitVec first

theorem isContinuation_masked (byte : UInt8) : isContinuation (byte &&& 0x3f ||| 0x80) = true := by
  have all : ∀ bits : BitVec 8, isContinuation (UInt8.ofBitVec bits &&& 0x3f ||| 0x80) = true := by
    decide
  exact all byte.toBitVec

/-- A character is written as a first byte and continuation bytes. -/
theorem utf8EncodeChar_eq_cons (c : Char) :
    ∃ first rest, String.utf8EncodeChar c = first :: rest ∧ isContinuation first = false ∧
      ∀ byte ∈ rest, isContinuation byte = true := by
  have starts : ∀ first rest, String.utf8EncodeChar c = first :: rest →
      isContinuation first = false := by
    intro first rest eq
    have isFirst := UInt8.isUTF8FirstByte_getElem_zero_utf8EncodeChar (c := c)
    simp only [eq, List.getElem_cons_zero] at isFirst
    exact not_isContinuation_of_first isFirst
  have size_le := c.utf8Size_le_four
  have size_pos := c.utf8Size_pos
  rcases (by omega : c.utf8Size = 1 ∨ c.utf8Size = 2 ∨ c.utf8Size = 3 ∨ c.utf8Size = 4) with
    size | size | size | size
  · have eq := String.utf8EncodeChar_eq_singleton size
    exact ⟨_, _, eq, starts _ _ eq, by simp⟩
  · have eq := String.utf8EncodeChar_eq_cons_cons size
    exact ⟨_, _, eq, starts _ _ eq, by simp [isContinuation_masked]⟩
  · have eq := String.utf8EncodeChar_eq_cons_cons_cons size
    exact ⟨_, _, eq, starts _ _ eq, by simp [isContinuation_masked]⟩
  · have eq := String.utf8EncodeChar_eq_cons_cons_cons_cons size
    exact ⟨_, _, eq, starts _ _ eq, by simp [isContinuation_masked]⟩

/-! ## The walk -/

/-- Behind the first byte of a character the walk comes back to it. -/
theorem walkBack_inside {first : UInt8} {rest bytes : List UInt8} {place : Nat}
    (continued : ∀ byte ∈ rest, isContinuation byte = true) (inside : place ≤ rest.length) :
    walkBack (first :: rest ++ bytes) place = 0 := by
  induction place with
  | zero => rfl
  | succ place ih =>
      have here : (first :: rest ++ bytes).getD (place + 1) 0 = rest[place] := by
        have bound : place < rest.length := inside
        simp [List.getD_eq_getElem?_getD, List.getElem?_append_left bound, bound]
      rw [walkBack, here, if_pos (continued _ (List.getElem_mem _))]
      exact ih (by omega)

/-- Behind a whole character the walk goes as in the bytes after it. -/
theorem walkBack_append {front bytes : List UInt8} (some' : front ≠ [])
    (starts : isContinuation (bytes.getD 0 0) = false) (place : Nat) :
    walkBack (front ++ bytes) (front.length + place) = front.length + walkBack bytes place := by
  induction place with
  | zero =>
      obtain ⟨n, length⟩ := Nat.exists_eq_succ_of_ne_zero (List.length_eq_zero_iff.not.mpr some')
      have here : (front ++ bytes).getD (n + 1) 0 = bytes.getD 0 0 := by
        rw [List.getD_eq_getElem?_getD, List.getElem?_append_right (by omega), length,
          Nat.sub_self, List.getD_eq_getElem?_getD]
      rw [Nat.add_zero, length, Nat.succ_eq_add_one, walkBack, walkBack, here, starts]
      rfl
  | succ place ih =>
      have here : (front ++ bytes).getD (front.length + place + 1) 0 = bytes.getD (place + 1) 0 := by
        simp [List.getD_eq_getElem?_getD, List.getElem?_append_right, Nat.add_assoc]
      rw [← Nat.add_assoc, walkBack, here, walkBack]
      split_ifs
      · exact ih
      · omega

theorem starts_bytesOf (cs : List Char) : isContinuation ((bytesOf cs).getD 0 0) = false := by
  cases cs with
  | nil => decide
  | cons c cs =>
      obtain ⟨first, rest, eq, starts, _⟩ := utf8EncodeChar_eq_cons c
      rw [bytesOf, List.flatMap_cons, eq]
      exact starts

/-- What the walk leaves are the characters that fit. -/
theorem take_walkBack {cs : List Char} {max : Nat} (cut : max < (bytesOf cs).length) :
    (bytesOf cs).take (walkBack (bytesOf cs) max) = bytesOf (takeFitting cs max) := by
  induction cs generalizing max with
  | nil => cases cut
  | cons c cs ih =>
      obtain ⟨first, rest, eq, _, continued⟩ := utf8EncodeChar_eq_cons c
      have size : (String.utf8EncodeChar c).length = c.utf8Size := String.length_utf8EncodeChar c
      have split : bytesOf (c :: cs) = String.utf8EncodeChar c ++ bytesOf cs := List.flatMap_cons
      rw [split, List.length_append, size] at cut
      rw [split, takeFitting]
      split_ifs with fits
      · have place : max = (String.utf8EncodeChar c).length + (max - c.utf8Size) := by omega
        have whole := walkBack_append (String.utf8EncodeChar_ne_nil (c := c)) (starts_bytesOf cs)
          (max - c.utf8Size)
        rw [← place] at whole
        have rest := @ih (max - c.utf8Size) (by omega)
        rw [whole, List.take_append, List.take_of_length_le (Nat.le_add_right _ _),
          Nat.add_sub_cancel_left, rest]
        rfl
      · rw [eq, List.length_cons] at size
        rw [eq, walkBack_inside continued (by omega)]
        rfl

end Utf8
