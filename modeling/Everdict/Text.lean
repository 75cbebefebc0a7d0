import Mathlib.Data.List.Sort
import Mathlib.Data.Nat.Digits.Defs
import Mathlib.Tactic.Common

/-!
# Strings as JavaScript reads them

The order of `Array.prototype.sort` (by UTF-16 code units, which are the text's own:
`utf16_inj`), the order in which an object lists its properties, the quoting of
`JSON.stringify`, from which a text is found again (`json_append_inj`) as the elements of
a list with commas are (`joined_inj`), and names that join a text and a number with a mark
in between: the parts of such a name are found again when the mark is not a digit
(`append_mark_inj`, `toDigits_inj`).
-/

namespace Text

/-- The UTF-16 code units of a text. -/
def utf16 (s : String) : List Nat :=
  s.toList.flatMap fun c =>
    if c.toNat < 0x10000 then [c.toNat]
    else [0xD800 + (c.toNat - 0x10000) / 0x400, 0xDC00 + (c.toNat - 0x10000) % 0x400]

/-- Does `s` come before `t` when their code units are compared? -/
def before (s t : String) : Bool := utf16 s < utf16 t

/-- `[...texts].sort()` -/
def sort (texts : List String) : List String :=
  texts.insertionSort fun s t => ¬ before t s

def startsWith (s stem : String) : Bool := stem.toList.isPrefixOf s.toList

/-- `s.slice(stem.length)`, for a stem without surrogate pairs or one that `s` starts with. -/
def sliceAfter (s stem : String) : String := String.ofList (s.toList.drop stem.toList.length)

/-- The white space of `trim`. -/
def isSpace (c : Char) : Bool :=
  c.toNat ∈ [0x09, 0x0A, 0x0B, 0x0C, 0x0D, 0x20, 0xA0, 0x1680, 0x2028, 0x2029, 0x202F, 0x205F,
    0x3000, 0xFEFF] || 0x2000 ≤ c.toNat && c.toNat ≤ 0x200A

def trim (s : String) : String :=
  String.ofList ((s.toList.dropWhile isSpace).reverse.dropWhile isSpace).reverse

/-- The characters whose code units all stand in front of the mark. -/
def takeUnits : List Char → Nat → List Char
  | [], _ => []
  | c :: cs, units =>
      let width := if c.toNat < 0x10000 then 1 else 2
      if width ≤ units then c :: takeUnits cs (units - width) else []

/-- `s.slice(0, units)`; half of a surrogate pair is left out. -/
def sliceTo (s : String) (units : Nat) : String := String.ofList (takeUnits s.toList units)

/-- `s.split(mark).length` for a mark of one character. -/
def segments (s : String) (mark : Char) : Nat := s.toList.count mark + 1

/-- The array index a property name writes, if it writes one. -/
def arrayIndex (s : String) : Option Nat :=
  if s.toList ≠ [] ∧ s.toList.all Char.isDigit ∧ (s.toList.head? = some '0' → s.toList.length = 1)
      ∧ Nat.ofDigitChars 10 s.toList 0 < 2 ^ 32 - 1 then
    some (Nat.ofDigitChars 10 s.toList 0)
  else none

/-- `Object.keys` of an object whose properties were set in this order: the array
indices come first, in ascending order. -/
def objectKeys (names : List String) : List String :=
  (names.filter fun s => (arrayIndex s).isSome).insertionSort
      (fun s t => (arrayIndex s).getD 0 ≤ (arrayIndex t).getD 0)
    ++ names.filter fun s => ¬ (arrayIndex s).isSome

/-- One character inside a JSON string. -/
def jsonChar (c : Char) : String :=
  if c = '"' then "\\\""
  else if c = '\\' then "\\\\"
  else if c = '\x08' then "\\b"
  else if c = '\x0c' then "\\f"
  else if c = '\n' then "\\n"
  else if c = '\r' then "\\r"
  else if c = '\t' then "\\t"
  else if c.toNat < 0x20 then
    "\\u00" ++ String.singleton (Nat.digitChar (c.toNat / 16))
      ++ String.singleton (Nat.digitChar (c.toNat % 16))
  else String.singleton c

/-- `JSON.stringify` of a string. -/
def json (s : String) : String := "\"" ++ String.join (s.toList.map jsonChar) ++ "\""

/-- `JSON.stringify` of an array whose elements are written already. -/
def jsonArray (items : List String) : String := "[" ++ ",".intercalate items ++ "]"

theorem dropWhile_eq_self {chars : List Char} (none : ∀ c ∈ chars, isSpace c = false) :
    chars.dropWhile isSpace = chars := by
  cases chars with
  | nil => rfl
  | cons c chars =>
      exact List.dropWhile_cons_of_neg (by simp [none c List.mem_cons_self])

theorem trim_eq_self {s : String} (none : ∀ c ∈ s.toList, isSpace c = false) : trim s = s := by
  unfold trim
  rw [dropWhile_eq_self none, dropWhile_eq_self fun c member => none c (List.mem_reverse.mp member),
    List.reverse_reverse, String.ofList_toList]

theorem mem_sort {texts : List String} {s : String} : s ∈ sort texts ↔ s ∈ texts :=
  List.mem_insertionSort _

theorem objectKeys_perm (names : List String) : (objectKeys names).Perm names := by
  have split := List.filter_append_perm (fun s => (arrayIndex s).isSome) names
  have negated : (fun s => decide ¬ (arrayIndex s).isSome) = fun s => !(arrayIndex s).isSome := by
    funext s
    cases arrayIndex s <;> rfl
  unfold objectKeys
  rw [negated]
  exact ((List.perm_insertionSort _ _).append_right _).trans split

theorem mem_objectKeys {names : List String} {s : String} :
    s ∈ objectKeys names ↔ s ∈ names :=
  (objectKeys_perm names).mem_iff

/-! ## Quoted texts -/

/-- The value of a hexadecimal digit. -/
def hexValue (c : Char) : Nat := if c.isDigit then c.toNat - 48 else c.toNat - 87

/-- Read one character of a JSON string, and what follows it. -/
def unquoteChar : List Char → Option (Char × List Char)
  | '\\' :: '"' :: rest => some ('"', rest)
  | '\\' :: '\\' :: rest => some ('\\', rest)
  | '\\' :: 'b' :: rest => some ('\x08', rest)
  | '\\' :: 'f' :: rest => some ('\x0c', rest)
  | '\\' :: 'n' :: rest => some ('\n', rest)
  | '\\' :: 'r' :: rest => some ('\r', rest)
  | '\\' :: 't' :: rest => some ('\t', rest)
  | '\\' :: 'u' :: '0' :: '0' :: high :: low :: rest =>
      some (Char.ofNat (16 * hexValue high + hexValue low), rest)
  | '"' :: _ => none
  | c :: rest => some (c, rest)
  | [] => none

theorem unquoteChar_jsonChar (c : Char) (rest : List Char) :
    unquoteChar ((jsonChar c).toList ++ rest) = some (c, rest) := by
  unfold jsonChar
  split_ifs with quote mark h3 h4 h5 h6 h7 control
  · rw [quote]; rfl
  · rw [mark]; rfl
  · rw [h3]; rfl
  · rw [h4]; rfl
  · rw [h5]; rfl
  · rw [h6]; rfl
  · rw [h7]; rfl
  · have value : ∀ n < 32,
        16 * hexValue (Nat.digitChar (n / 16)) + hexValue (Nat.digitChar (n % 16)) = n := by
      decide
    simp [unquoteChar, value c.toNat control]
  · simp only [String.toList_singleton, List.singleton_append]
    unfold unquoteChar
    split <;> simp_all

theorem quoted_inj {cs cs' x y : List Char}
    (eq : (cs.flatMap fun c => (jsonChar c).toList) ++ '"' :: x =
      (cs'.flatMap fun c => (jsonChar c).toList) ++ '"' :: y) : cs = cs' ∧ x = y := by
  have quote : ∀ rest, unquoteChar ('"' :: rest) = none := fun _ => rfl
  induction cs generalizing cs' with
  | nil =>
      cases cs' with
      | nil => simpa using eq
      | cons c' cs' =>
          have read := congrArg unquoteChar eq
          simp only [List.flatMap_nil, List.nil_append, List.flatMap_cons, List.append_assoc,
            unquoteChar_jsonChar, quote] at read
          cases read
  | cons c cs ih =>
      have read := congrArg unquoteChar eq
      cases cs' with
      | nil =>
          simp only [List.flatMap_nil, List.nil_append, List.flatMap_cons, List.append_assoc,
            unquoteChar_jsonChar, quote] at read
          cases read
      | cons c' cs' =>
          simp only [List.flatMap_cons, List.append_assoc, unquoteChar_jsonChar,
            Option.some.injEq, Prod.mk.injEq] at read
          obtain ⟨rfl, rest⟩ := read
          obtain ⟨rfl, same⟩ := ih rest
          exact ⟨rfl, same⟩

theorem toList_json (s : String) :
    (json s).toList = '"' :: ((s.toList.flatMap fun c => (jsonChar c).toList) ++ ['"']) := by
  simp [json, String.toList_join, List.flatMap_map]

theorem json_append_inj {s s' : String} {x y : List Char}
    (eq : (json s).toList ++ x = (json s').toList ++ y) : s = s' ∧ x = y := by
  simp only [toList_json, List.cons_append, List.append_assoc, List.nil_append, List.cons.injEq,
    true_and] at eq
  obtain ⟨chars, rest⟩ := quoted_inj eq
  exact ⟨String.toList_inj.mp chars, rest⟩

/-! ## Code units -/

theorem utf16_append (s t : String) : utf16 (s ++ t) = utf16 s ++ utf16 t := by
  unfold utf16
  rw [String.toList_append, List.flatMap_append]

theorem utf16_length_pos {s : String} (some' : s ≠ "") : 0 < (utf16 s).length := by
  unfold utf16
  rcases chars : s.toList with _ | ⟨c, cs⟩
  · exact absurd (String.toList_inj.mp (chars.trans String.toList_empty.symm)) some'
  · rw [List.flatMap_cons, List.length_append]
    split_ifs
    · rw [List.length_singleton]
      omega
    · rw [List.length_cons]
      omega

theorem utf16_ofList_cons (c : Char) (cs : List Char) :
    utf16 (String.ofList (c :: cs)) =
      utf16 (String.singleton c) ++ utf16 (String.ofList cs) := by
  simp [utf16]

theorem units_append_inj {c c' : Char} {x y : List Nat}
    (eq : utf16 (String.singleton c) ++ x = utf16 (String.singleton c') ++ y) :
    c = c' ∧ x = y := by
  have valid : ∀ c : Char, c.toNat < 0xD800 ∨ 0xDFFF < c.toNat ∧ c.toNat < 0x110000 :=
    fun c => c.valid
  have hc := valid c
  have hc' := valid c'
  have same : ∀ {n m : Nat}, n = c.toNat → m = c'.toNat → n = m → c = c' :=
    fun hn hm eq => Char.toNat_inj.mp (by rw [← hn, ← hm, eq])
  simp only [utf16, String.toList_singleton, List.flatMap_cons, List.flatMap_nil,
    List.append_nil] at eq
  split_ifs at eq with small small' small'
  · simp only [List.cons_append, List.nil_append, List.cons.injEq] at eq
    exact ⟨same rfl rfl eq.1, eq.2⟩
  · simp only [List.cons_append, List.nil_append, List.cons.injEq] at eq
    omega
  · simp only [List.cons_append, List.nil_append, List.cons.injEq] at eq
    omega
  · simp only [List.cons_append, List.nil_append, List.cons.injEq] at eq
    exact ⟨same rfl rfl (by omega), eq.2.2⟩

/-- Texts of the same code units are the same. -/
theorem utf16_inj {s t : String} (eq : utf16 s = utf16 t) : s = t := by
  have chars : ∀ cs cs' : List Char,
      utf16 (String.ofList cs) = utf16 (String.ofList cs') → cs = cs' := by
    intro cs
    induction cs with
    | nil =>
        rintro (_ | ⟨c', cs'⟩) eq
        · rfl
        · rw [utf16_ofList_cons] at eq
          exfalso
          revert eq
          simp only [utf16, String.toList_singleton, List.flatMap_cons]
          split_ifs <;> simp
    | cons c cs ih =>
        rintro (_ | ⟨c', cs'⟩) eq
        · rw [utf16_ofList_cons] at eq
          exfalso
          revert eq
          simp only [utf16, String.toList_singleton, List.flatMap_cons]
          split_ifs <;> simp
        · rw [utf16_ofList_cons, utf16_ofList_cons] at eq
          obtain ⟨rfl, rest⟩ := units_append_inj eq
          rw [ih cs' rest]
  rw [← String.ofList_toList (s := s), ← String.ofList_toList (s := t)] at eq
  exact String.toList_inj.mp (chars _ _ eq)

/-! ## Lists written with commas -/

/-- What may follow a value inside a document. -/
def Closed (rest : List Char) : Prop := ∀ c ∈ rest.head?, c = ',' ∨ c = ']' ∨ c = '}'

section Joined

variable {α : Type*} {write : α → List Char} {R : α → α → Prop} {close : Char}
  {l l' : List α} {x y : List Char}

theorem closed_tails (isClose : close = ']' ∨ close = '}') :
    Closed ((l.flatMap fun a => ',' :: write a) ++ close :: x) := by
  intro c head
  cases l with
  | nil =>
      cases Option.some.inj head
      exact .inr isClose
  | cons a l =>
      cases Option.some.inj head
      exact .inl rfl

theorem tails_inj (isClose : close = ']' ∨ close = '}')
    (element : ∀ a ∈ l, ∀ b ∈ l', ∀ x y, Closed x → Closed y →
      write a ++ x = write b ++ y → R a b ∧ x = y)
    (eq : (l.flatMap fun a => ',' :: write a) ++ close :: x =
      (l'.flatMap fun b => ',' :: write b) ++ close :: y) :
    List.Forall₂ R l l' ∧ x = y := by
  have ne : close ≠ ',' := by rcases isClose with rfl | rfl <;> decide
  induction l generalizing l' with
  | nil =>
      cases l' with
      | nil => exact ⟨.nil, (List.cons.inj eq).2⟩
      | cons b l' => exact absurd (List.cons.inj eq).1 ne
  | cons a l ih =>
      cases l' with
      | nil => exact absurd (List.cons.inj eq).1.symm ne
      | cons b l' =>
          simp only [List.flatMap_cons, List.cons_append, List.append_assoc, List.cons.injEq,
            true_and] at eq
          obtain ⟨first, rest⟩ := element a List.mem_cons_self b List.mem_cons_self _ _
            (closed_tails isClose) (closed_tails isClose) eq
          obtain ⟨all, same⟩ := ih (fun a ina b inb => element a (List.mem_cons_of_mem _ ina) b
            (List.mem_cons_of_mem _ inb)) rest
          exact ⟨.cons first all, same⟩

theorem intercalate_cons (a : α) (l : List α) :
    [','].intercalate ((a :: l).map write) = write a ++ l.flatMap fun b => ',' :: write b := by
  induction l generalizing a with
  | nil => simp
  | cons b l ih =>
      rw [List.map_cons, List.map_cons, List.intercalate_cons_cons, ← List.map_cons, ih b,
        List.flatMap_cons]
      simp

/-- A list that is written with commas up to its closing mark is found again, element by
element, when each element is. -/
theorem joined_inj (isClose : close = ']' ∨ close = '}')
    (element : ∀ a ∈ l, ∀ b ∈ l', ∀ x y, Closed x → Closed y →
      write a ++ x = write b ++ y → R a b ∧ x = y)
    (starts : ∀ a ∈ l ++ l', ∃ c rest, write a = c :: rest ∧ c ≠ close)
    (eq : [','].intercalate (l.map write) ++ close :: x =
      [','].intercalate (l'.map write) ++ close :: y) :
    List.Forall₂ R l l' ∧ x = y := by
  cases l with
  | nil =>
      cases l' with
      | nil => exact ⟨.nil, (List.cons.inj eq).2⟩
      | cons b l' =>
          obtain ⟨c, rest, head, ne⟩ := starts b (by simp)
          rw [intercalate_cons, head] at eq
          exact absurd (List.cons.inj eq).1.symm ne
  | cons a l =>
      cases l' with
      | nil =>
          obtain ⟨c, rest, head, ne⟩ := starts a (by simp)
          rw [intercalate_cons, head] at eq
          exact absurd (List.cons.inj eq).1 ne
      | cons b l' =>
          rw [intercalate_cons, intercalate_cons, List.append_assoc, List.append_assoc] at eq
          obtain ⟨first, rest⟩ := element a List.mem_cons_self b List.mem_cons_self _ _
            (closed_tails isClose) (closed_tails isClose) eq
          obtain ⟨all, same⟩ := tails_inj isClose (fun a ina b inb =>
            element a (List.mem_cons_of_mem _ ina) b (List.mem_cons_of_mem _ inb)) rest
          exact ⟨.cons first all, same⟩

end Joined

/-! ## Joined names -/

/-- The last mark of a list is found again when none follows it. -/
theorem append_mark_inj {α : Type*} {mark : α} {x x' d d' : List α} (unmarked : mark ∉ d)
    (unmarked' : mark ∉ d') (eq : x ++ mark :: d = x' ++ mark :: d') : x = x' ∧ d = d' := by
  have shorter : ∀ {a d d' : List α}, mark ∉ d → mark :: d = a ++ mark :: d' → a = [] := by
    intro a d d' unmarked eq
    cases a with
    | nil => rfl
    | cons c a =>
        have mem : mark ∈ d := by
          rw [(List.cons.inj eq).2]
          simp
        exact absurd mem unmarked
  rcases List.append_eq_append_iff.mp eq with ⟨a, rfl, rest⟩ | ⟨a, rfl, rest⟩
  · obtain rfl := shorter unmarked rest
    simpa using rest
  · obtain rfl := shorter unmarked' rest
    simpa [eq_comm] using rest

/-- The first mark of a list is found again when none precedes it. -/
theorem mark_append_inj {α : Type*} {mark : α} {x x' d d' : List α} (unmarked : mark ∉ x)
    (unmarked' : mark ∉ x') (eq : x ++ mark :: d = x' ++ mark :: d') : x = x' ∧ d = d' := by
  have turned := congrArg List.reverse eq
  simp only [List.reverse_append, List.reverse_cons, List.append_assoc, List.cons_append,
    List.nil_append] at turned
  obtain ⟨tails, fronts⟩ := append_mark_inj (List.mem_reverse.not.mpr unmarked)
    (List.mem_reverse.not.mpr unmarked') turned
  exact ⟨List.reverse_inj.mp fronts, List.reverse_inj.mp tails⟩

/-- A text is found again from the codes of its characters when no code can be read as the
beginning of another. -/
theorem flatMap_code_inj {α β : Type*} {code : α → List β} (codes : ∀ a, code a ≠ [])
    (decodes : ∀ {a a' : α} {rest rest' : List β},
      code a ++ rest = code a' ++ rest' → a = a' ∧ rest = rest') {l l' : List α}
    (eq : l.flatMap code = l'.flatMap code) : l = l' := by
  have starts : ∀ a rest, code a ++ rest ≠ [] := fun a rest nil =>
    codes a (List.append_eq_nil_iff.mp nil).1
  induction l generalizing l' with
  | nil =>
      cases l' with
      | nil => rfl
      | cons a' l' => exact absurd eq.symm (starts a' _)
  | cons a l ih =>
      cases l' with
      | nil => exact absurd eq (starts a _)
      | cons a' l' =>
          obtain ⟨rfl, rest⟩ := decodes eq
          rw [ih rest]

/-- A list cut at its last mark. -/
def cutLast {α : Type*} [DecidableEq α] (mark : α) : List α → Option (List α × List α)
  | [] => none
  | c :: l =>
      match cutLast mark l with
      | some (front, back) => some (c :: front, back)
      | none => if c = mark then some ([], l) else none

section CutLast

variable {α : Type*} [DecidableEq α] {mark : α} {l front back : List α}

theorem cutLast_free (free : mark ∉ l) : cutLast mark l = none := by
  induction l with
  | nil => rfl
  | cons c l ih =>
      rw [List.mem_cons, not_or] at free
      rw [cutLast, ih free.2]
      exact if_neg (Ne.symm free.1)

theorem cutLast_append (free : mark ∉ back) :
    cutLast mark (front ++ mark :: back) = some (front, back) := by
  induction front with
  | nil =>
      rw [List.nil_append, cutLast, cutLast_free free]
      exact if_pos rfl
  | cons c front ih => rw [List.cons_append, cutLast, ih]

theorem eq_of_cutLast (cut : cutLast mark l = some (front, back)) : l = front ++ mark :: back := by
  induction l generalizing front back with
  | nil => cases cut
  | cons c l ih =>
      rw [cutLast] at cut
      split at cut
      · next front' back' rest =>
          cases cut
          rw [ih rest, List.cons_append]
      · split at cut
        · next same =>
            cases cut
            rw [same, List.nil_append]
        · cases cut

end CutLast

theorem not_mem_digits {mark : Char} (mark_digit : mark.isDigit = false) (n : Nat) :
    mark ∉ Nat.toDigits 10 n := fun mem => by
  have digit := Nat.isDigit_of_mem_toDigits (by decide) (by decide) mem
  rw [mark_digit] at digit
  exact absurd digit (by decide)

theorem toDigits_inj {m n : Nat} (eq : Nat.toDigits 10 m = Nat.toDigits 10 n) : m = n := by
  have read := congrArg (Nat.ofDigitChars 10 · 0) eq
  simpa [Nat.ofDigitChars_ten_toDigits] using read

@[simp]
theorem toList_toString_nat (n : Nat) : (toString n).toList = Nat.toDigits 10 n := by
  rw [Nat.toString_eq_repr, Nat.repr_eq_ofList_toDigits, String.toList_ofList]

end Text
