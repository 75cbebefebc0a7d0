import Everdict.Decimal
import Mathlib.Data.List.Nodup
import Mathlib.Data.Rat.Defs

/-!
# Documents

The values that a program serializes: JSON with members that may be `undefined`.  What a
document says does not depend on the order of its members, so its meaning has an object as
the partial map of its keys.  A member that is `undefined` can be left out of an object
(`dropUndefined`) or read as `null` (`nullify`); what a document means is known from both
readings together (`eq_of_readings`).
-/

namespace Documents

inductive Doc (ν : Type) where
  | undefined
  | null
  | bool (value : Bool)
  | number (value : ν)
  | text (value : String)
  | array (items : List (Doc ν))
  | object (members : List (String × Doc ν))

/-- A document up to the order of members. -/
inductive Meaning (ν : Type) where
  | undefined
  | null
  | bool (value : Bool)
  | number (value : ν)
  | text (value : String)
  | array (items : List (Meaning ν))
  | object (members : String → Option (Meaning ν))

variable {ν : Type}

/-! ## Numbers -/

/-- How a number is written. -/
structure NumberText (ν : Type) where
  text : ν → String
  inj : ∀ x y, text x = text y → x = y
  nonempty : ∀ x, (text x).toList ≠ []
  mark : ∀ x, ∀ c ∈ (text x).toList, Decimal.isMark c = true

/-- `Number.prototype.toString` -/
def shortest : NumberText Decimal.Number where
  text := Decimal.Number.toString
  inj _ _ := Decimal.toString_inj
  nonempty := Decimal.toString_nonempty
  mark := Decimal.isMark_toString

/-- Whole numbers as JavaScript writes them, other fractions with their denominator. -/
def fractionChars (q : ℚ) : List Char :=
  (if q.num < 0 then ['-'] else []) ++
    (Nat.toDigits 10 q.num.natAbs ++ if q.den = 1 then [] else 'e' :: Nat.toDigits 10 q.den)

theorem isDigit_toDigits (n : Nat) : ∀ c ∈ Nat.toDigits 10 n, c.isDigit = true :=
  fun _ isIn => Nat.isDigit_of_mem_toDigits (by decide) (by decide) isIn

theorem toDigits_eq_cons (n : Nat) :
    ∃ c rest, Nat.toDigits 10 n = c :: rest ∧ c.isDigit = true := by
  rcases chars : Nat.toDigits 10 n with _ | ⟨c, rest⟩
  · exact absurd chars Nat.toDigits_ne_nil
  · exact ⟨c, rest, rfl, isDigit_toDigits n c (chars ▸ List.mem_cons_self)⟩

theorem isMark_fraction (q : ℚ) : ∀ c ∈ fractionChars q, Decimal.isMark c = true := by
  have digits : ∀ n, ∀ c ∈ Nat.toDigits 10 n, Decimal.isMark c = true :=
    fun n c isIn => Decimal.isMark_of_digit (isDigit_toDigits n c isIn)
  intro c isIn
  unfold fractionChars at isIn
  rcases List.mem_append.mp isIn with isIn | isIn
  · split_ifs at isIn
    · rw [List.mem_singleton.mp isIn]
      rfl
    · cases isIn
  rcases List.mem_append.mp isIn with isIn | isIn
  · exact digits _ c isIn
  · split_ifs at isIn
    · cases isIn
    · rcases List.mem_cons.mp isIn with rfl | isIn
      · rfl
      · exact digits _ c isIn

theorem fractionChars_inj {q q' : ℚ} (eq : fractionChars q = fractionChars q') : q = q' := by
  unfold fractionChars at eq
  obtain ⟨c, rest, head, digit⟩ := toDigits_eq_cons q.num.natAbs
  obtain ⟨c', rest', head', digit'⟩ := toDigits_eq_cons q'.num.natAbs
  have sign : q.num < 0 ↔ q'.num < 0 := by
    rw [head, head'] at eq
    by_cases negative : q.num < 0 <;> by_cases negative' : q'.num < 0
    · exact iff_of_true negative negative'
    · rw [if_pos negative, if_neg negative'] at eq
      exact absurd (List.cons.inj eq).1.symm (Decimal.not_mark digit' rfl)
    · rw [if_neg negative, if_pos negative'] at eq
      exact absurd (List.cons.inj eq).1 (Decimal.not_mark digit rfl)
    · exact iff_of_false negative negative'
  simp only [sign] at eq
  have eq := List.append_cancel_left eq
  have stop : ∀ q : ℚ, (if q.den = 1 then [] else 'e' :: Nat.toDigits 10 q.den).takeWhile
      Char.isDigit = [] := by
    intro q
    split_ifs <;> rfl
  have same := congrArg (List.takeWhile Char.isDigit) eq
  rw [List.takeWhile_append_of_pos (isDigit_toDigits _),
    List.takeWhile_append_of_pos (isDigit_toDigits _), stop, stop, List.append_nil,
    List.append_nil] at same
  rw [same] at eq
  have dens := List.append_cancel_left eq
  have size := Text.toDigits_inj same
  refine Rat.ext (by omega) ?_
  split_ifs at dens with whole whole' whole'
  · rw [whole, whole']
  · exact Text.toDigits_inj (List.cons.inj dens).2

def fractions : NumberText ℚ where
  text q := String.ofList (fractionChars q)
  inj q q' eq := fractionChars_inj (String.ofList_inj.mp eq)
  nonempty q := by
    obtain ⟨c, rest, head, -⟩ := toDigits_eq_cons q.num.natAbs
    simp [fractionChars, head]
  mark q := by
    rw [String.toList_ofList]
    exact isMark_fraction q

/-! ## Induction -/

theorem Doc.induct {motive : Doc ν → Prop} (undefined : motive .undefined) (null : motive .null)
    (bool : ∀ value, motive (.bool value)) (number : ∀ value, motive (.number value))
    (text : ∀ value, motive (.text value))
    (array : ∀ items, (∀ d ∈ items, motive d) → motive (.array items))
    (object : ∀ members : List (String × Doc ν), (∀ m ∈ members, motive m.2) →
      motive (.object members)) (d : Doc ν) : motive d := by
  refine @Doc.rec ν motive (fun items => ∀ d ∈ items, motive d)
    (fun members => ∀ m ∈ members, motive m.2) (fun m => motive m.2)
    undefined null bool number text array object ?_ ?_ ?_ ?_ ?_ d
  · simp
  · intro d ds hd hds
    exact List.forall_mem_cons.mpr ⟨hd, hds⟩
  · simp
  · intro m ms hm hms
    exact List.forall_mem_cons.mpr ⟨hm, hms⟩
  · exact fun _ _ h => h

theorem Meaning.induct {motive : Meaning ν → Prop} (undefined : motive .undefined)
    (null : motive .null) (bool : ∀ value, motive (.bool value))
    (number : ∀ value, motive (.number value)) (text : ∀ value, motive (.text value))
    (array : ∀ items, (∀ m ∈ items, motive m) → motive (.array items))
    (object : ∀ members : String → Option (Meaning ν),
      (∀ name, ∀ m ∈ members name, motive m) → motive (.object members))
    (m : Meaning ν) : motive m := by
  refine @Meaning.rec ν motive (fun items => ∀ m ∈ items, motive m)
    (fun member => ∀ m ∈ member, motive m)
    undefined null bool number text array object ?_ ?_ ?_ ?_ m
  · simp
  · intro m ms hm hms
    exact List.forall_mem_cons.mpr ⟨hm, hms⟩
  · simp
  · rintro m hm _ ⟨⟩
    exact hm

/-! ## What a document says -/

def Doc.isUndefined : Doc ν → Bool
  | .undefined => true
  | _ => false

mutual

def Doc.meaning : Doc ν → Meaning ν
  | .undefined => .undefined
  | .null => .null
  | .bool value => .bool value
  | .number value => .number value
  | .text value => .text value
  | .array items => .array (itemMeanings items)
  | .object members => .object fun name => memberMeaning members name

def itemMeanings : List (Doc ν) → List (Meaning ν)
  | [] => []
  | d :: ds => d.meaning :: itemMeanings ds

def memberMeaning : List (String × Doc ν) → String → Option (Meaning ν)
  | [], _ => none
  | (key, d) :: rest, name => if name = key then some d.meaning else memberMeaning rest name

end

mutual

/-- The document with `null` for `undefined`. -/
def Doc.nullify : Doc ν → Doc ν
  | .undefined => .null
  | .array items => .array (nullifyItems items)
  | .object members => .object (nullifyMembers members)
  | d => d

def nullifyItems : List (Doc ν) → List (Doc ν)
  | [] => []
  | d :: ds => d.nullify :: nullifyItems ds

def nullifyMembers : List (String × Doc ν) → List (String × Doc ν)
  | [] => []
  | (name, d) :: rest => (name, d.nullify) :: nullifyMembers rest

end

mutual

/-- The keys of an object are its own, and no element of an array is `undefined`. -/
def Doc.serializable : Doc ν → Bool
  | .array items => serializableItems items
  | .object members => decide (members.map Prod.fst).Nodup && serializableMembers members
  | _ => true

def serializableItems : List (Doc ν) → Bool
  | [] => true
  | d :: ds => !d.isUndefined && d.serializable && serializableItems ds

def serializableMembers : List (String × Doc ν) → Bool
  | [] => true
  | (_, d) :: rest => d.serializable && serializableMembers rest

end

/-- A document that can be serialized. -/
structure Document (ν : Type) where
  doc : Doc ν
  defined : doc.isUndefined = false
  serializable : doc.serializable = true

def Meaning.isUndefined : Meaning ν → Bool
  | .undefined => true
  | _ => false

mutual

/-- What is said without the members that are `undefined`. -/
def Meaning.dropUndefined : Meaning ν → Meaning ν
  | .array items => .array (Meaning.dropInItems items)
  | .object members => .object fun name => Meaning.dropInMember (members name)
  | said => said

def Meaning.dropInItems : List (Meaning ν) → List (Meaning ν)
  | [] => []
  | said :: rest => said.dropUndefined :: Meaning.dropInItems rest

def Meaning.dropInMember : Option (Meaning ν) → Option (Meaning ν)
  | none => none
  | some said => if said.isUndefined then none else some said.dropUndefined

end

mutual

/-- What is said with `null` for `undefined`. -/
def Meaning.nullify : Meaning ν → Meaning ν
  | .undefined => .null
  | .array items => .array (Meaning.nullifyItems items)
  | .object members => .object fun name => Meaning.nullifyMember (members name)
  | said => said

def Meaning.nullifyItems : List (Meaning ν) → List (Meaning ν)
  | [] => []
  | said :: rest => said.nullify :: Meaning.nullifyItems rest

def Meaning.nullifyMember : Option (Meaning ν) → Option (Meaning ν)
  | none => none
  | some said => some said.nullify

end

section Lists

variable (items : List (Doc ν)) (members : List (String × Doc ν))

theorem itemMeanings_eq : itemMeanings items = items.map Doc.meaning := by
  induction items with
  | nil => rfl
  | cons d ds ih => rw [itemMeanings, ih, List.map_cons]

theorem nullifyItems_eq : nullifyItems items = items.map Doc.nullify := by
  induction items with
  | nil => rfl
  | cons d ds ih => rw [nullifyItems, ih, List.map_cons]

theorem nullifyMembers_eq :
    nullifyMembers members = members.map fun m => (m.1, m.2.nullify) := by
  induction members with
  | nil => rfl
  | cons m rest ih => rw [nullifyMembers, ih, List.map_cons]

theorem serializableItems_iff :
    serializableItems items = true ↔
      ∀ d ∈ items, d.isUndefined = false ∧ d.serializable = true := by
  induction items with
  | nil => simp [serializableItems]
  | cons d ds ih => simp [serializableItems, ih]

theorem serializableMembers_iff :
    serializableMembers members = true ↔ ∀ m ∈ members, m.2.serializable = true := by
  induction members with
  | nil => simp [serializableMembers]
  | cons m rest ih => simp [serializableMembers, ih]

end Lists

/-! ## Objects -/

/-- The object has a member of this name and this meaning. -/
def Says (members : List (String × Doc ν)) (name : String) (said : Meaning ν) : Prop :=
  ∃ d, (name, d) ∈ members ∧ d.meaning = said

def Distinct (members : List (String × Doc ν)) : Prop := (members.map Prod.fst).Nodup

section Objects

variable {members members' : List (String × Doc ν)} {name : String} {said : Meaning ν}
  {d d' : Doc ν}

/-- A name stands for one member. -/
theorem Distinct.unique (distinct : Distinct members) (mem : (name, d) ∈ members)
    (mem' : (name, d') ∈ members) : d = d' := by
  have same := List.inj_on_of_nodup_map distinct mem mem' rfl
  exact (Prod.mk.inj same).2

theorem memberMeaning_eq_some (distinct : Distinct members) :
    memberMeaning members name = some said ↔ Says members name said := by
  induction members with
  | nil => simp [memberMeaning, Says]
  | cons m rest ih =>
      obtain ⟨fresh, others⟩ := List.nodup_cons.mp distinct
      rw [memberMeaning]
      split_ifs with first
      · subst first
        rw [Option.some.injEq]
        constructor
        · intro eq
          exact ⟨m.2, List.mem_cons_self, eq⟩
        · rintro ⟨d, mem, eq⟩
          rw [← eq, distinct.unique mem List.mem_cons_self]
      · rw [ih others]
        constructor
        · rintro ⟨d, mem, eq⟩
          exact ⟨d, List.mem_cons_of_mem _ mem, eq⟩
        · rintro ⟨d, mem, eq⟩
          rcases List.mem_cons.mp mem with rfl | mem
          · exact absurd rfl first
          · exact ⟨d, mem, eq⟩

theorem Distinct.nullify (distinct : Distinct members) : Distinct (nullifyMembers members) := by
  rwa [nullifyMembers_eq, Distinct, List.map_map]

theorem serializable_object (serializable : (Doc.object members).serializable = true) :
    Distinct members ∧ ∀ m ∈ members, m.2.serializable = true := by
  rw [Doc.serializable, Bool.and_eq_true, decide_eq_true_eq] at serializable
  exact ⟨serializable.1, (serializableMembers_iff members).mp serializable.2⟩

end Objects

/-! ## Both readings -/

theorem Meaning.dropInItems_eq (items : List (Meaning ν)) :
    Meaning.dropInItems items = items.map Meaning.dropUndefined := by
  induction items with
  | nil => rfl
  | cons m ms ih => rw [Meaning.dropInItems, ih, List.map_cons]

theorem Meaning.nullifyItems_eq (items : List (Meaning ν)) :
    Meaning.nullifyItems items = items.map Meaning.nullify := by
  induction items with
  | nil => rfl
  | cons m ms ih => rw [Meaning.nullifyItems, ih, List.map_cons]

theorem eq_of_maps {α β γ : Type*} {f : α → β} {g : α → γ} {l l' : List α}
    (inj : ∀ a ∈ l, ∀ b, f a = f b → g a = g b → a = b) (left : l.map f = l'.map f)
    (right : l.map g = l'.map g) : l = l' := by
  induction l generalizing l' with
  | nil => exact (List.map_eq_nil_iff.mp left.symm).symm
  | cons a l ih =>
      cases l' with
      | nil => cases left
      | cons b l' =>
          obtain ⟨first, rest⟩ := List.cons.inj left
          obtain ⟨first', rest'⟩ := List.cons.inj right
          rw [inj a List.mem_cons_self b first first',
            ih (fun x isIn => inj x (List.mem_cons_of_mem _ isIn)) rest rest']

theorem isUndefined_iff {m : Meaning ν} : m.isUndefined = true ↔ m = .undefined := by
  cases m <;> simp [Meaning.isUndefined]

/-- A member that is left out in one reading and `null` in the other is `undefined`. -/
theorem member_eq_of_readings {said said' : Option (Meaning ν)}
    (inj : ∀ m ∈ said, ∀ m', m.dropUndefined = m'.dropUndefined → m.nullify = m'.nullify → m = m')
    (dropped : Meaning.dropInMember said = Meaning.dropInMember said')
    (nullified : Meaning.nullifyMember said = Meaning.nullifyMember said') : said = said' := by
  rcases said with _ | m <;> rcases said' with _ | m'
  · rfl
  · cases nullified
  · cases nullified
  have read : m.nullify = m'.nullify := Option.some.inj nullified
  simp only [Meaning.dropInMember] at dropped
  split_ifs at dropped with absent absent' absent'
  · rw [isUndefined_iff.mp absent, isUndefined_iff.mp absent']
  · rw [inj m rfl m' (Option.some.inj dropped) read]

/-- What a document means is known from both readings of its `undefined` members. -/
theorem eq_of_readings {m m' : Meaning ν} (dropped : m.dropUndefined = m'.dropUndefined)
    (nullified : m.nullify = m'.nullify) : m = m' := by
  induction m using Meaning.induct generalizing m' with
  | array items ih =>
      cases m' with
      | array items' =>
          simp only [Meaning.dropUndefined, Meaning.nullify, Meaning.array.injEq,
            Meaning.dropInItems_eq, Meaning.nullifyItems_eq] at dropped nullified
          rw [eq_of_maps (fun m isIn m' => ih m isIn) dropped nullified]
      | _ => cases dropped
  | object members ih =>
      cases m' with
      | object members' =>
          simp only [Meaning.dropUndefined, Meaning.nullify, Meaning.object.injEq, funext_iff]
            at dropped nullified
          congr 1
          funext name
          exact member_eq_of_readings (fun m isIn m' => ih name m isIn) (dropped name)
            (nullified name)
      | _ => cases dropped
  | _ => cases m' <;> first | exact dropped | cases dropped

theorem memberMeaning_nullify {members : List (String × Doc ν)}
    (each : ∀ m ∈ members, m.2.nullify.meaning = m.2.meaning.nullify) (name : String) :
    memberMeaning (nullifyMembers members) name =
      Meaning.nullifyMember (memberMeaning members name) := by
  induction members with
  | nil => rfl
  | cons m rest ih =>
      obtain ⟨first, others⟩ := List.forall_mem_cons.mp each
      rw [nullifyMembers, memberMeaning, memberMeaning]
      split_ifs
      · rw [first]
        rfl
      · exact ih others

theorem nullify_meaning (d : Doc ν) : d.nullify.meaning = d.meaning.nullify := by
  induction d using Doc.induct with
  | array items ih =>
      simp only [Doc.nullify, Doc.meaning, Meaning.nullify, itemMeanings_eq, nullifyItems_eq,
        Meaning.nullifyItems_eq, List.map_map, Meaning.array.injEq]
      exact List.map_congr_left ih
  | object members ih =>
      simp only [Doc.nullify, Doc.meaning, Meaning.nullify, Meaning.object.injEq]
      funext name
      exact memberMeaning_nullify ih name
  | _ => rfl

theorem dropUndefined_nullify (m : Meaning ν) : m.nullify.dropUndefined = m.nullify := by
  induction m using Meaning.induct with
  | array items ih =>
      simp only [Meaning.nullify, Meaning.dropUndefined, Meaning.dropInItems_eq,
        Meaning.nullifyItems_eq, List.map_map, Meaning.array.injEq]
      exact List.map_congr_left ih
  | object members ih =>
      simp only [Meaning.nullify, Meaning.dropUndefined, Meaning.object.injEq]
      funext name
      rcases member : members name with _ | m
      · rfl
      · have defined : m.nullify.isUndefined = false := by cases m <;> rfl
        simp only [Meaning.nullifyMember, Meaning.dropInMember, defined, Bool.false_eq_true,
          if_false, ih name m member]
  | _ => rfl

theorem isUndefined_nullify (d : Doc ν) : d.nullify.isUndefined = false := by
  cases d <;> rfl

theorem serializable_nullify {d : Doc ν} (serializable : d.serializable = true) :
    d.nullify.serializable = true := by
  induction d using Doc.induct with
  | array items ih =>
      rw [Doc.serializable, serializableItems_iff] at serializable
      rw [Doc.nullify, Doc.serializable, serializableItems_iff, nullifyItems_eq]
      intro _ isIn
      obtain ⟨d, mem, rfl⟩ := List.mem_map.mp isIn
      exact ⟨isUndefined_nullify d, ih d mem (serializable d mem).2⟩
  | object members ih =>
      obtain ⟨distinct, all⟩ := serializable_object serializable
      rw [Doc.nullify, Doc.serializable, Bool.and_eq_true, decide_eq_true_eq,
        serializableMembers_iff]
      refine ⟨distinct.nullify, ?_⟩
      rw [nullifyMembers_eq]
      intro _ isIn
      obtain ⟨m, mem, rfl⟩ := List.mem_map.mp isIn
      exact ih m mem (all m mem)
  | _ => rfl

/-- The document with `null` for `undefined`. -/
def Document.nullify (d : Document ν) : Document ν where
  doc := d.doc.nullify
  defined := isUndefined_nullify d.doc
  serializable := serializable_nullify d.serializable

end Documents
