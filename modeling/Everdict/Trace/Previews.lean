import Everdict.Trace.Events

/-!
# Previews of large values

`previewOf` shares a budget of bytes between the texts inside a value, as even as they need
it, and shortens those over their share; `boundStructure` then caps the containers of a value
that is still too large when written out.  A value that either pass changed is moved to the
object store, and its preview stays.
-/

namespace Everdict.Trace

open Submission (JsNumber)

/-! ## Constants -/

def EVENT_INLINE_MAX : Nat := 32000

def CONTAINER_CAPS : List Nat := [512, 128, 32, 8, 2, 1, 0]

def STRUCTURE_INLINE_MAX : Nat := EVENT_INLINE_MAX * 2

/-- The key under which a capped container counts what it left out. -/
def ELIDED : String := "__elided__"

/-- The name under which an assignment to a plain object sets its prototype. -/
def PROTO : String := "__proto__"

/-- The member that `out[key] = value` makes. -/
def assigned (key : String) (value : Value) : Attrs :=
  if key = PROTO then [] else [(key, value)]

/-- The bytes of a value as JSON text. -/
def serializedBytes (runtime : Runtime) (value : Value) : Nat :=
  (stringify runtime.toText value).utf8ByteSize

/-! ## Containers -/

def elided (count : Nat) : Attrs := [(ELIDED, .number (.finite count))]

section Containers

variable (keep : Nat)

mutual

def capContainers : Value → Value
  | .array items =>
      .array (capItems keep items
        ++ if keep < items.length then [.object (elided (items.length - keep))] else [])
  | .object fields =>
      .object (if keep < fields.length then
          Attrs.spread (capFields keep fields) (elided (fields.length - keep))
        else capFields keep fields)
  | value => value

/-- The first items, each capped. -/
def capItems : Nat → List Value → List Value
  | 0, _ | _, [] => []
  | count + 1, item :: items => capContainers item :: capItems count items

def capFields : Nat → List (String × Value) → List (String × Value)
  | 0, _ | _, [] => []
  | count + 1, (key, item) :: fields => assigned key (capContainers item) ++ capFields count fields

end

end Containers

structure Preview where
  preview : Value
  truncated : Bool

def Value.isContainer : Value → Bool
  | .array _ | .object _ => true
  | _ => false

def boundStructure (runtime : Runtime) (value : Value) (maxBytes : Nat) : Preview :=
  if !value.isContainer || serializedBytes runtime value ≤ maxBytes then ⟨value, false⟩
  else
    match (CONTAINER_CAPS.map fun keep => capContainers keep value).find? fun capped =>
        serializedBytes runtime capped ≤ maxBytes with
    | some capped => ⟨capped, true⟩
    | none => ⟨.object (elided 1), true⟩

/-! ## Texts -/

/-- The characters whose bytes all stand in front of the mark. -/
def takeBytes : List Char → Nat → List Char
  | [], _ => []
  | c :: cs, bytes => if c.utf8Size ≤ bytes then c :: takeBytes cs (bytes - c.utf8Size) else []

def truncateToBytes (value : String) (maxBytes : Nat) : String :=
  if value.utf8ByteSize ≤ maxBytes then value else String.ofList (takeBytes value.toList maxBytes)

mutual

/-- The sizes of the texts inside a value, in the order of the walk. -/
def collectLeafSizes : Value → List Nat
  | .text value => [value.utf8ByteSize]
  | .array items => collectItemSizes items
  | .object fields => collectFieldSizes fields
  | _ => []

def collectItemSizes : List Value → List Nat
  | [] => []
  | item :: items => collectLeafSizes item ++ collectItemSizes items

def collectFieldSizes : List (String × Value) → List Nat
  | [] => []
  | (_, item) :: fields => collectLeafSizes item ++ collectFieldSizes fields

end

/-- The texts that fit their share. -/
def settledIn (pool : List Nat) (share : Nat) : List Nat :=
  pool.filter fun size => size ≤ share && 0 < size

/-- One round of the loop of `fairShare` after the other: the texts that fit their share give
what they do not need to the others. -/
def shareOf (pool : List Nat) (remaining contenders : Nat) : Nat :=
  -- no more texts settle than contend
  if _done : (settledIn pool (remaining / contenders)).length = 0 ∨
      contenders ≤ (settledIn pool (remaining / contenders)).length then
    remaining / contenders
  else
    shareOf (pool.filter fun size => remaining / contenders < size || size = 0)
      (remaining - (settledIn pool (remaining / contenders)).sum)
      (contenders - (settledIn pool (remaining / contenders)).length)
termination_by contenders
decreasing_by omega

def fairShare (sizes : List Nat) (totalBudget : Nat) : Nat :=
  if sizes.length = 0 then 0 else shareOf sizes totalBudget sizes.length

section Texts

variable (share : Nat)

mutual

def applyPreview : Value → Preview
  | .text value =>
      if value.utf8ByteSize ≤ share then ⟨.text value, false⟩
      else ⟨.text (truncateToBytes value share), true⟩
  | .array items => ⟨.array (applyItems items).1, (applyItems items).2⟩
  | .object fields => ⟨.object (applyFields fields).1, (applyFields fields).2⟩
  | value => ⟨value, false⟩

def applyItems : List Value → List Value × Bool
  | [] => ([], false)
  | item :: items =>
      ((applyPreview item).preview :: (applyItems items).1,
        (applyPreview item).truncated || (applyItems items).2)

def applyFields : List (String × Value) → List (String × Value) × Bool
  | [] => ([], false)
  | (key, item) :: fields =>
      (assigned key (applyPreview item).preview ++ (applyFields fields).1,
        (applyPreview item).truncated || (applyFields fields).2)

end

end Texts

def previewOf (value : Value) (totalBudget : Nat) : Preview :=
  applyPreview (fairShare (collectLeafSizes value) totalBudget) value

/-- The preview of a value that is moved; `none` where it stays. -/
def previewToMove (runtime : Runtime) (value : Value) : Option Value :=
  match value with
  | .null => none
  | value =>
      let strings := previewOf value EVENT_INLINE_MAX
      let structural := boundStructure runtime strings.preview STRUCTURE_INLINE_MAX
      if !strings.truncated && !structural.truncated then none else some structural.preview

end Everdict.Trace
