import Mathlib.Logic.Function.Basic
import Mathlib.Tactic.Common

/-!
# Rights charged and returned

A key holds at most one right at a time.  `Booked book held` says that a list of
charges and returns is in order and leaves `held`: a key is charged only when it
holds nothing, and what is returned is what it holds.

* `Booked.count`: a key has been charged as often as it was returned, and once more
  while it holds a right.
-/

namespace Rights

open Function (update)

variable {κ π : Type*}

inductive Entry (κ π : Type*)
  | charged (key : κ) (right : π)
  | returned (key : κ) (right : π)
  deriving DecidableEq

section Books

variable [DecidableEq κ]

inductive Booked : List (Entry κ π) → (κ → Option π) → Prop
  | nil : Booked [] fun _ => none
  | charge {book : List (Entry κ π)} {held : κ → Option π} {key : κ} {right : π} :
      Booked book held → held key = none →
      Booked (book ++ [.charged key right]) (update held key (some right))
  | giveBack {book : List (Entry κ π)} {held : κ → Option π} {key : κ} {right : π} :
      Booked book held → held key = some right →
      Booked (book ++ [.returned key right]) (update held key none)

def charges (key : κ) (book : List (Entry κ π)) : Nat :=
  book.countP fun
    | .charged k _ => k = key
    | .returned .. => false

def returns (key : κ) (book : List (Entry κ π)) : Nat :=
  book.countP fun
    | .returned k _ => k = key
    | .charged .. => false

variable {book : List (Entry κ π)} {held : κ → Option π}

/-- A key is charged once more than it was returned while it holds a right, and as often
otherwise. -/
theorem Booked.count (booked : Booked book held) (key : κ) :
    charges key book = returns key book + (if (held key).isSome then 1 else 0) := by
  induction booked with
  | nil => rfl
  | @charge book held k right _ free ih =>
      by_cases here : k = key
      · subst here
        simpa [charges, returns, free] using ih
      · simpa [charges, returns, here, Ne.symm here] using ih
  | @giveBack book held k right _ found ih =>
      by_cases here : k = key
      · subst here
        simpa [charges, returns, found] using ih
      · simpa [charges, returns, here, Ne.symm here] using ih

end Books

end Rights
