import Everdict.Transition

/-!
# Fencing tokens

A row that one owner at a time may write.  The owner is an identity and whether it still has
the right: a claim installs a live owner, a settle takes the owner away, and a declared death
leaves its identity there without the right.  Only a live owner's own writes take effect.

`Tokens.fenced` is the property of a lock: once the authority of an identity has ended, no
write of that identity takes effect any more.  It needs every identity to be claimed once,
which `Tokens.spent` records.
-/

namespace Fencing

open Transition Transition.Machine

/-- Who owns a fenced row, and whether it may still write it. -/
structure Owner (ι : Type*) where
  id : ι
  live : Bool

/-- A write that took effect. -/
inductive Landed (ι : Type*) where
  | claimed (id : ι)
  | wrote (id : ι)
  | settled (id : ι)
  | failed (id : ι)
  deriving DecidableEq

namespace Landed

variable {ι : Type*}

/-- The identity that had to own the row for the write to take effect. -/
def fencedBy : Landed ι → Option ι
  | claimed _ => none
  | wrote id | settled id | failed id => some id

/-- The write ends the authority of `id`: another identity claimed the row, `id` settled, or
`id` was declared dead. -/
def Revokes (l : Landed ι) (id : ι) : Prop :=
  match l with
  | claimed new => new ≠ id
  | wrote _ => False
  | settled old | failed old => old = id

end Landed

variable {ι σ ε ω : Type*}

/-- What a write that took effect does to the owner of the row. -/
inductive Moves : Option (Owner ι) → Landed ι → Option (Owner ι) → Prop
  | claimed (owner : Option (Owner ι)) (id : ι) : Moves owner (.claimed id) (some ⟨id, true⟩)
  | wrote (id : ι) : Moves (some ⟨id, true⟩) (.wrote id) (some ⟨id, true⟩)
  | settled (id : ι) : Moves (some ⟨id, true⟩) (.settled id) none
  | failed (id : ι) : Moves (some ⟨id, true⟩) (.failed id) (some ⟨id, false⟩)

theorem Moves.owns {owner owner' : Option (Owner ι)} {l : Landed ι} {id : ι}
    (moves : Moves owner l owner') (fenced : l.fencedBy = some id) : owner = some ⟨id, true⟩ := by
  cases moves <;> cases fenced <;> rfl

/-- A machine whose steps respect the tokens of one row, in the states of an invariant. -/
structure Tokens (m : Machine σ ε ω) (ok : σ → ε → Prop) (inv : σ → Prop)
    (owner : σ → Option (Owner ι)) (landed : ω → Option (Landed ι)) (spent : σ → ι → Prop) :
    Prop where
  preserves : ∀ {s t e o}, inv s → ok s e → m s e = some (t, o) → inv t
  /-- A step without a landed write leaves the owner. -/
  keeps : ∀ {s t e o}, inv s → ok s e → m s e = some (t, o) → landed o = none →
    owner t = owner s
  moves : ∀ {s t e o l}, inv s → ok s e → m s e = some (t, o) → landed o = some l →
    Moves (owner s) l (owner t)
  /-- A claimed identity was not claimed before. -/
  fresh : ∀ {s t e o id}, inv s → ok s e → m s e = some (t, o) →
    landed o = some (.claimed id) → ¬ spent s id
  stays : ∀ {s t e o id}, inv s → ok s e → m s e = some (t, o) → spent s id → spent t id

section Tokens

variable {m : Machine σ ε ω} {ok : σ → ε → Prop} {inv : σ → Prop}
  {owner : σ → Option (Owner ι)} {landed : ω → Option (Landed ι)} {spent : σ → ι → Prop}
  {s t : σ} {log : List (ε × ω)} {id : ι}

/-- A revoked identity does not come back. -/
theorem Tokens.not_owner_step (tokens : Tokens m ok inv owner landed spent) {e : ε} {o : ω}
    (holds : inv s) (cond : ok s e) (eq : m s e = some (t, o)) (old : spent s id)
    (lost : owner s ≠ some ⟨id, true⟩) : owner t ≠ some ⟨id, true⟩ := by
  rcases what : landed o with _ | l
  · rwa [tokens.keeps holds cond eq what]
  have moves := tokens.moves holds cond eq what
  generalize before : owner s = a at moves lost
  generalize after : owner t = b at moves ⊢
  cases moves with
  | claimed _ new =>
      intro same
      obtain rfl : new = id := by simpa using same
      exact tokens.fresh holds cond eq what old
  | wrote => exact lost
  | settled => simp
  | failed => simp

/-- A revoking write leaves the row without the identity it revoked. -/
theorem Moves.not_owner {owner owner' : Option (Owner ι)} {l : Landed ι}
    (moves : Moves owner l owner') (revokes : l.Revokes id) : owner' ≠ some ⟨id, true⟩ := by
  cases moves with
  | claimed _ new =>
      intro same
      exact revokes (by simpa using same)
  | wrote => exact revokes.elim
  | settled => simp
  | failed => simp

/-- Once its authority ended, no write of the identity takes effect. -/
theorem Tokens.fenced (tokens : Tokens m ok inv owner landed spent) (run : Runs m ok s log t)
    (init : inv s) (old : spent s id) :
    log.Pairwise fun x w => ∀ l l', landed x.2 = some l → landed w.2 = some l' →
      l.Revokes id → l'.fencedBy ≠ some id := by
  refine run.pairwise (I := fun u => inv u ∧ spent u id)
    (F := fun x u => ∀ l, landed x.2 = some l → l.Revokes id → owner u ≠ some ⟨id, true⟩)
    ⟨init, old⟩ ?step ?mark ?keep ?use
  case step =>
    exact fun _ _ _ _ ⟨holds, spent⟩ cond eq =>
      ⟨tokens.preserves holds cond eq, tokens.stays holds cond eq spent⟩
  case mark =>
    intro u e v o ⟨holds, _⟩ cond eq l what revokes
    exact (tokens.moves holds cond eq what).not_owner revokes
  case keep =>
    intro x u e v o ⟨holds, spent⟩ mark cond eq l what revokes
    exact tokens.not_owner_step holds cond eq spent (mark l what revokes)
  case use =>
    intro x u e v o ⟨holds, _⟩ mark cond eq l l' what what' revokes fenced
    exact mark l what revokes ((tokens.moves holds cond eq what').owns fenced)

end Tokens

end Fencing
