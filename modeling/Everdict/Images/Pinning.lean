import Everdict.Images.References

/-!
# What is read off an image reference

The class of an image, its warnings and the credential that authenticates it depend on a reference
through its parts only, and all but one warning through its host, path and tag: a pinned
reference is classified and authenticated as before.
-/

namespace Everdict.Images

structure ImageRegistryCoordinates where
  host : Chars
  space : Option Chars

inductive ImageRefClass where
  | managed
  | workspace
  | external
  | local'
  | unqualified
deriving DecidableEq

def isLoopbackHost (host : Chars) : Bool :=
  let name :=
    if host.head? = some '[' then
      match cutAt ']' host with
      | (front, some _) => front ++ [']']
      | (_, none) => []
    else (cutAt ':' host).1
  name = "localhost".toList || name = "127.0.0.1".toList || name = "[::1]".toList

/-- Is this the path, or one below it? -/
def isUnder (space path : Chars) : Bool := path = space || (space ++ ['/']).isPrefixOf path

def refIsUnder (parsed : ParsedImageRef) (coords : ImageRegistryCoordinates) : Bool :=
  parsed.host = some coords.host &&
    match given coords.space with
    | none => true
    | some space => isUnder space parsed.path

variable (registries : List ImageRegistryCoordinates) (managed : Option ImageRegistryCoordinates)

def classOf (parsed : ParsedImageRef) : ImageRefClass :=
  match parsed.host with
  | some host =>
      if managed.any (refIsUnder parsed) then .managed
      else if isLoopbackHost host then .local'
      else if registries.any (refIsUnder parsed) then .workspace
      else .external
  | none => if '/' ∈ parsed.path then .external else .unqualified

def classifyImageRef (ref : Chars) : Except ImageError ImageRefClass :=
  (parseImageRef ref).map (classOf registries managed)

inductive ImageWarningClass where
  | local'
  | unqualified
  | mutableTag
deriving DecidableEq

def warningOf (parsed : ParsedImageRef) : Option ImageWarningClass :=
  match classOf registries managed parsed with
  | .local' => some .local'
  | .unqualified => some .unqualified
  | .managed | .workspace | .external =>
      if parsed.digest = none ∧ (parsed.tag = none ∨ parsed.tag = some "latest".toList) then
        some .mutableTag
      else none

def imageWarnings : List Chars → Except ImageError (List (Chars × ImageWarningClass))
  | [] => .ok []
  | image :: images => do
      let parsed ← parseImageRef image
      let rest ← imageWarnings images
      return ((warningOf registries managed parsed).map (image, ·)).toList ++ rest

/-! ## Credentials -/

structure RegistryAuth where
  host : Chars
  username : Option Chars
  password : Chars
deriving DecidableEq

def imageUsesRegistryHost (image host : Chars) : Except ImageError Bool :=
  (parseImageRef image).map fun parsed => parsed.host = some host

def pickRegistryAuth : List RegistryAuth → Chars → Except ImageError (Option RegistryAuth)
  | [], _ => .ok none
  | auth :: auths, image => do
      if ← imageUsesRegistryHost image auth.host then return some auth
      else pickRegistryAuth auths image

/-! ## Pinned references -/

variable {registries managed} {ref digest : Chars} {parsed : ParsedImageRef}

theorem pinDigest_eq_ok (ok : parseImageRef ref = .ok parsed) (digest : Chars) :
    pinDigest ref digest = .ok
      (joined (parsed.host, parsed.path) ++ tagText parsed.tag ++ '@' :: trimmed digest) := by
  unfold pinDigest imageRepositoryOf
  rw [ok]
  rfl

/-- A pinned reference has the parts of the reference, and the new digest. -/
theorem parseImageRef_pinned (ok : parseImageRef ref = .ok parsed) (digest : Chars) :
    parseImageRef (joined (parsed.host, parsed.path) ++ tagText parsed.tag ++ '@' :: trimmed digest)
      = .ok { parsed with digest := given (some (trimmed digest)) } := by
  obtain ⟨name, tag, old, parts, tags, -, plain, free, noAt, first⟩ := parseImageRef_eq_ok ok
  have host := congrArg Prod.fst parts
  have path := congrArg Prod.snd parts
  rw [parts, joined_splitHost]
  have kept : parseImageRef (name ++ tagText parsed.tag ++ '@' :: trimmed digest) =
      .ok { host := (splitHost name).1, path := (splitHost name).2, tag := given parsed.tag,
            digest := given (some (trimmed digest)) } := by
    rw [tags]
    rcases tag with _ | _ | ⟨c, tag⟩
    · exact parseImageRef_written plain free noAt first
    · -- an empty tag is dropped with its colon
      have gone : tagText (given (some [])) = [] := rfl
      refine parseImageRef_written plain (fun t isTag => by cases isTag) ?_ ?_ <;>
        rw [gone, List.append_nil]
      · exact fun isIn => noAt (List.mem_append_left _ isIn)
      · intro c isFirst
        refine first c ?_
        rw [List.head?_append, isFirst]
        rfl
    · exact parseImageRef_written plain free noAt first
  rw [kept, ← host, ← path, tags]
  rcases tag with _ | _ | ⟨c, tag⟩ <;> rfl

theorem classOf_withDigest (digest : Option Chars) :
    classOf registries managed { parsed with digest } = classOf registries managed parsed := rfl

theorem pickRegistryAuth_congr {image image' : Chars} {parsed' : ParsedImageRef}
    (ok : parseImageRef image = .ok parsed) (ok' : parseImageRef image' = .ok parsed')
    (same : parsed.host = parsed'.host) (auths : List RegistryAuth) :
    pickRegistryAuth auths image = pickRegistryAuth auths image' := by
  induction auths with
  | nil => rfl
  | cons auth auths ih =>
      unfold pickRegistryAuth imageUsesRegistryHost
      rw [ok, ok', ih]
      simp only [Except.map, same]

/-- Pinning changes the digest and nothing else: the parts, the repository, the class and the
credential of a reference stay, a later pin replaces the digest, and a pinned reference is
warned about for its class only. -/
theorem pinned_reference (ok : parseImageRef ref = .ok parsed) (digest : Chars) :
    ∃ pinned, pinDigest ref digest = .ok pinned ∧
      parseImageRef pinned = .ok { parsed with digest := given (some (trimmed digest)) } ∧
      imageRepositoryOf pinned = imageRepositoryOf ref ∧
      (∀ digest', pinDigest pinned digest' = pinDigest ref digest') ∧
      (∀ registries managed,
        classifyImageRef registries managed pinned = classifyImageRef registries managed ref) ∧
      (∀ auths, pickRegistryAuth auths pinned = pickRegistryAuth auths ref) ∧
      (trimmed digest ≠ [] → ∀ registries managed,
        (imageWarnings registries managed [pinned]).map (·.map Prod.snd) =
          (imageWarnings registries managed [ref]).map
            fun warnings => (warnings.map Prod.snd).filter (· ≠ .mutableTag)) := by
  have reads := parseImageRef_pinned ok digest
  refine ⟨_, pinDigest_eq_ok ok digest, reads, ?_, ?_, ?_, ?_, ?_⟩
  · unfold imageRepositoryOf
    rw [reads, ok]
    rfl
  · intro digest'
    rw [pinDigest_eq_ok reads, pinDigest_eq_ok ok]
  · intro registries managed
    unfold classifyImageRef
    rw [reads, ok]
    rfl
  · exact pickRegistryAuth_congr reads ok rfl
  · intro some' registries managed
    unfold imageWarnings imageWarnings
    rw [reads, ok]
    change Except.ok _ = Except.ok _
    congr 1
    unfold warningOf
    rw [classOf_withDigest]
    have pinned : given (some (trimmed digest)) ≠ none := by
      rcases eq : trimmed digest with _ | ⟨c, cs⟩
      · exact absurd eq some'
      · exact Option.some_ne_none _
    cases classOf registries managed parsed with
    | local' | unqualified => rfl
    | managed | workspace | external =>
        simp only [if_neg fun both : _ ∧ _ => pinned both.1]
        split <;> rfl

theorem pinned_reference_agent :
    pinDigest "ghcr.io/acme/agent:v3".toList "sha256:abc".toList =
        .ok "ghcr.io/acme/agent:v3@sha256:abc".toList ∧
      ∀ auths, pickRegistryAuth auths "ghcr.io/acme/agent:v3@sha256:abc".toList =
        pickRegistryAuth auths "ghcr.io/acme/agent:v3".toList := by
  have ok : parseImageRef "ghcr.io/acme/agent:v3".toList = .ok {
      host := some "ghcr.io".toList, path := "acme/agent".toList, tag := some "v3".toList } := by
    decide +kernel
  obtain ⟨pinned, pins, -, -, -, -, auths, -⟩ := pinned_reference ok "sha256:abc".toList
  have writes : pinDigest "ghcr.io/acme/agent:v3".toList "sha256:abc".toList =
      .ok "ghcr.io/acme/agent:v3@sha256:abc".toList := by
    decide +kernel
  obtain rfl := Except.ok.inj (pins.symm.trans writes)
  exact ⟨writes, auths⟩

end Everdict.Images
