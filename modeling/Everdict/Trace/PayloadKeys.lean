import Everdict.Provenance.ContentDigest
import Mathlib.Data.List.Infix

/-!
# The keys of payload objects

The payloads of a run lie under a prefix that spells its tenant and its id, each escaped so
that neither holds a separator.  A prefix can therefore be read only one way: a text that
starts with the prefixes of two runs makes them one (`payloadKeyPrefix_inj`), and a key has
one owner (`owner_unique`).
-/

namespace Everdict.Trace

open Provenance (DigestError contentDigest)
open Documents (Doc NumberText)

def escapeSegmentChar (c : Char) : List Char :=
  if c = '%' then ['%', '2', '5'] else if c = '/' then ['%', '2', 'F'] else [c]

/-- `value.replace(/%/g, "%25").replace(/\//g, "%2F")` -/
def escapeSegment (value : String) : String :=
  String.ofList (value.toList.flatMap escapeSegmentChar)

/-- Where all payloads lie. -/
def PAYLOADS : String := "trajectory-payloads/"

def payloadKeyPrefix (tenant runId : String) : String :=
  PAYLOADS ++ escapeSegment tenant ++ "/" ++ escapeSegment runId ++ "/"

def ownsPayloadKey (key tenant runId : String) : Bool :=
  let stem := payloadKeyPrefix tenant runId
  Text.startsWith key stem && (Text.utf16 stem).length < (Text.utf16 key).length

def offloadKey {ν : Type} (numbers : NumberText ν) (sha256 : String → String)
    (tenant runId emitter field : String) (value : Doc ν) : Except DigestError String := do
  let digest ← contentDigest numbers sha256 value
  return payloadKeyPrefix tenant runId ++ emitter ++ "/" ++ digest ++ "." ++ field

/-! ## Segments -/

theorem not_mem_escapeSegmentChar (c : Char) : '/' ∉ escapeSegmentChar c := by
  unfold escapeSegmentChar
  split_ifs with percent slash
  · decide
  · decide
  · rw [List.mem_singleton]
    exact Ne.symm slash

theorem not_mem_escapeSegment (value : String) : '/' ∉ (escapeSegment value).toList := by
  rw [escapeSegment, String.toList_ofList, List.mem_flatMap]
  rintro ⟨c, _, isIn⟩
  exact not_mem_escapeSegmentChar c isIn

theorem escapeSegmentChar_append_inj {c c' : Char} {rest rest' : List Char}
    (eq : escapeSegmentChar c ++ rest = escapeSegmentChar c' ++ rest') : c = c' ∧ rest = rest' := by
  unfold escapeSegmentChar at eq
  split_ifs at eq <;> grind

theorem escapeSegmentChar_ne_nil (c : Char) : escapeSegmentChar c ≠ [] := by
  unfold escapeSegmentChar
  split_ifs <;> exact List.cons_ne_nil _ _

theorem escapeSegment_inj {value value' : String}
    (eq : escapeSegment value = escapeSegment value') : value = value' := by
  have chars := congrArg String.toList eq
  rw [escapeSegment, escapeSegment, String.toList_ofList, String.toList_ofList] at chars
  exact String.toList_inj.mp
    (Text.flatMap_code_inj escapeSegmentChar_ne_nil escapeSegmentChar_append_inj chars)

/-! ## Prefixes -/

theorem toList_payloadKeyPrefix (tenant runId : String) :
    (payloadKeyPrefix tenant runId).toList =
      PAYLOADS.toList ++
        ((escapeSegment tenant).toList ++ '/' :: ((escapeSegment runId).toList ++ ['/'])) := by
  unfold payloadKeyPrefix
  simp only [String.toList_append, List.append_assoc]
  rfl

variable {key tenant runId tenant' runId' : String}

theorem startsWith_iff {s stem : String} :
    Text.startsWith s stem = true ↔ stem.toList <+: s.toList := List.isPrefixOf_iff_prefix

/-- The segments of a text that starts with a prefix are read off it. -/
theorem payloadKeyPrefix_inj {text : List Char}
    (starts : (payloadKeyPrefix tenant runId).toList <+: text)
    (starts' : (payloadKeyPrefix tenant' runId').toList <+: text) :
    tenant = tenant' ∧ runId = runId' := by
  obtain ⟨rest, eq⟩ := starts
  obtain ⟨rest', eq'⟩ := starts'
  have same := eq.trans eq'.symm
  simp only [toList_payloadKeyPrefix, List.append_assoc, List.cons_append, List.nil_append] at same
  obtain ⟨tenants, same⟩ := Text.mark_append_inj (not_mem_escapeSegment tenant)
    (not_mem_escapeSegment tenant') (List.append_cancel_left same)
  obtain ⟨runs, _⟩ := Text.mark_append_inj (not_mem_escapeSegment runId)
    (not_mem_escapeSegment runId') same
  exact ⟨escapeSegment_inj (String.toList_inj.mp tenants),
    escapeSegment_inj (String.toList_inj.mp runs)⟩

theorem ownsPayloadKey_startsWith (owns : ownsPayloadKey key tenant runId = true) :
    (payloadKeyPrefix tenant runId).toList <+: key.toList := by
  unfold ownsPayloadKey at owns
  rw [Bool.and_eq_true] at owns
  exact startsWith_iff.mp owns.1

theorem owner_unique (owns : ownsPayloadKey key tenant runId = true)
    (owns' : ownsPayloadKey key tenant' runId' = true) : tenant = tenant' ∧ runId = runId' :=
  payloadKeyPrefix_inj (ownsPayloadKey_startsWith owns) (ownsPayloadKey_startsWith owns')

/-- A text that goes on after the prefix of a run is a key of the run's. -/
theorem ownsPayloadKey_append {rest : String} (more : rest ≠ "") :
    ownsPayloadKey (payloadKeyPrefix tenant runId ++ rest) tenant runId = true := by
  have longer : 0 < (Text.utf16 rest).length := Text.utf16_length_pos more
  rw [ownsPayloadKey, Bool.and_eq_true, decide_eq_true_eq, Text.utf16_append, List.length_append]
  refine ⟨startsWith_iff.mpr ?_, by omega⟩
  rw [String.toList_append]
  exact List.prefix_append _ _

/-! ## Minted keys -/

/-- The key was minted for a payload of the run. -/
def MintedFor {ν : Type} (numbers : NumberText ν) (sha256 : String → String)
    (key tenant runId : String) : Prop :=
  ∃ emitter field value, offloadKey numbers sha256 tenant runId emitter field value = .ok key

theorem owns_of_mintedFor {ν : Type} {numbers : NumberText ν} {sha256 : String → String}
    (minted : MintedFor numbers sha256 key tenant runId) :
    ownsPayloadKey key tenant runId = true := by
  obtain ⟨emitter, field, value, eq⟩ := minted
  unfold offloadKey at eq
  rcases digested : contentDigest numbers sha256 value with refusal | digest
  · rw [digested] at eq
    cases eq
  · rw [digested] at eq
    obtain rfl := Except.ok.inj eq
    have more : emitter ++ "/" ++ digest ++ "." ++ field ≠ "" := by simp
    simpa only [String.append_assoc] using ownsPayloadKey_append more

/-- A key is minted for every value but `undefined`. -/
theorem exists_offloadKey {ν : Type} (numbers : NumberText ν) (sha256 : String → String)
    (tenant runId emitter field : String) {value : Doc ν} (isDefined : value.isUndefined = false) :
    ∃ key, offloadKey numbers sha256 tenant runId emitter field value = .ok key ∧
      ownsPayloadKey key tenant runId = true := by
  have minted : ∃ key, offloadKey numbers sha256 tenant runId emitter field value = .ok key := by
    simp only [offloadKey, contentDigest, Provenance.canonicalText, isDefined]
    exact ⟨_, rfl⟩
  obtain ⟨key, eq⟩ := minted
  exact ⟨key, eq, owns_of_mintedFor ⟨emitter, field, value, eq⟩⟩

end Everdict.Trace
