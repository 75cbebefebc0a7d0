import Everdict.Provenance.ContentDigest
import Everdict.Scoring.Revision

/-!
# The identity of a score plane

The digest of a plane lists each case's judgments in the order of their metric and grader,
so that the order in which rows are stored does not move it.  Rows of one metric and grader
keep their stored order: where two of them judge differently the digest does move
(`plane_identity_iff`).
-/

namespace Everdict.Scoring

open Documents
open Provenance (canonicalize canonicalize_eq_iff)
open Sorting (sortBy)
open Submission (UnmeasuredReason)

/-! ## The document of a plane -/

def optionalMember {α : Type} (name : String) (write : α → Doc ℚ) (value : Option α) :
    List (String × Doc ℚ) :=
  (value.map fun value => (name, write value)).toList

/-- What `judgmentOf` returns, as it is written. -/
def Judgment.document : Judgment → Doc ℚ
  | .measured graderId metric value pass label =>
      .object ([("graderId", .text graderId), ("metric", .text metric),
          ("status", .text "measured"), ("value", value.elim .null .number)]
        ++ optionalMember "pass" .bool pass ++ optionalMember "label" .text label)
  | .unmeasured graderId metric reason =>
      .object [("graderId", .text graderId), ("metric", .text metric),
        ("status", .text "unmeasured"), ("reason", .text reason.name)]
  | .invalid graderId metric =>
      .object [("graderId", .text graderId), ("metric", .text metric),
        ("status", .text "invalid"), ("reason", .text "contract_violation")]

def caseMember (entry : String × List Judgment) : String × Doc ℚ :=
  (entry.1, .array (entry.2.map Judgment.document))

def planeDocument (plane : List (String × List Judgment)) : Doc ℚ := .object (plane.map caseMember)

section Digest

variable (runtime : Runtime) (numbers : NumberText ℚ) (sha256 : String → String)

/-- The runtime whose digest of a plane is `contentDigest`. -/
def Runtime.hashing : Runtime :=
  { runtime with
    planeDigest := fun plane => "sha256:" ++ sha256 (canonicalize numbers (planeDocument plane)) }

/-- An object is never refused. -/
theorem contentDigest_plane (plane : List (String × List Judgment)) :
    Provenance.contentDigest numbers sha256 (planeDocument plane) =
      .ok ((runtime.hashing numbers sha256).planeDigest plane) :=
  rfl

end Digest

/-! ## Judgments and their documents -/

theorem UnmeasuredReason.name_inj {reason reason' : UnmeasuredReason}
    (eq : reason.name = reason'.name) : reason = reason' := by
  have read := congrArg UnmeasuredReason.ofName eq
  rwa [UnmeasuredReason.ofName_name, UnmeasuredReason.ofName_name, Option.some.injEq] at read

theorem Judgment.document_defined (judgment : Judgment) :
    judgment.document.isUndefined = false := by
  cases judgment <;> rfl

theorem Judgment.document_serializable (judgment : Judgment) :
    judgment.document.serializable = true := by
  cases judgment with
  | measured graderId metric value pass label =>
      cases value <;> cases pass <;> cases label <;>
        simp [Judgment.document, optionalMember, Doc.serializable, serializableMembers]
  | _ => simp [Judgment.document, Doc.serializable, serializableMembers]

/-- What an object says under a name. -/
def field (name : String) : Doc ℚ → Option (Meaning ℚ)
  | .object members => Meaning.dropInMember (memberMeaning members name)
  | _ => none

theorem field_congr {members members' : List (String × Doc ℚ)}
    (eq : (Doc.object members).meaning.dropUndefined =
      (Doc.object members').meaning.dropUndefined) (name : String) :
    field name (.object members) = field name (.object members') := by
  simp only [Doc.meaning, Meaning.dropUndefined, Meaning.object.injEq] at eq
  exact congrFun eq name

theorem memberMeaning_append (members members' : List (String × Doc ℚ)) (name : String) :
    memberMeaning (members ++ members') name =
      (memberMeaning members name).or (memberMeaning members' name) := by
  induction members with
  | nil => rfl
  | cons m rest ih =>
      rw [List.cons_append, memberMeaning, memberMeaning, ih]
      split_ifs <;> rfl

theorem memberMeaning_optional {α : Type} (name name' : String) (write : α → Doc ℚ)
    (value : Option α) :
    memberMeaning (optionalMember name write value) name' =
      if name' = name then value.map fun value => (write value).meaning else none := by
  rcases value with _ | value
  · simp [optionalMember, memberMeaning]
  · simp [optionalMember, memberMeaning]

section Fields

variable (graderId metric : String) (value : Option ℚ) (pass : Option Bool)
  (label : Option String)

theorem field_value :
    field "value" (Judgment.measured graderId metric value pass label).document =
      some (value.elim .null .number) := by
  rcases value with _ | value <;>
    simp [field, Judgment.document, memberMeaning, Meaning.dropInMember, Doc.meaning,
      Meaning.dropUndefined, Meaning.isUndefined]

theorem field_pass :
    field "pass" (Judgment.measured graderId metric value pass label).document =
      pass.map Meaning.bool := by
  simp only [field, Judgment.document, memberMeaning_append, memberMeaning_optional]
  rcases pass with _ | pass <;>
    simp [memberMeaning, Meaning.dropInMember, Doc.meaning, Meaning.dropUndefined,
      Meaning.isUndefined]

theorem field_label :
    field "label" (Judgment.measured graderId metric value pass label).document =
      label.map Meaning.text := by
  simp only [field, Judgment.document, memberMeaning_append, memberMeaning_optional]
  rcases label with _ | label <;>
    simp [memberMeaning, Meaning.dropInMember, Doc.meaning, Meaning.dropUndefined,
      Meaning.isUndefined]

end Fields

def Judgment.graderId : Judgment → String
  | .measured graderId .. => graderId
  | .unmeasured graderId .. => graderId
  | .invalid graderId _ => graderId

def Judgment.metric : Judgment → String
  | .measured _ metric .. => metric
  | .unmeasured _ metric _ => metric
  | .invalid _ metric => metric

def Judgment.status : Judgment → String
  | .measured .. => "measured"
  | .unmeasured .. => "unmeasured"
  | .invalid .. => "invalid"

theorem field_identity (j : Judgment) :
    field "graderId" j.document = some (.text j.graderId) ∧
      field "metric" j.document = some (.text j.metric) ∧
      field "status" j.document = some (.text j.status) := by
  cases j <;>
    simp [field, Judgment.document, Judgment.graderId, Judgment.metric, Judgment.status,
      memberMeaning, Meaning.dropInMember, Doc.meaning, Meaning.dropUndefined,
      Meaning.isUndefined]

/-- A judgment is known from its document. -/
theorem Judgment.document_inj {j j' : Judgment}
    (eq : j.document.meaning.dropUndefined = j'.document.meaning.dropUndefined) : j = j' := by
  have same : ∀ name, field name j.document = field name j'.document := by
    cases j <;> cases j' <;> exact field_congr eq
  obtain ⟨grader, named, status⟩ := field_identity j
  obtain ⟨grader', named', status'⟩ := field_identity j'
  rw [same, grader', Option.some.injEq, Meaning.text.injEq] at grader
  rw [same, named', Option.some.injEq, Meaning.text.injEq] at named
  rw [same, status', Option.some.injEq, Meaning.text.injEq] at status
  cases j with
  | measured graderId metric value pass label =>
      cases j' with
      | measured graderId' metric' value' pass' label' =>
          have values := same "value"
          have passes := same "pass"
          have labels := same "label"
          rw [field_value, field_value, Option.some.injEq] at values
          rw [field_pass, field_pass] at passes
          rw [field_label, field_label] at labels
          have graders : graderId' = graderId := grader
          have metrics : metric' = metric := named
          have equal : value = value' := by
            rcases value with _ | value <;> rcases value' with _ | value' <;> cases values <;> rfl
          have equal' : pass = pass' :=
            Option.map_injective (fun _ _ => Meaning.bool.inj) passes
          have equal'' : label = label' :=
            Option.map_injective (fun _ _ => Meaning.text.inj) labels
          rw [graders, metrics, equal, equal', equal'']
      | _ => simp [Judgment.status] at status
  | unmeasured graderId metric reason =>
      cases j' with
      | unmeasured graderId' metric' reason' =>
          have reasons := same "reason"
          simp [field, Judgment.document, memberMeaning, Meaning.dropInMember, Doc.meaning,
            Meaning.dropUndefined, Meaning.isUndefined] at reasons
          have graders : graderId' = graderId := grader
          have metrics : metric' = metric := named
          rw [graders, metrics, UnmeasuredReason.name_inj reasons]
      | _ => simp [Judgment.status] at status
  | invalid graderId metric =>
      cases j' with
      | invalid graderId' metric' =>
          have graders : graderId' = graderId := grader
          have metrics : metric' = metric := named
          rw [graders, metrics]
      | _ => simp [Judgment.status] at status

/-! ## The document and the plane -/

theorem planeDocument_serializable {plane : List (String × List Judgment)}
    (distinct : (plane.map Prod.fst).Nodup) : (planeDocument plane).serializable = true := by
  rw [planeDocument, Doc.serializable, Bool.and_eq_true, decide_eq_true_eq, List.map_map,
    serializableMembers_iff]
  refine ⟨distinct, ?_⟩
  intro _ isIn
  obtain ⟨entry, -, rfl⟩ := List.mem_map.mp isIn
  change (Doc.array (entry.2.map Judgment.document)).serializable = true
  rw [Doc.serializable, serializableItems_iff]
  intro _ isIn
  obtain ⟨judgment, -, rfl⟩ := List.mem_map.mp isIn
  exact ⟨judgment.document_defined, judgment.document_serializable⟩

theorem judgments_of_document {judgments judgments' : List Judgment}
    (eq : (Doc.array (judgments.map Judgment.document)).meaning.dropUndefined =
      (Doc.array (judgments'.map Judgment.document)).meaning.dropUndefined) :
    judgments = judgments' := by
  simp only [Doc.meaning, Meaning.dropUndefined, Meaning.dropInItems_eq, itemMeanings_eq,
    List.map_map, Meaning.array.injEq] at eq
  exact List.map_injective_iff.mpr (fun _ _ => Judgment.document_inj) eq

theorem distinct_cases {plane : List (String × List Judgment)}
    (distinct : (plane.map Prod.fst).Nodup) : Distinct (plane.map caseMember) := by
  rwa [Distinct, List.map_map]

/-- Planes of one document have the same entries. -/
theorem entries_of_document {plane plane' : List (String × List Judgment)}
    (distinct : (plane.map Prod.fst).Nodup) (distinct' : (plane'.map Prod.fst).Nodup)
    (eq : (planeDocument plane).meaning.dropUndefined =
      (planeDocument plane').meaning.dropUndefined) {entry : String × List Judgment}
    (isIn : entry ∈ plane) : entry ∈ plane' := by
  rw [planeDocument, planeDocument,
    Provenance.dropUndefined_object_iff (distinct_cases distinct) (distinct_cases distinct')] at eq
  have written : caseMember entry ∈ Provenance.ordered (plane.map caseMember) :=
    Provenance.mem_ordered.mpr ⟨List.mem_map.mpr ⟨entry, isIn, rfl⟩, rfl⟩
  obtain ⟨_, mem, same⟩ := List.mem_map.mp ((eq _).mp (List.mem_map.mpr ⟨_, written, rfl⟩))
  obtain ⟨entry', isIn', rfl⟩ := List.mem_map.mp (Provenance.mem_ordered.mp mem).1
  obtain ⟨keys, judgments⟩ := Prod.mk.inj same
  have equal : entry' = entry := Prod.ext keys (judgments_of_document judgments)
  rwa [← equal]

/-! ## Rearrangements -/

/-- The order of the judgments in a digest. -/
def Runtime.judgmentKey (runtime : Runtime) (judgment : Judgment) : List Nat ×ₗ List Nat :=
  toLex (runtime.collation judgment.metric, runtime.collation judgment.graderId)

/-- The same results, stored in another order, and so the rows of each. -/
def Rearranged (results results' : List CaseResult) : Prop :=
  ∃ middle, results.Perm middle ∧
    List.Forall₂ (fun r r' => r' = { r with scores := r'.scores } ∧ r.scores.Perm r'.scores)
      middle results'

/-- The same cases, and of each the same judgments. -/
def SameContent (results results' : List CaseResult) : Prop :=
  (results.map CaseResult.key).Perm (results'.map CaseResult.key) ∧
    ∀ r ∈ results, ∀ r' ∈ results', r.key = r'.key →
      (r.scores.map judgmentOf).Perm (r'.scores.map judgmentOf)

section Identity

variable (runtime : Runtime)

/-- Rows of one case that compare equal judge the same. -/
def TiesAgree (results : List CaseResult) : Prop :=
  ∀ r ∈ results, ∀ a ∈ r.scores, ∀ b ∈ r.scores,
    runtime.rowKey a = runtime.rowKey b → judgmentOf a = judgmentOf b

theorem judgmentKey_row (row : Submission.ScoreRow) :
    runtime.judgmentKey (judgmentOf row) = runtime.rowKey row := by
  cases row <;> rfl

theorem sorted_judgments (rows : List Submission.ScoreRow) :
    (sortBy runtime.rowKey rows).map judgmentOf =
      sortBy runtime.judgmentKey (rows.map judgmentOf) :=
  (Sorting.sortBy_map _ _ judgmentOf (judgmentKey_row runtime) rows).symm

/-- The entry of a result in its plane. -/
def entryOf (result : CaseResult) : String × List Judgment :=
  (result.key, sortBy runtime.judgmentKey (result.scores.map judgmentOf))

variable {results results' : List CaseResult}

theorem scorePlane_entries (distinct : (results.map CaseResult.key).Nodup) :
    (scorePlane runtime results).entries = results.map (entryOf runtime) := by
  have entries : results.map (fun result =>
      (result.key, (sortBy runtime.rowKey result.scores).map judgmentOf)) =
        results.map (entryOf runtime) :=
    List.map_congr_left fun r _ => by rw [entryOf, sorted_judgments]
  rw [scorePlane, entries, Table.entries_ofEntries]
  rwa [List.map_map]

theorem keys_rearranged (rearranged : Rearranged results results') :
    (results.map CaseResult.key).Perm (results'.map CaseResult.key) := by
  obtain ⟨middle, perm, each⟩ := rearranged
  have keys : middle.map CaseResult.key = results'.map CaseResult.key :=
    Provenance.map_eq_of_forall₂ (each.imp fun r r' same => by rw [same.1]; rfl)
  rw [← keys]
  exact perm.map _

/-- Where ties agree, the entries of a plane do not depend on how it is stored. -/
theorem entries_rearranged (agree : TiesAgree runtime results)
    (rearranged : Rearranged results results') :
    (results'.map (entryOf runtime)).Perm (results.map (entryOf runtime)) := by
  obtain ⟨middle, perm, each⟩ := rearranged
  have agree : ∀ r ∈ middle, ∀ a ∈ r.scores, ∀ b ∈ r.scores,
      runtime.rowKey a = runtime.rowKey b → judgmentOf a = judgmentOf b :=
    fun r isIn => agree r (perm.mem_iff.mpr isIn)
  have entries : middle.map (entryOf runtime) = results'.map (entryOf runtime) := by
    refine Provenance.map_eq_of_forall₂ (((List.forall₂_and_left _ _).mpr ⟨agree, each⟩).imp ?_)
    rintro r r' ⟨ties, same, rows⟩
    have ordered : sortBy runtime.judgmentKey (r'.scores.map judgmentOf) =
        sortBy runtime.judgmentKey (r.scores.map judgmentOf) := by
      refine Sorting.sortBy_eq_of_ties ?_ (rows.symm.map judgmentOf)
      intro _ isIn _ isIn' tie
      obtain ⟨a, rowA, rfl⟩ := List.mem_map.mp isIn
      obtain ⟨b, rowB, rfl⟩ := List.mem_map.mp isIn'
      rw [judgmentKey_row, judgmentKey_row] at tie
      exact ties a rowA b rowB tie
    rw [entryOf, entryOf, ordered, same]
    rfl
  rw [← entries]
  exact (perm.map _).symm

end Identity

section Hash

variable (runtime : Runtime) (numbers : NumberText ℚ) {sha256 : String → String}
  {results results' : List CaseResult}

/-- The entries of a plane in the order of their keys. -/
def orderedEntries (results : List CaseResult) : List (String × List Judgment) :=
  sortBy (fun entry => Text.utf16 entry.1) (results.map (entryOf runtime))

theorem scorePlaneDigest_eq (distinct : (results.map CaseResult.key).Nodup) :
    scorePlaneDigest (runtime.hashing numbers sha256) results =
      "sha256:" ++
        sha256 (canonicalize numbers (planeDocument (orderedEntries runtime results))) := by
  have entries : (scorePlane (runtime.hashing numbers sha256) results).entries =
      results.map (entryOf runtime) :=
    scorePlane_entries (runtime.hashing numbers sha256) distinct
  rw [scorePlaneDigest, entries]
  rfl

theorem units_nodup (distinct : (results.map CaseResult.key).Nodup) :
    ((results.map (entryOf runtime)).map fun entry => Text.utf16 entry.1).Nodup := by
  have units := distinct.map fun _ _ => Text.utf16_inj
  rwa [List.map_map] at units ⊢

theorem orderedEntries_nodup (distinct : (results.map CaseResult.key).Nodup) :
    ((orderedEntries runtime results).map Prod.fst).Nodup := by
  have perm := (Sorting.sortBy_perm (fun entry : String × List Judgment => Text.utf16 entry.1)
    (results.map (entryOf runtime))).map Prod.fst
  rw [orderedEntries, perm.nodup_iff, List.map_map]
  exact distinct

/-- The plane as a document. -/
def planeOf (distinct : (results.map CaseResult.key).Nodup) : Document ℚ where
  doc := planeDocument (orderedEntries runtime results)
  defined := rfl
  serializable := planeDocument_serializable (orderedEntries_nodup runtime distinct)

/-- Planes of one digest have the same entries. -/
theorem entries_of_digest (injective : Function.Injective sha256)
    (distinct : (results.map CaseResult.key).Nodup)
    (distinct' : (results'.map CaseResult.key).Nodup)
    (eq : scorePlaneDigest (runtime.hashing numbers sha256) results =
      scorePlaneDigest (runtime.hashing numbers sha256) results')
    {r : CaseResult} (isIn : r ∈ results) :
    ∃ r' ∈ results', entryOf runtime r' = entryOf runtime r := by
  rw [scorePlaneDigest_eq runtime numbers distinct, scorePlaneDigest_eq runtime numbers distinct']
    at eq
  have texts := injective ((String.append_right_inj _).mp eq)
  have meanings := (canonicalize_eq_iff numbers (planeOf runtime distinct)
    (planeOf runtime distinct')).mp texts
  have entry : entryOf runtime r ∈ orderedEntries runtime results :=
    Sorting.mem_sortBy.mpr (List.mem_map.mpr ⟨r, isIn, rfl⟩)
  have entry' := entries_of_document (orderedEntries_nodup runtime distinct)
    (orderedEntries_nodup runtime distinct') meanings entry
  obtain ⟨r', isIn', same⟩ := List.mem_map.mp (Sorting.mem_sortBy.mp entry')
  exact ⟨r', isIn', same⟩

theorem sameContent_of_digest (injective : Function.Injective sha256)
    (distinct : (results.map CaseResult.key).Nodup)
    (distinct' : (results'.map CaseResult.key).Nodup)
    (eq : scorePlaneDigest (runtime.hashing numbers sha256) results =
      scorePlaneDigest (runtime.hashing numbers sha256) results') :
    SameContent results results' := by
  have found := fun {r} => entries_of_digest runtime numbers injective distinct distinct' eq
    (r := r)
  have found' := fun {r} => entries_of_digest runtime numbers injective distinct' distinct eq.symm
    (r := r)
  constructor
  · rw [List.perm_ext_iff_of_nodup distinct distinct']
    intro key
    constructor
    · intro isIn
      obtain ⟨r, mem, rfl⟩ := List.mem_map.mp isIn
      obtain ⟨r', isIn', same⟩ := found mem
      exact List.mem_map.mpr ⟨r', isIn', (Prod.mk.inj same).1⟩
    · intro isIn
      obtain ⟨r, mem, rfl⟩ := List.mem_map.mp isIn
      obtain ⟨r', isIn', same⟩ := found' mem
      exact List.mem_map.mpr ⟨r', isIn', (Prod.mk.inj same).1⟩
  · intro r isIn r' isIn' keys
    obtain ⟨r'', isIn'', same⟩ := found isIn
    obtain ⟨key, judgments⟩ := Prod.mk.inj same
    have equal : r'' = r' :=
      List.inj_on_of_nodup_map distinct' isIn'' isIn' (key.trans keys)
    rw [equal] at judgments
    refine (Sorting.sortBy_perm runtime.judgmentKey _).symm.trans ?_
    rw [← judgments]
    exact Sorting.sortBy_perm runtime.judgmentKey _

/-- Bring a row of a result to the front. -/
theorem exists_front {r : CaseResult} (isIn : r ∈ results) {a : Submission.ScoreRow}
    (row : a ∈ r.scores) :
    ∃ rows others, Rearranged results ({ r with scores := a :: rows } :: others) := by
  obtain ⟨front, back, rfl⟩ := List.append_of_mem isIn
  obtain ⟨before, after, rows⟩ := List.append_of_mem row
  refine ⟨before ++ after, front ++ back, r :: (front ++ back), List.perm_middle, ?_⟩
  refine .cons ⟨rfl, ?_⟩ (List.forall₂_same.mpr fun _ _ => ⟨rfl, .rfl⟩)
  rw [rows]
  exact List.perm_middle

theorem tiesAgree_of_stable (injective : Function.Injective sha256)
    (distinct : (results.map CaseResult.key).Nodup)
    (stable : ∀ results', Rearranged results results' →
      scorePlaneDigest (runtime.hashing numbers sha256) results' =
        scorePlaneDigest (runtime.hashing numbers sha256) results) :
    TiesAgree runtime results := by
  intro r isIn a rowA b rowB tie
  obtain ⟨rows, others, rearranged⟩ := exists_front isIn rowA
  obtain ⟨rows', others', rearranged'⟩ := exists_front isIn rowB
  have nodup := (keys_rearranged rearranged).nodup_iff.mp distinct
  have nodup' := (keys_rearranged rearranged').nodup_iff.mp distinct
  have eq := (stable _ rearranged).trans (stable _ rearranged').symm
  obtain ⟨r', isIn', same⟩ := entries_of_digest runtime numbers injective nodup nodup' eq
    List.mem_cons_self
  obtain ⟨key, judgments⟩ := Prod.mk.inj same
  -- the other plane has one result under this key
  have equal : r' = { r with scores := b :: rows' } :=
    List.inj_on_of_nodup_map nodup' isIn' List.mem_cons_self key
  rw [equal] at judgments
  simp only [List.map_cons] at judgments
  have tie : runtime.judgmentKey (judgmentOf b) = runtime.judgmentKey (judgmentOf a) := by
    rw [judgmentKey_row, judgmentKey_row, tie]
  exact (Sorting.eq_of_sortBy_cons tie judgments).symm

/-- The digest of a plane is that of its content exactly when, in each case, rows that
compare equal judge the same. -/
theorem plane_identity_iff (injective : Function.Injective sha256)
    (distinct : (results.map CaseResult.key).Nodup) :
    ((∀ results', Rearranged results results' →
        scorePlaneDigest (runtime.hashing numbers sha256) results' =
          scorePlaneDigest (runtime.hashing numbers sha256) results) ∧
      ∀ results', (results'.map CaseResult.key).Nodup →
        scorePlaneDigest (runtime.hashing numbers sha256) results' =
            scorePlaneDigest (runtime.hashing numbers sha256) results →
          SameContent results results') ↔ TiesAgree runtime results := by
  constructor
  · rintro ⟨stable, -⟩
    exact tiesAgree_of_stable runtime numbers injective distinct stable
  · intro agree
    constructor
    · intro results' rearranged
      have distinct' := (keys_rearranged rearranged).nodup_iff.mp distinct
      have entries : orderedEntries runtime results' = orderedEntries runtime results :=
        Sorting.sortBy_eq_of_perm (units_nodup runtime distinct)
          (entries_rearranged runtime agree rearranged)
      rw [scorePlaneDigest_eq runtime numbers distinct,
        scorePlaneDigest_eq runtime numbers distinct', entries]
    · intro results' distinct' eq
      exact sameContent_of_digest runtime numbers injective distinct distinct' eq.symm

end Hash

/-! ## Two rows of one metric -/

def plainRuntime : Runtime where
  collation := Text.utf16
  planeDigest _ := ""
  receiptsDigest _ := ""
  scoresDigest _ := ""

def gradedRow (metric : String) (value : ℚ) : Submission.ScoreRow :=
  .measured { graderId := "tests-pass", metric, value := .finite value }

def twoMetrics : List CaseResult :=
  [⟨"c1", none, [gradedRow "steps" 1, gradedRow "pass" 0], none⟩]

def oneMetric : List CaseResult :=
  [⟨"c1", none, [gradedRow "pass" 1, gradedRow "pass" 0], none⟩]

/-- Rows of different metrics are in one order only. -/
theorem plane_identity_two_metrics :
    (∀ results', Rearranged twoMetrics results' →
        scorePlaneDigest (plainRuntime.hashing fractions id) results' =
          scorePlaneDigest (plainRuntime.hashing fractions id) twoMetrics) ∧
      ∀ results', (results'.map CaseResult.key).Nodup →
        scorePlaneDigest (plainRuntime.hashing fractions id) results' =
            scorePlaneDigest (plainRuntime.hashing fractions id) twoMetrics →
          SameContent twoMetrics results' := by
  refine (plane_identity_iff plainRuntime fractions Function.injective_id
    (by simp [twoMetrics])).mpr ?_
  have apart :
      plainRuntime.rowKey (gradedRow "steps" 1) ≠ plainRuntime.rowKey (gradedRow "pass" 0) := by
    decide +kernel
  simp only [twoMetrics, TiesAgree, List.forall_mem_cons, List.not_mem_nil, false_imp_iff,
    implies_true, and_true, apart, apart.symm]

/-- Two rows of one metric and grader, in either order. -/
theorem stored_order_counts :
    ¬ ∀ results : List CaseResult, (results.map CaseResult.key).Nodup →
      ∀ results', Rearranged results results' →
        scorePlaneDigest (plainRuntime.hashing fractions id) results' =
          scorePlaneDigest (plainRuntime.hashing fractions id) results := by
  intro claimed
  have distinct : (oneMetric.map CaseResult.key).Nodup := by simp [oneMetric]
  have agree := tiesAgree_of_stable plainRuntime fractions Function.injective_id distinct
    (claimed _ distinct)
  have same : judgmentOf (gradedRow "pass" 1) = judgmentOf (gradedRow "pass" 0) :=
    agree _ List.mem_cons_self _ List.mem_cons_self _ (by simp) rfl
  revert same
  decide +kernel

end Everdict.Scoring
