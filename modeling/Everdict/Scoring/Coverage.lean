import Everdict.Scoring.Revision
import Mathlib.Data.Finset.Card

/-!
# What a complete vector covers

A revision calls its receipts complete by their number.  A receipt that repeats another's
judgment, or names one that is not on the plane, fills that number without covering
anything (`surplus`); the vector derived from a plane holds none.
-/

/-! ## Coverage by counting -/

namespace Counting

variable {α : Type*} [DecidableEq α]

/-- The held entries that cover nothing: not owed, or held once more further on. -/
def surplus (owed : List α) : List α → Nat
  | [] => 0
  | a :: held => if a ∈ owed ∧ a ∉ held then surplus owed held else surplus owed held + 1

theorem surplus_add_card (owed held : List α) :
    surplus owed held + (owed.toFinset ∩ held.toFinset).card = held.length := by
  induction held with
  | nil => simp [surplus]
  | cons a held ih =>
      rw [List.toFinset_cons, List.length_cons, surplus]
      by_cases new : a ∈ owed ∧ a ∉ held
      · obtain ⟨isOwed, unheld⟩ := new
        have outside : a ∉ owed.toFinset ∩ held.toFinset := by simp [unheld]
        rw [if_pos ⟨isOwed, unheld⟩, Finset.inter_insert_of_mem (List.mem_toFinset.mpr isOwed),
          Finset.card_insert_of_notMem outside]
        omega
      · have same : owed.toFinset ∩ insert a held.toFinset = owed.toFinset ∩ held.toFinset := by
          ext b
          simp only [Finset.mem_inter, Finset.mem_insert, List.mem_toFinset]
          constructor
          · intro both
            obtain ⟨isOwed, rfl | isHeld⟩ := both
            · exact ⟨isOwed, by_contra fun unheld => new ⟨isOwed, unheld⟩⟩
            · exact ⟨isOwed, isHeld⟩
          · intro both
            exact ⟨both.1, Or.inr both.2⟩
        rw [if_neg new, same]
        omega

/-- Everything owed is held exactly when what is not surplus is as much as is owed. -/
theorem covers_iff {owed held : List α} (once : owed.Nodup) :
    (∀ a ∈ owed, a ∈ held) ↔ owed.length + surplus owed held ≤ held.length := by
  have counted := surplus_add_card owed held
  have size := List.toFinset_card_of_nodup once
  constructor
  · intro covers
    have all : owed.toFinset ∩ held.toFinset = owed.toFinset := by
      apply Finset.inter_eq_left.mpr
      intro a mem
      exact List.mem_toFinset.mpr (covers a (List.mem_toFinset.mp mem))
    rw [all, size] at counted
    omega
  · intro enough a mem
    have all : owed.toFinset ∩ held.toFinset = owed.toFinset := by
      apply Finset.eq_of_subset_of_card_le Finset.inter_subset_left
      omega
    have both : a ∈ owed.toFinset ∩ held.toFinset := by
      rw [all]
      exact List.mem_toFinset.mpr mem
    exact List.mem_toFinset.mp (Finset.mem_inter.mp both).2

end Counting

namespace Everdict.Scoring

open Counting (surplus)
open ScoringStage (JudgmentClaim)
open Sorting (sortBy)
open Submission (ScoreRow)

/-! ## Units -/

theorem judgmentUnit_inj {caseKey caseKey' judgeId judgeId' : String}
    (eq : judgmentUnit caseKey judgeId = judgmentUnit caseKey' judgeId') :
    caseKey = caseKey' ∧ judgeId = judgeId' := by
  have chars := congrArg String.toList eq
  simp only [judgmentUnit, Text.jsonArray, String.intercalate_cons_cons,
    String.intercalate_singleton, String.toList_append, List.append_assoc] at chars
  obtain ⟨rfl, rest⟩ := Text.json_append_inj (List.append_cancel_left chars)
  obtain ⟨rfl, -⟩ := Text.json_append_inj (List.append_cancel_left rest)
  exact ⟨rfl, rfl⟩

variable {results : List CaseResult}

theorem mem_judgmentUnits {unit : String} :
    unit ∈ judgmentUnits results ↔ ∃ result ∈ results, ∃ row ∈ result.scores, ∃ judgeId,
      judgeFamilyOf row = some judgeId ∧ judgmentUnit result.key judgeId = unit := by
  simp only [judgmentUnits, List.mem_dedup, List.mem_flatMap, CaseResult.units, List.mem_map,
    List.mem_filterMap]
  constructor
  · intro found
    obtain ⟨result, mem, judgeId, ⟨row, on, family⟩, eq⟩ := found
    exact ⟨result, mem, row, on, judgeId, family, eq⟩
  · intro found
    obtain ⟨result, mem, row, on, judgeId, family, eq⟩ := found
    exact ⟨result, mem, judgeId, ⟨row, on, family⟩, eq⟩

/-- For every case on the plane and every judge family with a row on it there is a receipt
that names the case's key and the judge. -/
def Covers (results : List CaseResult) (receipts : List JudgmentReceipt) : Prop :=
  ∀ result ∈ results, ∀ row ∈ result.scores, ∀ judgeId, judgeFamilyOf row = some judgeId →
    ∃ receipt ∈ receipts, encodeCaseKey receipt.ref.case = result.key ∧
      receipt.ref.judgeId = judgeId

variable {receipts : List JudgmentReceipt}

theorem covers_iff_units :
    Covers results receipts ↔
      ∀ unit ∈ judgmentUnits results, unit ∈ receipts.map JudgmentReceipt.unit := by
  constructor
  · intro covers unit owed
    obtain ⟨result, mem, row, on, judgeId, family, rfl⟩ := mem_judgmentUnits.mp owed
    obtain ⟨receipt, held, key, judge⟩ := covers result mem row on judgeId family
    refine List.mem_map.mpr ⟨receipt, held, ?_⟩
    rw [JudgmentReceipt.unit, key, judge]
  · intro covers result mem row on judgeId family
    have owed := mem_judgmentUnits.mpr ⟨result, mem, row, on, judgeId, family, rfl⟩
    obtain ⟨receipt, held, eq⟩ := List.mem_map.mp (covers _ owed)
    exact ⟨receipt, held, judgmentUnit_inj eq⟩

/-- A vector short of the count, or one with no surplus in the way. -/
def Unpadded (results : List CaseResult) (receipts : List JudgmentReceipt) : Prop :=
  receipts.length < (judgmentUnits results).length ∨
    (judgmentUnits results).length
      + surplus (judgmentUnits results) (receipts.map JudgmentReceipt.unit) ≤ receipts.length

theorem complete_covers_iff :
    (expectedJudgmentUnits results ≤ receipts.length → Covers results receipts) ↔
      Unpadded results receipts := by
  have once : (judgmentUnits results).Nodup := List.nodup_dedup _
  rw [covers_iff_units, Counting.covers_iff once, List.length_map]
  unfold expectedJudgmentUnits Unpadded
  constructor
  · intro covers
    rcases Nat.lt_or_ge receipts.length (judgmentUnits results).length with short | enough
    · exact Or.inl short
    · exact Or.inr (covers enough)
  · intro unpadded enough
    rcases unpadded with short | covers
    · exact absurd enough (Nat.not_le.mpr short)
    · exact covers

variable {runtime : Runtime}

/-- A revision that states complete provenance holds a vector that covers the plane. -/
def StatesCoverage (runtime : Runtime) (previous : Option (List ScoringRevision))
    (input : ScoringPassInput) : Prop :=
  ∀ revision digest expected recorded,
    (appendScoringRevision runtime previous input).getLast? = some revision →
    revision.judgmentProvenance = .recorded digest expected recorded true →
    ∃ vector, revision.judgments = some vector ∧ Covers input.results vector

theorem covers_orderedReceipts :
    Covers results (orderedReceipts runtime receipts) ↔ Covers results receipts := by
  unfold Covers orderedReceipts
  simp only [Sorting.mem_sortBy]

theorem statesCoverage_iff {previous : Option (List ScoringRevision)} {input : ScoringPassInput} :
    StatesCoverage runtime previous input ↔
      ∀ receipts, input.judgments = some receipts → Unpadded input.results receipts := by
  unfold StatesCoverage appendScoringRevision
  simp only [List.getLast?_append, List.getLast?_singleton, Option.some_or, Option.some.injEq]
  constructor
  · intro states receipts given
    rw [← complete_covers_iff]
    intro enough
    have stated : provenanceOf runtime input =
        .recorded (judgmentReceiptSetDigest runtime receipts)
          (expectedJudgmentUnits input.results) receipts.length true := by
      simp only [provenanceOf, given, enough, decide_true]
    obtain ⟨vector, held, covers⟩ := states _ _ _ _ rfl stated
    rw [given] at held
    obtain rfl := Option.some.inj held
    exact covers_orderedReceipts.mp covers
  · intro unpadded revision digest expected recorded last provenance
    subst last
    rcases given : input.judgments with _ | receipts
    · simp [provenanceOf, given] at provenance
    · simp only [provenanceOf, given, JudgmentProvenance.recorded.injEq, decide_eq_true_eq]
        at provenance
      refine ⟨orderedReceipts runtime receipts, rfl, covers_orderedReceipts.mpr ?_⟩
      exact complete_covers_iff.mpr (unpadded receipts given) provenance.2.2.2

/-! ## The vector of a plane -/

theorem mapM_eq_some {α β : Type*} {f : α → Option β} {xs : List α} {ys : List β} :
    xs.mapM f = some ys ↔ List.Forall₂ (fun x y => f x = some y) xs ys := by
  induction xs generalizing ys with
  | nil =>
      rw [List.mapM_nil, List.forall₂_nil_left_iff]
      exact ⟨fun eq => (Option.some.inj eq).symm, fun eq => congrArg some eq.symm⟩
  | cons x xs ih =>
      rw [List.mapM_cons, List.forall₂_cons_left_iff]
      rcases head : f x with _ | y
      · simp
      · rcases tail : xs.mapM f with _ | zs
        · have none : ∀ zs, ¬ List.Forall₂ (fun x y => f x = some y) xs zs := by
            intro zs all
            rw [← ih, tail] at all
            cases all
          simp [none]
        · have all := ih.mp tail
          have only : ∀ zs', List.Forall₂ (fun x y => f x = some y) xs zs' ↔ zs' = zs := by
            intro zs'
            rw [← ih, tail]
            exact ⟨fun eq => (Option.some.inj eq).symm, fun eq => congrArg some eq.symm⟩
          simp [only, eq_comm]

theorem mapM_isSome {α β : Type*} {f : α → Option β} {xs : List α} :
    (xs.mapM f).isSome ↔ ∀ x ∈ xs, (f x).isSome := by
  induction xs with
  | nil => simp
  | cons x xs ih =>
      rw [List.mapM_cons, List.forall_mem_cons, ← ih]
      rcases f x with _ | y <;> rcases xs.mapM f with _ | ys <;> simp

theorem get_byJudge (scores : List ScoreRow) (judgeId : String) :
    (byJudge scores).get judgeId =
      if scores.any (judgeFamilyOf · = some judgeId) then
        some (scores.filter (judgeFamilyOf · = some judgeId))
      else none := by
  unfold byJudge
  rw [Table.get_group]
  induction scores using List.reverseRecOn with
  | nil => rfl
  | append_singleton scores score ih =>
      rw [List.filterMap_append, List.filter_append, List.foldl_append, ih]
      by_cases own : judgeFamilyOf score = some judgeId
      · rcases some' : scores.any (judgeFamilyOf · = some judgeId) with _ | _
        · have none : scores.filter (judgeFamilyOf · = some judgeId) = [] := by
            rw [List.filter_eq_nil_iff]
            intro row mem hit
            rw [List.any_eq_false] at some'
            exact some' row mem hit
          simp [own, none, List.any_append]
        · simp [own, List.any_append]
      · rcases other : judgeFamilyOf score with _ | judgeId'
        · simp [other, List.any_append]
        · have apart : judgeId' ≠ judgeId := by
            rintro rfl
            exact own other
          simp [other, apart, List.any_append]

theorem mem_byJudge {scores : List ScoreRow} {judgeId : String} :
    judgeId ∈ (byJudge scores).entries.map Prod.fst ↔
      ∃ row ∈ scores, judgeFamilyOf row = some judgeId := by
  rw [Table.mem_keys, get_byJudge]
  split
  · next some' => simpa using some'
  · next none => simpa using none

theorem canonicalJudgmentScores_isSome {scores : List ScoreRow} :
    (canonicalJudgmentScores runtime scores).isSome ↔ ∀ row ∈ scores, row.reread.isSome := by
  unfold canonicalJudgmentScores
  rw [Option.isSome_map, mapM_isSome]

/-- The pairs that the receipts of one result name. -/
def CaseResult.pairs (runtime : Runtime) (result : CaseResult) : List (String × String) :=
  (sortBy (fun judge => runtime.collation judge.1) (byJudge result.scores).entries).map
    fun judge => (result.key, judge.1)

theorem mem_pairs {result : CaseResult} {caseKey judgeId : String} :
    (caseKey, judgeId) ∈ result.pairs runtime ↔
      result.key = caseKey ∧ ∃ row ∈ result.scores, judgeFamilyOf row = some judgeId := by
  rw [← mem_byJudge]
  simp only [CaseResult.pairs, List.mem_map, Sorting.mem_sortBy, Prod.mk.injEq]
  constructor
  · intro found
    obtain ⟨judge, mem, key, id⟩ := found
    exact ⟨key, judge, mem, id⟩
  · intro found
    obtain ⟨key, judge, mem, id⟩ := found
    exact ⟨judge, mem, key, id⟩

theorem nodup_pairs (result : CaseResult) : (result.pairs runtime).Nodup := by
  have sorted := (Sorting.sortBy_perm (fun judge => runtime.collation judge.1)
    (byJudge result.scores).entries).map Prod.fst
  have ids := sorted.nodup_iff.mpr (byJudge result.scores).nodup
  have paired := ids.map (f := fun id => (result.key, id)) fun _ _ same => (Prod.mk.inj same).2
  rwa [List.map_map] at paired

def JudgmentReceipt.pair (receipt : JudgmentReceipt) : String × String :=
  (encodeCaseKey receipt.ref.case, receipt.ref.judgeId)

theorem map_eq_of_forall₂ {α β γ : Type*} {r : α → β → Prop} {g : β → γ} {h : α → γ}
    (agree : ∀ x y, r x y → g y = h x) {xs : List α} {ys : List β} (all : List.Forall₂ r xs ys) :
    ys.map g = xs.map h := by
  induction all with
  | nil => rfl
  | cons head _ ih => rw [List.map_cons, List.map_cons, agree _ _ head, ih]

variable {claimFor : CaseResult → Option JudgmentClaim}

theorem map_pair_receiptsOfResult {passId : String} {result : CaseResult}
    (eq : receiptsOfResult runtime passId claimFor result = some receipts) :
    receipts.map JudgmentReceipt.pair = result.pairs runtime := by
  refine map_eq_of_forall₂ ?_ (mapM_eq_some.mp eq)
  intro judge receipt minted
  unfold receiptOf at minted
  obtain ⟨digest, -, rfl⟩ := Option.map_eq_some_iff.mp minted
  rfl

theorem map_pair_judgmentReceiptsFromPlane {passId : String} {vector : List JudgmentReceipt}
    (eq : judgmentReceiptsFromPlane runtime results passId claimFor = some vector) :
    vector.map JudgmentReceipt.pair = results.flatMap (CaseResult.pairs runtime) := by
  unfold judgmentReceiptsFromPlane at eq
  obtain ⟨vectors, minted, rfl⟩ := Option.map_eq_some_iff.mp eq
  rw [List.map_flatten, List.flatMap_def]
  congr 1
  refine map_eq_of_forall₂ ?_ (mapM_eq_some.mp minted)
  intro result receipts eq
  exact map_pair_receiptsOfResult eq

theorem judgmentReceiptsFromPlane_isSome {passId : String} :
    (judgmentReceiptsFromPlane runtime results passId claimFor).isSome ↔
      ∀ result ∈ results, ∀ row ∈ result.scores, (judgeFamilyOf row).isSome →
        row.reread.isSome := by
  unfold judgmentReceiptsFromPlane receiptsOfResult receiptOf
  simp only [Option.isSome_map, mapM_isSome, Sorting.mem_sortBy, canonicalJudgmentScores_isSome]
  apply forall₂_congr
  intro result _
  constructor
  · intro all row on family
    obtain ⟨judgeId, family⟩ := Option.isSome_iff_exists.mp family
    have found := get_byJudge result.scores judgeId
    rw [if_pos (List.any_eq_true.mpr ⟨row, on, by simpa using family⟩)] at found
    refine all _ (Table.get_eq_some.mp found) row ?_
    exact List.mem_filter.mpr ⟨on, by simpa using family⟩
  · intro all judge held row on
    have found := Table.get_eq_some.mpr held
    rw [get_byJudge] at found
    split at found
    · rw [← Option.some.inj found] at on
      obtain ⟨mem, family⟩ := List.mem_filter.mp on
      have family : judgeFamilyOf row = some judge.1 := by simpa using family
      exact all row mem (by rw [family]; rfl)
    · cases found

/-- The vector derived from a plane holds, for every case and judge family on it, exactly one
receipt that names the case's key and the judge. -/
def DerivesCoverage (runtime : Runtime) (results : List CaseResult) (passId : String)
    (claimFor : CaseResult → Option JudgmentClaim) : Prop :=
  ∃ vector, judgmentReceiptsFromPlane runtime results passId claimFor = some vector ∧
    ∀ result ∈ results, ∀ row ∈ result.scores, ∀ judgeId, judgeFamilyOf row = some judgeId →
      vector.countP (fun receipt =>
        encodeCaseKey receipt.ref.case = result.key ∧ receipt.ref.judgeId = judgeId) = 1

/-- The judges' rows are valid, and no two results of one case key share a judge family. -/
structure Derivable (results : List CaseResult) : Prop where
  valid : ∀ result ∈ results, ∀ row ∈ result.scores, (judgeFamilyOf row).isSome →
    row.reread.isSome
  apart : results.Pairwise fun result result' => result.key = result'.key →
    ∀ row ∈ result.scores, ∀ row' ∈ result'.scores, ∀ judgeId,
      judgeFamilyOf row = some judgeId → judgeFamilyOf row' ≠ some judgeId

theorem pairwise_disjoint_pairs :
    results.Pairwise (fun result result' => List.Disjoint (result.pairs runtime)
      (result'.pairs runtime)) ↔
    results.Pairwise fun result result' => result.key = result'.key →
      ∀ row ∈ result.scores, ∀ row' ∈ result'.scores, ∀ judgeId,
        judgeFamilyOf row = some judgeId → judgeFamilyOf row' ≠ some judgeId := by
  have each : ∀ result result' : CaseResult, List.Disjoint (result.pairs runtime)
      (result'.pairs runtime) ↔ (result.key = result'.key →
        ∀ row ∈ result.scores, ∀ row' ∈ result'.scores, ∀ judgeId,
          judgeFamilyOf row = some judgeId → judgeFamilyOf row' ≠ some judgeId) := by
    intro result result'
    constructor
    · intro disjoint same row on row' on' judgeId family family'
      exact disjoint (mem_pairs.mpr ⟨rfl, row, on, family⟩)
        (mem_pairs.mpr ⟨same.symm, row', on', family'⟩)
    · intro apart pair mem mem'
      obtain ⟨key, row, on, family⟩ := mem_pairs.mp mem
      obtain ⟨key', row', on', family'⟩ := mem_pairs.mp mem'
      exact apart (key.trans key'.symm) row on row' on' _ family family'
  simp only [each]

theorem derivesCoverage_iff {passId : String} :
    DerivesCoverage runtime results passId claimFor ↔ Derivable results := by
  have counted : ∀ vector : List JudgmentReceipt, ∀ caseKey judgeId,
      vector.countP (fun receipt => encodeCaseKey receipt.ref.case = caseKey ∧
        receipt.ref.judgeId = judgeId) =
      (vector.map JudgmentReceipt.pair).count (caseKey, judgeId) := by
    intro vector caseKey judgeId
    rw [List.count_eq_countP, List.countP_map]
    apply List.countP_congr
    intro receipt _
    simp [JudgmentReceipt.pair]
  have once : ∀ pairs : List (String × String), pairs = results.flatMap (CaseResult.pairs runtime) →
      ((∀ result ∈ results, ∀ row ∈ result.scores, ∀ judgeId, judgeFamilyOf row = some judgeId →
        pairs.count (result.key, judgeId) = 1) ↔ pairs.Nodup) := by
    intro pairs eq
    rw [List.nodup_iff_count_eq_one]
    constructor
    · intro all pair mem
      rw [eq] at mem
      obtain ⟨result, on, mem⟩ := List.mem_flatMap.mp mem
      obtain ⟨caseKey, judgeId⟩ := pair
      obtain ⟨rfl, row, held, family⟩ := mem_pairs.mp mem
      exact all result on row held judgeId family
    · intro all result on row held judgeId family
      apply all
      rw [eq]
      exact List.mem_flatMap.mpr ⟨result, on, mem_pairs.mpr ⟨rfl, row, held, family⟩⟩
  have disjoint : (results.flatMap (CaseResult.pairs runtime)).Nodup ↔
      results.Pairwise fun result result' => result.key = result'.key →
        ∀ row ∈ result.scores, ∀ row' ∈ result'.scores, ∀ judgeId,
          judgeFamilyOf row = some judgeId → judgeFamilyOf row' ≠ some judgeId := by
    rw [List.nodup_flatMap]
    refine (and_iff_right fun result _ => nodup_pairs result).trans ?_
    exact pairwise_disjoint_pairs
  constructor
  · intro derives
    obtain ⟨vector, eq, covers⟩ := derives
    refine ⟨judgmentReceiptsFromPlane_isSome.mp (by rw [eq]; rfl), disjoint.mp ?_⟩
    have pairs := map_pair_judgmentReceiptsFromPlane eq
    rw [← pairs, ← once _ pairs]
    intro result on row held judgeId family
    rw [← counted]
    exact covers result on row held judgeId family
  · intro derivable
    obtain ⟨vector, eq⟩ := Option.isSome_iff_exists.mp
      (judgmentReceiptsFromPlane_isSome.mpr derivable.valid)
    have pairs := map_pair_judgmentReceiptsFromPlane eq
    refine ⟨vector, eq, ?_⟩
    intro result on row held judgeId family
    rw [counted]
    refine (once _ pairs).mpr ?_ result on row held judgeId family
    rw [pairs]
    exact disjoint.mpr derivable.apart

/-! ## Completeness and coverage -/

/-- A revision whose provenance states complete coverage covers its plane exactly when no
surplus receipts make up the number, and the vector derived from a plane covers it with one
receipt for each pair exactly when its judge rows are valid and no two results share a pair. -/
theorem provenance_covers_iff_unpadded (runtime : Runtime)
    (previous : Option (List ScoringRevision)) (input : ScoringPassInput)
    (results : List CaseResult) (passId : String)
    (claimFor : CaseResult → Option JudgmentClaim) :
    (StatesCoverage runtime previous input ↔
      ∀ receipts, input.judgments = some receipts → Unpadded input.results receipts) ∧
    (DerivesCoverage runtime results passId claimFor ↔ Derivable results) :=
  ⟨statesCoverage_iff, derivesCoverage_iff⟩

/-- A case that judge `a` has judged. -/
def judgedCase : CaseResult where
  caseId := "c1"
  scores := [.measured
    { graderId := "a", metric := "judge:a", value := .finite 1, pass := some true,
      stamped := true }]

/-- A receipt of judge `b`, which has no row on the plane of `judgedCase`. -/
def strayReceipt : JudgmentReceipt where
  ref := { scoringPassId := "pass-1", case := { caseId := "c1" }, judgeId := "b" }
  scoreDigest := "sha256:0"
  evidenceEmitter := judgeEvidenceEmitter "b" (some { passId := "pass-1" })

/-- One receipt of another judge makes the vector of a one-judgment plane complete. -/
theorem stray_receipt_completes :
    ¬ ∀ runtime previous input, StatesCoverage runtime previous input := by
  intro all
  let runtime : Runtime :=
    { collation := Text.utf16, planeDigest := fun _ => "", receiptsDigest := fun _ => "",
      scoresDigest := fun _ => "" }
  have unpadded := statesCoverage_iff.mp (all runtime none
    { kind := .rescore, judges := [], results := [judgedCase], inputObservation := .null,
      judgments := some [strayReceipt], createdAt := "t" }) _ rfl
  revert unpadded
  unfold Unpadded
  decide +kernel

end Everdict.Scoring
