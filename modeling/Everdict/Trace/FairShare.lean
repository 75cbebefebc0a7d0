import Everdict.Trace.Leaves
import Everdict.Utf8
import Everdict.WaterFilling

/-!
# The fair share of a preview

`fairShare` divides the budget of a preview between the texts of a value.  It counts an empty
text as one that never settles, so the share is the max-min fair one exactly when the budget
can give the fair allowance to every empty text as well (`maxMinFair_iff`).  Nothing of it
depends on the order of members or items.
-/

namespace Everdict.Trace

open WaterFilling

/-! ## Texts cut at a share -/

theorem takeBytes_eq (cs : List Char) (bytes : Nat) :
    takeBytes cs bytes = Utf8.takeFitting cs bytes := by
  induction cs generalizing bytes with
  | nil => rfl
  | cons c cs ih => rw [takeBytes, Utf8.takeFitting, ih]

theorem takeBytes_prefix (cs : List Char) (bytes : Nat) : takeBytes cs bytes <+: cs := by
  induction cs generalizing bytes with
  | nil => exact List.prefix_rfl
  | cons c cs ih =>
      rw [takeBytes]
      split_ifs
      · exact List.cons_prefix_cons.mpr ⟨rfl, ih _⟩
      · exact List.nil_prefix

theorem length_bytesOf_takeBytes (cs : List Char) (bytes : Nat) :
    (Utf8.bytesOf (takeBytes cs bytes)).length ≤ bytes := by
  induction cs generalizing bytes with
  | nil => exact Nat.zero_le _
  | cons c cs ih =>
      rw [takeBytes]
      split_ifs with fits
      · rw [Utf8.bytesOf, List.flatMap_cons, List.length_append, String.length_utf8EncodeChar]
        have rest := ih (bytes - c.utf8Size)
        unfold Utf8.bytesOf at rest
        omega
      · exact Nat.zero_le _

theorem utf8ByteSize_eq (text : String) :
    text.utf8ByteSize = (Utf8.bytesOf text.toList).length := by
  rw [← String.size_toByteArray]
  conv_lhs => rw [← String.ofList_toList (s := text), String.toByteArray_ofList]
  rw [List.utf8Encode, List.size_toByteArray]
  rfl

/-- The bytes that are left are those that `subarray(0, end)` takes after the walk back. -/
theorem bytes_truncateToBytes {text : String} {maxBytes : Nat}
    (long : maxBytes < text.utf8ByteSize) :
    Utf8.bytesOf (truncateToBytes text maxBytes).toList =
      (Utf8.bytesOf text.toList).take (Utf8.walkBack (Utf8.bytesOf text.toList) maxBytes) := by
  rw [truncateToBytes, if_neg (Nat.not_le.mpr long), String.toList_ofList, takeBytes_eq]
  rw [utf8ByteSize_eq] at long
  exact (Utf8.take_walkBack long).symm

theorem truncateToBytes_of_le {text : String} {maxBytes : Nat}
    (fits : text.utf8ByteSize ≤ maxBytes) : truncateToBytes text maxBytes = text := if_pos fits

theorem truncateToBytes_prefix (text : String) (maxBytes : Nat) :
    (truncateToBytes text maxBytes).toList <+: text.toList := by
  unfold truncateToBytes
  split_ifs
  · exact List.prefix_rfl
  · rw [String.toList_ofList]
    exact takeBytes_prefix _ _

theorem utf8ByteSize_truncateToBytes (text : String) (maxBytes : Nat) :
    (truncateToBytes text maxBytes).utf8ByteSize ≤ min text.utf8ByteSize maxBytes := by
  unfold truncateToBytes
  split_ifs with fits
  · exact Nat.le_min.mpr ⟨Nat.le_refl _, fits⟩
  · rw [utf8ByteSize_eq, String.toList_ofList]
    have bound := length_bytesOf_takeBytes text.toList maxBytes
    omega

/-! ## The division -/

section Division

variable {pool : List Nat} {share : Nat}

/-- The sizes that go on contending. -/
def contendingIn (pool : List Nat) (share : Nat) : List Nat :=
  pool.filter fun size => share < size || size = 0

theorem mem_settledIn {size : Nat} (isIn : size ∈ settledIn pool share) :
    0 < size ∧ size ≤ share := by
  have settled := (List.mem_filter.mp isIn).2
  rw [Bool.and_eq_true, decide_eq_true_eq, decide_eq_true_eq] at settled
  exact settled.symm

theorem mem_contendingIn {size : Nat} (isIn : size ∈ contendingIn pool share) :
    size = 0 ∨ share + 1 ≤ size := by
  have contends := (List.mem_filter.mp isIn).2
  rw [Bool.or_eq_true, decide_eq_true_eq, decide_eq_true_eq] at contends
  omega

theorem settledIn_append_perm (pool : List Nat) (share : Nat) :
    (settledIn pool share ++ contendingIn pool share).Perm pool := by
  have rest : contendingIn pool share =
      pool.filter fun size => !(size ≤ share && 0 < size) := by
    refine List.filter_congr fun size _ => ?_
    rw [Bool.eq_iff_iff, Bool.or_eq_true, Bool.not_eq_true', Bool.and_eq_false_iff]
    simp only [decide_eq_true_eq, decide_eq_false_iff_not]
    omega
  rw [rest]
  exact List.filter_append_perm _ pool

theorem sum_settledIn_le (pool : List Nat) (share : Nat) :
    (settledIn pool share).sum ≤ (settledIn pool share).length * share :=
  sum_le_of_served fun _ isIn => (mem_settledIn isIn).2

/-- What a share costs after a round that gave less is what the settled ones are and what it
costs those that contend. -/
theorem charged_of_settled {allowance : Nat} (le : share ≤ allowance) :
    charged pool allowance = (settledIn pool share).sum +
      charged (contendingIn pool share) allowance := by
  rw [← charged_perm (settledIn_append_perm pool share), charged_append, charged_served]
  intro size isIn
  exact ⟨(mem_settledIn isIn).1, (mem_settledIn isIn).2.trans le⟩

/-- A round ends the loop, or the texts that contend divide what the settled ones leave. -/
theorem shareOf_eq (pool : List Nat) (remaining contenders : Nat) :
    shareOf pool remaining contenders =
      if (settledIn pool (remaining / contenders)).length = 0 ∨
          contenders ≤ (settledIn pool (remaining / contenders)).length then
        remaining / contenders
      else
        shareOf (contendingIn pool (remaining / contenders))
          (remaining - (settledIn pool (remaining / contenders)).sum)
          (contenders - (settledIn pool (remaining / contenders)).length) := by
  rw [shareOf]
  rfl

/-- The loop ends with all sizes served, or with the share that the empty ones leave. -/
theorem shareOf_found {remaining contenders : Nat} (length : pool.length = contenders)
    (some' : 0 < contenders) :
    (pool.sum ≤ remaining ∧
        ∀ size ∈ pool, 0 < size ∧ size ≤ shareOf pool remaining contenders) ∨
      Found pool remaining (shareOf pool remaining contenders) := by
  induction contenders using Nat.strong_induction_on generalizing pool remaining with
  | _ contenders ih =>
  have split := settledIn_append_perm pool (remaining / contenders)
  have lengths := split.length_eq
  have sums := split.sum_eq
  rw [List.length_append] at lengths
  rw [List.sum_append] at sums
  have fits : contenders * (remaining / contenders) ≤ remaining := Nat.mul_div_le _ _
  have settled := sum_settledIn_le pool (remaining / contenders)
  rw [shareOf_eq]
  split_ifs with done
  · rcases done with none | all
    · -- no size fits its share
      right
      have none : settledIn pool (remaining / contenders) = [] := List.length_eq_zero_iff.mp none
      have wanting : ∀ allowance ≤ remaining / contenders + 1,
          charged pool allowance = contenders * allowance := by
        intro allowance le
        rw [← charged_perm split, none, List.nil_append, charged_wanting]
        · rw [none, List.length_nil, Nat.zero_add] at lengths
          rw [lengths, length]
        · intro size isIn
          rcases mem_contendingIn isIn with empty | above
          · exact Or.inl empty
          · exact Or.inr (le.trans above)
      constructor
      · rw [wanting _ (Nat.le_succ _)]
        exact fits
      · rw [wanting _ (Nat.le_refl _)]
        exact Nat.lt_mul_div_succ remaining some'
    · -- every size fits its share
      left
      have gone : contendingIn pool (remaining / contenders) = [] := by
        refine List.length_eq_zero_iff.mp ?_
        omega
      have whole : (settledIn pool (remaining / contenders)).length = contenders := by
        rw [gone, List.length_nil] at lengths
        omega
      rw [whole] at settled
      rw [gone, List.sum_nil] at sums
      refine ⟨by omega, fun size isIn => ?_⟩
      have isIn := split.mem_iff.mpr isIn
      rw [gone, List.append_nil] at isIn
      exact mem_settledIn isIn
  · set share := remaining / contenders
    -- what is left is enough for an equal share of those that contend
    have left : (contendingIn pool share).length * share ≤
        remaining - (settledIn pool share).sum := by
      have : contenders * share = (settledIn pool share).length * share +
          (contendingIn pool share).length * share := by rw [← Nat.add_mul, lengths, length]
      omega
    have paid : (settledIn pool share).sum ≤ remaining := by
      have : (settledIn pool share).length * share ≤ contenders * share :=
        Nat.mul_le_mul_right _ (by omega)
      omega
    have below : contenders - (settledIn pool share).length < contenders := by omega
    have length' : (contendingIn pool share).length =
        contenders - (settledIn pool share).length := by omega
    rcases @ih _ below _ (remaining - (settledIn pool share).sum) length' (by omega) with
      ⟨enough, served⟩ | found
    · left
      have some'' : contendingIn pool share ≠ [] := by
        intro none
        rw [none, List.length_nil] at lengths
        omega
      obtain ⟨size, isIn⟩ := List.exists_mem_of_ne_nil _ some''
      have above := mem_contendingIn isIn
      have servedHere := served size isIn
      refine ⟨by omega, fun size isIn => ?_⟩
      rcases List.mem_append.mp (split.mem_iff.mpr isIn) with isIn | isIn
      · have := mem_settledIn isIn
        omega
      · exact served size isIn
    · right
      have le : share ≤ shareOf (contendingIn pool share)
          (remaining - (settledIn pool share).sum)
          (contenders - (settledIn pool share).length) := by
        refine found.le_share ?_
        rw [charged_wanting]
        · exact left
        · intro size isIn
          have := mem_contendingIn isIn
          omega
      constructor
      · have fits := found.fits
        rw [charged_of_settled le]
        omega
      · have tight := found.tight
        rw [charged_of_settled (le.trans (Nat.le_add_right _ 1))]
        omega

theorem contendingIn_perm {pool' : List Nat} (same : pool.Perm pool') (share : Nat) :
    (contendingIn pool share).Perm (contendingIn pool' share) := same.filter _

theorem settledIn_perm {pool' : List Nat} (same : pool.Perm pool') (share : Nat) :
    (settledIn pool share).Perm (settledIn pool' share) := same.filter _

theorem shareOf_perm {pool' : List Nat} (same : pool.Perm pool') (remaining contenders : Nat) :
    shareOf pool remaining contenders = shareOf pool' remaining contenders := by
  induction contenders using Nat.strong_induction_on generalizing pool pool' remaining with
  | _ contenders ih =>
  have lengths := (settledIn_perm same (remaining / contenders)).length_eq
  rw [shareOf_eq, shareOf_eq pool', ← lengths,
    ← (settledIn_perm same (remaining / contenders)).sum_eq]
  split_ifs with done
  · rfl
  · exact ih _ (by omega) (contendingIn_perm same _) _

end Division

theorem fairShare_perm {sizes sizes' : List Nat} (same : sizes.Perm sizes') (budget : Nat) :
    fairShare sizes budget = fairShare sizes' budget := by
  rw [fairShare, fairShare, ← same.length_eq, shareOf_perm same]

/-- Either nothing is cut and no text is empty, or the share is the one that the empty texts
leave. -/
theorem fairShare_found {sizes : List Nat} (some' : sizes ≠ []) (budget : Nat) :
    (sizes.sum ≤ budget ∧ ∀ size ∈ sizes, 0 < size ∧ size ≤ fairShare sizes budget) ∨
      Found sizes budget (fairShare sizes budget) := by
  have length : sizes.length ≠ 0 := List.length_eq_zero_iff.not.mpr some'
  rw [fairShare, if_neg length]
  exact shareOf_found rfl (Nat.pos_of_ne_zero length)

/-! ## The preview -/

theorem collectLeafSizes_eq (value : Value) :
    collectLeafSizes value = (walkTexts value).map String.utf8ByteSize := by
  induction value using Value.byParts with
  | atom value isAtom => cases value <;> first | rfl | cases isAtom
  | array items ih =>
      rw [collectLeafSizes, walkTexts]
      induction items with
      | nil => rfl
      | cons item items rest =>
          rw [List.forall_mem_cons] at ih
          rw [collectItemSizes, walkItems, List.map_append, ih.1, rest ih.2]
  | object fields ih =>
      rw [collectLeafSizes, walkTexts]
      induction fields with
      | nil => rfl
      | cons field fields rest =>
          rw [List.forall_mem_cons] at ih
          rw [collectFieldSizes, walkFields, List.map_append, ih.1, rest ih.2]

theorem assigned_of_ne {key : String} (other : key ≠ PROTO) (value : Value) :
    assigned key value = [(key, value)] := if_neg other

/-- The members that a preview assigns are not called `__proto__`. -/
theorem plain_applyPreview (share : Nat) (value : Value) :
    (applyPreview share value).preview.plain = true := by
  induction value using Value.byParts with
  | atom value isAtom =>
      cases value with
      | text value =>
          rw [applyPreview]
          split_ifs <;> rfl
      | array => cases isAtom
      | object => cases isAtom
      | _ => rfl
  | array items ih =>
      rw [applyPreview, Value.plain]
      induction items with
      | nil => rfl
      | cons item items rest =>
          rw [List.forall_mem_cons] at ih
          rw [applyItems, plainItems, ih.1, rest ih.2]
          rfl
  | object fields ih =>
      rw [applyPreview, Value.plain]
      induction fields with
      | nil => rfl
      | cons field fields rest =>
          rw [List.forall_mem_cons] at ih
          rw [applyFields]
          unfold assigned
          split_ifs with proto
          · exact rest ih.2
          · rw [List.singleton_append, plainFields, ih.1, rest ih.2]
            simp [proto]

/-- Without such members the preview is the value with its texts cut at the share. -/
theorem applyPreview_eq {value : Value} (plain : value.plain = true) (share : Nat) :
    applyPreview share value = ⟨mapTexts (truncateToBytes · share) value,
      (walkTexts value).any fun text => share < text.utf8ByteSize⟩ := by
  induction value using Value.byParts with
  | atom value isAtom =>
      cases value with
      | text value =>
          rw [applyPreview, mapTexts, walkTexts, List.any_cons, List.any_nil, Bool.or_false]
          split_ifs with fits
          · rw [truncateToBytes_of_le fits, decide_eq_false (Nat.not_lt.mpr fits)]
          · rw [decide_eq_true (Nat.not_le.mp fits)]
      | array => cases isAtom
      | object => cases isAtom
      | _ => rfl
  | array items ih =>
      have both : applyItems share items = (mapItems (truncateToBytes · share) items,
          (walkItems items).any fun text => share < text.utf8ByteSize) := by
        rw [Value.plain] at plain
        induction items with
        | nil => rfl
        | cons item items rest =>
            rw [List.forall_mem_cons] at ih
            rw [plainItems, Bool.and_eq_true] at plain
            rw [applyItems, ih.1 plain.1, rest ih.2 plain.2, mapItems, walkItems, List.any_append]
      rw [applyPreview, both, mapTexts, walkTexts]
  | object fields ih =>
      have both : applyFields share fields = (mapFields (truncateToBytes · share) fields,
          (walkFields fields).any fun text => share < text.utf8ByteSize) := by
        rw [Value.plain] at plain
        induction fields with
        | nil => rfl
        | cons field fields rest =>
            rw [List.forall_mem_cons] at ih
            rw [plainFields, Bool.and_eq_true, Bool.and_eq_true, decide_eq_true_eq] at plain
            rw [applyFields, assigned_of_ne plain.1.1, ih.1 plain.1.2, rest ih.2 plain.2, mapFields,
              walkFields, List.any_append]
            rfl
      rw [applyPreview, both, mapTexts, walkTexts]

/-! ## A fair preview -/

/-- The sizes of the texts inside a value. -/
def leafSizes (value : Value) : List Nat := (walkTexts value).map String.utf8ByteSize

/-- The preview keeps what fits, gives each text what it needs up to one largest allowance, and
does not depend on the order of anything. -/
structure MaxMinFair (value : Value) (budget : Nat) : Prop where
  whole : (leafSizes value).sum ≤ budget → previewOf value budget = ⟨value, false⟩
  fair : budget < (leafSizes value).sum →
    IsGreatest {allowance | used (leafSizes value) allowance ≤ budget}
      (fairShare (collectLeafSizes value) budget)
  cuts : budget < (leafSizes value).sum →
    ∃ cut : String → String, (previewOf value budget).preview = mapTexts cut value ∧
      (leafSizes (previewOf value budget).preview).sum ≤ budget ∧
      ∀ text ∈ walkTexts value, (cut text).toList <+: text.toList ∧
        (text.utf8ByteSize ≤ fairShare (collectLeafSizes value) budget → cut text = text)
  ordered : ∀ value', Reordered value value' →
    fairShare (collectLeafSizes value') budget = fairShare (collectLeafSizes value) budget ∧
      (previewOf value' budget).truncated = (previewOf value budget).truncated ∧
      Reordered (previewOf value budget).preview (previewOf value' budget).preview

section Fair

variable {value : Value} {budget : Nat}

theorem previewOf_eq (plain : value.plain = true) (budget : Nat) :
    previewOf value budget =
      ⟨mapTexts (truncateToBytes · (fairShare (leafSizes value) budget)) value,
        (walkTexts value).any fun text =>
          fairShare (leafSizes value) budget < text.utf8ByteSize⟩ := by
  rw [previewOf, collectLeafSizes_eq, applyPreview_eq plain]
  rfl

theorem emptiesFit_of_served {sizes : List Nat} (served : ∀ size ∈ sizes, 0 < size) :
    EmptiesFit sizes budget := by
  have none : sizes.count 0 = 0 :=
    List.count_eq_zero.mpr fun isIn => absurd (served 0 isIn) (Nat.lt_irrefl 0)
  intro size _ allowance _ fits
  rw [none, Nat.zero_mul]
  exact fits

theorem emptiesFit_iff_whole (enough : (leafSizes value).sum ≤ budget) :
    EmptiesFit (leafSizes value) budget ↔
      ∀ text ∈ walkTexts value, text.utf8ByteSize ≤ fairShare (leafSizes value) budget := by
  rw [← List.forall_mem_map (P := (· ≤ fairShare (leafSizes value) budget))]
  by_cases none : leafSizes value = []
  · rw [← leafSizes, none]
    exact iff_of_true (emptiesFit_of_served fun _ isIn => by cases isIn) fun _ isIn => by cases isIn
  · rcases fairShare_found none budget with ⟨_, served⟩ | found
    · exact iff_of_true (emptiesFit_of_served fun size isIn => (served size isIn).1)
        fun size isIn => (served size isIn).2
    · exact (found.whole_iff enough).symm

theorem emptiesFit_iff_isGreatest (short : budget < (leafSizes value).sum) :
    EmptiesFit (leafSizes value) budget ↔
      IsGreatest {allowance | used (leafSizes value) allowance ≤ budget}
        (fairShare (leafSizes value) budget) := by
  have some' : leafSizes value ≠ [] := by
    intro none
    rw [none] at short
    cases short
  rcases fairShare_found some' budget with ⟨enough, _⟩ | found
  · exact absurd enough (Nat.not_le.mpr short)
  · exact (found.isGreatest_iff short).symm

theorem sum_cut_le (share : Nat) :
    (leafSizes (mapTexts (truncateToBytes · share) value)).sum ≤ used (leafSizes value) share := by
  rw [leafSizes, walkTexts_mapTexts, leafSizes, used, List.map_map, List.map_map]
  refine List.sum_le_sum fun text _ => ?_
  exact utf8ByteSize_truncateToBytes text share

theorem reordered_previewOf {value' : Value} (plain : value.plain = true)
    (same : Reordered value value') :
    fairShare (leafSizes value') budget = fairShare (leafSizes value) budget ∧
      (previewOf value' budget).truncated = (previewOf value budget).truncated ∧
      Reordered (previewOf value budget).preview (previewOf value' budget).preview := by
  have shares : fairShare (leafSizes value') budget = fairShare (leafSizes value) budget :=
    (fairShare_perm (same.walkTexts.map _) budget).symm
  have plain' : value'.plain = true := same.plain.symm.trans plain
  rw [previewOf_eq plain, previewOf_eq plain', shares]
  exact ⟨rfl, same.walkTexts.symm.any_eq, same.mapTexts _⟩

/-- The budget is divided fairly exactly where it could give its share to the empty texts too,
and no member is called `__proto__`. -/
theorem maxMinFair_iff (value : Value) (budget : Nat) :
    MaxMinFair value budget ↔
      EmptiesFit (leafSizes value) budget ∧ value.plain = true := by
  constructor
  · intro fair
    have plain : value.plain = true := by
      rcases Nat.lt_or_ge budget (leafSizes value).sum with short | enough
      · obtain ⟨cut, eq, _⟩ := fair.cuts short
        rw [← plain_mapTexts cut, ← eq]
        exact plain_applyPreview _ _
      · have eq := congrArg (Value.plain ∘ Preview.preview) (fair.whole enough)
        exact eq.symm.trans (plain_applyPreview _ _)
    refine ⟨?_, plain⟩
    rcases Nat.lt_or_ge budget (leafSizes value).sum with short | enough
    · have greatest := fair.fair short
      rw [collectLeafSizes_eq] at greatest
      exact (emptiesFit_iff_isGreatest short).mpr greatest
    · have untouched := congrArg Preview.truncated (fair.whole enough)
      rw [previewOf_eq plain] at untouched
      refine (emptiesFit_iff_whole enough).mpr fun text isIn => ?_
      have within := List.any_eq_false.mp untouched text isIn
      rw [decide_eq_true_eq] at within
      exact Nat.not_lt.mp within
  · rintro ⟨empties, plain⟩
    have preview := previewOf_eq plain budget
    constructor
    · intro enough
      have served := (emptiesFit_iff_whole enough).mp empties
      rw [preview, mapTexts_eq_self fun text isIn => truncateToBytes_of_le (served text isIn)]
      congr 1
      exact List.any_eq_false.mpr fun text isIn => by simpa using served text isIn
    · intro short
      rw [collectLeafSizes_eq]
      exact (emptiesFit_iff_isGreatest short).mp empties
    · intro short
      have greatest := (emptiesFit_iff_isGreatest short).mp empties
      refine ⟨_, congrArg Preview.preview preview, ?_, fun text isIn => ⟨?_, fun fits => ?_⟩⟩
      · rw [preview]
        exact (sum_cut_le _).trans greatest.1
      · exact truncateToBytes_prefix _ _
      · rw [collectLeafSizes_eq] at fits
        exact truncateToBytes_of_le fits
    · intro value' same
      rw [collectLeafSizes_eq, collectLeafSizes_eq]
      exact reordered_previewOf plain same

/-- An empty text takes half of a budget that its neighbour needs whole. -/
theorem empty_text_cuts_the_other :
    ¬ MaxMinFair (.object [("a", .text ""), ("b", .text "0123456789")]) 10 := by
  intro fair
  have share : fairShare [0, 10] 10 = 5 := by
    rw [fairShare, shareOf]
    rfl
  have whole := congrArg Preview.truncated (fair.whole (by decide))
  rw [previewOf, show collectLeafSizes _ = [0, 10] from rfl, share] at whole
  exact absurd whole (by decide)

end Fair

end Everdict.Trace
