import Everdict.Sorting

/-!
# Pages of a numbered log

The entries of a log carry numbers, and a reader takes a page of those beyond a cursor that it
wants, lowest numbers first.

* `mem_page`: what a page holds is in the log, wanted and beyond the cursor.
* `page_covers`: up to its last number a page holds every such entry.
* `page_short`: a page that is not full holds all of them.
-/

namespace NumberedLog

open Sorting

variable {α : Type*} (seq : α → Nat)

/-- The first `limit` wanted entries beyond `after`. -/
def page (limit after : Nat) (wanted : α → Bool) (log : List α) : List α :=
  (sortBy seq (log.filter fun x => after < seq x && wanted x)).take limit

variable {seq} {limit after : Nat} {wanted : α → Bool} {log : List α} {x y : α}

theorem mem_beyond :
    x ∈ sortBy seq (log.filter fun x => after < seq x && wanted x) ↔
      x ∈ log ∧ after < seq x ∧ wanted x = true := by
  rw [mem_sortBy, List.mem_filter, Bool.and_eq_true, decide_eq_true_iff]

theorem mem_page (member : x ∈ page seq limit after wanted log) :
    x ∈ log ∧ after < seq x ∧ wanted x = true :=
  mem_beyond.mp (List.mem_of_mem_take member)

/-- The numbers of a page rise. -/
theorem page_pairwise (distinct : (log.map seq).Nodup) :
    (page seq limit after wanted log).Pairwise fun x y => seq x < seq y := by
  refine List.Pairwise.sublist (List.take_sublist _ _) (sortBy_rising ?_)
  exact distinct.sublist (List.filter_sublist.map seq)

/-- Up to its last number a page leaves nothing out. -/
theorem page_covers (distinct : (log.map seq).Nodup) (member : x ∈ log) (beyond : after < seq x)
    (wants : wanted x = true) (last : y ∈ page seq limit after wanted log)
    (low : seq x ≤ seq y) : x ∈ page seq limit after wanted log := by
  have sorted := mem_beyond.mpr ⟨member, beyond, wants⟩
  have same : y ∈ log := (mem_page last).1
  rw [page] at last ⊢
  have split := List.take_append_drop limit
    (sortBy seq (log.filter fun x => after < seq x && wanted x))
  have ordered := sortBy_pairwise seq (log.filter fun x => after < seq x && wanted x)
  rw [← split] at sorted ordered
  rcases List.mem_append.mp sorted with early | late
  · exact early
  · have high : seq y ≤ seq x := (List.pairwise_append.mp ordered).2.2 y last x late
    have eq : x = y := List.inj_on_of_nodup_map distinct member same (Nat.le_antisymm low high)
    exact eq ▸ last

/-- A page that is not full leaves nothing out. -/
theorem page_short (short : (page seq limit after wanted log).length < limit) (member : x ∈ log)
    (beyond : after < seq x) (wants : wanted x = true) :
    x ∈ page seq limit after wanted log := by
  unfold page at short ⊢
  rw [List.length_take] at short
  rw [List.take_of_length_le (by omega)]
  exact mem_beyond.mpr ⟨member, beyond, wants⟩

end NumberedLog
