import Everdict.Trace.Projection

/-!
# Lookups in bags

What a bag made of entries and spreads holds under a key, and that the readers of a bag find
nothing under keys that it does not have.
-/

namespace Everdict.Trace

theorem lookup_cons_eq (name key : String) (value : Value) (a : Attrs) :
    List.lookup key ((name, value) :: a) = if key = name then some value else a.lookup key := by
  by_cases same : key = name
  · simp [same]
  · have differs : (key == name) = false := by simpa using same
    simp [List.lookup_cons, differs, same]

theorem lookup_overridden (a : Attrs) (f : String → Value → Value) (key : String) :
    (a.map fun entry => (entry.1, f entry.1 entry.2)).lookup key = (a.lookup key).map (f key) := by
  induction a with
  | nil => rfl
  | cons entry a ih =>
    obtain ⟨name, value⟩ := entry
    rw [List.map_cons, lookup_cons_eq, lookup_cons_eq, ih]
    split
    · next same => simp [same]
    · rfl

theorem lookup_filter_key (b : Attrs) (p : String → Bool) (key : String) :
    (b.filter fun entry => p entry.1).lookup key = if p key then b.lookup key else none := by
  induction b with
  | nil => simp
  | cons entry b ih =>
    obtain ⟨name, value⟩ := entry
    rw [List.filter_cons, lookup_cons_eq]
    by_cases same : key = name
    · subst same
      by_cases kept : p key = true
      · simp [kept]
      · simpa [kept] using ih
    · by_cases kept : p name = true
      · simpa [kept, lookup_cons_eq, same] using ih
      · simpa [kept, same] using ih

/-- A spread reads as the later bag over the earlier one. -/
theorem lookup_spread (a b : Attrs) (key : String) :
    (a.spread b).lookup key = (b.lookup key).or (a.lookup key) := by
  unfold Attrs.spread
  rw [List.lookup_append, lookup_overridden a fun name value => (b.lookup name).getD value,
    lookup_filter_key b fun name => (a.lookup name).isNone]
  rcases a.lookup key with _ | value
  · simp
  · rcases b.lookup key with _ | value' <;> simp

theorem pickStr_of_absent {a : Attrs} {keys : List String}
    (absent : ∀ key ∈ keys, a.lookup key = none) : pickStr a keys = none := by
  refine List.findSome?_eq_none_iff.mpr fun key isKey => ?_
  rw [Attrs.str, absent key isKey]
  rfl

theorem pickNum_of_absent {runtime : Runtime} {a : Attrs} {keys : List String}
    (absent : ∀ key ∈ keys, a.lookup key = none) : pickNum runtime a keys = none := by
  refine List.findSome?_eq_none_iff.mpr fun key isKey => ?_
  rw [absent key isKey]
  rfl

theorem firstDefined_of_absent {a : Attrs} {keys : List String}
    (absent : ∀ key ∈ keys, a.lookup key = none) : firstDefined a keys = none :=
  List.findSome?_eq_none_iff.mpr absent

theorem str_of_absent {a : Attrs} {key : String} (absent : a.lookup key = none) :
    Attrs.str a key = none := by
  rw [Attrs.str, absent]
  rfl


section Tokens

variable {runtime : Runtime} {keys : SpanAttrMapping} {a : Attrs}

theorem inTok_of_absent
    (absent : ∀ key ∈ "mlflow.chat.tokenUsage" :: keys.inputTokens, a.lookup key = none) :
    inTok runtime keys a = none := by
  rw [List.forall_mem_cons] at absent
  rw [inTok, pickNum_of_absent absent.2, nested, absent.1]
  rfl

theorem outTok_of_absent
    (absent : ∀ key ∈ "mlflow.chat.tokenUsage" :: keys.outputTokens, a.lookup key = none) :
    outTok runtime keys a = none := by
  rw [List.forall_mem_cons] at absent
  rw [outTok, pickNum_of_absent absent.2, nested, absent.1]
  rfl

end Tokens

end Everdict.Trace
