import Everdict.WorkspaceFile.Alignment

/-!
# How a group of clashing hunks grows

`grow_spec` says what the two inner loops leave (`Window`): the group took a prefix
of the hunks of each side, its window starts where it started and covers them, and
what is left starts at or behind its end.
-/

namespace Everdict.WorkspaceFile

variable {start : Nat} {g : Group} {ours theirs : List Hunk}

/-- The window of a group starts at `start`, covers the hunks and ends with one of them. -/
structure Fits (start : Nat) (g : Group) : Prop where
  starts : g.start = start
  le : start ≤ g.stop
  covers : ∀ h ∈ g.ours ++ g.theirs, h.bEnd ≤ g.stop
  reached : g.stop = start ∨ ∃ h ∈ g.ours ++ g.theirs, g.stop = h.bEnd

theorem Fits.at (start : Nat) : Fits start (.at start) :=
  ⟨rfl, Nat.le_refl _, by simp [Group.at], .inl rfl⟩

/-- A group that takes one more hunk, on whichever side. -/
theorem Fits.take {g' : Group} {h : Hunk} (fits : Fits start g) (behind : start ≤ h.bStart)
    (members : ∀ k, k ∈ g'.ours ++ g'.theirs ↔ k ∈ g.ours ++ g.theirs ∨ k = h)
    (starts : g'.start = min g.start h.bStart) (stops : g'.stop = max g.stop h.bEnd) :
    Fits start g' where
  starts := by
    rw [starts, fits.starts]
    omega
  le := by
    have := fits.le
    omega
  covers := by
    intro k mem
    rcases (members k).mp mem with old | rfl
    · have := fits.covers k old
      omega
    · omega
  reached := by
    by_cases longer : g.stop ≤ h.bEnd
    · exact .inr ⟨h, (members h).mpr (.inr rfl), by omega⟩
    · rcases fits.reached with still | ⟨k, mem, eq⟩
      · exact .inl (by omega)
      · exact .inr ⟨k, (members k).mpr (.inl mem), by omega⟩

theorem Fits.takeOurs {h : Hunk} (fits : Fits start g) (behind : start ≤ h.bStart) :
    Fits start (g.takeOurs h) :=
  fits.take behind (by simp only [Group.takeOurs, List.mem_append, List.mem_singleton]; tauto) rfl rfl

theorem Fits.takeTheirs {h : Hunk} (fits : Fits start g) (behind : start ≤ h.bStart) :
    Fits start (g.takeTheirs h) :=
  fits.take behind (by simp only [Group.takeTheirs, List.mem_append, List.mem_singleton]; tauto) rfl
    rfl

/-- An inner loop takes a prefix of the hunks. -/
theorem absorbOurs_spec (window : Hunk) (fits : Fits start g) (behind : ∀ h ∈ ours, start ≤ h.bStart) :
    ∃ taken, ours = taken ++ (absorbOurs window g ours).2 ∧
      (absorbOurs window g ours).1.ours = g.ours ++ taken ∧
      (absorbOurs window g ours).1.theirs = g.theirs ∧ Fits start (absorbOurs window g ours).1 := by
  unfold absorbOurs
  induction ours generalizing g with
  | nil => exact ⟨[], rfl, by simp [absorb], rfl, fits⟩
  | cons h rest ih =>
      unfold absorb
      split
      · obtain ⟨taken, parts, mine, others, fits'⟩ :=
          ih (fits.takeOurs (behind h (by simp))) fun k mem => behind k (by simp [mem])
        refine ⟨h :: taken, by rw [List.cons_append, ← parts], ?_, others, fits'⟩
        rw [mine, Group.takeOurs, List.append_assoc, List.singleton_append]
      · exact ⟨[], rfl, by simp, rfl, fits⟩

theorem absorbTheirs_spec (window : Hunk) (fits : Fits start g)
    (behind : ∀ h ∈ theirs, start ≤ h.bStart) :
    ∃ taken, theirs = taken ++ (absorbTheirs window g theirs).2 ∧
      (absorbTheirs window g theirs).1.theirs = g.theirs ++ taken ∧
      (absorbTheirs window g theirs).1.ours = g.ours ∧ Fits start (absorbTheirs window g theirs).1 := by
  unfold absorbTheirs
  induction theirs generalizing g with
  | nil => exact ⟨[], rfl, by simp [absorb], rfl, fits⟩
  | cons h rest ih =>
      unfold absorb
      split
      · obtain ⟨taken, parts, mine, others, fits'⟩ :=
          ih (fits.takeTheirs (behind h (by simp))) fun k mem => behind k (by simp [mem])
        refine ⟨h :: taken, by rw [List.cons_append, ← parts], ?_, others, fits'⟩
        rw [mine, Group.takeTheirs, List.append_assoc, List.singleton_append]
      · exact ⟨[], rfl, by simp, rfl, fits⟩

/-- What a group and the hunks that are left come from. -/
structure Grown (start : Nat) (g : Group) (ours theirs : List Hunk)
    (r : Group × List Hunk × List Hunk) : Prop where
  oursTaken : ∃ taken, ours = taken ++ r.2.1 ∧ r.1.ours = g.ours ++ taken
  theirsTaken : ∃ taken, theirs = taken ++ r.2.2 ∧ r.1.theirs = g.theirs ++ taken
  fits : Fits start r.1

theorem round_grown (fits : Fits start g) (behind : ∀ h ∈ ours, start ≤ h.bStart)
    (behind' : ∀ h ∈ theirs, start ≤ h.bStart) :
    Grown start g ours theirs (round g ours theirs) := by
  obtain ⟨taken, parts, mine, others, fits'⟩ := absorbOurs_spec g.window fits behind
  obtain ⟨taken', parts', mine', others', fits''⟩ := absorbTheirs_spec g.window fits' behind'
  exact ⟨⟨taken, parts, others'.trans mine⟩, ⟨taken', parts', by rw [← others]; exact mine'⟩, fits''⟩

theorem grow_grown (fits : Fits start g) (behind : ∀ h ∈ ours, start ≤ h.bStart)
    (behind' : ∀ h ∈ theirs, start ≤ h.bStart) : Grown start g ours theirs (grow g ours theirs) := by
  induction g, ours, theirs using grow.induct with
  | case1 g ours theirs next fewer ih =>
      have step := round_grown fits behind behind'
      obtain ⟨taken, parts, mine⟩ := step.oursTaken
      obtain ⟨taken', parts', mine'⟩ := step.theirsTaken
      have rest := ih step.fits
        (fun h mem => behind h (by rw [parts]; exact List.mem_append_right _ mem))
        (fun h mem => behind' h (by rw [parts']; exact List.mem_append_right _ mem))
      unfold grow
      rw [if_pos fewer]
      obtain ⟨more, parts₂, mine₂⟩ := rest.oursTaken
      obtain ⟨more', parts₂', mine₂'⟩ := rest.theirsTaken
      refine ⟨⟨taken ++ more, ?_, ?_⟩, ⟨taken' ++ more', ?_, ?_⟩, rest.fits⟩
      · rw [List.append_assoc, ← parts₂]
        exact parts
      · rw [mine₂, ← List.append_assoc]
        exact congrArg (· ++ more) mine
      · rw [List.append_assoc, ← parts₂']
        exact parts'
      · rw [mine₂', ← List.append_assoc]
        exact congrArg (· ++ more') mine'
  | case2 g ours theirs next same =>
      unfold grow
      rw [if_neg same]
      exact round_grown fits behind behind'

/-! ## What is left does not clash -/

theorem absorb_idle {belongs : Group → Hunk → Bool} {take : Group → Hunk → Group} {l : List Hunk}
    (same : (absorb belongs take g l).2.length = l.length) :
    (absorb belongs take g l) = (g, l) ∧ ∀ h rest, l = h :: rest → belongs g h = false := by
  cases l with
  | nil => exact ⟨rfl, by simp⟩
  | cons h rest =>
      by_cases fits : belongs g h = true
      · have := absorb_takes take rest fits
        simp only [List.length_cons] at same
        omega
      · refine ⟨by rw [absorb, if_neg fits], ?_⟩
        rintro h' rest' eq
        cases eq
        simpa using fits

/-- The last round finds, on either side, no hunk that belongs to the group. -/
theorem round_idle (same : ¬ (round g ours theirs).2.1.length + (round g ours theirs).2.2.length <
      ours.length + theirs.length) :
    round g ours theirs = (g, ours, theirs) ∧
      (∀ h rest, ours = h :: rest → oursBelongs g.window g h = false) ∧
      ∀ h rest, theirs = h :: rest → theirsBelongs g.window g h = false := by
  have ours_le := absorb_length (oursBelongs g.window) Group.takeOurs g ours
  have theirs_le := absorb_length (theirsBelongs g.window) Group.takeTheirs
    (absorbOurs g.window g ours).1 theirs
  simp only [round, absorbOurs, absorbTheirs] at *
  obtain ⟨idle, none⟩ := absorb_idle (by omega :
    (absorb (oursBelongs g.window) Group.takeOurs g ours).2.length = ours.length)
  rw [idle] at same theirs_le ⊢
  dsimp only at same theirs_le ⊢
  obtain ⟨idle', none'⟩ := absorb_idle (by omega :
    (absorb (theirsBelongs g.window) Group.takeTheirs g theirs).2.length = theirs.length)
  rw [idle']
  exact ⟨rfl, none, none'⟩

/-- A hunk that starts at or behind a window and does not clash with it starts at or
behind its end. -/
theorem behind_of_not_clashes {h window : Hunk} (free : clashes h window = false)
    (start : window.bStart ≤ h.bStart) (le : h.bStart ≤ h.bEnd) : window.bEnd ≤ h.bStart := by
  simp only [clashes, decide_eq_false_iff_not, not_or, not_and] at free
  by_contra inside
  have touches := free.1 (by omega)
  have same : h.bStart = window.bStart := by omega
  exact (free.2 same).1 (by omega)

theorem grow_idle (g : Group) (ours theirs : List Hunk) (r : Group × List Hunk × List Hunk)
    (grown : grow g ours theirs = r) :
    (∀ h rest, r.2.1 = h :: rest → oursBelongs r.1.window r.1 h = false) ∧
      ∀ h rest, r.2.2 = h :: rest → theirsBelongs r.1.window r.1 h = false := by
  induction g, ours, theirs using grow.induct with
  | case1 g ours theirs next fewer ih =>
      unfold grow at grown
      rw [if_pos fewer] at grown
      exact ih grown
  | case2 g ours theirs next same =>
      unfold grow at grown
      rw [if_neg same] at grown
      obtain ⟨idle, none, none'⟩ := round_idle same
      rw [idle] at grown
      subst grown
      exact ⟨none, none'⟩

/-- No hunk that is left starts before the next one. -/
theorem nextStart_le (next : nextStart ours theirs = some start)
    (sorted : ours.Pairwise fun h k => h.bStart ≤ k.bStart)
    (sorted' : theirs.Pairwise fun h k => h.bStart ≤ k.bStart) :
    (∀ h ∈ ours, start ≤ h.bStart) ∧ ∀ h ∈ theirs, start ≤ h.bStart := by
  have behind : ∀ {l : List Hunk} {h : Hunk} {rest : List Hunk}, l = h :: rest →
      (l.Pairwise fun h k => h.bStart ≤ k.bStart) → start ≤ h.bStart →
      ∀ k ∈ l, start ≤ k.bStart := by
    rintro l h rest rfl sorted first k mem
    rcases List.mem_cons.mp mem with rfl | tail
    · exact first
    · have := (List.pairwise_cons.mp sorted).1 k tail
      omega
  cases ours with
  | nil =>
      cases theirs with
      | nil => cases next
      | cons h rest =>
          obtain rfl := Option.some.inj next
          exact ⟨by simp, behind rfl sorted' (Nat.le_refl _)⟩
  | cons h rest =>
      cases theirs with
      | nil =>
          obtain rfl := Option.some.inj next
          exact ⟨behind rfl sorted (Nat.le_refl _), by simp⟩
      | cons h' rest' =>
          obtain rfl := Option.some.inj next
          exact ⟨behind rfl sorted (Nat.min_le_left _ _), behind rfl sorted' (Nat.min_le_right _ _)⟩

theorem nextStart_mem (next : nextStart ours theirs = some start) :
    ∃ h ∈ ours ++ theirs, start = h.bStart := by
  cases ours with
  | nil =>
      cases theirs with
      | nil => cases next
      | cons h rest => exact ⟨h, by simp, (Option.some.inj next).symm⟩
  | cons h rest =>
      cases theirs with
      | nil => exact ⟨h, by simp, (Option.some.inj next).symm⟩
      | cons h' rest' =>
          have least : min h.bStart h'.bStart = start := Option.some.inj next
          rcases Nat.le_total h.bStart h'.bStart with le | le
          · exact ⟨h, by simp, by omega⟩
          · exact ⟨h', by simp, by omega⟩

/-- The group of the main loop: a prefix of the hunks of each side, inside its window,
and everything that is left starts at or behind its end. -/
structure Window (start : Nat) (ours theirs : List Hunk) (g : Group) (ours' theirs' : List Hunk) :
    Prop where
  fits : Fits start g
  oursParts : ours = g.ours ++ ours'
  theirsParts : theirs = g.theirs ++ theirs'
  behind : ∀ h ∈ ours' ++ theirs', g.stop ≤ h.bStart

theorem grow_spec (next : nextStart ours theirs = some start)
    (sorted : ours.Pairwise fun h k => h.bStart ≤ k.bStart)
    (sorted' : theirs.Pairwise fun h k => h.bStart ≤ k.bStart)
    (proper : ∀ h ∈ ours ++ theirs, h.bStart ≤ h.bEnd) :
    Window start ours theirs (grow (.at start) ours theirs).1 (grow (.at start) ours theirs).2.1
      (grow (.at start) ours theirs).2.2 := by
  obtain ⟨first, first'⟩ := nextStart_le next sorted sorted'
  have grown := grow_grown (.at start) first first'
  have fewer := grow_consumes next
  obtain ⟨idle, idle'⟩ := grow_idle (.at start) ours theirs _ rfl
  obtain ⟨⟨g, ours', theirs'⟩, result⟩ : ∃ r, grow (.at start) ours theirs = r := ⟨_, rfl⟩
  rw [result] at grown fewer idle idle' ⊢
  obtain ⟨⟨taken, parts, mine⟩, ⟨taken', parts', mine'⟩, fits⟩ := grown
  simp only [Group.at, List.nil_append] at mine mine'
  subst mine mine'
  have full : g.isEmpty = false := by
    by_contra empty
    simp only [Group.isEmpty, Bool.not_eq_false, decide_eq_true_eq] at empty
    rw [parts, parts', empty.1, empty.2] at fewer
    simp at fewer
  -- what does not belong to a group that is not empty does not clash with its window
  have head (h : Hunk) (rest l : List Hunk) (left : l = h :: rest)
      (behind : start ≤ h.bStart) (le : h.bStart ≤ h.bEnd)
      (free : clashes h g.window = false)
      (ordered : l.Pairwise fun h k => h.bStart ≤ k.bStart) : ∀ k ∈ l, g.stop ≤ k.bStart := by
    have := behind_of_not_clashes free (by rw [Group.window, fits.starts]; exact behind) le
    subst left
    intro k mem
    rcases List.mem_cons.mp mem with rfl | tail
    · exact this
    · exact Nat.le_trans this ((List.pairwise_cons.mp ordered).1 k tail)
  refine ⟨fits, parts, parts', fun k mem => ?_⟩
  rcases List.mem_append.mp mem with mine | other
  · cases ours' with
    | nil => cases mine
    | cons h rest =>
        have mem : h ∈ ours := by simp [parts]
        have ordered := (List.pairwise_append.mp (parts ▸ sorted)).2.1
        have free := idle h rest rfl
        simp only [oursBelongs, full] at free
        exact head h rest _ rfl (first h mem) (proper h (by simp [mem])) free ordered k mine
  · cases theirs' with
    | nil => cases other
    | cons h rest =>
        have mem : h ∈ theirs := by simp [parts']
        have ordered := (List.pairwise_append.mp (parts' ▸ sorted')).2.1
        have free := idle' h rest rfl
        simp only [theirsBelongs, full] at free
        exact head h rest _ rfl (first' h mem) (proper h (by simp [mem])) free ordered k other

end Everdict.WorkspaceFile
