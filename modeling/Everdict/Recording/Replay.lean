import Everdict.Recording.Stores

/-!
# A sealed recording is final

`Mirrors` reads the rows of Postgres as the attempts in memory, which are in the order of their
generations, and `Write` lists what a call does to both: a new attempt, or an attempt that is not
sealed written over.  A sealed attempt is in no write, and what a seal freezes is true of the
entries it freezes with it (`WellSealed`).

The stores part over a peek at an attempt that holds nothing yet: one answers an empty recording,
the other none.
-/

namespace Everdict.Recording

open InMemory Sorting Transition.Machine

variable {s t : Stores} {log : List (Call × Outcome)} {call : Call}
  {runId : String} {generation : Int} {a b : Attempt}

/-! ## Attempts of a run -/

def Attempt.row (a : Attempt) : RecordingRow where
  tracks := a.tracks
  t0 := a.sealed.map SealedMeta.t0
  envKind := a.sealed.map SealedMeta.envKind
  effectiveFidelity := a.sealed.map SealedMeta.effectiveFidelity
  dispatch := a.sealed.bind SealedMeta.dispatch
  sealed := a.sealed.isSome

/-- The generations of a list of attempts rise. -/
def Rising (attempts : List Attempt) : Prop :=
  attempts.Pairwise fun a b => a.generation < b.generation

variable {attempts : List Attempt}

theorem Rising.distinct (rising : Rising attempts) :
    (attempts.map Attempt.generation).Nodup :=
  List.pairwise_map.mpr (rising.imp Int.ne_of_lt)

theorem find_generation (rising : Rising attempts) :
    attempts.find? (fun a => a.generation = generation) = some a ↔
      a ∈ attempts ∧ a.generation = generation := by
  constructor
  · intro found
    exact ⟨List.mem_of_find?_eq_some found, by simpa using List.find?_some found⟩
  · intro both
    obtain ⟨member, same⟩ := both
    rcases found : attempts.find? (fun a => a.generation = generation) with _ | b
    · have none' := List.find?_eq_none.mp found a member
      simp [same] at none'
    · have there := List.mem_of_find?_eq_some found
      have same' : b.generation = generation := by simpa using List.find?_some found
      have eq : b = a :=
        List.inj_on_of_nodup_map rising.distinct there member (same'.trans same.symm)
      rw [found, eq]

/-- Of attempts in the order of their generations at most one has a generation. -/
theorem last_generation (rising : Rising attempts) (keep : Attempt → Bool) :
    (attempts.filter fun a => decide (a.generation = generation) && keep a).getLast? =
      (attempts.filter keep).find? fun a => a.generation = generation := by
  rw [← List.head?_filter, List.filter_filter]
  rcases only : attempts.filter fun a => decide (a.generation = generation) && keep a with
    _ | ⟨a, _ | ⟨b, rest⟩⟩
  · rw [only]
    rfl
  · rw [only]
    rfl
  · have order : Rising (a :: b :: rest) := only ▸ rising.sublist List.filter_sublist
    have here : ∀ x ∈ a :: b :: rest, x.generation = generation := by
      intro x member
      rw [← only, List.mem_filter, Bool.and_eq_true, decide_eq_true_iff] at member
      exact member.2.1
    have less := (List.pairwise_cons.mp order).1 b List.mem_cons_self
    rw [here a List.mem_cons_self, here b (List.mem_cons_of_mem _ List.mem_cons_self)] at less
    exact absurd less (Int.lt_irrefl _)

theorem attemptsOf_set (m : InMemory) (runId other : String) (attempts : List Attempt) :
    attemptsOf (m.set runId attempts) other =
      if other = runId then attempts else attemptsOf m other := by
  unfold attemptsOf
  rw [Table.get_set]
  split <;> rfl

/-! ## What the stores have in common -/

structure Mirrors (s : Stores) : Prop where
  rising : ∀ runId, Rising (attemptsOf s.memory runId)
  rows : ∀ runId generation, Table.get s.postgres (runId, generation) =
    (attempt s.memory runId generation).map Attempt.row

theorem mirrors_empty : Mirrors Stores.empty where
  rising _ := List.Pairwise.nil
  rows _ _ := rfl

theorem Mirrors.attempt_iff (mirrors : Mirrors s) :
    attempt s.memory runId generation = some a ↔
      a ∈ attemptsOf s.memory runId ∧ a.generation = generation :=
  find_generation (mirrors.rising runId)

/-- The row a read selects is that of the newest attempt it may see. -/
theorem Mirrors.newest (mirrors : Mirrors s) (generation : Option Int)
    (keep : RecordingRow → Bool) :
    Postgres.newest s.postgres runId generation keep =
      (((attemptsOf s.memory runId).filter fun a =>
        generation.all (a.generation = ·) && keep a.row).getLast?).map Attempt.row := by
  let entry : Attempt → (String × Int) × RecordingRow := fun a => ((runId, a.generation), a.row)
  let rows := s.postgres.entries.filter fun e =>
    e.1.1 = runId && generation.all (e.1.2 = ·) && keep e.2
  let seen := (attemptsOf s.memory runId).filter fun a =>
    generation.all (a.generation = ·) && keep a.row
  have rising : Rising seen := (mirrors.rising runId).sublist List.filter_sublist
  have perm : (seen.map entry).Perm rows := by
    refine (List.perm_ext_iff_of_nodup ?_ ?_).mpr fun e => ?_
    · refine List.Nodup.of_map (fun e => e.1.2) ?_
      rw [List.map_map]
      exact rising.distinct
    · exact (List.Nodup.of_map Prod.fst s.postgres.nodup).filter _
    · obtain ⟨⟨run, g⟩, row⟩ := e
      have found : ((run, g), row) ∈ s.postgres.entries ↔
          ∃ a, attempt s.memory run g = some a ∧ a.row = row := by
        rw [← Table.get_eq_some, mirrors.rows]
        exact Option.map_eq_some_iff
      simp only [rows, seen, entry, List.mem_map, List.mem_filter, found, mirrors.attempt_iff]
      constructor
      · intro h
        obtain ⟨a, ⟨member, kept⟩, same⟩ := h
        simp only [Prod.mk.injEq] at same
        obtain ⟨⟨rfl, rfl⟩, rfl⟩ := same
        exact ⟨⟨a, ⟨member, rfl⟩, rfl⟩, by simpa using kept⟩
      · intro h
        obtain ⟨⟨a, ⟨member, rfl⟩, rfl⟩, kept⟩ := h
        simp only [Bool.and_eq_true, decide_eq_true_iff] at kept
        obtain ⟨⟨rfl, named⟩, keeps⟩ := kept
        exact ⟨a, ⟨member, by simp [named, keeps]⟩, rfl⟩
  have distinct : (rows.map fun e => -e.1.2).Nodup := by
    refine ((perm.map fun e => -e.1.2).nodup_iff).mp ?_
    rw [List.map_map]
    refine List.Nodup.of_map (fun n => -n) ?_
    rw [List.map_map]
    simpa [entry, Function.comp_def] using rising.distinct
  have sorted : (seen.map entry).reverse = sortBy (fun e => -e.1.2) rows := by
    refine eq_sortBy distinct ((List.reverse_perm _).trans perm) ?_
    rw [List.pairwise_reverse, List.pairwise_map]
    exact rising.imp fun less => Int.neg_le_neg (Int.le_of_lt less)
  change ((sortBy (fun e => -e.1.2) rows).head?).map Prod.snd = seen.getLast?.map Attempt.row
  rw [← sorted, List.head?_reverse, List.getLast?_map, Option.map_map]
  rfl

/-! ## What a seal freezes -/

theorem foldl_earlier (entries : List Entry) :
    entries.foldl earlier none = (entries.map Entry.t).min? := by
  have started : ∀ (entries : List Entry) (n : Int), entries.foldl earlier (some n) =
      some ((entries.map Entry.t).foldl min n) := by
    intro entries
    induction entries with
    | nil => exact fun _ => rfl
    | cons e entries ih => exact fun n => ih (min n e.t)
  cases entries with
  | nil => rfl
  | cons e entries => exact started entries e.t

/-- The earliest time of the lanes is the least of all their entries. -/
theorem earliestT_least {tracks : Tracks} (some' : tracks.entries ≠ []) :
    (tracks.entries.map Entry.t).min? = some (earliestT tracks) := by
  unfold earliestT
  rw [foldl_earlier]
  rcases least : (tracks.entries.map Entry.t).min? with _ | n
  · rw [List.min?_eq_none_iff, List.map_eq_nil_iff] at least
    exact absurd least some'
  · rfl

theorem fidelity_eq (tracks : Tracks) :
    (if ((tracks .frames).getD []).length > 0 then Fidelity.frames else .final) =
      fidelity tracks := by
  unfold fidelity
  rcases (tracks .frames).getD [] with _ | ⟨e, frames⟩ <;> rfl

/-- The metadata of a sealed attempt is true of its entries. -/
structure SealedMeta.TrueOf (frozen : SealedMeta) (tracks : Tracks) : Prop where
  earliest : ∃ e ∈ tracks.entries, e.t = frozen.t0
  least : ∀ e ∈ tracks.entries, frozen.t0 ≤ e.t
  frames : frozen.effectiveFidelity = .frames ↔ (tracks .frames).getD [] ≠ []

theorem trueOf_earliest {tracks : Tracks} (some' : tracks.entries ≠ []) (envKind : String)
    (dispatch : Option String) :
    SealedMeta.TrueOf ⟨earliestT tracks, envKind, fidelity tracks, dispatch⟩ tracks := by
  have least := List.min?_eq_some_iff.mp (earliestT_least some')
  refine ⟨List.mem_map.mp least.1, fun e member => least.2 e.t (List.mem_map_of_mem member), ?_⟩
  unfold fidelity
  rcases (tracks .frames).getD [] with _ | ⟨e, frames⟩ <;> simp

def Attempt.WellSealed (a : Attempt) : Prop :=
  ∀ frozen, a.sealed = some frozen → frozen.TrueOf a.tracks

/-! ## What a call writes -/

/-- One attempt that is not sealed is set, in memory and as a row. -/
structure Wrote (s t : Stores) (runId : String) (a : Attempt) : Prop where
  rising : Rising (attemptsOf t.memory runId)
  others : ∀ other, other ≠ runId → attemptsOf t.memory other = attemptsOf s.memory other
  attempt : ∀ generation, attempt t.memory runId generation =
    if generation = a.generation then some a else attempt s.memory runId generation
  row : t.postgres = s.postgres.set (runId, a.generation) a.row
  live : ∀ old, InMemory.attempt s.memory runId a.generation = some old → old.sealed = none
  well : a.WellSealed

/-- What a call leaves: the stores as they were, or one attempt written. -/
def Write (s t : Stores) : Prop := t = s ∨ ∃ runId a, Wrote s t runId a

theorem Wrote.attempt_of_ne (w : Wrote s t runId a) {other : String}
    (ne : (other, generation) ≠ (runId, a.generation)) :
    InMemory.attempt t.memory other generation = InMemory.attempt s.memory other generation := by
  by_cases same : other = runId
  · subst same
    rw [w.attempt, if_neg fun eq => ne (by rw [eq])]
  · unfold InMemory.attempt
    rw [w.others other same]

theorem Mirrors.wrote (mirrors : Mirrors s) (w : Wrote s t runId a) : Mirrors t := by
  refine ⟨fun other => ?_, fun other generation => ?_⟩
  · by_cases same : other = runId
    · exact same ▸ w.rising
    · rw [w.others other same]
      exact mirrors.rising other
  · rw [w.row, Table.get_set]
    split
    · next same =>
        obtain ⟨rfl, rfl⟩ := Prod.mk.inj same
        rw [w.attempt, if_pos rfl]
        rfl
    · next ne =>
        rw [w.attempt_of_ne ne]
        exact mirrors.rows other generation

/-- The stores with an attempt put among those of its run. -/
def Stores.insert (s : Stores) (runId : String) (a : Attempt) : Stores where
  memory := s.memory.set runId (sortBy Attempt.generation (attemptsOf s.memory runId ++ [a]))
  postgres := s.postgres.set (runId, a.generation) a.row

/-- The stores with an attempt written over. -/
def Stores.revise (s : Stores) (runId : String) (a : Attempt) : Stores where
  memory := InMemory.revise s.memory runId a
  postgres := s.postgres.set (runId, a.generation) a.row

theorem Mirrors.insert (mirrors : Mirrors s)
    (fresh : attempt s.memory runId a.generation = none) (well : a.WellSealed) :
    Wrote s (s.insert runId a) runId a := by
  have absent : ∀ b ∈ attemptsOf s.memory runId, b.generation ≠ a.generation := by
    intro b member
    simpa using List.find?_eq_none.mp fresh b member
  have distinct : ((attemptsOf s.memory runId ++ [a]).map Attempt.generation).Nodup := by
    rw [List.map_append, List.map_singleton, List.nodup_append]
    refine ⟨(mirrors.rising runId).distinct, List.nodup_singleton _, ?_⟩
    intro n member m here
    obtain ⟨b, there, rfl⟩ := List.mem_map.mp member
    rw [List.mem_singleton.mp here]
    exact absent b there
  have rising := sortBy_rising distinct
  have attempts : attemptsOf (s.insert runId a).memory runId =
      sortBy Attempt.generation (attemptsOf s.memory runId ++ [a]) := by
    simp [Stores.insert, attemptsOf_set]
  refine ⟨by rw [attempts]; exact rising, fun other ne => ?_, fun generation => ?_, rfl,
    fun old found => ?_, well⟩
  · simp [Stores.insert, attemptsOf_set, ne]
  · unfold InMemory.attempt
    rw [attempts]
    apply Option.ext
    intro b
    rw [find_generation rising, mem_sortBy, List.mem_append, List.mem_singleton]
    split
    · next same =>
        subst same
        constructor
        · intro both
          obtain ⟨there | rfl, eq⟩ := both
          · exact absurd eq (absent b there)
          · rfl
        · intro eq
          obtain rfl := Option.some.inj eq
          exact ⟨Or.inr rfl, rfl⟩
    · next other =>
        rw [find_generation (mirrors.rising runId)]
        constructor
        · intro both
          obtain ⟨there | rfl, eq⟩ := both
          · exact ⟨there, eq⟩
          · exact absurd eq.symm other
        · intro both
          exact ⟨Or.inl both.1, both.2⟩
  · rw [fresh] at found
    cases found

theorem Mirrors.revise (mirrors : Mirrors s) {old : Attempt}
    (found : attempt s.memory runId a.generation = some old) (live : old.sealed = none)
    (well : a.WellSealed) : Wrote s (s.revise runId a) runId a := by
  have attempts : attemptsOf (s.revise runId a).memory runId =
      (attemptsOf s.memory runId).map fun b => if b.generation = a.generation then a else b := by
    simp [Stores.revise, InMemory.revise, attemptsOf_set]
  have keeps : ∀ b : Attempt,
      (if b.generation = a.generation then a else b).generation = b.generation := by
    intro b
    split
    · next same => exact same.symm
    · rfl
  have rising : Rising (attemptsOf (s.revise runId a).memory runId) := by
    unfold Rising
    rw [attempts, List.pairwise_map]
    simp only [keeps]
    exact mirrors.rising runId
  refine ⟨rising, fun other ne => ?_, fun generation => ?_, rfl, fun b there => ?_, well⟩
  · simp [Stores.revise, InMemory.revise, attemptsOf_set, ne]
  · unfold InMemory.attempt
    rw [attempts, List.find?_map]
    simp only [Function.comp_def, keeps]
    rcases there : InMemory.attempt s.memory runId generation with _ | b
    · have other : generation ≠ a.generation := by
        intro same
        rw [same, found] at there
        cases there
      unfold InMemory.attempt at there
      rw [there, if_neg other]
      rfl
    · have same := (mirrors.attempt_iff.mp there).2
      unfold InMemory.attempt at there
      rw [there, Option.map_some, same]
      split <;> rfl
  · rw [found] at there
    obtain rfl := Option.some.inj there
    exact live

/-! ## One call on both stores -/

/-- The stores answer a call alike, and it writes one attempt at most. -/
def Agrees (s : Stores) (call : Call) : Prop :=
  ∃ t answer, machine s call = some (t, ⟨answer, answer⟩) ∧ Write s t

theorem Agrees.of_same (answer : Answer) (memory : InMemory.step s.memory call = (s.memory, answer))
    (postgres : Postgres.step s.postgres call = (s.postgres, answer)) : Agrees s call := by
  refine ⟨s, answer, ?_, .inl rfl⟩
  unfold machine
  rw [memory, postgres]

theorem Agrees.of_wrote (answer : Answer)
    (memory : InMemory.step s.memory call = (t.memory, answer))
    (postgres : Postgres.step s.postgres call = (t.postgres, answer))
    (w : Wrote s t runId a) : Agrees s call := by
  refine ⟨t, answer, ?_, .inr ⟨runId, a, w⟩⟩
  unfold machine
  rw [memory, postgres]

/-- A new attempt is not sealed. -/
theorem wellSealed_of_none (unsealed : a.sealed = none) : a.WellSealed := by
  intro frozen sealed
  rw [unsealed] at sealed
  cases sealed

theorem Mirrors.opens_named (mirrors : Mirrors s)
    (sound : Sound s (.openAttempt runId (some generation))) :
    Agrees s (.openAttempt runId (some generation)) := by
  have isInt : Postgres.isInt generation = true := sound
  have row := mirrors.rows runId generation
  rcases found : attempt s.memory runId generation with _ | old
  · let a : Attempt := ⟨generation, Tracks.empty, none⟩
    refine .of_wrote (.opened generation) ?_ ?_
      (mirrors.insert (a := a) found (wellSealed_of_none rfl))
    · simp only [InMemory.step, InMemory.openAttempt, ← List.isSome_find?]
      unfold attempt at found
      rw [found]
      rfl
    · rw [found, Option.map_none] at row
      simp only [Postgres.step, Postgres.openAttempt, Option.getD_some, isInt, row]
      rfl
  · refine .of_same .threw ?_ ?_
    · simp only [InMemory.step, InMemory.openAttempt, ← List.isSome_find?]
      unfold attempt at found
      rw [found]
      rfl
    · rw [found, Option.map_some] at row
      simp only [Postgres.step, Postgres.openAttempt, Option.getD_some, isInt, row]
      rfl

theorem Mirrors.mem_generations (mirrors : Mirrors s) :
    generation ∈ Postgres.generations s.postgres runId ↔
      ∃ a ∈ attemptsOf s.memory runId, a.generation = generation := by
  have row : generation ∈ Postgres.generations s.postgres runId ↔
      ∃ row, Table.get s.postgres (runId, generation) = some row := by
    simp [Postgres.generations, Table.get_eq_some]
  rw [row, mirrors.rows]
  constructor
  · intro h
    obtain ⟨row, found⟩ := h
    obtain ⟨a, there, -⟩ := Option.map_eq_some_iff.mp found
    exact ⟨a, mirrors.attempt_iff.mp there⟩
  · intro h
    obtain ⟨a, both⟩ := h
    exact ⟨a.row, by rw [mirrors.attempt_iff.mpr both]; rfl⟩

theorem foldl_max_le {m n : Int} (start : m ≤ n) (below : ∀ a ∈ attempts, a.generation ≤ n) :
    attempts.foldl (fun n a => max n a.generation) m ≤ n := by
  induction attempts generalizing m with
  | nil => exact start
  | cons a attempts ih =>
      obtain ⟨head, rest⟩ := List.forall_mem_cons.mp below
      exact ih (Int.max_le.mpr ⟨start, head⟩) rest

/-- Past a newest attempt that is not below zero, the minted generation is the next. -/
theorem minted_last (rising : Rising attempts) (last : attempts.getLast? = some a)
    (nonneg : 0 ≤ a.generation) :
    minted attempts = a.generation + 1 ∧ ∀ b ∈ attempts, b.generation ≤ a.generation := by
  obtain ⟨earlier, rfl⟩ := List.getLast?_eq_some_iff.mp last
  have below : ∀ b ∈ earlier, b.generation ≤ a.generation := by
    intro b member
    exact Int.le_of_lt ((List.pairwise_append.mp rising).2.2 b member a (by simp))
  constructor
  · unfold minted
    rw [List.foldl_append, List.foldl_cons, List.foldl_nil,
      Int.max_eq_right (foldl_max_le nonneg below)]
  · intro b member
    obtain there | here := List.mem_append.mp member
    · exact below b there
    · rw [List.mem_singleton.mp here]

/-- What the two stores mint is the same, and above every attempt of the run. -/
theorem Mirrors.minted_eq (mirrors : Mirrors s)
    (nonneg : ∀ a ∈ (attemptsOf s.memory runId).getLast?, 0 ≤ a.generation) :
    (Postgres.generations s.postgres runId).max?.getD 0 + 1 =
        minted (attemptsOf s.memory runId) ∧
      ∀ a ∈ attemptsOf s.memory runId, a.generation < minted (attemptsOf s.memory runId) := by
  have mem : ∀ n, n ∈ Postgres.generations s.postgres runId ↔
      ∃ a ∈ attemptsOf s.memory runId, a.generation = n := fun _ => mirrors.mem_generations
  rcases last : (attemptsOf s.memory runId).getLast? with _ | newest
  · rw [List.getLast?_eq_none_iff] at last
    rw [last] at mem ⊢
    have none' : Postgres.generations s.postgres runId = [] :=
      List.eq_nil_iff_forall_not_mem.mpr fun n member => by simpa using (mem n).mp member
    rw [none']
    exact ⟨rfl, fun a member => absurd member List.not_mem_nil⟩
  · obtain ⟨next, below⟩ := minted_last (mirrors.rising runId) last (nonneg newest last)
    have greatest : (Postgres.generations s.postgres runId).max? = some newest.generation := by
      refine List.max?_eq_some_iff.mpr ⟨(mem _).mpr ⟨newest, ?_, rfl⟩, fun n member => ?_⟩
      · exact List.mem_of_getLast? last
      · obtain ⟨a, there, rfl⟩ := (mem n).mp member
        exact below a there
    rw [greatest, next]
    exact ⟨rfl, fun a member => Int.lt_add_one_of_le (below a member)⟩

theorem Mirrors.opens_minted (mirrors : Mirrors s) (sound : Sound s (.openAttempt runId none)) :
    Agrees s (.openAttempt runId none) := by
  obtain ⟨nonneg, isInt⟩ := sound
  obtain ⟨same, below⟩ := mirrors.minted_eq nonneg
  let a : Attempt := ⟨minted (attemptsOf s.memory runId), Tracks.empty, none⟩
  have fresh : attempt s.memory runId a.generation = none := by
    refine List.find?_eq_none.mpr fun b member here => ?_
    have less := below b member
    rw [of_decide_eq_true here] at less
    exact Int.lt_irrefl _ less
  have row := mirrors.rows runId a.generation
  rw [fresh, Option.map_none] at row
  -- what is put at the end is in order already
  have sorted : sortBy Attempt.generation (attemptsOf s.memory runId ++ [a]) =
      attemptsOf s.memory runId ++ [a] := by
    refine sortBy_of_pairwise (List.pairwise_append.mpr ⟨?_, List.pairwise_singleton _ a, ?_⟩)
    · exact (mirrors.rising runId).imp Int.le_of_lt
    · intro b member c here
      rw [List.mem_singleton.mp here]
      exact Int.le_of_lt (below b member)
  refine .of_wrote (.opened a.generation) ?_ ?_
    (mirrors.insert (a := a) fresh (wellSealed_of_none rfl))
  · simp only [InMemory.step, InMemory.openAttempt, Stores.insert, sorted]
    rfl
  · simp only [Postgres.step, Postgres.openAttempt, Option.getD_none, same, isInt]
    change Table.get s.postgres (runId, minted (attemptsOf s.memory runId)) = none at row
    rw [row]
    rfl

theorem Mirrors.appends (mirrors : Mirrors s) {item : TrackEntry}
    (sound : Sound s (.append runId item generation)) :
    Agrees s (.append runId item generation) := by
  have isInt : Postgres.isInt generation = true := sound
  have row := mirrors.rows runId generation
  rcases found : attempt s.memory runId generation with _ | old
  · rw [found, Option.map_none] at row
    let a : Attempt := ⟨generation, appendEntry Tracks.empty item, none⟩
    refine .of_wrote .appended ?_ ?_
      (mirrors.insert (a := a) found (wellSealed_of_none rfl))
    · simp only [InMemory.step, InMemory.append, found]
      rfl
    · simp only [Postgres.step, Postgres.append, isInt, row]
      rfl
  · rw [found, Option.map_some] at row
    have named := (mirrors.attempt_iff.mp found).2
    rcases frozen : old.sealed with _ | sealed
    · let a : Attempt := { old with tracks := appendEntry old.tracks item }
      have unsealed : a.sealed = none := frozen
      refine .of_wrote .appended ?_ ?_
        (mirrors.revise (a := a) (named ▸ found) frozen (wellSealed_of_none unsealed))
      · simp [InMemory.step, InMemory.append, found, frozen, Stores.revise, a]
      · simp [Postgres.step, Postgres.append, isInt, row, Attempt.row, frozen, Stores.revise, a,
          named, appendEntry, Postgres.jsonbAppend]
    · refine .of_same .appended ?_ ?_
      · simp [InMemory.step, InMemory.append, found, frozen]
      · simp [Postgres.step, Postgres.append, isInt, row, Attempt.row, frozen]

theorem Mirrors.seals (mirrors : Mirrors s) {asked : RecordingSeal}
    (sound : Sound s (.sealAttempt runId asked generation)) :
    Agrees s (.sealAttempt runId asked generation) := by
  obtain ⟨isInt, inRange⟩ := sound
  have row := mirrors.rows runId generation
  rcases found : attempt s.memory runId generation with _ | old
  · rw [found, Option.map_none] at row
    refine .of_same (.sealed none) ?_ ?_
    · simp [InMemory.step, InMemory.sealAttempt, found]
    · simp [Postgres.step, Postgres.sealAttempt, isInt, row]
  · rw [found, Option.map_some] at row
    have named := (mirrors.attempt_iff.mp found).2
    rcases frozen : old.sealed with _ | sealed
    · by_cases empty : old.tracks.entries = []
      · refine .of_same (.sealed none) ?_ ?_
        · simp [InMemory.step, InMemory.sealAttempt, found, frozen, empty]
        · simp [Postgres.step, Postgres.sealAttempt, isInt, row, Attempt.row, frozen, empty]
      · let a : Attempt := { old with
          sealed := some ⟨earliestT old.tracks, asked.envKind, fidelity old.tracks,
            asked.dispatch⟩ }
        have well : a.WellSealed := by
          intro sealed eq
          obtain rfl := Option.some.inj eq
          exact trueOf_earliest empty asked.envKind asked.dispatch
        have bigints : old.tracks.entries.all (fun e => Postgres.isBigint e.t) = true :=
          List.all_eq_true.mpr (inRange old found)
        refine .of_wrote (.sealed (some (runId, generation))) ?_ ?_
          (mirrors.revise (a := a) (named ▸ found) frozen well)
        · simp [InMemory.step, InMemory.sealAttempt, found, frozen, empty, Stores.revise, a]
        · simp only [Postgres.step, Postgres.sealAttempt, isInt, row, Attempt.row, frozen, empty,
            bigints, earliestT_least empty, fidelity_eq]
          simp [Stores.revise, a, named, Attempt.row]
    · refine .of_same (.sealed none) ?_ ?_
      · simp [InMemory.step, InMemory.sealAttempt, found, frozen]
      · simp [Postgres.step, Postgres.sealAttempt, isInt, row, Attempt.row, frozen]

/-- The sealed attempt a read answers: the one that is named, or the newest. -/
def sealedAttempt (m : InMemory) (runId : String) : Option Int → Option Attempt
  | none => ((attemptsOf m runId).filter fun a => a.sealed.isSome).getLast?
  | some generation =>
      ((attemptsOf m runId).filter fun a => a.sealed.isSome).find? fun a =>
        a.generation = generation

theorem get_eq (m : InMemory) (runId : String) (generation : Option Int) :
    InMemory.get m runId generation =
      (sealedAttempt m runId generation).bind (recording runId) := by
  cases generation <;> rfl

theorem Mirrors.newest_sealed (mirrors : Mirrors s) (generation : Option Int) :
    Postgres.newest s.postgres runId generation RecordingRow.sealed =
      (sealedAttempt s.memory runId generation).map Attempt.row := by
  rw [mirrors.newest]
  cases generation with
  | none => simp [sealedAttempt, Attempt.row]
  | some generation =>
      simp only [sealedAttempt, Option.all_some, Attempt.row]
      rw [last_generation (mirrors.rising runId)]

theorem Mirrors.newest_any (mirrors : Mirrors s) (generation : Option Int) :
    Postgres.newest s.postgres runId generation (fun _ => true) =
      (addressed s.memory runId generation).map Attempt.row := by
  rw [mirrors.newest]
  cases generation with
  | none => simp [addressed]
  | some generation =>
      simp only [addressed, attempt, Option.all_some]
      rw [last_generation (mirrors.rising runId) fun _ => true, List.filter_true]

theorem Mirrors.get_alike (mirrors : Mirrors s) {generation : Option Int}
    (named : Postgres.named generation = true) :
    Postgres.get s.postgres runId generation = .read (InMemory.get s.memory runId generation) := by
  unfold Postgres.get
  rw [mirrors.newest_sealed, get_eq, named]
  rcases sealedAttempt s.memory runId generation with _ | a
  · rfl
  · rcases frozen : a.sealed with _ | sealed <;>
      simp [Attempt.row, recording, frozen]

theorem Mirrors.get_of_sealed (mirrors : Mirrors s)
    (found : attempt s.memory runId generation = some a) (sealed : a.sealed.isSome) :
    InMemory.get s.memory runId (some generation) = recording runId a := by
  obtain ⟨member, same⟩ := mirrors.attempt_iff.mp found
  rw [get_eq]
  have there : sealedAttempt s.memory runId (some generation) = some a :=
    (find_generation ((mirrors.rising runId).sublist List.filter_sublist)).mpr
      ⟨List.mem_filter.mpr ⟨member, sealed⟩, same⟩
  rw [there]
  rfl

theorem addressed_mem {m : InMemory} {generation : Option Int}
    (found : addressed m runId generation = some a) : a ∈ attemptsOf m runId := by
  cases generation with
  | none => exact List.mem_of_getLast? found
  | some generation => exact List.mem_of_find?_eq_some found

theorem Mirrors.peek_alike (mirrors : Mirrors s) {generation : Option Int}
    (named : Postgres.named generation = true) (peekable : Peekable s runId generation) :
    Postgres.peek s.postgres runId generation =
      .read (InMemory.peek s.memory runId generation) := by
  unfold Postgres.peek InMemory.peek
  rw [mirrors.newest_any, named]
  rcases found : addressed s.memory runId generation with _ | a
  · rfl
  · have some' := peekable a found
    have here : attempt s.memory runId a.generation = some a :=
      mirrors.attempt_iff.mpr ⟨addressed_mem found, rfl⟩
    rcases frozen : a.sealed with _ | sealed
    · simp [Attempt.row, frozen, earliestT_least some', fidelity_eq]
    · have recorded := mirrors.get_of_sealed here (by rw [frozen]; rfl)
      simp [Attempt.row, frozen, earliestT_least some', recorded, recording]

theorem Mirrors.agrees (mirrors : Mirrors s) (sound : Sound s call) : Agrees s call := by
  cases call with
  | openAttempt runId generation =>
      cases generation with
      | none => exact mirrors.opens_minted sound
      | some generation => exact mirrors.opens_named sound
  | append runId item generation => exact mirrors.appends sound
  | sealAttempt runId asked generation => exact mirrors.seals sound
  | get runId generation =>
      have alike : Postgres.get s.postgres runId generation = _ := mirrors.get_alike sound
      exact .of_same _ rfl (by rw [← alike]; rfl)
  | peek runId generation =>
      have alike := mirrors.peek_alike sound.1 sound.2
      exact .of_same _ rfl (by rw [← alike]; rfl)

/-! ## Runs of both stores -/

/-- The stores mirror one another, and what their seals froze is true. -/
structure Kept (s : Stores) : Prop where
  mirrors : Mirrors s
  well : ∀ runId generation a, attempt s.memory runId generation = some a → a.WellSealed

theorem kept_empty : Kept Stores.empty := ⟨mirrors_empty, fun _ _ _ found => by cases found⟩

theorem Kept.write (kept : Kept s) (write : Write s t) : Kept t := by
  rcases write with rfl | ⟨runId, a, w⟩
  · exact kept
  · refine ⟨kept.mirrors.wrote w, fun other generation b found => ?_⟩
    by_cases same : (other, generation) = (runId, a.generation)
    · obtain ⟨rfl, rfl⟩ := Prod.mk.inj same
      rw [w.attempt, if_pos rfl] at found
      exact Option.some.inj found ▸ w.well
    · rw [w.attempt_of_ne same] at found
      exact kept.well other generation b found

/-- A sealed attempt is in no write. -/
theorem Write.final (write : Write s t) (found : attempt s.memory runId generation = some a)
    (sealed : a.sealed.isSome) : attempt t.memory runId generation = some a := by
  rcases write with rfl | ⟨other, b, w⟩
  · exact found
  · by_cases same : (runId, generation) = (other, b.generation)
    · obtain ⟨rfl, rfl⟩ := Prod.mk.inj same
      rw [w.live a found] at sealed
      cases sealed
    · rw [w.attempt_of_ne same]
      exact found

theorem Kept.step (kept : Kept s) {outcome : Outcome} (sound : Sound s call)
    (eq : machine s call = some (t, outcome)) :
    Write s t ∧ outcome.memory = outcome.postgres := by
  obtain ⟨after, answer, agreed, write⟩ := kept.mirrors.agrees sound
  rw [agreed] at eq
  obtain ⟨rfl, rfl⟩ := Prod.mk.inj (Option.some.inj eq)
  exact ⟨write, rfl⟩

theorem Kept.run (kept : Kept s) (run : Runs machine Sound s log t) : Kept t :=
  run.state_invariant kept fun _ _ _ _ before sound eq => before.write (before.step sound eq).1

theorem Kept.final (kept : Kept s) (run : Runs machine Sound s log t)
    (found : attempt s.memory runId generation = some a) (sealed : a.sealed.isSome) :
    attempt t.memory runId generation = some a := by
  have all := run.state_invariant
    (I := fun t => Kept t ∧ attempt t.memory runId generation = some a) ⟨kept, found⟩ ?_
  · exact all.2
  · intro s call t outcome before sound eq
    have write := (before.1.step sound eq).1
    exact ⟨before.1.write write, write.final before.2 sealed⟩

/-- A sealed row says of its entries what a seal froze. -/
def RecordingRow.WellSealed (row : RecordingRow) : Prop :=
  row.sealed = true → ∃ frozen : SealedMeta, row.t0 = some frozen.t0 ∧
    row.effectiveFidelity = some frozen.effectiveFidelity ∧ frozen.TrueOf row.tracks

theorem Attempt.WellSealed.row (well : a.WellSealed) : a.row.WellSealed := by
  intro sealed
  obtain ⟨frozen, eq⟩ := Option.isSome_iff_exists.mp sealed
  exact ⟨frozen, by simp [Attempt.row, eq], by simp [Attempt.row, eq], well frozen eq⟩

/-- The newest of the sealed attempts of a run. -/
def NewestSealed (m : InMemory) (runId : String) (a : Attempt) : Prop :=
  a ∈ attemptsOf m runId ∧ a.sealed.isSome ∧
    ∀ b ∈ attemptsOf m runId, b.sealed.isSome → b.generation ≤ a.generation

theorem Mirrors.get_newest (mirrors : Mirrors s) (newest : NewestSealed s.memory runId a) :
    InMemory.get s.memory runId none = recording runId a := by
  obtain ⟨member, sealed, greatest⟩ := newest
  have inside : a ∈ (attemptsOf s.memory runId).filter fun a => a.sealed.isSome :=
    List.mem_filter.mpr ⟨member, sealed⟩
  have rising : Rising ((attemptsOf s.memory runId).filter fun a => a.sealed.isSome) :=
    (mirrors.rising runId).sublist List.filter_sublist
  rw [get_eq]
  simp only [sealedAttempt]
  rcases last : ((attemptsOf s.memory runId).filter fun a => a.sealed.isSome).getLast? with _ | b
  · rw [List.getLast?_eq_none_iff.mp last] at inside
    exact absurd inside List.not_mem_nil
  · obtain ⟨earlier, split⟩ := List.getLast?_eq_some_iff.mp last
    obtain ⟨there, sealed'⟩ := List.mem_filter.mp (List.mem_of_getLast? last)
    rw [split] at inside rising
    rcases List.mem_append.mp inside with before | here
    · have less := (List.pairwise_append.mp rising).2.2 a before b (by simp)
      exact absurd (greatest b there sealed') (Int.not_le.mpr less)
    · rw [last, List.mem_singleton.mp here]
      rfl

/-- Two stores that answer alike and hold the same attempts,
of which a sealed one stays as it is. -/
structure Replays (log : List (Call × Outcome)) (s : Stores) : Prop where
  alike : ∀ e ∈ log, e.2.memory = e.2.postgres
  rows : ∀ runId generation, Table.get s.postgres (runId, generation) =
    (attempt s.memory runId generation).map Attempt.row
  final : ∀ rest t, Runs machine Sound s rest t → ∀ runId generation a,
    attempt s.memory runId generation = some a → a.sealed.isSome →
      attempt t.memory runId generation = some a
  finalRow : ∀ rest t, Runs machine Sound s rest t → ∀ runId generation row,
    Table.get s.postgres (runId, generation) = some row → row.sealed = true →
      Table.get t.postgres (runId, generation) = some row
  metadata : ∀ runId generation a, attempt s.memory runId generation = some a → a.WellSealed
  metadataRow : ∀ runId generation row, Table.get s.postgres (runId, generation) = some row →
    row.WellSealed
  newest : ∀ runId a, NewestSealed s.memory runId a →
    InMemory.get s.memory runId none = recording runId a ∧
      Postgres.get s.postgres runId none = .read (recording runId a)

theorem alike_run (run : Runs machine Sound Stores.empty log s) :
    ∀ e ∈ log, e.2.memory = e.2.postgres := by
  have all := run.invariant
    (I := fun log s => Kept s ∧ ∀ e ∈ log, e.2.memory = e.2.postgres)
    ⟨kept_empty, fun _ member => absurd member List.not_mem_nil⟩ ?_
  · exact all.2
  · intro log s call t outcome before sound eq
    obtain ⟨write, same⟩ := before.1.step sound eq
    refine ⟨before.1.write write, fun e member => ?_⟩
    rcases List.mem_append.mp member with earlier | here
    · exact before.2 e earlier
    · rw [List.mem_singleton.mp here]
      exact same

/-- The two stores are one and a sealed recording is final, in a run of sound calls. -/
theorem sealed_recording_final (run : Runs machine Sound Stores.empty log s) : Replays log s := by
  have kept := kept_empty.run run
  have from' : ∀ runId generation row, Table.get s.postgres (runId, generation) = some row →
      ∃ a, attempt s.memory runId generation = some a ∧ a.row = row := by
    intro runId generation row found
    rw [kept.mirrors.rows] at found
    exact Option.map_eq_some_iff.mp found
  refine ⟨alike_run run, kept.mirrors.rows, ?_, ?_, kept.well, ?_, ?_⟩
  · intro rest t after runId generation a found sealed
    exact kept.final after found sealed
  · intro rest t after runId generation row found sealed
    obtain ⟨a, there, rfl⟩ := from' runId generation row found
    rw [(kept.run after).mirrors.rows, kept.final after there sealed]
    rfl
  · intro runId generation row found
    obtain ⟨a, there, rfl⟩ := from' runId generation row found
    exact (kept.well runId generation a there).row
  · intro runId a newest
    have inMemory := kept.mirrors.get_newest newest
    refine ⟨inMemory, ?_⟩
    rw [← inMemory]
    exact kept.mirrors.get_alike rfl

/-- An attempt is opened, a frame is appended, it is sealed and read. -/
theorem sealed_recording_final_one_frame :
    ∃ log s, Runs machine Sound Stores.empty log s ∧
      (InMemory.get s.memory "r" none).isSome ∧ Replays log s := by
  have r1 : Runs machine Sound Stores.empty ([] ++ [(.openAttempt "r" (some 3), _)]) _ :=
    .tail .refl rfl rfl
  have r2 : Runs machine Sound Stores.empty
      (_ ++ [(.append "r" ⟨.frames, ⟨12, "{}"⟩⟩ 3, _)]) _ := .tail r1 rfl rfl
  have r3 : Runs machine Sound Stores.empty
      (_ ++ [(.sealAttempt "r" ⟨"browser", none⟩ 3, _)]) _ := .tail r2 ⟨rfl, by
    intro rec' found
    obtain rfl := Option.some.inj found
    decide⟩ rfl
  have r4 : Runs machine Sound Stores.empty (_ ++ [(.get "r" none, _)]) _ := .tail r3 rfl rfl
  exact ⟨_, _, r4, rfl, sealed_recording_final r4⟩

/-- A peek at an attempt that was opened and holds nothing: the store in memory answers an empty
recording that began at 0, the store in Postgres none. -/
theorem empty_attempt_parts_the_stores :
    ∃ log s, Runs machine Always Stores.empty log s ∧
      ∃ e ∈ log, e.2.memory ≠ e.2.postgres := by
  have r : Runs machine Always Stores.empty _ _ := runs_of_exec _ _ _
    [.openAttempt "r" none, .peek "r" none] rfl
  exact ⟨_, _, r, _, List.mem_cons_of_mem _ List.mem_cons_self,
    fun same => Option.some_ne_none _ (Answer.read.inj same)⟩

end Everdict.Recording
