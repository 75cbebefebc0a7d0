import Mathlib.Data.List.Find
import Mathlib.Data.Prod.Lex
import Everdict.Election
import Everdict.Scorecard.Verdict

/-!
# The rows that decide a verdict

Under a structured policy a verdict is an election: the duplicates of a key stand where
the first of them stands, at a rung of the authority order, at the fallback or nowhere,
and the keys that stand highest decide.  `evaluateVerdict_cases` says so of the evaluation.
-/

namespace Everdict.Scorecard

open Election

variable {policy : VerdictPolicy} {scores : List Score} {k : String}

/-! ## The groups of a key -/

/-- A measured row with a pass, as the deciding value it would be alone. -/
def voteOf (structured : Bool) (score : Score) : Option Decider :=
  score.measured?.bind fun score => score.pass.map fun pass => {
    metric := score.metric
    graderId := score.graderId
    pass := pass
    measurement := if structured then score.measurement else none }

def votes (structured : Bool) (scores : List Score) : List Decider :=
  scores.filterMap (voteOf structured)

def Decider.key (c : Decider) : String := dedupeKey c.measurement c.metric

theorem toList_jsonArray (a b c d : String) :
    (Text.jsonArray [a, b, c, d]).toList =
      '[' :: (a.toList ++ ',' :: (b.toList ++ ',' :: (c.toList ++ ',' :: (d.toList ++ [']'])))) := by
  simp [Text.jsonArray]

/-- Rows of one key have the same coordinates. -/
theorem dedupeKey_inj {m m' : MeasurementIdentity} {metric metric' : String}
    (same : dedupeKey (some m) metric = dedupeKey (some m') metric') : m = m' := by
  obtain ⟨⟨kind, id⟩, name, criterion⟩ := m
  obtain ⟨⟨kind', id'⟩, name', criterion'⟩ := m'
  have chars := congrArg String.toList same
  simp only [dedupeKey, toList_jsonArray, List.cons.injEq, true_and] at chars
  obtain ⟨kinds, chars⟩ := Text.json_append_inj chars
  obtain ⟨ids, chars⟩ := Text.json_append_inj (List.cons.inj chars).2
  obtain ⟨names, chars⟩ := Text.json_append_inj (List.cons.inj chars).2
  have kinds : kind = kind' := by
    cases kind <;> cases kind' <;> first | rfl | exact absurd kinds (by decide)
  have criteria : criterion = criterion' := by
    have last := (List.cons.inj chars).2
    cases criterion with
    | none =>
        cases criterion' with
        | none => rfl
        | some c' => simp [Text.toList_json] at last
    | some c =>
        cases criterion' with
        | none => simp [Text.toList_json] at last
        | some c' => rw [(Text.json_append_inj last).1]
  rw [kinds, ids, names, criteria]

/-- One more vote among the groups. -/
def addVote (grouped : Table String Decider) (c : Decider) : Table String Decider :=
  match grouped.get c.key with
  | some previous =>
      if !c.pass && previous.pass then
        grouped.set c.key { previous with pass := false, graderId := c.graderId }
      else grouped
  | none => grouped.set c.key c

theorem dedupeStep_eq (structured : Bool) (grouped : Table String Decider) (score : Score) :
    dedupeStep structured grouped score =
      ((voteOf structured score).map (addVote grouped)).getD grouped := by
  rcases measured : score.measured? with _ | row
  · simp [dedupeStep, voteOf, measured]
  rcases passes : row.pass with _ | pass
  · simp [dedupeStep, voteOf, measured, passes]
  · simp only [dedupeStep, voteOf, measured, passes, Option.bind_some, Option.map_some,
      Option.getD_some]
    rfl

theorem foldl_dedupeStep (structured : Bool) (scores : List Score)
    (grouped : Table String Decider) :
    scores.foldl (dedupeStep structured) grouped =
      (votes structured scores).foldl addVote grouped := by
  induction scores generalizing grouped with
  | nil => rfl
  | cons score scores ih =>
      rw [List.foldl_cons, ih, dedupeStep_eq]
      rcases vote : voteOf structured score with _ | c
      · simp [votes, vote]
      · simp [votes, vote]

/-- The groups the duplicates of a list of votes form. -/
def groupVotes (rows : List Decider) : Table String Decider := rows.foldl addVote .empty

theorem dedupeByMetric_eq (structured : Bool) (scores : List Score) :
    dedupeByMetric scores structured = (groupVotes (votes structured scores)).values := by
  rw [dedupeByMetric, foldl_dedupeStep, groupVotes]

/-- What a group says: where it stands by, and whether it passes. -/
def Decider.reading (d : Decider) : String × Option MeasurementIdentity × Bool :=
  (d.metric, d.measurement, d.pass)

/-- What the rows of a key say together. -/
def saidOf (rows : List Decider) (k : String) :
    Option (String × Option MeasurementIdentity × Bool) :=
  (first Decider.key rows k).map fun c =>
    (c.metric, c.measurement, unanimous Decider.key Decider.pass rows k)

/-- The group of a key stands for its first row and passes when all its rows do. -/
theorem get_groupVotes (rows : List Decider) (k : String) :
    ((groupVotes rows).get k).map Decider.reading = saidOf rows k := by
  induction rows using List.reverseRecOn generalizing k with
  | nil => rfl
  | append_singleton rows c ih =>
      have said := ih c.key
      have step : groupVotes (rows ++ [c]) = addVote (groupVotes rows) c := by
        simp [groupVotes]
      rw [step]
      by_cases same : c.key = k
      · subst same
        rw [saidOf, first_append_singleton, unanimous_append_singleton]
        rw [saidOf] at said
        rcases found : (groupVotes rows).get c.key with _ | d
        · rw [found, Option.map_none, eq_comm, Option.map_eq_none_iff] at said
          have none : rows.filter (fun x => x.key = c.key) = [] := by
            simpa using first_eq_none.mp said
          simp [addVote, found, said, Table.get_set, unanimous, none, Decider.reading]
        · rcases isFirst : first Decider.key rows c.key with _ | x
          · simp [found, isFirst] at said
          · simp only [found, isFirst, Option.map_some, Option.some.injEq, Decider.reading,
              Prod.mk.injEq] at said
            obtain ⟨metric, measurement, pass⟩ := said
            simp only [addVote, found, Option.some_or, Option.map_some, ← pass]
            rcases c.pass with _ | _ <;> rcases isPass : d.pass with _ | _ <;>
              simp [Table.get_set, found, Decider.reading, metric, measurement, isPass]
      · have kept : (addVote (groupVotes rows) c).get k = (groupVotes rows).get k := by
          unfold addVote
          split
          · split
            · rw [Table.get_set, if_neg (Ne.symm same)]
            · rfl
          · rw [Table.get_set, if_neg (Ne.symm same)]
        rw [kept, ih, saidOf, saidOf, first_append_singleton, unanimous_append_singleton]
        simp [same]

/-! ## The groups in order -/

def groups (rows : List Decider) : List Decider := (groupVotes rows).values

theorem key_congr {c d : Decider} (metric : d.metric = c.metric)
    (measurement : d.measurement = c.measurement) : d.key = c.key := by
  rw [Decider.key, Decider.key, metric, measurement]

variable {rows : List Decider} {d : Decider}

/-- What the group under a key stands by and says. -/
theorem group_of_get (found : (groupVotes rows).get k = some d) :
    d.key = k ∧ ∃ c, first Decider.key rows k = some c ∧ d.metric = c.metric
      ∧ d.measurement = c.measurement
      ∧ d.pass = unanimous Decider.key Decider.pass rows k := by
  have said := get_groupVotes rows k
  rw [found, saidOf] at said
  rcases isFirst : first Decider.key rows k with _ | c
  · simp [isFirst] at said
  · simp only [isFirst, Option.map_some, Option.some.injEq, Decider.reading, Prod.mk.injEq] at said
    obtain ⟨metric, measurement, pass⟩ := said
    refine ⟨?_, c, rfl, metric, measurement, pass⟩
    rw [key_congr metric measurement, (mem_of_first isFirst).2]

theorem get_of_mem_groups (mem : d ∈ groups rows) :
    (groupVotes rows).get d.key = some d := by
  obtain ⟨k, found⟩ := Table.mem_values.mp mem
  rwa [(group_of_get found).1]

variable {c : Decider}

theorem exists_group (isFirst : first Decider.key rows k = some c) :
    ∃ d ∈ groups rows, d.key = k ∧ d.metric = c.metric ∧ d.measurement = c.measurement
      ∧ d.pass = unanimous Decider.key Decider.pass rows k := by
  have said := get_groupVotes rows k
  rw [saidOf, isFirst] at said
  rcases found : (groupVotes rows).get k with _ | d
  · simp [found] at said
  · obtain ⟨isKey, c', isFirst', metric, measurement, pass⟩ := group_of_get found
    rw [isFirst, Option.some.injEq] at isFirst'
    subst isFirst'
    exact ⟨d, Table.mem_values.mpr ⟨k, found⟩, isKey, metric, measurement, pass⟩

theorem groups_keys_nodup (rows : List Decider) : ((groups rows).map Decider.key).Nodup := by
  have keys : (groups rows).map Decider.key = (groupVotes rows).entries.map Prod.fst := by
    rw [groups, Table.values, List.map_map]
    apply List.map_congr_left
    intro e mem
    exact (group_of_get (Table.get_eq_some.mpr mem)).1
  rw [keys]
  exact (groupVotes rows).nodup

/-- The first group that meets a test is that of the first row whose group does. -/
theorem find_groups {q : Decider → Bool}
    (congr : ∀ c d : Decider, d.metric = c.metric → d.measurement = c.measurement → q d = q c)
    (rows : List Decider) :
    ((groups rows).find? q).map Decider.key =
      (rows.find? fun c => (first Decider.key rows c.key).any q).map Decider.key := by
  induction rows using List.reverseRecOn with
  | nil => rfl
  | append_singleton rows c ih =>
      have step : groups (rows ++ [c]) = (addVote (groupVotes rows) c).values := by
        simp [groups, groupVotes]
      have tested : ∀ xs : List Decider, (xs.find? q).map Decider.key =
          ((xs.map fun d => (q d, d.key)).find? Prod.fst).map Prod.snd := by
        intro xs
        rw [List.find?_map, Option.map_map]
        rfl
      have before : rows.find? (fun x => (first Decider.key (rows ++ [c]) x.key).any q) =
          rows.find? fun x => (first Decider.key rows x.key).any q := by
        apply List.find?_congr
        intro x mem
        obtain ⟨y, found⟩ := exists_first Decider.key mem
        rw [first_append_singleton, found, Option.some_or]
      rw [step, List.find?_append, before]
      rcases found : (groupVotes rows).get c.key with _ | d
      · -- a new key: its group stands by the row itself
        have isNew : first Decider.key rows c.key = none := by
          have said := get_groupVotes rows c.key
          rw [found, saidOf, Option.map_none, eq_comm, Option.map_eq_none_iff] at said
          exact said
        have appended : (addVote (groupVotes rows) c).values = groups rows ++ [c] := by
          simp only [addVote, found]
          exact Table.values_set_of_none found c
        rw [appended, List.find?_append, Option.map_or, ih, Option.map_or]
        simp [first_append_singleton, isNew, List.find?_singleton]
      · -- a known key: its group keeps standing by its first row
        obtain ⟨-, x, isFirst, metric, measurement, -⟩ := group_of_get found
        have kept : ((addVote (groupVotes rows) c).values.map fun d => (q d, d.key)) =
            (groups rows).map fun d => (q d, d.key) := by
          simp only [addVote, found]
          split
          · apply Table.map_values_set _ found
            exact Prod.ext (congr d _ rfl rfl) (key_congr rfl rfl)
          · rfl
        rw [tested, kept, ← tested, ih]
        rcases earlier : rows.find? (fun x => (first Decider.key rows x.key).any q) with _ | y
        · have untested := List.find?_eq_none.mp earlier x (mem_of_first isFirst).1
          rw [(mem_of_first isFirst).2, isFirst] at untested
          simp [first_append_singleton, isFirst, List.find?_singleton] at untested ⊢
          simp [untested]
        · rw [earlier, Option.some_or]

/-! ## Standing -/

/-- Where a row stands by its first definition. -/
inductive Standing where
  | rung (authority : DecidingAuthority) (index : Nat)
  | undeclared
  | silent
  deriving DecidableEq

def standingOf (definition : MetricDefinition) (index : Nat) : Standing :=
  if definition.verdictRole = some .diagnostic ∨ definition.verdictRole = some .excluded then
    .silent
  else
    match definition.authority with
    | .groundTruth => .rung .groundTruth index
    | .objective => .rung .objective index
    | .judge => .rung .judge index
    | .observational => .silent

def standing (policy : VerdictPolicy) (c : Decider) : Standing :=
  match matched policy true c with
  | none => .undeclared
  | some index => ((policy.metrics[index]?).map fun d => standingOf d index).getD .silent

def rungOrder (policy : VerdictPolicy) : List DecidingAuthority :=
  (policy.authorityOrder.map AuthorityOrder.order).getD DEFAULT_AUTHORITY_ORDER

/-- The rungs in their order, then the fallback, then what never decides. -/
def Standing.level (policy : VerdictPolicy) : Standing → Nat
  | .rung authority _ => (rungOrder policy).idxOf authority
  | .undeclared => if policy.fallback = none then 4 else 3
  | .silent => 4

/-- Inside a rung that goes by priority, the definitions in their order. -/
def Standing.place (policy : VerdictPolicy) : Standing → Nat
  | .rung authority index => if policy.rungs.of authority = .priority then index else 0
  | .undeclared => 0
  | .silent => 0

def Standing.rank (policy : VerdictPolicy) (s : Standing) : ℕ ×ₗ ℕ :=
  toLex (s.level policy, s.place policy)

def level (policy : VerdictPolicy) (c : Decider) : Nat := (standing policy c).level policy

def rank (policy : VerdictPolicy) (c : Decider) : ℕ ×ₗ ℕ := (standing policy c).rank policy

/-- The level of a rank. -/
def levelOf (r : ℕ ×ₗ ℕ) : Nat := (ofLex r).1

@[simp]
theorem levelOf_rank (policy : VerdictPolicy) (c : Decider) :
    levelOf (rank policy c) = level policy c := rfl

theorem standing_congr {c d : Decider} (metric : d.metric = c.metric)
    (measurement : d.measurement = c.measurement) : standing policy d = standing policy c := by
  have same : d.matches true = c.matches true := by
    funext definition
    rw [Decider.matches, Decider.matches, metric, measurement]
  rw [standing, standing, matched, matched, same]

theorem rank_congr (policy : VerdictPolicy) {c d : Decider} (metric : d.metric = c.metric)
    (measurement : d.measurement = c.measurement) : rank policy d = rank policy c := by
  rw [rank, rank, standing_congr metric measurement]

theorem nodup_rungOrder (policy : VerdictPolicy) : (rungOrder policy).Nodup := by
  rcases ordered : policy.authorityOrder with _ | order
  · simp [rungOrder, ordered, DEFAULT_AUTHORITY_ORDER]
  · simpa [rungOrder, ordered] using order.nodup

theorem length_rungOrder (policy : VerdictPolicy) : (rungOrder policy).length = 3 := by
  rcases ordered : policy.authorityOrder with _ | order
  · simp [rungOrder, ordered, DEFAULT_AUTHORITY_ORDER]
  · simpa [rungOrder, ordered] using order.length

theorem mem_rungOrder (policy : VerdictPolicy) (a : DecidingAuthority) :
    a ∈ rungOrder policy := by
  have distinct := nodup_rungOrder policy
  have three := length_rungOrder policy
  generalize rungOrder policy = order at distinct three
  obtain ⟨x, y, z, rfl⟩ := List.length_eq_three.mp three
  cases x <;> cases y <;> cases z <;> simp at distinct <;> cases a <;> simp

theorem idxOf_lt_three (policy : VerdictPolicy) (a : DecidingAuthority) :
    (rungOrder policy).idxOf a < 3 := by
  rw [← length_rungOrder policy]
  exact List.idxOf_lt_length_of_mem (mem_rungOrder policy a)

/-- The first definition of a row, by its index and by itself. -/
theorem matched_cases (policy : VerdictPolicy) (c : Decider) :
    matched policy true c = none ∧ policy.metrics.find? (c.matches true) = none
      ∨ ∃ index d, matched policy true c = some index ∧ policy.metrics[index]? = some d
        ∧ policy.metrics.find? (c.matches true) = some d := by
  have byIndex : policy.metrics.find? (c.matches true) =
      (policy.metrics.findIdx? (c.matches true)).bind (policy.metrics[·]?) :=
    List.find?_eq_bind_findIdx?_getElem?
  rcases found : matched policy true c with _ | index
  · left
    rw [matched] at found
    rw [byIndex, found]
    exact ⟨rfl, rfl⟩
  · right
    rw [matched] at found
    obtain ⟨inside, -⟩ := List.findIdx?_eq_some_iff_getElem.mp found
    refine ⟨index, policy.metrics[index], rfl, List.getElem?_eq_getElem inside, ?_⟩
    rw [byIndex, found, Option.bind_some, List.getElem?_eq_getElem inside]

variable {a : DecidingAuthority}

/-- A row stands at a rung when it may decide and its first definition is of that rung. -/
theorem standing_eq_rung {index : Nat} :
    standing policy c = .rung a index ↔
      isCandidate policy true c = true ∧ matched policy true c = some index
        ∧ (policy.metrics[index]?).map MetricDefinition.authority = some a.authority := by
  rcases matched_cases policy c with ⟨unmatched, -⟩ | ⟨i, d, isMatched, there, found⟩
  · simp [standing, unmatched]
  · simp only [standing, isMatched, there, Option.map_some, Option.getD_some, standingOf,
      isCandidate, found, Option.bind_some, Option.some.injEq, Bool.and_eq_true, decide_eq_true_eq]
    by_cases inert : d.verdictRole = some .diagnostic ∨ d.verdictRole = some .excluded
    · simp only [inert, if_true]
      constructor
      · intro eq
        cases eq
      · rintro ⟨⟨notDiagnostic, notExcluded⟩, -⟩
        rcases inert with diagnostic | excluded
        · exact absurd diagnostic notDiagnostic
        · exact absurd excluded notExcluded
    · have decides := not_or.mp inert
      simp only [decides, not_false_eq_true, and_self, true_and, ne_eq]
      constructor
      · intro eq
        rcases authority : d.authority <;> rw [authority] at eq <;> cases eq <;>
          exact ⟨rfl, by rw [there, Option.map_some, authority]; rfl⟩
      · rintro ⟨rfl, authority⟩
        rw [there, Option.map_some, Option.some.injEq] at authority
        rw [authority]
        cases a <;> rfl

theorem standing_eq_undeclared :
    standing policy c = .undeclared ↔
      isCandidate policy true c = true ∧ matched policy true c = none := by
  rcases matched_cases policy c with ⟨unmatched, found⟩ | ⟨i, d, isMatched, there, found⟩
  · simp [standing, unmatched, isCandidate, found]
  · simp only [standing, isMatched, there, Option.map_some, Option.getD_some, standingOf,
      reduceCtorEq, and_false, iff_false]
    split
    · exact fun eq => by cases eq
    · cases d.authority <;> exact fun eq => by cases eq

theorem level_le_of_rank_le {c d : Decider} (le : rank policy c ≤ rank policy d) :
    level policy c ≤ level policy d := by
  rw [rank, rank, Standing.rank, Standing.rank, Prod.Lex.toLex_le_toLex] at le
  rcases le with less | ⟨same, -⟩
  · exact Nat.le_of_lt less
  · exact Nat.le_of_eq same

theorem level_le_four (policy : VerdictPolicy) (c : Decider) : level policy c ≤ 4 := by
  rw [level]
  rcases standing policy c with ⟨a, index⟩ | _ | _
  · have := idxOf_lt_three policy a
    simp only [Standing.level]
    omega
  · simp only [Standing.level]
    split <;> omega
  · exact Nat.le_refl 4

/-- A row that decides nothing stands behind every row. -/
theorem rank_le_of_silent (silent : ¬level policy c < 4) (d : Decider) :
    rank policy d ≤ rank policy c := by
  have four : level policy c = 4 := by
    have := level_le_four policy c
    omega
  have le := level_le_four policy d
  rw [rank, rank, Standing.rank, Standing.rank, Prod.Lex.toLex_le_toLex]
  rcases Nat.lt_or_eq_of_le le with less | same
  · left
    change level policy d < level policy c
    omega
  · right
    refine ⟨?_, ?_⟩
    · change level policy d = level policy c
      omega
    · rw [level] at same
      rcases stands : standing policy d with ⟨a, index⟩ | _ | _
      · have := idxOf_lt_three policy a
        rw [stands, Standing.level] at same
        omega
      · exact Nat.zero_le _
      · exact Nat.zero_le _

/-- The rows of the rank of a row that stands at a rung. -/
theorem rank_eq_iff_of_rung {c d : Decider} {index : Nat}
    (stands : standing policy c = .rung a index) :
    rank policy d = rank policy c ↔ ∃ j, standing policy d = .rung a j
      ∧ (policy.rungs.of a = .priority → j = index) := by
  have three := idxOf_lt_three policy a
  rw [rank, rank, stands, Standing.rank, Standing.rank, toLex_inj, Prod.mk.injEq]
  rcases other : standing policy d with ⟨b, j⟩ | _ | _
  · simp only [Standing.level, Standing.place, Standing.rung.injEq]
    constructor
    · rintro ⟨sameLevel, sameIndex⟩
      have same := (List.idxOf_inj (mem_rungOrder policy b)).mp sameLevel
      subst same
      refine ⟨j, ⟨rfl, rfl⟩, ?_⟩
      intro isPriority
      simpa [isPriority] using sameIndex
    · rintro ⟨i, ⟨rfl, rfl⟩, sameIndex⟩
      refine ⟨rfl, ?_⟩
      split
      · next isPriority => exact sameIndex isPriority
      · rfl
  · simp only [Standing.level, reduceCtorEq, false_and, exists_false, iff_false, not_and]
    intro same
    split at same <;> omega
  · simp only [Standing.level, reduceCtorEq, false_and, exists_false, iff_false, not_and]
    omega

/-! ## What the groups decide -/

/-- The evaluation of the groups, once the case may have a verdict. -/
def decision (policy : VerdictPolicy) (ds : List Decider) : VerdictEvaluation :=
  match decideRungs policy true (ds.filter (isCandidate policy true)) (rungOrder policy) with
  | some evaluation => evaluation
  | none => decideFallback policy true (ds.filter (isCandidate policy true))

/-- The deciders combined, where their order does not matter. -/
def tally (aggregation : VerdictAggregation) (ds : List Decider) : Bool :=
  match aggregation with
  | .priority => ds.all Decider.pass
  | .all => ds.all Decider.pass
  | .any => ds.any Decider.pass
  | .majority => (ds.filter Decider.pass).length * 2 > ds.length

theorem combine_eq_tally {aggregation : VerdictAggregation} (notPriority : aggregation ≠ .priority)
    (d : Decider) (ds : List Decider) : combine aggregation d ds = tally aggregation (d :: ds) := by
  cases aggregation
  · exact absurd rfl notPriority
  · rfl
  · rfl
  · rfl

theorem decideRungs_append {cs : List Decider} (before : List DecidingAuthority)
    (empty : ∀ b ∈ before, rungDeciders policy true cs b = []) (rest : List DecidingAuthority) :
    decideRungs policy true cs (before ++ rest) = decideRungs policy true cs rest := by
  induction before with
  | nil => rfl
  | cons b before ih =>
      have here := empty b List.mem_cons_self
      rw [List.cons_append, decideRungs, here]
      exact ih fun b mem => empty b (List.mem_cons_of_mem _ mem)

variable {ds : List Decider}

theorem mem_rungDeciders :
    c ∈ rungDeciders policy true (ds.filter (isCandidate policy true)) a ↔
      c ∈ ds ∧ ∃ index, standing policy c = .rung a index := by
  simp only [rungDeciders, List.mem_insertionSort, List.mem_filter, standing_eq_rung,
    Option.any_eq_true, decide_eq_true_eq]
  constructor
  · rintro ⟨⟨mem, candidate⟩, index, isMatched, authority⟩
    exact ⟨mem, index, candidate, isMatched, authority⟩
  · rintro ⟨mem, index, candidate, isMatched, authority⟩
    exact ⟨⟨mem, candidate⟩, index, isMatched, authority⟩

/-- The deciders of a rung come in the order of their definitions. -/
theorem rungDeciders_least {others : List Decider}
    (found : rungDeciders policy true (ds.filter (isCandidate policy true)) a = c :: others)
    (mem : d ∈ c :: others) :
    (matched policy true c).getD 0 ≤ (matched policy true d).getD 0 := by
  have sorted := List.pairwise_insertionSort
    (fun a b : Decider => (matched policy true a).getD 0 ≤ (matched policy true b).getD 0)
    ((ds.filter (isCandidate policy true)).filter fun c =>
      (matched policy true c).any fun idx =>
        (policy.metrics[idx]?).map MetricDefinition.authority = some a.authority)
  rw [rungDeciders] at found
  rw [found] at sorted
  rcases List.mem_cons.mp mem with rfl | inOthers
  · exact Nat.le_refl _
  · exact List.rel_of_pairwise_cons sorted inOthers

/-- The deciders of the first rung that has one decide. -/
theorem decision_of_rung {index : Nat} (mem : d ∈ ds) (stands : standing policy d = .rung a index)
    (best : ∀ c ∈ ds, rank policy d ≤ rank policy c) :
    ∃ deciders,
      decision policy ds =
          { verdict := some (tally (policy.rungs.of a) deciders)
            basis := some ⟨.rung a, policy.rungs.of a, deciders⟩ }
        ∧ (∀ c, c ∈ deciders ↔ c ∈ ds ∧ rank policy c = rank policy d)
        ∧ (ds.Nodup → deciders.Nodup) := by
  obtain ⟨before, after, split⟩ := List.append_of_mem (mem_rungOrder policy a)
  have distinct := nodup_rungOrder policy
  rw [split, List.nodup_append'] at distinct
  have notBefore : a ∉ before := fun inBefore =>
    distinct.2.2 inBefore List.mem_cons_self
  have atA : level policy d = before.length := by
    rw [level, stands, Standing.level, split, List.idxOf_append_of_notMem notBefore]
    simp
  have empty : ∀ b ∈ before,
      rungDeciders policy true (ds.filter (isCandidate policy true)) b = [] := by
    intro b inBefore
    apply List.eq_nil_iff_forall_not_mem.mpr
    intro c isDecider
    obtain ⟨inDs, j, standsB⟩ := mem_rungDeciders.mp isDecider
    have le := level_le_of_rank_le (best c inDs)
    have less := List.idxOf_lt_length_of_mem inBefore
    rw [atA, level, standsB, Standing.level, split, List.idxOf_append_of_mem inBefore] at le
    omega
  have here : d ∈ rungDeciders policy true (ds.filter (isCandidate policy true)) a :=
    mem_rungDeciders.mpr ⟨mem, index, stands⟩
  rw [decision, split, decideRungs_append before empty]
  rcases found : rungDeciders policy true (ds.filter (isCandidate policy true)) a with _ | ⟨c, others⟩
  · rw [found] at here
    cases here
  have isRung : ∀ x, x ∈ c :: others ↔ x ∈ ds ∧ ∃ j, standing policy x = .rung a j := by
    intro x
    rw [← found]
    exact mem_rungDeciders
  have nodup : ds.Nodup → (c :: others).Nodup := by
    intro distinct
    rw [← found, rungDeciders]
    exact (List.perm_insertionSort _ _).nodup_iff.mpr ((distinct.filter _).filter _)
  simp only [decideRungs, found, Bool.true_and, decide_eq_true_eq]
  by_cases isPriority : policy.rungs.of a = .priority
  · -- the first definition that has a decider is the one of the best rank
    obtain ⟨inDs, j, standsC⟩ := (isRung c).mp List.mem_cons_self
    have isMatched : ∀ {x i}, standing policy x = .rung a i → matched policy true x = some i :=
      fun standsX => (standing_eq_rung.mp standsX).2.1
    have same : j = index := by
      have le := best c inDs
      have least := rungDeciders_least found (by rw [← found]; exact here)
      rw [isMatched standsC, isMatched stands] at least
      rw [rank, rank, stands, standsC, Standing.rank, Standing.rank,
        Prod.Lex.toLex_le_toLex] at le
      simp only [Standing.level, Standing.place, isPriority, if_true] at le
      simp only [Option.getD_some] at least
      omega
    subst same
    refine ⟨(c :: others).filter fun x => matched policy true x = matched policy true c, ?_, ?_, ?_⟩
    · rw [if_pos isPriority, isPriority]
      rfl
    · intro x
      rw [List.mem_filter, isRung, decide_eq_true_eq, isMatched standsC,
        rank_eq_iff_of_rung stands]
      constructor
      · rintro ⟨⟨inX, i, standsX⟩, sameIndex⟩
        rw [isMatched standsX, Option.some.injEq] at sameIndex
        exact ⟨inX, i, standsX, fun _ => sameIndex⟩
      · rintro ⟨inX, i, standsX, sameIndex⟩
        refine ⟨⟨inX, i, standsX⟩, ?_⟩
        rw [isMatched standsX, sameIndex isPriority]
    · exact fun distinct => (nodup distinct).filter _
  · refine ⟨c :: others, ?_, ?_, nodup⟩
    · rw [if_neg isPriority, combine_eq_tally isPriority]
    · intro x
      rw [isRung, rank_eq_iff_of_rung stands]
      constructor
      · rintro ⟨inX, i, standsX⟩
        exact ⟨inX, i, standsX, fun holds => absurd holds isPriority⟩
      · rintro ⟨inX, i, standsX, -⟩
        exact ⟨inX, i, standsX⟩

theorem rungDeciders_eq_nil (noRung : ∀ d ∈ ds, ∀ a index, standing policy d ≠ .rung a index)
    (a : DecidingAuthority) :
    rungDeciders policy true (ds.filter (isCandidate policy true)) a = [] := by
  apply List.eq_nil_iff_forall_not_mem.mpr
  intro c isDecider
  obtain ⟨mem, index, stands⟩ := mem_rungDeciders.mp isDecider
  exact noRung c mem a index stands

/-- Where no rung has a decider, the fallback combines the undeclared groups, if any. -/
theorem decision_of_fallback (noRung : ∀ d ∈ ds, ∀ a index, standing policy d ≠ .rung a index) :
    (policy.fallback = none ∨ (ds.filter fun d => standing policy d = .undeclared) = [])
        ∧ decision policy ds = {}
      ∨ ∃ aggregation c others, policy.fallback = some aggregation
        ∧ (ds.filter fun d => standing policy d = .undeclared) = c :: others
        ∧ decision policy ds =
          { verdict := some (combine aggregation c others)
            basis := some ⟨.fallback, aggregation, c :: others⟩ } := by
  have skipped : decideRungs policy true (ds.filter (isCandidate policy true)) (rungOrder policy) =
      none := by
    have skips := decideRungs_append (rungOrder policy)
      (fun b _ => rungDeciders_eq_nil noRung b) []
    rwa [List.append_nil] at skips
  have undeclared : (ds.filter (isCandidate policy true)).filter
      (fun c => matched policy true c = none) =
      ds.filter fun d => standing policy d = .undeclared := by
    rw [List.filter_filter]
    apply List.filter_congr
    intro d _
    rw [Bool.eq_iff_iff]
    simp [standing_eq_undeclared, and_comm]
  rw [decision, skipped]
  simp only [decideFallback, undeclared]
  rcases policy.fallback with _ | aggregation
  · exact Or.inl ⟨Or.inl rfl, rfl⟩
  · rcases ds.filter (fun d => standing policy d = .undeclared) with _ | ⟨c, others⟩
    · exact Or.inl ⟨Or.inr rfl, rfl⟩
    · exact Or.inr ⟨aggregation, c, others, rfl, rfl, rfl⟩

/-! ## What the rows decide -/

def authorityAt (policy : VerdictPolicy) (l : Nat) : VerdictAuthority :=
  (((rungOrder policy)[l]?).map .rung).getD .fallback

def aggregationAt (policy : VerdictPolicy) (l : Nat) : VerdictAggregation :=
  (((rungOrder policy)[l]?).map policy.rungs.of).getD (policy.fallback.getD .all)

/-- The first row of an undeclared group. -/
def opener (policy : VerdictPolicy) (rows : List Decider) : Option Decider :=
  rows.find? fun c => (first Decider.key rows c.key).any fun x => standing policy x = .undeclared

/-- The deciders of an evaluation, by what distinguishes them. -/
def readings (deciders : List Decider) : List (String × Bool) :=
  deciders.map fun d => (d.key, d.pass)

/-- An evaluation of the keys that lead at a level. -/
structure Decides (policy : VerdictPolicy) (rows : List Decider) (l : Nat)
    (deciders : List Decider) (e : VerdictEvaluation) : Prop where
  basis : e.basis = some ⟨authorityAt policy l, aggregationAt policy l, deciders⟩
  invalidated : e.invalidated = none
  nodup : (deciders.map Decider.key).Nodup
  leads : ∀ k pass, (k, pass) ∈ readings deciders ↔
    Leads Decider.key (rank policy) levelOf rows k l
      ∧ pass = unanimous Decider.key Decider.pass rows k
  tallied : ¬(l = 3 ∧ policy.fallback = some .priority) →
    e.verdict = some (tally (aggregationAt policy l) deciders)
  opened : l = 3 → policy.fallback = some .priority → ∃ c, opener policy rows = some c
    ∧ e.verdict = some (unanimous Decider.key Decider.pass rows c.key)

theorem leads_iff_group {l : Nat} :
    Leads Decider.key (rank policy) levelOf rows k l ↔
      ∃ d ∈ groups rows, d.key = k ∧ level policy d = l
        ∧ ∀ c ∈ groups rows, rank policy d ≤ rank policy c := by
  constructor
  · rintro ⟨x, isFirst, isLevel, least⟩
    obtain ⟨d, mem, isKey, metric, measurement, -⟩ := exists_group isFirst
    have sameRank := rank_congr policy metric measurement
    refine ⟨d, mem, isKey, ?_, ?_⟩
    · rw [← levelOf_rank, sameRank, isLevel]
    · intro c inGroups
      obtain ⟨-, y, firstY, metricY, measurementY, -⟩ :=
        group_of_get (get_of_mem_groups inGroups)
      rw [sameRank, rank_congr policy metricY measurementY]
      exact least _ y firstY
  · rintro ⟨d, mem, rfl, isLevel, least⟩
    obtain ⟨-, x, isFirst, metric, measurement, -⟩ := group_of_get (get_of_mem_groups mem)
    have sameRank := rank_congr policy metric measurement
    refine ⟨x, isFirst, ?_, ?_⟩
    · rw [← sameRank, levelOf_rank, isLevel]
    · intro k' y firstY
      obtain ⟨c, inGroups, -, metricC, measurementC, -⟩ := exists_group firstY
      rw [← sameRank, ← rank_congr policy metricC measurementC]
      exact least c inGroups

theorem nodup_groups (rows : List Decider) : (groups rows).Nodup :=
  (groups_keys_nodup rows).of_map Decider.key

/-- The readings of the groups of the best rank are those of the keys that lead. -/
theorem readings_best {rows deciders : List Decider} (mem : d ∈ groups rows)
    (best : ∀ c ∈ groups rows, rank policy d ≤ rank policy c)
    (isDecider : ∀ c, c ∈ deciders ↔ c ∈ groups rows ∧ rank policy c = rank policy d)
    (pass : Bool) :
    (k, pass) ∈ readings deciders ↔
      Leads Decider.key (rank policy) levelOf rows k (level policy d)
        ∧ pass = unanimous Decider.key Decider.pass rows k := by
  have speaks : ∀ c ∈ groups rows, c.pass = unanimous Decider.key Decider.pass rows c.key := by
    intro c inGroups
    obtain ⟨-, x, -, -, -, said⟩ := group_of_get (get_of_mem_groups inGroups)
    exact said
  rw [readings, List.mem_map, leads_iff_group]
  constructor
  · rintro ⟨c, inDeciders, same⟩
    obtain ⟨rfl, rfl⟩ := Prod.mk.inj same
    obtain ⟨inGroups, sameRank⟩ := (isDecider c).mp inDeciders
    refine ⟨⟨c, inGroups, rfl, ?_, ?_⟩, speaks c inGroups⟩
    · rw [← levelOf_rank, sameRank, levelOf_rank]
    · intro x inX
      rw [sameRank]
      exact best x inX
  · rintro ⟨⟨c, inGroups, rfl, -, least⟩, rfl⟩
    refine ⟨c, (isDecider c).mpr ⟨inGroups, le_antisymm (least d mem) (best c inGroups)⟩, ?_⟩
    rw [speaks c inGroups]

theorem keys_nodup_of_mem (rows : List Decider) {deciders : List Decider} (nodup : deciders.Nodup)
    (inside : ∀ c ∈ deciders, c ∈ groups rows) : (deciders.map Decider.key).Nodup := by
  apply nodup.map_on
  intro c inC d inD same
  have there := get_of_mem_groups (inside c inC)
  rw [same, get_of_mem_groups (inside d inD), Option.some.injEq] at there
  exact there.symm

theorem decides_of_rung {index : Nat} (mem : d ∈ groups rows)
    (stands : standing policy d = .rung a index)
    (best : ∀ c ∈ groups rows, rank policy d ≤ rank policy c) :
    ∃ deciders,
      Decides policy rows (level policy d) deciders (decision policy (groups rows)) := by
  obtain ⟨deciders, eq, isDecider, nodup⟩ := decision_of_rung mem stands best
  have three := idxOf_lt_three policy a
  have isLevel : level policy d = (rungOrder policy).idxOf a := by
    rw [level, stands, Standing.level]
  have atLevel : (rungOrder policy)[level policy d]? = some a := by
    rw [isLevel, List.getElem?_eq_getElem (List.idxOf_lt_length_of_mem (mem_rungOrder policy a)),
      List.getElem_idxOf]
  have aggregation : aggregationAt policy (level policy d) = policy.rungs.of a := by
    simp [aggregationAt, atLevel]
  refine ⟨deciders, ?_, ?_, ?_, ?_, ?_, ?_⟩
  · simp [eq, authorityAt, aggregation, atLevel]
  · rw [eq]
  · exact keys_nodup_of_mem rows (nodup (nodup_groups rows)) fun c inC => ((isDecider c).mp inC).1
  · exact fun k => readings_best mem best isDecider
  · intro _
    rw [eq, aggregation]
  · intro isThree
    omega

theorem decides_of_undeclared {aggregation : VerdictAggregation}
    (fallback : policy.fallback = some aggregation) (mem : d ∈ groups rows)
    (stands : standing policy d = .undeclared)
    (best : ∀ c ∈ groups rows, rank policy d ≤ rank policy c) :
    ∃ deciders,
      Decides policy rows (level policy d) deciders (decision policy (groups rows)) := by
  have isLevel : level policy d = 3 := by
    simp [level, stands, Standing.level, fallback]
  have noRung : ∀ c ∈ groups rows, ∀ a index, standing policy c ≠ .rung a index := by
    intro c inC a index standsC
    have le := level_le_of_rank_le (best c inC)
    have three := idxOf_lt_three policy a
    rw [isLevel, level, standsC, Standing.level] at le
    omega
  have isDecider : ∀ c, c ∈ (groups rows).filter (fun d => standing policy d = .undeclared) ↔
      c ∈ groups rows ∧ rank policy c = rank policy d := by
    intro c
    rw [List.mem_filter, decide_eq_true_eq]
    constructor
    · rintro ⟨inC, standsC⟩
      refine ⟨inC, ?_⟩
      rw [rank, rank, standsC, stands]
    · rintro ⟨inC, sameRank⟩
      refine ⟨inC, ?_⟩
      have sameLevel : level policy c = 3 := by
        rw [← levelOf_rank, sameRank, levelOf_rank, isLevel]
      rcases standsC : standing policy c with ⟨a, index⟩ | _ | _
      · exact absurd standsC (noRung c inC a index)
      · rfl
      · simp [level, standsC, Standing.level] at sameLevel
  have atLevel : (rungOrder policy)[level policy d]? = none := by
    rw [isLevel, List.getElem?_eq_none_iff, length_rungOrder]
  have aggregationEq : aggregationAt policy (level policy d) = aggregation := by
    simp [aggregationAt, atLevel, fallback]
  rcases decision_of_fallback noRung with ⟨nothing, -⟩ | ⟨used, c, others, isUsed, found, eq⟩
  · have here := (isDecider d).mpr ⟨mem, rfl⟩
    rcases nothing with noFallback | empty
    · rw [fallback] at noFallback
      cases noFallback
    · rw [empty] at here
      cases here
  · rw [fallback, Option.some.injEq] at isUsed
    subst isUsed
    rw [found] at isDecider
    refine ⟨c :: others, ?_, ?_, ?_, ?_, ?_, ?_⟩
    · simp [eq, authorityAt, atLevel, aggregationEq]
    · rw [eq]
    · apply keys_nodup_of_mem rows
      · rw [← found]
        exact (nodup_groups rows).filter _
      · exact fun x inX => ((isDecider x).mp inX).1
    · exact fun k => readings_best mem best isDecider
    · intro notPriority
      rw [eq, aggregationEq, combine_eq_tally]
      rintro rfl
      exact notPriority ⟨isLevel, fallback⟩
    · intro _ isPriority
      rw [fallback, Option.some.injEq] at isPriority
      subst isPriority
      have firstGroup : (groups rows).find? (fun d => standing policy d = .undeclared) = some c := by
        rw [← List.head?_filter, found]
        rfl
      have opens := find_groups (q := fun d => standing policy d = .undeclared)
        (fun c d metric measurement => by rw [standing_congr metric measurement]) rows
      rw [firstGroup, Option.map_some, eq_comm, Option.map_eq_some_iff] at opens
      obtain ⟨x, isOpener, sameKey⟩ := opens
      refine ⟨x, isOpener, ?_⟩
      obtain ⟨-, -, -, -, -, said⟩ :=
        group_of_get (get_of_mem_groups ((isDecider c).mp List.mem_cons_self).1)
      rw [eq, sameKey, ← said]
      rfl

/-- The rows decide at the level of the keys that lead, or decide nothing. -/
theorem decision_cases (policy : VerdictPolicy) (rows : List Decider) :
    (∃ l deciders, l < 4 ∧ (∃ k, Leads Decider.key (rank policy) levelOf rows k l)
        ∧ Decides policy rows l deciders (decision policy (groups rows)))
      ∨ (∀ k l, Leads Decider.key (rank policy) levelOf rows k l → ¬l < 4)
        ∧ decision policy (groups rows) = {} := by
  by_cases hidden : ∃ d ∈ groups rows, level policy d < 4
  · left
    obtain ⟨c, inC, isShown⟩ := hidden
    obtain ⟨d, mem, best⟩ := exists_best (rank policy) inC
    have le := level_le_of_rank_le (best c inC)
    have leads : Leads Decider.key (rank policy) levelOf rows d.key (level policy d) :=
      leads_iff_group.mpr ⟨d, mem, rfl, rfl, best⟩
    refine ⟨level policy d, ?_⟩
    rcases stands : standing policy d with ⟨a, index⟩ | _ | _
    · obtain ⟨deciders, decides⟩ := decides_of_rung mem stands best
      exact ⟨deciders, by omega, ⟨d.key, leads⟩, decides⟩
    · rcases fallback : policy.fallback with _ | aggregation
      · have four : level policy d = 4 := by
          simp [level, stands, Standing.level, fallback]
        omega
      · obtain ⟨deciders, decides⟩ := decides_of_undeclared fallback mem stands best
        exact ⟨deciders, by omega, ⟨d.key, leads⟩, decides⟩
    · have four : level policy d = 4 := by
        simp [level, stands, Standing.level]
      omega
  · right
    simp only [not_exists, not_and] at hidden
    refine ⟨?_, ?_⟩
    · intro k l leads
      obtain ⟨d, mem, -, rfl, -⟩ := leads_iff_group.mp leads
      exact hidden d mem
    · have noRung : ∀ c ∈ groups rows, ∀ a index, standing policy c ≠ .rung a index := by
        intro c inC a index standsC
        have three := idxOf_lt_three policy a
        have silent := hidden c inC
        rw [level, standsC, Standing.level] at silent
        omega
      rcases decision_of_fallback noRung with ⟨-, eq⟩ | ⟨aggregation, c, others, fallback, found, -⟩
      · exact eq
      · have mem : c ∈ (groups rows).filter fun d => standing policy d = .undeclared := by
          rw [found]
          exact List.mem_cons_self
        obtain ⟨inC, standsC⟩ := List.mem_filter.mp mem
        have silent := hidden c inC
        rw [level, of_decide_eq_true standsC, Standing.level, if_neg (by simp [fallback])] at silent
        omega

theorem evaluateVerdict_eq {failure : Option CaseFailure} (structured : isStructured policy = true)
    (alive : noOutcome failure = false)
    (present : requiredMissing policy (measuredScores scores) true = none) :
    evaluateVerdict scores failure policy = decision policy (groups (votes true scores)) := by
  simp only [evaluateVerdict, alive, structured, present, dedupeByMetric_eq]
  rfl

/-! ## The same decision -/

def VerdictEvaluation.readings (e : VerdictEvaluation) : List (String × Bool) :=
  (e.basis.map fun basis => Scorecard.readings basis.deciders).getD []

/-- Two evaluations say the same: the verdict, the rung that decided, the invalidation and
the deciders by key and pass. -/
structure SameDecision (e e' : VerdictEvaluation) : Prop where
  verdict : e.verdict = e'.verdict
  rung : e.basis.map (·.authority) = e'.basis.map (·.authority)
  invalidated : e.invalidated = e'.invalidated
  deciders : ∀ reading, reading ∈ e.readings ↔ reading ∈ e'.readings

theorem SameDecision.refl (e : VerdictEvaluation) : SameDecision e e :=
  ⟨rfl, rfl, rfl, fun _ => Iff.rfl⟩

theorem SameDecision.symm {e e' : VerdictEvaluation} (same : SameDecision e e') :
    SameDecision e' e :=
  ⟨same.verdict.symm, same.rung.symm, same.invalidated.symm, fun r => (same.deciders r).symm⟩

theorem tally_perm {deciders deciders' : List Decider} (aggregation : VerdictAggregation)
    (perm : (readings deciders).Perm (readings deciders')) :
    tally aggregation deciders = tally aggregation deciders' := by
  have passes : (deciders.map Decider.pass).Perm (deciders'.map Decider.pass) := by
    have mapped := perm.map Prod.snd
    rwa [readings, readings, List.map_map, List.map_map] at mapped
  have all : deciders.all Decider.pass = deciders'.all Decider.pass := by
    have same := passes.all_eq (f := id)
    rwa [List.all_map, List.all_map] at same
  have any : deciders.any Decider.pass = deciders'.any Decider.pass := by
    have same := passes.any_eq (f := id)
    rwa [List.any_map, List.any_map] at same
  have count : (deciders.filter Decider.pass).length = (deciders'.filter Decider.pass).length := by
    have same := passes.countP_eq id
    rwa [List.countP_map, List.countP_map, List.countP_eq_length_filter,
      List.countP_eq_length_filter] at same
  have length : deciders.length = deciders'.length := by
    simpa using passes.length_eq
  cases aggregation
  · exact all
  · exact all
  · exact any
  · simp [tally, count, length]

theorem nodup_readings {deciders : List Decider} (nodup : (deciders.map Decider.key).Nodup) :
    (readings deciders).Nodup := by
  apply List.Nodup.of_map Prod.fst
  rwa [readings, List.map_map]

/-- Two lists of rows with the same leaders and the same votes of the leaders decide alike. -/
theorem Decides.same {rows rows' deciders deciders' : List Decider} {l : Nat}
    {e e' : VerdictEvaluation} (decides : Decides policy rows l deciders e)
    (decides' : Decides policy rows' l deciders' e')
    (leads : ∀ k, Leads Decider.key (rank policy) levelOf rows k l ↔
      Leads Decider.key (rank policy) levelOf rows' k l)
    (votes : ∀ k, Leads Decider.key (rank policy) levelOf rows k l →
      unanimous Decider.key Decider.pass rows k = unanimous Decider.key Decider.pass rows' k)
    (opened : l = 3 → policy.fallback = some .priority → e.verdict = e'.verdict) :
    SameDecision e e' := by
  have mem : ∀ r, r ∈ readings deciders ↔ r ∈ readings deciders' := by
    intro r
    obtain ⟨k, pass⟩ := r
    rw [decides.leads, decides'.leads, ← leads]
    apply and_congr_right
    intro leading
    rw [votes k leading]
  refine ⟨?_, ?_, ?_, ?_⟩
  · by_cases byPriority : l = 3 ∧ policy.fallback = some .priority
    · exact opened byPriority.1 byPriority.2
    · rw [decides.tallied byPriority, decides'.tallied byPriority]
      apply congrArg some
      apply tally_perm
      exact (List.perm_ext_iff_of_nodup (nodup_readings decides.nodup)
        (nodup_readings decides'.nodup)).mpr mem
  · rw [decides.basis, decides'.basis]
    rfl
  · rw [decides.invalidated, decides'.invalidated]
  · intro r
    rw [VerdictEvaluation.readings, VerdictEvaluation.readings, decides.basis, decides'.basis]
    exact mem r

theorem authorityAt_inj (policy : VerdictPolicy) {l l' : Nat} (small : l < 4) (small' : l' < 4)
    (same : authorityAt policy l = authorityAt policy l') : l = l' := by
  have three := length_rungOrder policy
  have distinct := nodup_rungOrder policy
  rw [authorityAt, authorityAt] at same
  rcases Nat.lt_or_ge l 3 with inside | outside
  · rw [List.getElem?_eq_getElem (by omega)] at same
    rcases Nat.lt_or_ge l' 3 with inside' | outside'
    · rw [List.getElem?_eq_getElem (by omega)] at same
      simp only [Option.map_some, Option.getD_some, VerdictAuthority.rung.injEq] at same
      exact (List.Nodup.getElem_inj_iff distinct).mp same
    · rw [List.getElem?_eq_none (l := rungOrder policy) (i := l') (by omega)] at same
      cases same
  · rcases Nat.lt_or_ge l' 3 with inside' | outside'
    · rw [List.getElem?_eq_none (by omega), List.getElem?_eq_getElem (i := l') (by omega)] at same
      cases same
    · omega

theorem leads_level_unique {k' : String} {l l' : Nat}
    (leads : Leads Decider.key (rank policy) levelOf rows k l)
    (leads' : Leads Decider.key (rank policy) levelOf rows k' l') : l = l' := by
  obtain ⟨x, isFirst, rfl, least⟩ := leads
  obtain ⟨y, isFirst', rfl, least'⟩ := leads'
  rw [le_antisymm (least _ y isFirst') (least' _ x isFirst)]

theorem decides_of_leads {l : Nat} (leading : Leads Decider.key (rank policy) levelOf rows k l)
    (small : l < 4) :
    ∃ deciders, Decides policy rows l deciders (decision policy (groups rows)) := by
  rcases decision_cases policy rows with ⟨l', deciders, -, ⟨k', leading'⟩, decides⟩ | ⟨none, -⟩
  · obtain rfl := leads_level_unique leading' leading
    exact ⟨deciders, decides⟩
  · exact absurd small (none k l leading)

theorem standing_of_level_three (isThree : level policy c = 3) :
    standing policy c = .undeclared := by
  rw [level] at isThree
  rcases stands : standing policy c with ⟨a, index⟩ | _ | _
  · have := idxOf_lt_three policy a
    rw [stands, Standing.level] at isThree
    omega
  · rfl
  · simp [stands, Standing.level] at isThree

/-- The key that opens the fallback is one that leads there. -/
theorem opener_leads (opens : opener policy rows = some c)
    (leads : Leads Decider.key (rank policy) levelOf rows k 3) :
    Leads Decider.key (rank policy) levelOf rows c.key 3 := by
  have tested := List.find?_some opens
  obtain ⟨x, isFirst, stands⟩ := (Option.any_eq_true _ _).mp tested
  obtain ⟨y, -, isThree, least⟩ := leads
  have sameRank : rank policy x = rank policy y := by
    have standsY := standing_of_level_three isThree
    rw [rank, rank, of_decide_eq_true stands, standsY]
  refine ⟨x, isFirst, ?_, ?_⟩
  · rw [sameRank, isThree]
  · rw [sameRank]
    exact least

end Everdict.Scorecard
