import Everdict.WorkspaceFs.Shielding

/-!
# Actions that do not see hidden files

`Shielded` is what one action does to a volume: it answers as it would on the blank volume, spares
the hidden files with their history, and its answer satisfies a postcondition.  It is closed under
sequencing and handlers, so that each method of the ports is put together from the operations on
the tree and on the two ledgers.
-/

namespace Everdict.WorkspaceFs

open Text TenantTree Everdict.WorkspaceFs.Action

variable {hidden : String → Bool} {rows : Rows} {path : String}

/-! ## The ledgers -/

inductive Ledger
  | memory
  | postgres
  deriving DecidableEq

def Ledger.store : Ledger → FsRevisionStore
  | .memory => inMemory
  | .postgres => Everdict.WorkspaceFs.postgres

/-- The rows a rename rewrites. -/
def Ledger.selects : Ledger → String → String → Bool
  | .memory => within
  | .postgres => PgFsRevisionStore.selects

/-- An operation that does the same to the rows of files that are not hidden, and nothing to the
others. -/
structure Keeping (hidden : String → Bool) (rows : Rows) (op : Rows → Except AppError Rows) :
    Prop where
  blind : op (unhidden hidden rows) = (op rows).map (unhidden hidden)
  spares : ∀ rows', op rows = .ok rows' →
    rows'.filter (isHidden hidden) = rows.filter (isHidden hidden)

theorem forPath_unhidden (plain : hidden (canonicalOf path) = false) :
    forPath (unhidden hidden rows) path = forPath rows path := by
  unfold forPath unhidden
  rw [List.filter_filter]
  congr 1
  refine List.filter_congr fun row _ => ?_
  by_cases same : row.path = path
  · simp [same, isHidden, plain]
  · simp [same]

/-- A number is taken by the same rows. -/
theorem published_unhidden {row : FsRevision} (plain : isHidden hidden row = false)
    (revision : Nat) :
    published (unhidden hidden rows) row.path revision = published rows row.path revision := by
  unfold isHidden at plain
  unfold published unhidden
  rw [List.any_filter]
  refine List.any_congr rfl fun other => ?_
  by_cases same : other.path = row.path
  · simp [same, isHidden, plain]
  · simp [same]

theorem unhidden_append (rows rows' : Rows) :
    unhidden hidden (rows ++ rows') = unhidden hidden rows ++ unhidden hidden rows' :=
  List.filter_append ..

theorem unhidden_cons {row : FsRevision} (plain : isHidden hidden row = false) (rows : Rows) :
    unhidden hidden (row :: rows) = row :: unhidden hidden rows :=
  List.filter_cons_of_pos (by simp [plain])

theorem unhidden_cons_hidden {row : FsRevision} (secret : isHidden hidden row = true)
    (rows : Rows) : unhidden hidden (row :: rows) = unhidden hidden rows :=
  List.filter_cons_of_neg (by simp [secret])

theorem append_keeping (ledger : Ledger) {record : FsRevision}
    (plain : isHidden hidden record = false) :
    Keeping hidden rows fun rows => ledger.store.append rows record := by
  have appended : unhidden hidden rows ++ [record] = unhidden hidden (rows ++ [record]) := by
    rw [unhidden_append, unhidden_cons plain]
    rfl
  have spared : (rows ++ [record]).filter (isHidden hidden) = rows.filter (isHidden hidden) := by
    simp [plain]
  cases ledger with
  | memory =>
      simp only [Ledger.store, inMemory, InMemoryFsRevisionStore.append]
      constructor
      · rw [published_unhidden plain, appended]
        split <;> rfl
      · intro rows' eq
        split at eq
        · cases eq
        · obtain rfl := Except.ok.inj eq
          exact spared
  | postgres =>
      simp only [Ledger.store, postgres, PgFsRevisionStore.append]
      constructor
      · rw [published_unhidden plain, appended]
        split
        · rfl
        · split <;> rfl
      · intro rows' eq
        split at eq
        · cases eq
        split at eq
        · cases eq
        · obtain rfl := Except.ok.inj eq
          exact spared

/-! ### Renames -/

/-- A rename that selects no row of a hidden file and rewrites no row to one. -/
structure Apart (hidden : String → Bool) (selects : String → Bool)
    (rewrite : FsRevision → FsRevision) (rows : Rows) : Prop where
  unselected : ∀ row ∈ rows, isHidden hidden row = true → selects row.path = false
  rewritten : ∀ row ∈ rows, selects row.path = true → isHidden hidden (rewrite row) = false

variable {from' to' : String}

theorem map_unhidden {rewrite : FsRevision → FsRevision}
    (same : ∀ row ∈ rows, isHidden hidden (rewrite row) = isHidden hidden row)
    (stays : ∀ row ∈ rows, isHidden hidden row = true → rewrite row = row) :
    unhidden hidden (rows.map rewrite) = (unhidden hidden rows).map rewrite ∧
      (rows.map rewrite).filter (isHidden hidden) = rows.filter (isHidden hidden) := by
  have shown : rows.filter ((fun row => !isHidden hidden row) ∘ rewrite) =
      rows.filter fun row => !isHidden hidden row :=
    List.filter_congr fun row member => congrArg Bool.not (same row member)
  have kept : rows.filter (isHidden hidden ∘ rewrite) = rows.filter (isHidden hidden) :=
    List.filter_congr same
  unfold unhidden
  rw [List.filter_map, List.filter_map, shown, kept]
  refine ⟨rfl, ?_⟩
  conv_rhs => rw [← List.map_id (rows.filter (isHidden hidden))]
  refine List.map_congr_left fun row member => ?_
  exact stays row (List.mem_filter.mp member).1 (List.mem_filter.mp member).2

theorem renamed_of_not_within {row : FsRevision} (out : within from' row.path = false) :
    InMemoryFsRevisionStore.renamed from' to' row = row := by
  simp only [within, Bool.or_eq_false_iff, decide_eq_false_iff_not] at out
  unfold InMemoryFsRevisionStore.renamed
  rw [if_neg out.1, if_neg (by simp [out.2])]

theorem rename_memory (apart : Apart hidden (within from')
      (InMemoryFsRevisionStore.renamed from' to') rows) :
    Keeping hidden rows fun rows => inMemory.rename rows from' to' := by
  have same : ∀ row ∈ rows, isHidden hidden (InMemoryFsRevisionStore.renamed from' to' row) =
      isHidden hidden row := by
    intro row member
    rcases out : within from' row.path with _ | _
    · rw [renamed_of_not_within out]
    · rw [apart.rewritten row member out]
      by_contra secret
      rw [apart.unselected row member (by simpa using Ne.symm secret)] at out
      cases out
  obtain ⟨blind, spared⟩ := map_unhidden same fun row member secret =>
    renamed_of_not_within (apart.unselected row member secret)
  constructor
  · simp only [inMemory, InMemoryFsRevisionStore.rename, Except.map, blind]
  · intro rows' eq
    obtain rfl := Except.ok.inj eq
    exact spared

/-- The loop of the update. -/
theorem update_keeping (done : Rows) {rest : Rows}
    (apart : Apart hidden (PgFsRevisionStore.selects from')
      (PgFsRevisionStore.rewritten from' to') rest) :
    PgFsRevisionStore.update from' to' (unhidden hidden done) (unhidden hidden rest) =
        (PgFsRevisionStore.update from' to' done rest).map (unhidden hidden) ∧
      ∀ rows', PgFsRevisionStore.update from' to' done rest = .ok rows' →
        rows'.filter (isHidden hidden) = (done ++ rest).filter (isHidden hidden) := by
  induction rest generalizing done with
  | nil =>
      refine ⟨rfl, fun rows' eq => ?_⟩
      obtain rfl := Except.ok.inj eq
      rw [List.append_nil]
  | cons row rest ih =>
      have tail : Apart hidden (PgFsRevisionStore.selects from')
          (PgFsRevisionStore.rewritten from' to') rest :=
        ⟨fun r member => apart.unselected r (List.mem_cons_of_mem _ member),
          fun r member => apart.rewritten r (List.mem_cons_of_mem _ member)⟩
      have shift : ∀ r, (done ++ [r]) ++ rest = done ++ r :: rest := by simp
      rcases secret : isHidden hidden row with _ | _
      · rw [unhidden_cons secret]
        unfold PgFsRevisionStore.update
        split
        · have last : unhidden hidden done ++ [row] = unhidden hidden (done ++ [row]) := by
            rw [unhidden_append, unhidden_cons secret]
            rfl
          rw [last, ← shift row]
          exact ih _ tail
        · next selected =>
            have plain := apart.rewritten row List.mem_cons_self (by simpa using selected)
            have last : unhidden hidden done ++ [PgFsRevisionStore.rewritten from' to' row] =
                unhidden hidden (done ++ [PgFsRevisionStore.rewritten from' to' row]) := by
              rw [unhidden_append, unhidden_cons plain]
              rfl
            dsimp only
            rw [← unhidden_append, published_unhidden plain, last]
            split
            · refine ⟨rfl, fun rows' eq => ?_⟩
              cases eq
            · refine ⟨(ih _ tail).1, fun rows' eq => ?_⟩
              rw [(ih _ tail).2 rows' eq]
              simp [plain, secret]
      · have out := apart.unselected row List.mem_cons_self secret
        rw [unhidden_cons_hidden secret]
        have skip : PgFsRevisionStore.update from' to' done (row :: rest) =
            PgFsRevisionStore.update from' to' (done ++ [row]) rest := by
          rw [PgFsRevisionStore.update, if_pos (by simp [out])]
        have last : unhidden hidden (done ++ [row]) = unhidden hidden done := by
          rw [unhidden_append, unhidden_cons_hidden secret]
          exact List.append_nil _
        rw [skip, ← shift row, ← last]
        exact ih _ tail

theorem rename_postgres_keeping (apart : Apart hidden (PgFsRevisionStore.selects from')
      (PgFsRevisionStore.rewritten from' to') rows) :
    Keeping hidden rows fun rows => Everdict.WorkspaceFs.postgres.rename rows from' to' := by
  obtain ⟨blind, spared⟩ := update_keeping [] apart
  exact ⟨blind, fun rows' eq => spared rows' eq⟩

/-- What a pattern of plain characters and wildcards for one character leaves of a text. -/
theorem drop_of_like {pattern : List Char} (plain : ∀ c ∈ pattern, c ≠ '%' ∧ c ≠ '\\')
    {text : List Char} (matches' : PgFsRevisionStore.like (pattern ++ ['/', '%']) text = true) :
    ∃ rest, text.drop pattern.length = '/' :: rest := by
  induction pattern generalizing text with
  | nil =>
      cases text with
      | nil => simp [PgFsRevisionStore.like] at matches'
      | cons c text =>
          have step : PgFsRevisionStore.like ['/', '%'] (c :: text) =
              (decide ('/' = c) && PgFsRevisionStore.like ['%'] text) := rfl
          rw [List.nil_append, step, Bool.and_eq_true, decide_eq_true_iff] at matches'
          exact ⟨text, by simp [← matches'.1]⟩
  | cons c pattern ih =>
      obtain ⟨⟨percent, escape⟩, plain⟩ := List.forall_mem_cons.mp plain
      cases text with
      | nil =>
          by_cases one : c = '_'
          · subst one
            simp [PgFsRevisionStore.like] at matches'
          · simp [PgFsRevisionStore.like, escape] at matches'
      | cons c' text =>
          have tail : PgFsRevisionStore.like (pattern ++ ['/', '%']) text = true := by
            by_cases one : c = '_'
            · subst one
              simpa [PgFsRevisionStore.like] using matches'
            · simp [PgFsRevisionStore.like, escape] at matches'
              exact matches'.2
          exact ih plain tail

/-- Nothing is hidden at the place a move goes to, however it is spelled, or below it. -/
theorem Targets.plain {tree : TenantTree} {src dst : String}
    (targets : Targets tree from' to' src dst) (intact : Intact hidden tree) :
    hidden (canonicalOf to') = false ∧
      ∀ rest, hidden (canonicalOf (to' ++ "/" ++ rest)) = false := by
  have unseen := targets.unseen intact
  have at' := (normalizeFsPath_eq_ok targets.target).1
  constructor
  · by_contra secret
    have within' := unseen _ (by simpa using secret)
    rw [← at'] at within'
    simp [within] at within'
  · intro rest
    by_contra secret
    have secret : hidden (canonicalOf (to' ++ "/" ++ rest)) = true := by simpa using secret
    have within' := within_of_spelled targets.target targets.rootless.2 (intact.clean_hidden secret)
    rw [unseen _ secret] at within'
    cases within'

theorem rename_keeping (ledger : Ledger) {tree : TenantTree} {src dst : String}
    (targets : Targets tree from' to' src dst) (intact : Intact hidden tree)
    (unselected : ∀ row ∈ rows, isHidden hidden row = true →
      ledger.selects from' row.path = false) :
    Keeping hidden rows fun rows => ledger.store.rename rows from' to' := by
  obtain ⟨here, below'⟩ := targets.plain intact
  cases ledger with
  | memory =>
      refine rename_memory ⟨unselected, fun row _ selected => ?_⟩
      unfold isHidden InMemoryFsRevisionStore.renamed
      split
      · exact here
      · split
        · next inside =>
            obtain ⟨rest, eq⟩ := below_iff.mp inside
            dsimp only
            rw [eq, rebase_append]
            exact below' rest
        · next other out =>
            simp [within, other, out] at selected
  | postgres =>
      refine rename_postgres_keeping ⟨unselected, fun row _ selected => ?_⟩
      have plain : ∀ c ∈ from'.toList, c ≠ '%' ∧ c ≠ '\\' := by
        intro c member
        rcases chars_of_normalizeFsPath targets.source member with blank | rfl | segment
        · constructor <;> (intro mark; rw [mark] at blank; revert blank; decide)
        · decide
        · constructor <;> (intro mark; rw [mark] at segment; revert segment; decide)
      unfold isHidden PgFsRevisionStore.rewritten
      dsimp only
      split
      · exact here
      · next other =>
          have matches' : PgFsRevisionStore.like (from'.toList ++ ['/', '%']) row.path.toList =
              true := by
            simpa [PgFsRevisionStore.selects, other] using selected
          obtain ⟨rest, eq⟩ := drop_of_like plain matches'
          have spelled : to' ++ String.ofList ('/' :: rest) = to' ++ "/" ++ String.ofList rest := by
            refine String.toList_inj.mp ?_
            simp
          rw [eq, spelled]
          exact below' _

/-! ## Actions -/

/-- What an action does to a volume whose tree is intact. -/
structure Shielded {α : Type} (hidden : String → Bool) (Q : α → Prop) (v : Volume)
    (x : Action α) : Prop where
  blind : x (v.blank hidden) = ((x v).1, (x v).2.blank hidden)
  spares : Spares hidden v (x v).2
  intact : Intact hidden (x v).2.tree
  answer : ∀ a, (x v).1 = .ok a → Q a

section Closure

variable {α β : Type} {Q : α → Prop} {R : β → Prop} {v : Volume}

theorem Shielded.pure {a : α} (intact : Intact hidden v.tree) (q : Q a) :
    Shielded hidden Q v (Pure.pure a) :=
  ⟨rfl, .refl v, intact, fun _ eq => Except.ok.inj eq ▸ q⟩

theorem Shielded.throw {e : AppError} (intact : Intact hidden v.tree) :
    Shielded hidden Q v (MonadExcept.throw e) :=
  ⟨rfl, .refl v, intact, fun _ eq => (by cases eq)⟩

theorem Shielded.bind {x : Action α} {f : α → Action β} (first : Shielded hidden Q v x)
    (next : ∀ a, (x v).1 = .ok a → Q a → Intact hidden (x v).2.tree →
      Shielded hidden R (x v).2 (f a)) :
    Shielded hidden R v (x >>= f) := by
  obtain ⟨blind, spares, intact, answer⟩ := first
  have after := bind_apply x f v
  have after' := bind_apply x f (v.blank hidden)
  rw [blind] at after'
  rcases eq : x v with ⟨e | a, v'⟩
  · rw [eq] at after after' spares intact
    dsimp only at after after' spares intact
    refine ⟨?_, ?_, ?_, ?_⟩
    · rw [after, after']
    · rw [after]
      exact spares
    · rw [after]
      exact intact
    · rw [after]
      intro b answered
      cases answered
  · rw [eq] at after after' spares intact answer next
    dsimp only at after after' spares intact answer next
    obtain ⟨blind', spares', intact', answer'⟩ := next a rfl (answer a rfl) intact
    refine ⟨?_, ?_, ?_, ?_⟩
    · rw [after, after', blind']
    · rw [after]
      exact spares.trans spares'
    · rw [after]
      exact intact'
    · rw [after]
      exact answer'

theorem Shielded.tryCatch {x : Action α} {handle : AppError → Action α}
    (first : Shielded hidden Q v x)
    (next : ∀ e, Intact hidden (x v).2.tree → Shielded hidden Q (x v).2 (handle e)) :
    Shielded hidden Q v (MonadExcept.tryCatch x handle) := by
  obtain ⟨blind, spares, intact, answer⟩ := first
  have after := tryCatch_apply x handle v
  have after' := tryCatch_apply x handle (v.blank hidden)
  rw [blind] at after'
  rcases eq : x v with ⟨e | a, v'⟩
  · rw [eq] at after after' spares intact next
    dsimp only at after after' spares intact next
    obtain ⟨blind', spares', intact', answer'⟩ := next e intact
    refine ⟨?_, ?_, ?_, ?_⟩
    · rw [after, after', blind']
    · rw [after]
      exact spares.trans spares'
    · rw [after]
      exact intact'
    · rw [after]
      exact answer'
  · rw [eq] at after after' spares intact answer
    dsimp only at after after' spares intact answer
    refine ⟨?_, ?_, ?_, ?_⟩
    · rw [after, after']
    · rw [after]
      exact spares
    · rw [after]
      exact intact
    · rw [after]
      exact answer

theorem Shielded.checks {r : Except AppError α} (intact : Intact hidden v.tree)
    (q : ∀ a, r = .ok a → Q a) : Shielded hidden Q v (Action.checks r) :=
  ⟨rfl, .refl v, intact, q⟩

theorem Shielded.reads {op : TenantTree → Except AppError α} (intact : Intact hidden v.tree)
    (blind : op (v.tree.blank hidden) = op v.tree) (q : ∀ a, op v.tree = .ok a → Q a) :
    Shielded hidden Q v (Action.reads op) := by
  refine ⟨?_, .refl v, intact, q⟩
  change (op (v.tree.blank hidden), v.blank hidden) = (op v.tree, v.blank hidden)
  rw [blind]

theorem Shielded.queries {op : Rows → α} (intact : Intact hidden v.tree)
    (blind : op (unhidden hidden v.rows) = op v.rows) (q : Q (op v.rows)) :
    Shielded hidden Q v (Action.queries op) := by
  refine ⟨?_, .refl v, intact, fun a eq => Except.ok.inj eq ▸ q⟩
  change (Except.ok (op (unhidden hidden v.rows)), v.blank hidden) =
    (Except.ok (op v.rows), v.blank hidden)
  rw [blind]

theorem Shielded.writes {op : TenantTree → Except AppError (TenantTree × α)}
    (intact : Intact hidden v.tree) (guarded : Guarded hidden Q v.tree op) :
    Shielded hidden Q v (Action.writes op) := by
  obtain ⟨blind, spares⟩ := guarded
  have same : (v.blank hidden).tree = v.tree.blank hidden := rfl
  rcases done : op v.tree with e | ⟨tree', a⟩
  · have after : Action.writes op v = (.error e, v) := by
      unfold Action.writes
      rw [done]
    have after' : Action.writes op (v.blank hidden) = (.error e, v.blank hidden) := by
      unfold Action.writes
      rw [same, blind, done]
      rfl
    rw [done] at spares
    exact ⟨by rw [after, after'], by rw [after]; exact .refl v, by rw [after]; exact intact,
      by rw [after]; intro a eq; cases eq⟩
  · have after : Action.writes op v = (.ok a, { v with tree := tree' }) := by
      unfold Action.writes
      rw [done]
    have after' : Action.writes op (v.blank hidden) =
        (.ok a, ({ v with tree := tree' } : Volume).blank hidden) := by
      unfold Action.writes
      rw [same, blind, done]
      rfl
    obtain ⟨kept, intact', q⟩ := spares tree' a done
    exact ⟨by rw [after, after'], by rw [after]; exact ⟨kept, rfl⟩, by rw [after]; exact intact',
      by rw [after]; exact fun a' eq => Except.ok.inj eq ▸ q⟩

theorem Shielded.records {op : Rows → Except AppError Rows} (intact : Intact hidden v.tree)
    (keeping : Keeping hidden v.rows op) :
    Shielded hidden (fun _ => True) v (Action.records op) := by
  obtain ⟨blind, spares⟩ := keeping
  have same : (v.blank hidden).rows = unhidden hidden v.rows := rfl
  rcases done : op v.rows with e | rows'
  · have after : Action.records op v = (.error e, v) := by
      unfold Action.records
      rw [done]
    have after' : Action.records op (v.blank hidden) = (.error e, v.blank hidden) := by
      unfold Action.records
      rw [same, blind, done]
      rfl
    exact ⟨by rw [after, after'], by rw [after]; exact .refl v, by rw [after]; exact intact,
      fun _ _ => trivial⟩
  · have after : Action.records op v = (.ok (), { v with rows := rows' }) := by
      unfold Action.records
      rw [done]
    have after' : Action.records op (v.blank hidden) =
        (.ok (), ({ v with rows := rows' } : Volume).blank hidden) := by
      unfold Action.records
      rw [same, blind, done]
      rfl
    exact ⟨by rw [after, after'], by rw [after]; exact ⟨.refl _, spares rows' done⟩,
      by rw [after]; exact intact, fun _ _ => trivial⟩

end Closure

end Everdict.WorkspaceFs
