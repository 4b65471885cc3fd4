import RdbRs.Database.InStep

/-!
# Index path and scan path

A lookup leaves out only rows that the filter drops. So the joined rows that pass the filter are the
same, each as often, whatever tables are read by a lookup.
-/

namespace RdbRs

namespace Executor

variable {self : Executor} {tables : List BoundTable} {from_ : BoundFromClause}
  {filter : Option BoundExpression} {row : QueryRow} {rows rows' : List QueryRow}
  {tableRows tableRows' : BoundTable → List TableRow}

/-! ### Joins of filtered tables -/

lemma joined_filter {test : QueryRow → QueryRow → Bool} {p : QueryRow → Bool} {leftRows rightRows : List QueryRow}
    (hp : ∀ leftRow rightRow, p (joinRows leftRow rightRow) = (p leftRow && p rightRow)) :
    joined test (leftRows.filter p) (rightRows.filter p) = (joined test leftRows rightRows).filter p := by
  induction leftRows with
  | nil => rfl
  | cons leftRow leftRows ih =>
    have hcons (l r : List QueryRow) : joined test (leftRow :: l) r =
        ((r.filter fun rightRow => test leftRow rightRow).map (joinRows leftRow)) ++ joined test l r := rfl
    rw [hcons, List.filter_append, ← ih, List.filter_cons, List.filter_map]
    have hrow : (p ∘ joinRows leftRow) = fun rightRow => p leftRow && p rightRow := by
      funext rightRow
      exact hp leftRow rightRow
    rw [hrow, List.filter_filter]
    cases hleft : p leftRow with
    | false => simp
    | true =>
      rw [if_pos rfl, hcons, List.filter_filter]
      simp only [Bool.true_and, Bool.and_comm]

/-- Filtering the rows of the tables is filtering the joined rows. -/
lemma joinedRows_filter {keep : TableRow → Bool} :
    self.joinedRows (fun table => (tableRows table).filter keep) from_ =
      (self.joinedRows tableRows from_).filter fun row => row.tableRows.all keep := by
  induction from_ with
  | table table =>
    rw [joinedRows, joinedRows, List.filter_map]
    congr 2
    funext tableRow
    simp
  | innerJoin left on right ihl ihr =>
    rw [joinedRows, joinedRows, ihl, ihr]
    apply joined_filter
    intro leftRow rightRow
    exact List.all_append

lemma joined_perm {test : QueryRow → QueryRow → Bool} {leftRows leftRows' rightRows rightRows' : List QueryRow}
    (hl : leftRows.Perm leftRows') (hr : rightRows.Perm rightRows') :
    (joined test leftRows rightRows).Perm (joined test leftRows' rightRows') := by
  apply hl.flatMap
  intro leftRow _
  exact (hr.filter _).map _

lemma joinedRows_perm (h : ∀ table ∈ collectTables from_, (tableRows table).Perm (tableRows' table)) :
    (self.joinedRows tableRows from_).Perm (self.joinedRows tableRows' from_) := by
  induction from_ with
  | table table => exact (h table (List.mem_singleton_self table)).map _
  | innerJoin left on right ihl ihr =>
    apply joined_perm
    · exact ihl fun table hmem => h table (List.mem_append_left _ hmem)
    · exact ihr fun table hmem => h table (List.mem_append_right _ hmem)

/-! ### Necessary conditions -/

/-- The comparisons of the lookups of a clause that are on the instance of the row. -/
def keeps (self : Executor) (tables : List BoundTable) (filter : Option BoundExpression)
    (tableRow : TableRow) : Bool :=
  tables.all fun table => (indexPredicateForTable filter table).all fun p =>
    p.1.instanceId ≠ tableRow.instanceId || (self.valueOf ⟨[tableRow]⟩ p.1).compare .equal p.2

lemma selects_of_keeps {table : BoundTable} {tableRow : TableRow} (hmem : table ∈ tables)
    (hfilter : ∀ f ∈ filter, f.Fits self.database tables) (hinstance : tableRow.instanceId = table.instanceId)
    (h : self.keeps tables filter tableRow) : self.Selects filter table tableRow := by
  intro p hp
  have ⟨hcolumn, _⟩ := indexPredicateForTable_spec self hfilter hp
  have hall := List.all_eq_true.mp h table hmem
  rw [Option.all_eq_true] at hall
  have hp' := hall p hp
  rwa [hcolumn, hinstance, Bool.or_eq_true, decide_eq_true_iff, or_iff_right (not_not.mpr rfl)] at hp'

/-- A joined row that passes the filter passes the comparison of every lookup. -/
lemma keeps_of_passing (hscope : Scope tables) (hrow : row.IsFrom self.database tables)
    (hfilter : ∀ f ∈ filter, f.Fits self.database tables) (h : row ∈ self.passing filter rows) :
    row.tableRows.all (self.keeps tables filter) := by
  rw [List.all_eq_true]
  intro tableRow htableRow
  apply List.all_eq_true.mpr
  intro table hmem
  rw [Option.all_eq_true]
  intro p hp
  have ⟨_, _, himp⟩ := indexPredicateForTable_spec self hfilter hp
  by_cases hinstance : p.1.instanceId = tableRow.instanceId
  · have hnodup : (row.tableRows.map TableRow.instanceId).Nodup := by
      have hinstances : row.tableRows.map TableRow.instanceId = tables.map BoundTable.instanceId := by
        have hall : List.Forall₂ (fun (table : BoundTable) (tableRow : TableRow) =>
            table.instanceId = tableRow.instanceId) tables row.tableRows :=
          hrow.imp fun _ _ hof => hof.1.symm
        rw [← List.forall₂_eq_eq_eq, List.forall₂_map_left_iff, List.forall₂_map_right_iff]
        exact hall.flip.imp fun _ _ heq => heq.symm
      rw [hinstances]
      exact hscope
    have hfound : row.findTableRow p.1.instanceId = some tableRow := by
      rw [hinstance]
      exact find_key_of_mem hnodup htableRow
    have hsingle : (QueryRow.mk [tableRow]).findTableRow p.1.instanceId = some tableRow := by
      rw [QueryRow.findTableRow, hinstance]
      simp
    have hvalue : self.valueOf ⟨[tableRow]⟩ p.1 = self.valueOf row p.1 := by
      rw [valueOf, valueOf, hfound, hsingle]
    rw [hvalue, himp rows row h, Bool.or_true]
  · simp [hinstance]

/-- Only rows that the lookups keep pass the filter. -/
lemma passing_keeps (hscope : Scope tables) (hrows : ∀ row ∈ rows, row.IsFrom self.database tables)
    (hfilter : ∀ f ∈ filter, f.Fits self.database tables) :
    self.passing filter (rows.filter fun row => row.tableRows.all (self.keeps tables filter)) =
      self.passing filter rows := by
  have hkeeps : ∀ row ∈ rows, row ∈ self.passing filter rows →
      row.tableRows.all (self.keeps tables filter) :=
    fun row hrow hpasses => keeps_of_passing hscope (hrows row hrow) hfilter hpasses
  cases filter with
  | none => exact List.filter_eq_self.mpr fun row hrow => hkeeps row hrow hrow
  | some filter =>
    rw [passing, passing, List.filter_filter]
    apply List.filter_congr
    intro row hrow
    cases hholds : self.holds row filter with
    | false => rfl
    | true => rw [hkeeps row hrow (List.mem_filter.mpr ⟨hrow, hholds⟩), Bool.and_true]

end Executor

namespace Database

variable {σ : Type} {Shows : σ → Contents → Prop} {catalog : Catalog} {c : Contents}
  {from_ : BoundFromClause} {filter : Option BoundExpression} {tables : List BoundTable}
  {rows rows' : List QueryRow}

/-! ### The same rows -/

/-- The live rows that the lookups keep. -/
lemma mem_filter_fetched {self : Executor} {heap : TableId → RowId → Option Row} {table : BoundTable}
    {live : List (RowId × Row)} (h : self.Fetched heap filter table live) (hmem : table ∈ tables)
    (hfilter : ∀ f ∈ filter, f.Fits self.database tables) (e : RowId × Row) :
    e ∈ live.filter (self.keeps tables filter ∘ self.shownRow table) ↔
      heap table.tableId e.1 = some e.2 ∧ self.keeps tables filter (self.shownRow table e) := by
  rw [List.mem_filter]
  constructor
  · intro ⟨he, hkeeps⟩
    exact ⟨h.stored e he, hkeeps⟩
  · intro ⟨he, hkeeps⟩
    exact ⟨h.complete e he (Executor.selects_of_keeps hmem hfilter rfl hkeeps), hkeeps⟩

/-- Two fetches of a table differ in rows that the lookups do not keep. -/
lemma IsFetch.perm {database : DatabaseMetadata} {table : BoundTable} {tableRows tableRows' : List TableRow}
    (h : IsFetch database c filter table tableRows) (h' : IsFetch database c filter table tableRows')
    (hmem : table ∈ tables) (hfilter : ∀ f ∈ filter, f.Fits database tables)
    (htable : ∃ tableMeta, database.tableById table.tableId = some tableMeta) :
    (tableRows.filter (Executor.keeps ⟨database⟩ tables filter)).Perm
      (tableRows'.filter (Executor.keeps ⟨database⟩ tables filter)) := by
  have ⟨tableMeta, hmeta⟩ := htable
  have ⟨live, hfetched, heq⟩ := h
  have ⟨live', hfetched', heq'⟩ := h'
  have hshown (l : List (RowId × Row)) : Executor.shownRows ⟨database⟩ table l =
      l.map (Executor.shownRow ⟨database⟩ table) := Executor.shownRows_eq hmeta
  rw [heq, heq', hshown, hshown, List.filter_map, List.filter_map]
  apply List.Perm.map
  rw [List.perm_ext_iff_of_nodup (hfetched.nodup.filter _) (hfetched'.nodup.filter _)]
  intro e
  rw [mem_filter_fetched hfetched hmem hfilter, mem_filter_fetched hfetched' hmem hfilter]

lemma IsJoin.isFrom (h : IsJoin catalog.metadata c filter from_ rows) (hagrees : Agrees catalog.metadata c) :
    ∀ row ∈ rows, row.IsFrom catalog.metadata (collectTables from_) :=
  fun row hrow => (h.isLive hagrees.encoded row hrow).imp fun _ _ hlive => hlive.1.1

/-- Joins of two fetches have the same rows passing the filter, whatever the indexes say. -/
lemma IsJoin.passing_perm_of_encoded (h : IsJoin catalog.metadata c filter from_ rows)
    (h' : IsJoin catalog.metadata c filter from_ rows')
    (hencoded : Executor.HoldsEncoded catalog.metadata c.rows)
    (hfits : from_.Fits catalog.metadata) (hscope : Scope (collectTables from_))
    (hfilter : ∀ f ∈ filter, f.Fits catalog.metadata (collectTables from_)) :
    (Executor.passing ⟨catalog.metadata⟩ filter rows).Perm
      (Executor.passing ⟨catalog.metadata⟩ filter rows') := by
  have hrows : ∀ row ∈ rows, row.IsFrom catalog.metadata (collectTables from_) :=
    fun row hrow => (h.isLive hencoded row hrow).imp fun _ _ hlive => hlive.1.1
  have hrows' : ∀ row ∈ rows', row.IsFrom catalog.metadata (collectTables from_) :=
    fun row hrow => (h'.isLive hencoded row hrow).imp fun _ _ hlive => hlive.1.1
  have ⟨tableRows, heq, hfetched⟩ := h
  have ⟨tableRows', heq', hfetched'⟩ := h'
  have hkept {l : List QueryRow} (hl : ∀ row ∈ l, row.IsFrom catalog.metadata (collectTables from_)) :
      Executor.passing ⟨catalog.metadata⟩ filter (l.filter fun row =>
        row.tableRows.all (Executor.keeps ⟨catalog.metadata⟩ (collectTables from_) filter)) =
          Executor.passing ⟨catalog.metadata⟩ filter l := Executor.passing_keeps hscope hl hfilter
  rw [← hkept hrows, ← hkept hrows', heq, heq', ← Executor.joinedRows_filter, ← Executor.joinedRows_filter]
  have hperm : (Executor.joinedRows ⟨catalog.metadata⟩ (fun table => (tableRows table).filter
        (Executor.keeps ⟨catalog.metadata⟩ (collectTables from_) filter)) from_).Perm
      (Executor.joinedRows ⟨catalog.metadata⟩ (fun table => (tableRows' table).filter
        (Executor.keeps ⟨catalog.metadata⟩ (collectTables from_) filter)) from_) := by
    apply Executor.joinedRows_perm
    intro table hmem
    exact (hfetched table hmem).perm (hfetched' table hmem) hmem hfilter (hfits.table table hmem)
  cases filter with
  | none => exact hperm
  | some filter => exact hperm.filter _

lemma IsJoin.passing_perm (h : IsJoin catalog.metadata c filter from_ rows)
    (h' : IsJoin catalog.metadata c filter from_ rows') (hagrees : Agrees catalog.metadata c)
    (hfits : from_.Fits catalog.metadata) (hscope : Scope (collectTables from_))
    (hfilter : ∀ f ∈ filter, f.Fits catalog.metadata (collectTables from_)) :
    (Executor.passing ⟨catalog.metadata⟩ filter rows).Perm
      (Executor.passing ⟨catalog.metadata⟩ filter rows') :=
  h.passing_perm_of_encoded h' hagrees.encoded hfits hscope hfilter

section Paths

variable [Engine σ]

/-- `execute_from_clause` where the tables picked by `lookup` are read by `fetch_table_rows` and the others
by a scan of their heap. -/
def executeFromClauseBy (lookup : BoundTable → Bool) (from_ : BoundFromClause)
    (filter : Option BoundExpression) : Exec DatabaseError (Database σ) (List QueryRow) := do
  let executor ← executor
  executor.fromClause .executor
    (fun table => if lookup table then fetchTableRows filter table else scanTableRows table) from_

lemma executeFromClauseBy_true :
    executeFromClauseBy (fun _ => true) from_ filter = (executeFromClause from_ filter : Exec _ (Database σ) _) :=
  rfl

lemma executeFromClauseBy_succeeds (lookup : BoundTable → Bool) (h : ReadLaws Shows)
    (hagrees : Agrees catalog.metadata c) (hfits : from_.Fits catalog.metadata)
    (hscope : Scope (collectTables from_))
    (hfilter : ∀ f ∈ filter, f.Fits catalog.metadata (collectTables from_)) :
    Exec.Succeeds (IsAt Shows catalog c) (executeFromClauseBy lookup from_ filter)
      fun rows db => IsJoin catalog.metadata c filter from_ rows ∧ IsAt Shows catalog c db := by
  unfold executeFromClauseBy
  apply executor_fromClause_succeeds hagrees.encoded hfits hscope
  intro table hmem
  split
  · exact fetchTableRows_succeeds h (hagrees.readable Set.univ) (Set.mem_univ _) hfilter hscope hmem (hfits.table table hmem)
  · exact scanTableRows_succeeds h (hagrees.readable Set.univ) (hfits.table table hmem)

/-- Whichever tables of a bound FROM clause are read by a lookup, the clause returns rows, and those that
pass the filter are the same, each as often. -/
theorem executeFromClauseBy_perm {db : Database σ} {source : FromClause} {stop : Nat}
    {where_ : Option Expression} (h : ReadLaws Shows) (hshows : Shows db.storage c)
    (hagrees : Agrees db.catalog.metadata c)
    (hfrom : (Binder.mk db.catalog.metadata).bindFromClause source 0 = .ok (from_, stop))
    (hwhere : Binder.bindOptional ((Binder.mk db.catalog.metadata).bindFilter (collectTables from_)) where_ =
      .ok filter) (lookup lookup' : BoundTable → Bool) :
    ∃ rows db₁ rows' db₁' passed passed', (executeFromClauseBy lookup from_ filter).run db = .ok rows db₁ ∧
      (executeFromClauseBy lookup' from_ filter).run db = .ok rows' db₁' ∧
        (Executor.filtered ⟨db₁.catalog.metadata⟩ rows filter).run db₁ = .ok passed db₁ ∧
          (Executor.filtered ⟨db₁'.catalog.metadata⟩ rows' filter).run db₁' = .ok passed' db₁' ∧
            passed.Perm passed' := by
  have hfits : from_.Fits db.catalog.metadata := Binder.bindFromClause_fits hfrom
  have hscope := Binder.bindFromClause_scope hfrom
  have hfilter : ∀ f ∈ filter, f.Fits db.catalog.metadata (collectTables from_) := by
    intro f hf
    have ⟨expression, _, hbound⟩ := Binder.bindOptional_eq_ok hwhere hf
    exact Binder.bindFilter_fits hbound
  have hat : IsAt Shows db.catalog c db := ⟨rfl, hshows⟩
  have ⟨rows, db₁, hrun, hjoin, hat₁⟩ := executeFromClauseBy_succeeds lookup h hagrees hfits hscope hfilter db hat
  have ⟨rows', db₁', hrun', hjoin', hat₁'⟩ :=
    executeFromClauseBy_succeeds lookup' h hagrees hfits hscope hfilter db hat
  refine ⟨rows, db₁, rows', db₁', _, _, hrun, hrun', ?_, ?_,
    hjoin.passing_perm hjoin' hagrees hfits hscope hfilter⟩
  · rw [hat₁.catalog, Executor.filtered_eq hscope (hjoin.isFrom hagrees) hfilter, Exec.run_pure]
  · rw [hat₁'.catalog, Executor.filtered_eq hscope (hjoin'.isFrom hagrees) hfilter, Exec.run_pure]

/-- A self join with a comparison on an indexed column and one with `NULL`. -/
theorem executeFromClauseBy_perm_setup : ∃ (db : Database MapEngine) (from_ : BoundFromClause)
    (filter : Option BoundExpression), (executeAll setup).run newDatabase = .ok () db ∧
    (Binder.mk db.catalog.metadata).bindFromClause (.innerJoin (.table ⟨"t", some "x"⟩)
      ⟨⟨some "x", "n"⟩, ⟨some "y", "n"⟩⟩ (.table ⟨"t", some "y"⟩)) 0 = .ok (from_, 2) ∧
    ∃ rows db₁ rows' db₁' passed passed',
      (executeFromClauseBy (fun _ => true) from_ filter).run db = .ok rows db₁ ∧
      (executeFromClauseBy (fun _ => false) from_ filter).run db = .ok rows' db₁' ∧
        (Executor.filtered ⟨db₁.catalog.metadata⟩ rows filter).run db₁ = .ok passed db₁ ∧
          (Executor.filtered ⟨db₁'.catalog.metadata⟩ rows' filter).run db₁' = .ok passed' db₁' ∧
            passed.Perm passed' := by
  let where_ : Option Expression := some (.and
    (.comparison (.column ⟨some "x", "k"⟩) .equal (.literal (.integer 2)))
    (.or (.comparison (.column ⟨some "y", "k"⟩) .greaterThan (.literal (.integer 1)))
      (.comparison (.column ⟨some "y", "k"⟩) .equal (.literal .null))))
  have hsetup : ∃ db from_ filter, (executeAll setup).run newDatabase = .ok () db ∧
      (Binder.mk db.catalog.metadata).bindFromClause (.innerJoin (.table ⟨"t", some "x"⟩)
        ⟨⟨some "x", "n"⟩, ⟨some "y", "n"⟩⟩ (.table ⟨"t", some "y"⟩)) 0 = .ok (from_, 2) ∧
      Binder.bindOptional ((Binder.mk db.catalog.metadata).bindFilter (collectTables from_)) where_ =
        .ok filter := ⟨_, _, _, rfl, rfl, rfl⟩
  have ⟨db, from_, filter, hrun, hfrom, hwhere⟩ := hsetup
  have hstart : Run MapEngine.Shows newDatabase := .start MapEngine.shows_empty
  have ⟨c, hshows, hagrees⟩ := (hstart.executeAll hrun).inStep MapEngine.lawful
  exact ⟨db, from_, filter, hrun, hfrom,
    executeFromClauseBy_perm MapEngine.reads hshows hagrees hfrom hwhere _ _⟩

end Paths

end Database

end RdbRs
