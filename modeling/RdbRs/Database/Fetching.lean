import RdbRs.Database.IndexSpec

/-!
# Fetching rows

What the tables of a FROM clause are read from when the indexes agree with the heap: live rows, among
them every one that the comparison of the lookup selects.
-/

namespace RdbRs

/-! ### The comparison of a lookup -/

section IndexPredicate

variable {tables : List BoundTable} {table : BoundTable} {p : BoundColumnReference × Value}

/-- The comparison is on a column of the table instance, and every row that passes the filter passes
it. -/
lemma indexPredicate_go_spec (self : Executor) {filter : BoundExpression}
    (hfilter : filter.Fits self.database tables) (h : indexPredicateForTable.go table filter = some p) :
    p.1.instanceId = table.instanceId ∧
      (∃ dataType, p.1.IsIn self.database tables dataType ∧ p.2.HasType dataType) ∧
        ∀ row, self.holds row filter → (self.valueOf row p.1).compare .equal p.2 := by
  induction filter with
  | comparison column operator value =>
    rw [indexPredicateForTable.go] at h
    split at h
    · next hequal =>
      cases h
      refine ⟨hequal.2, hfilter, ?_⟩
      intro row
      rw [Executor.holds, hequal.1]
      exact id
    · cases h
  | and left right ihl ihr =>
    rw [indexPredicateForTable.go, Option.or_eq_some_iff] at h
    have hboth {row : QueryRow} (hholds : self.holds row (.and left right)) :
        self.holds row left ∧ self.holds row right := by
      rwa [Executor.holds, Bool.and_eq_true] at hholds
    cases h with
    | inl hl =>
      obtain ⟨hinstance, hin, himp⟩ := ihl hfilter.1 hl
      exact ⟨hinstance, hin, fun row hholds => himp row (hboth hholds).1⟩
    | inr hr =>
      obtain ⟨hinstance, hin, himp⟩ := ihr hfilter.2 hr.2
      exact ⟨hinstance, hin, fun row hholds => himp row (hboth hholds).2⟩
  | or left right => cases h

lemma indexPredicateForTable_spec (self : Executor) {filter : Option BoundExpression}
    (hfilter : ∀ f ∈ filter, f.Fits self.database tables)
    (h : indexPredicateForTable filter table = some p) :
    p.1.instanceId = table.instanceId ∧
      (∃ dataType, p.1.IsIn self.database tables dataType ∧ p.2.HasType dataType) ∧
        ∀ rows, ∀ row ∈ self.passing filter rows, (self.valueOf row p.1).compare .equal p.2 := by
  cases filter with
  | none => cases h
  | some filter =>
    have ⟨hinstance, hin, himp⟩ := indexPredicate_go_spec self (hfilter filter rfl) h
    refine ⟨hinstance, hin, fun rows row hpasses => himp row ?_⟩
    exact (List.mem_filter.mp hpasses).2

end IndexPredicate

/-! ### The rows of a table -/

namespace Executor

variable {self : Executor} {rows : TableId → RowId → Option Row} {filter : Option BoundExpression}
  {table : BoundTable}

/-- A stored row as the instance of its table shows it. -/
def shownRow (self : Executor) (table : BoundTable) (e : RowId × Row) : TableRow :=
  ⟨e.1, table.instanceId,
    decoded e.2 (((self.database.tableById table.tableId).map fun tableMeta => tableMeta.columns).getD [])⟩

lemma shownRows_eq {tableMeta : TableMetadata} {live : List (RowId × Row)}
    (h : self.database.tableById table.tableId = some tableMeta) :
    self.shownRows table live = live.map (self.shownRow table) := by
  unfold shownRows shownRow
  rw [h]
  rfl

/-- The row passes the comparison that a lookup in the table uses, if there is one. -/
def Selects (self : Executor) (filter : Option BoundExpression) (table : BoundTable)
    (tableRow : TableRow) : Prop :=
  ∀ p ∈ indexPredicateForTable filter table, (self.valueOf ⟨[tableRow]⟩ p.1).compare .equal p.2

/-- Live rows, each of them once, and at least those the lookup selects. -/
structure Fetched (executor : Executor) (rows : TableId → RowId → Option Row)
    (filter : Option BoundExpression) (table : BoundTable) (live : List (RowId × Row)) : Prop where
  nodup : live.Nodup
  stored : ∀ e ∈ live, rows table.tableId e.1 = some e.2
  complete : ∀ e, rows table.tableId e.1 = some e.2 →
    executor.Selects filter table (executor.shownRow table e) → e ∈ live

end Executor

/-- The tables exist and hold rows that were encoded for them, and the indexes on those of `ts` track
them. -/
structure Readable (database : DatabaseMetadata) (c : Contents) (ts : Set TableId) : Prop where
  tables : ∀ t tableMeta, database.tableById t = some tableMeta → c.heap t = some (c.rows t)
  encoded : Executor.HoldsEncoded database c.rows
  tracks : ∀ index ∈ database.indexes, index.tableId ∈ ts → Tracks database c index (c.rows index.tableId)

lemma Agrees.readable {database : DatabaseMetadata} {c : Contents} (h : Agrees database c) (ts : Set TableId) :
    Readable database c ts :=
  ⟨h.tables, h.encoded, fun index hindex _ => h.tracks index hindex⟩

/-! ### Calls -/

namespace Database

variable {σ : Type} {Shows : σ → Contents → Prop} {catalog : Catalog} {c : Contents} {ts : Set TableId}

/-- A database with this catalog and these contents. -/
structure IsAt (Shows : σ → Contents → Prop) (catalog : Catalog) (c : Contents) (db : Database σ) :
    Prop where
  catalog : db.catalog = catalog
  shows : Shows db.storage c

section Calls

variable {ε α : Type} {x : Exec ε σ α}

lemma onStorage_succeeds {Q : α → Prop} (h : Exec.Succeeds (Shows · c) x fun a s => Q a ∧ Shows s c) :
    Exec.Succeeds (IsAt Shows catalog c) (onStorage x) fun a db => Q a ∧ IsAt Shows catalog c db := by
  apply h.zoom fun _ hdb => hdb.shows
  intro a s db hdb hs
  exact ⟨hs.1, hdb.catalog, hs.2⟩

lemma onStorage_yields {Q : α → Contents → Prop} {E : ε → Prop}
    (h : Exec.Yields (Shows · c) x (fun a s => ∃ c', Shows s c' ∧ Q a c') E) :
    Exec.Yields (IsAt Shows catalog c) (onStorage x)
      (fun a db => ∃ c', IsAt Shows catalog c' db ∧ Q a c') E := by
  apply h.zoom fun _ hdb => hdb.shows
  intro a s db hdb hs
  have ⟨c', hs', hQ⟩ := hs
  exact ⟨c', ⟨hdb.catalog, hs'⟩, hQ⟩

end Calls

lemma executor_succeeds : Exec.Succeeds (IsAt Shows catalog c) executor
    fun e db => e = ⟨catalog.metadata⟩ ∧ IsAt Shows catalog c db := by
  apply Exec.succeeds_gets
  intro db hdb
  exact ⟨by rw [hdb.catalog], hdb⟩

variable [Engine σ] {filter : Option BoundExpression} {table : BoundTable} {tables : List BoundTable}
  {live : List (RowId × Row)}

omit [Engine σ] in
/-- Live rows are decoded. -/
lemma decode_succeeds (hencoded : Executor.HoldsEncoded catalog.metadata c.rows)
    (htable : ∃ tableMeta, catalog.metadata.tableById table.tableId = some tableMeta)
    (hlive : ∀ e ∈ live, c.rows table.tableId e.1 = some e.2) :
    Exec.Succeeds (IsAt Shows catalog c)
      (executor >>= fun executor => Exec.mapErr .executor (executor.decodeTableRows table live))
      fun tableRows db => tableRows = Executor.shownRows ⟨catalog.metadata⟩ table live ∧
        IsAt Shows catalog c db := by
  apply executor_succeeds.bind
  intro e db hdb
  have hrows : ∀ row ∈ live, Executor.IsEncoded catalog.metadata table.tableId row.2 :=
    fun row hrow => hencoded _ _ _ (hlive row hrow)
  rw [hdb.1, Executor.decodeTableRows_eq htable hrows]
  exact ⟨_, db, rfl, rfl, hdb.2⟩

/-- Rows of a table as a fetch returns them. -/
def IsFetch (database : DatabaseMetadata) (c : Contents) (filter : Option BoundExpression)
    (table : BoundTable) (tableRows : List TableRow) : Prop :=
  ∃ live, Executor.Fetched ⟨database⟩ c.rows filter table live ∧
    tableRows = Executor.shownRows ⟨database⟩ table live

/-- The post-condition of a fetch. -/
def Fetches (Shows : σ → Contents → Prop) (catalog : Catalog) (c : Contents)
    (filter : Option BoundExpression) (table : BoundTable) (tableRows : List TableRow)
    (db : Database σ) : Prop :=
  IsFetch catalog.metadata c filter table tableRows ∧ IsAt Shows catalog c db

lemma scanTableRows_succeeds (h : ReadLaws Shows) (hreads : Readable catalog.metadata c ts)
    (htable : ∃ tableMeta, catalog.metadata.tableById table.tableId = some tableMeta) :
    Exec.Succeeds (IsAt Shows catalog c) (scanTableRows table) (Fetches Shows catalog c filter table) := by
  have ⟨tableMeta, hmeta⟩ := htable
  have hscan : Exec.Succeeds (Shows · c) (Engine.scanRows table.tableId) fun live s =>
      Executor.Fetched ⟨catalog.metadata⟩ c.rows filter table live ∧ Shows s c := by
    intro s hs
    have ⟨live, s', hrun, hs', hnodup, hmem⟩ := h.scanRows_ok hs (hreads.tables _ _ hmeta)
    exact ⟨live, s', hrun, ⟨hnodup, fun e he => (hmem e.1 e.2).mp he,
      fun e he _ => (hmem e.1 e.2).mpr he⟩, hs'⟩
  unfold scanTableRows
  apply ((onStorage_succeeds hscan).mapErr DatabaseError.table).bind
  intro live db hdb
  have ⟨tableRows, db', hrun, heq, hdb'⟩ := decode_succeeds hreads.encoded htable hdb.1.stored db hdb.2
  exact ⟨tableRows, db', hrun, ⟨live, hdb.1, heq⟩, hdb'⟩

/-- Reading live rows by their ids. -/
lemma getRows_succeeds (h : ReadLaws Shows) {t : TableId} {rows : RowId → Option Row}
    (hheap : c.heap t = some rows) {ids : List RowId} (hids : ∀ id ∈ ids, ∃ row, rows id = some row) :
    Exec.Succeeds (Shows · c) (getRows t ids) fun live s =>
      live = ids.map (fun id => (id, (rows id).getD ⟨[]⟩)) ∧ Shows s c := by
  apply Exec.succeeds_push
  intro acc id hid s hs
  have ⟨row, hrow⟩ := hids id hid
  have ⟨s', hrun, hs'⟩ := h.getRow_ok hs hheap hrow
  refine ⟨acc ++ [(id, row)], s', ?_, ?_, hs'⟩
  · rw [Exec.run_bind, hrun]
    rfl
  · rw [hrow]
    rfl

/-! ### Lookups -/

/-- A column that a row of a clause has is a column of the table of its instance. -/
lemma isIn_table {column : BoundColumnReference} {dataType : DataType} (hscope : Scope tables)
    (hmem : table ∈ tables) (hinstance : column.instanceId = table.instanceId)
    (hc : column.IsIn catalog.metadata tables dataType) : column.tableId = table.tableId := by
  have ⟨table', hmem', hinstance', hid, _⟩ := hc
  have hsame : table' = table :=
    List.inj_on_of_nodup_map hscope hmem' hmem (hinstance'.trans hinstance)
  rw [← hid, hsame]

variable {index : IndexMetadata}

lemma valueOf_shownRow {self : Executor} {column : BoundColumnReference} {e : RowId × Row}
    (on : IndexedColumn self.database index) (hindex : index.tableId = table.tableId)
    (hcolumn : index.columnId = column.columnId) (htable : column.tableId = table.tableId)
    (hinstance : column.instanceId = table.instanceId) :
    self.valueOf ⟨[self.shownRow table e]⟩ column = (on.value e.2).getD .null := by
  have htableMeta := on.table_eq
  have hposition := on.position_eq
  rw [hindex] at htableMeta
  rw [hcolumn] at hposition
  unfold Executor.valueOf QueryRow.findTableRow Executor.shownRow IndexedColumn.value
  rw [htable, hinstance]
  simp [htableMeta, hposition]

/-- The lookup of a comparison in an index on its column. -/
lemma searchIndexRowIds_succeeds (h : ReadLaws Shows) (hreads : Readable catalog.metadata c ts)
    (hread : table.tableId ∈ ts) {column : BoundColumnReference} {value : Value} {dataType : DataType}
    (hscope : Scope tables) (hmem : table ∈ tables) (hinstance : column.instanceId = table.instanceId)
    (hc : column.IsIn catalog.metadata tables dataType) (htype : value.HasType dataType) :
    Exec.Succeeds (Shows · c)
      (IndexManager.searchIndexRowIds catalog.metadata.indexes table.tableId column.columnId value)
      fun found s => (∀ ids ∈ found, ids.Nodup ∧ ∀ id, id ∈ ids ↔ ∃ row, c.rows table.tableId id = some row ∧
        (Executor.valueOf ⟨catalog.metadata⟩ ⟨[Executor.shownRow ⟨catalog.metadata⟩ table (id, row)]⟩
          column).compare .equal value) ∧ Shows s c := by
  have htable := isIn_table hscope hmem hinstance hc
  unfold IndexManager.searchIndexRowIds
  split
  · next index hindex =>
    have hpasses := List.find?_some hindex
    have hfound := of_decide_eq_true hpasses
    have ⟨on, m, hm, hentries⟩ :=
      hreads.tracks index (List.mem_of_find?_eq_some hindex) (hfound.1 ▸ hread)
    have hcolumnType : value.HasType on.column.dataType := by
      have ⟨_, _, _, _, tableMeta, hmeta, columnMeta, hcolumnMeta, hdataType⟩ := hc
      rw [htable, ← hfound.1, on.table_eq] at hmeta
      cases hmeta
      have ⟨i, hi, hget⟩ := columnIndex_of_columnById hcolumnMeta
      rw [← hfound.2, on.position_eq] at hi
      cases hi
      rw [on.column_eq] at hget
      cases hget
      rwa [hdataType]
    apply (IndexManager.searchRowIds_succeeds h hm hentries hcolumnType).bind
    intro ids
    apply Exec.succeeds_pure
    intro s hs
    refine ⟨?_, hs.2⟩
    intro ids' hids'
    cases hids'
    apply And.intro hs.1.1
    intro id
    rw [hs.1.2, hfound.1]
    apply exists_congr
    intro row
    rw [valueOf_shownRow on hfound.1 hfound.2 htable hinstance]
    cases on.value row with
    | none => simp [Value.compare]
    | some w => simp
  · apply Exec.succeeds_pure
    intro s hs
    exact ⟨by simp, hs⟩

/-- A fetch reads live rows, among them those its lookup selects. -/
lemma fetchTableRows_succeeds (h : ReadLaws Shows) (hreads : Readable catalog.metadata c ts)
    (hread : table.tableId ∈ ts)
    (hfilter : ∀ f ∈ filter, f.Fits catalog.metadata tables) (hscope : Scope tables) (hmem : table ∈ tables)
    (htable : ∃ tableMeta, catalog.metadata.tableById table.tableId = some tableMeta) :
    Exec.Succeeds (IsAt Shows catalog c) (fetchTableRows filter table) (Fetches Shows catalog c filter table) := by
  unfold fetchTableRows
  split
  · next column value hpredicate =>
    have ⟨hinstance, ⟨dataType, hc, htype⟩, _⟩ :=
      indexPredicateForTable_spec ⟨catalog.metadata⟩ hfilter hpredicate
    simp only at hinstance hc htype
    have hsearch := searchIndexRowIds_succeeds h hreads hread hscope hmem hinstance hc htype
    have hcatalog : Exec.Succeeds (ε := DatabaseError) (IsAt Shows catalog c) (Exec.gets Database.catalog)
        fun catalog' db => catalog' = catalog ∧ IsAt Shows catalog c db :=
      Exec.succeeds_gets fun db hdb => ⟨hdb.catalog, hdb⟩
    apply hcatalog.bind
    intro catalog' db hdb
    rw [hdb.1]
    apply ((onStorage_succeeds hsearch).mapErr DatabaseError.index).bind _ db hdb.2
    intro found db₁ hdb₁
    cases found with
    | none => exact scanTableRows_succeeds h hreads htable db₁ hdb₁.2
    | some ids =>
      have ⟨hnodup, hids⟩ := hdb₁.1 ids rfl
      have ⟨tableMeta, hmeta⟩ := htable
      have hlive : ∀ id ∈ ids, ∃ row, c.rows table.tableId id = some row := by
        intro id hid
        have ⟨row, hrow, _⟩ := (hids id).mp hid
        exact ⟨row, hrow⟩
      have hget := getRows_succeeds h (hreads.tables _ _ hmeta) hlive
      apply ((onStorage_succeeds hget).mapErr DatabaseError.table).bind _ db₁ hdb₁.2
      intro live db₂ hdb₂
      have hfetched : Executor.Fetched ⟨catalog.metadata⟩ c.rows filter table live := by
        rw [hdb₂.1]
        constructor
        · exact hnodup.map fun a b hab => congrArg Prod.fst hab
        · intro e he
          have ⟨id, hid, heq⟩ := List.mem_map.mp he
          have ⟨row, hrow, _⟩ := (hids id).mp hid
          rw [← heq, hrow]
          rfl
        · intro e he hselects
          apply List.mem_map.mpr
          refine ⟨e.1, (hids e.1).mpr ⟨e.2, he, hselects _ hpredicate⟩, ?_⟩
          rw [he]
          rfl
      have ⟨tableRows, db', hrun, heq, hdb'⟩ :=
        decode_succeeds hreads.encoded ⟨tableMeta, hmeta⟩ hfetched.stored db₂ hdb₂.2
      exact ⟨tableRows, db', hrun, ⟨live, hfetched, heq⟩, hdb'⟩
  · exact scanTableRows_succeeds h hreads htable

/-! ### FROM clauses -/

section FromClause

variable {from_ : BoundFromClause} {fetch : BoundTable → Exec DatabaseError (Database σ) (List TableRow)}

/-- Joined rows of rows that were fetched for the tables. -/
def IsJoin (database : DatabaseMetadata) (c : Contents) (filter : Option BoundExpression)
    (from_ : BoundFromClause) (rows : List QueryRow) : Prop :=
  ∃ tableRows : BoundTable → List TableRow, rows = Executor.joinedRows ⟨database⟩ tableRows from_ ∧
    ∀ table ∈ collectTables from_, IsFetch database c filter table (tableRows table)

lemma IsFetch.stored {tableRows : List TableRow} (h : IsFetch catalog.metadata c filter table tableRows)
    (hencoded : Executor.HoldsEncoded catalog.metadata c.rows) : ∀ tableRow ∈ tableRows,
      Executor.IsLive catalog.metadata c.rows table tableRow := by
  have ⟨live, hfetched, heq⟩ := h
  rw [heq]
  intro tableRow htableRow
  exact Executor.shownRows_live hencoded hfetched.stored tableRow htableRow

/-- A joined row has stored values and stands for live rows. -/
lemma IsJoin.isLive {rows : List QueryRow} (h : IsJoin catalog.metadata c filter from_ rows)
    (hencoded : Executor.HoldsEncoded catalog.metadata c.rows) : ∀ row ∈ rows,
      List.Forall₂ (Executor.IsLive catalog.metadata c.rows) (collectTables from_) row.tableRows := by
  have ⟨tableRows, heq, hfetched⟩ := h
  rw [heq]
  exact Executor.joinedRows_forall₂ fun table hmem => (hfetched table hmem).stored hencoded

omit [Engine σ] in
/-- The fetches of the two sides of a join are for different instances. -/
lemma IsJoin.joined {left right : BoundFromClause} {on : BoundJoinCondition}
    {leftRows rightRows : List QueryRow} (hencoded : Executor.HoldsEncoded catalog.metadata c.rows)
    (hfits : (BoundFromClause.innerJoin left on right).Fits catalog.metadata)
    (hscope : Scope (collectTables left ++ collectTables right))
    (hl : IsJoin catalog.metadata c filter left leftRows)
    (hr : IsJoin catalog.metadata c filter right rightRows) :
    ∃ rows, (Executor.hashJoin ⟨catalog.metadata⟩ leftRows rightRows on :
        Exec ExecutorError (Database σ) _) = pure rows ∧
      IsJoin catalog.metadata c filter (.innerJoin left on right) rows := by
  have ⟨leftOf, hleft, hleftOf⟩ := hl
  have ⟨rightOf, hright, hrightOf⟩ := hr
  let tableRows (table : BoundTable) : List TableRow :=
    if table ∈ collectTables left then leftOf table else rightOf table
  have hleftEq : ∀ table ∈ collectTables left, leftOf table = tableRows table :=
    fun table hmem => (if_pos hmem).symm
  have hrightEq : ∀ table ∈ collectTables right, rightOf table = tableRows table := by
    intro table hmem
    apply (if_neg _).symm
    intro hmem'
    rw [Scope, List.map_append, List.nodup_append] at hscope
    exact hscope.2.2 _ (List.mem_map_of_mem hmem') _ (List.mem_map_of_mem hmem) rfl
  have hfetched : ∀ table ∈ collectTables left ++ collectTables right,
      IsFetch catalog.metadata c filter table (tableRows table) := by
    intro table hmem
    cases List.mem_append.mp hmem with
    | inl h => exact hleftEq table h ▸ hleftOf table h
    | inr h => exact hrightEq table h ▸ hrightOf table h
  refine ⟨_, ?_, tableRows, rfl, hfetched⟩
  rw [hleft, hright, Executor.joinedRows_congr hleftEq, Executor.joinedRows_congr hrightEq]
  apply Executor.hashJoin_joinedRows hfits hscope
  intro table hmem tableRow htableRow
  exact ((hfetched table hmem).stored hencoded tableRow htableRow).1.1

omit [Engine σ] in
/-- A FROM clause returns joined rows of what its tables are read from. -/
lemma fromClause_succeeds (hencoded : Executor.HoldsEncoded catalog.metadata c.rows)
    (hfits : from_.Fits catalog.metadata)
    (hscope : Scope (collectTables from_))
    (hfetch : ∀ table ∈ collectTables from_,
      Exec.Succeeds (IsAt Shows catalog c) (fetch table) (Fetches Shows catalog c filter table)) :
    Exec.Succeeds (IsAt Shows catalog c)
      (Executor.fromClause ⟨catalog.metadata⟩ DatabaseError.executor fetch from_)
      fun rows db => IsJoin catalog.metadata c filter from_ rows ∧ IsAt Shows catalog c db := by
  induction from_ with
  | table table =>
    rw [Executor.fromClause]
    apply (hfetch table (List.mem_singleton_self table)).bind
    intro tableRows
    apply Exec.succeeds_pure
    intro db hdb
    refine ⟨⟨fun _ => tableRows, rfl, ?_⟩, hdb.2⟩
    intro table' hmem
    rw [List.mem_singleton.mp hmem]
    exact hdb.1
  | innerJoin left on right ihl ihr =>
    rw [Executor.fromClause]
    apply (ihl hfits.1 hscope.left fun table hmem => hfetch table (List.mem_append_left _ hmem)).bind
    intro leftRows db hdb
    apply (ihr hfits.2.1 hscope.swap.left fun table hmem =>
      hfetch table (List.mem_append_right _ hmem)).bind _ db hdb.2
    intro rightRows db₁ hdb₁
    obtain ⟨rows, hrun, hjoin⟩ := IsJoin.joined (σ := σ) hencoded hfits hscope hdb.1 hdb₁.1
    rw [hrun]
    exact ⟨rows, db₁, rfl, hjoin, hdb₁.2⟩

omit [Engine σ] in
lemma executor_fromClause_succeeds (hencoded : Executor.HoldsEncoded catalog.metadata c.rows)
    (hfits : from_.Fits catalog.metadata)
    (hscope : Scope (collectTables from_))
    (hfetch : ∀ table ∈ collectTables from_,
      Exec.Succeeds (IsAt Shows catalog c) (fetch table) (Fetches Shows catalog c filter table)) :
    Exec.Succeeds (IsAt Shows catalog c)
      (executor >>= fun executor => executor.fromClause DatabaseError.executor fetch from_)
      fun rows db => IsJoin catalog.metadata c filter from_ rows ∧ IsAt Shows catalog c db := by
  apply executor_succeeds.bind
  intro e db hdb
  rw [hdb.1]
  exact fromClause_succeeds hencoded hfits hscope hfetch db hdb.2

/-- A FROM clause whose tables can be read. -/
lemma executeFromClause_reads (h : ReadLaws Shows) (hreads : Readable catalog.metadata c ts)
    (hts : ∀ table ∈ collectTables from_, table.tableId ∈ ts) (hfits : from_.Fits catalog.metadata)
    (hscope : Scope (collectTables from_))
    (hfilter : ∀ f ∈ filter, f.Fits catalog.metadata (collectTables from_)) :
    Exec.Succeeds (IsAt Shows catalog c) (executeFromClause from_ filter)
      fun rows db => IsJoin catalog.metadata c filter from_ rows ∧ IsAt Shows catalog c db := by
  unfold executeFromClause
  apply executor_fromClause_succeeds hreads.encoded hfits hscope
  intro table hmem
  exact fetchTableRows_succeeds h hreads (hts table hmem) hfilter hscope hmem (hfits.table table hmem)

lemma executeFromClause_succeeds (h : ReadLaws Shows) (hagrees : Agrees catalog.metadata c)
    (hfits : from_.Fits catalog.metadata) (hscope : Scope (collectTables from_))
    (hfilter : ∀ f ∈ filter, f.Fits catalog.metadata (collectTables from_)) :
    Exec.Succeeds (IsAt Shows catalog c) (executeFromClause from_ filter)
      fun rows db => IsJoin catalog.metadata c filter from_ rows ∧ IsAt Shows catalog c db :=
  executeFromClause_reads h (hagrees.readable Set.univ) (fun _ _ => Set.mem_univ _) hfits hscope hfilter

end FromClause

end Database

end RdbRs
