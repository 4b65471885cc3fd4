import RdbRs.Database.SparedIndexes

/-!
# Failed statements

Nothing is rolled back. A statement that fails leaves the indexes it was not changing in step with their
tables. An `INSERT` that fails in an index leaves a row that an index misses.
-/

namespace RdbRs

open Exec

/-- The statement creates a table or an index. -/
def Statement.Creates : Statement → Prop
  | .createTable _ => True
  | .createIndex _ => True
  | _ => False

/-- It touches no index. -/
lemma Statement.Creates.touches {statement : Statement} {database : DatabaseMetadata} {bound : BoundStatement}
    {index : IndexMetadata} (h : statement.Creates) (hbind : (Binder.mk database).bind statement = .ok bound) :
    ¬ bound.Touches index := by
  cases statement with
  | createTable statement =>
    obtain ⟨bound, -, heq⟩ := except_bind_eq_ok.mp hbind
    cases heq
    exact not_false
  | createIndex statement =>
    obtain ⟨bound, -, heq⟩ := except_bind_eq_ok.mp hbind
    cases heq
    exact not_false
  | _ => exact h.elim

namespace Database

section Stores

variable {σ : Type} [PageStore σ] [UnstableSort] {catalog : Catalog} {database : DatabaseMetadata}
  {heap : TableId → RowId → Option Row} {index : IndexMetadata} {K : Set IndexId} {s₀ : σ}
  {db db' : Database σ} {bound : BoundStatement} {e : DatabaseError}

/-- Tables and indexes that are created one after the other. -/
lemma Reached.executeAll {statements : List Statement} (h : Reached db)
    (hcreates : ∀ statement ∈ statements, statement.Creates)
    (hagrees : ∀ index ∈ db.catalog.metadata.indexes, IndexAgrees db index)
    (hrun : (executeAll statements).run db = .ok () db') :
    Reached db' ∧ ∀ index ∈ db'.catalog.metadata.indexes, IndexAgrees db' index := by
  induction statements generalizing db with
  | nil =>
    cases hrun
    exact ⟨h, hagrees⟩
  | cons statement statements ih =>
    obtain ⟨result, db₁, hstep, hrest⟩ := executeAll_cons hrun
    apply ih (h.step (.inl ⟨result, hstep⟩)) _ _ hrest
    · exact fun st hst => hcreates st (List.mem_cons_of_mem _ hst)
    · intro index hindex
      apply h.linked hstep hindex (hagrees index)
      intro bound hbind hunlinks
      exact (hcreates statement List.mem_cons_self).touches hbind hunlinks.1

/-- An insertion whose row is stored, and which then fails in an index. -/
lemma executeInsert_err {bound : BoundInsert} {row : Row} {id : RowId} {s s' : σ} {e : IndexError}
    (hencode : (Executor.encodeInsert ⟨db.catalog.metadata⟩ bound).run db = .ok row db)
    (hinsert : (Engine.insertRow bound.tableId row).run db.storage = .ok id s)
    (hindex : (IndexManager.insertRow db.catalog bound.tableId id bound.values).run s = .err e s') :
    (executeInsert bound).run db = .err (.index e) { db with storage := s' } := by
  simp only [executeInsert, executor, onStorage, Exec.run_bind, Exec.run_gets, Outcome.andThen_ok,
    Exec.run_mapErr, hencode, Outcome.mapErr_ok, Exec.run_zoom, hinsert, Outcome.mapState_ok, hindex,
    Outcome.mapState_err, Outcome.mapErr_err, Outcome.andThen_err]

/-- An update of one row that fails in an index. -/
lemma executeUpdate_err {bound : BoundUpdate} {rows : List QueryRow} {update : PreparedUpdate} {s : σ}
    {e : IndexError} (hrows : (executeFromClause bound.from_ bound.filter).run db = .ok rows db)
    (hprepare : (Executor.prepareUpdate ⟨db.catalog.metadata⟩ rows bound).run db = .ok [update] db)
    (hindex : (IndexManager.updateRow db.catalog update.tableId update.rowId update.oldValues
      update.newValues).run db.storage = .err e s) :
    (executeUpdate bound).run db = .err (.index e) { db with storage := s } := by
  simp only [executeUpdate, executor, onStorage, Exec.run_bind, hrows, Outcome.andThen_ok, Exec.run_gets,
    Exec.run_mapErr, hprepare, Outcome.mapErr_ok, Exec.forM_cons, applyUpdate, Exec.run_zoom, hindex,
    Outcome.mapState_err, Outcome.mapErr_err, Outcome.andThen_err]

/-- A deletion of one row that fails in an index. -/
lemma executeDelete_err {bound : BoundDelete} {rows : List QueryRow} {delete : PreparedDelete} {s : σ}
    {e : IndexError} (hrows : (executeFromClause bound.from_ bound.filter).run db = .ok rows db)
    (hprepare : (Executor.prepareDelete ⟨db.catalog.metadata⟩ rows bound).run db = .ok [delete] db)
    (hindex : (IndexManager.deleteRow db.catalog delete.tableId delete.rowId delete.values).run db.storage =
      .err e s) :
    (executeDelete bound).run db = .err (.index e) { db with storage := s } := by
  simp only [executeDelete, executor, onStorage, Exec.run_bind, hrows, Outcome.andThen_ok, Exec.run_gets,
    Exec.run_mapErr, hprepare, Outcome.mapErr_ok, Exec.forM_cons, applyDelete, Exec.run_zoom, hindex,
    Outcome.mapState_err, Outcome.mapErr_err, Outcome.andThen_err]

omit [UnstableSort] in
/-- An index that does not find a row is out of step with it. -/
lemma not_agrees_of_search {on : IndexedColumn db.catalog.metadata index} {row : Row} {v : Value} {k : BTreeKey}
    {id : RowId} {rows : Multiset RowId} (hrow : storedRow db.storage index.tableId id = some row)
    (hv : on.value row = some v) (hk : valueToBtreeKey v = some k) (htype : v.HasType on.column.dataType)
    (hsearch : on.tree.searchRows db.storage k = some rows) (hid : id ∉ rows) : ¬ IndexAgrees db index := by
  rintro ⟨on', m, hfinds, -, hmem⟩
  obtain rfl := Subsingleton.elim on on'
  have hfound : (k, id) ∈ m := (hmem k id).mpr ⟨row, v, hrow, hv, hk⟩
  rw [hfinds.mem_iff (keyType_of_hasType htype hk on.keyType_eq), hsearch] at hfound
  obtain ⟨_, heq, hmem⟩ := hfound
  exact hid (Option.some.inj heq ▸ hmem)

/-- An insertion that fails in an index has stored a row. Each index of the table has its entries from before or
has gained that of the row, and if all of them agreed with the table before, one of them misses it. -/
lemma Unindexed.spec {bound : BoundInsert} (hcarries : Carries db.catalog.metadata heap db.storage)
    (h : Unindexed K db.catalog heap db.storage bound db') : ∃ id row,
      storedRow db.storage bound.tableId id = none ∧ storedRow db'.storage bound.tableId =
        Function.update (storedRow db.storage bound.tableId) id (some row) ∧
      (∀ index ∈ db'.catalog.metadata.indexes, index.tableId = bound.tableId → IndexAgrees db index →
        IndexAgrees db' index ∨ IndexHolds db' index (storedRow db.storage bound.tableId)) ∧
      ((∀ index ∈ db'.catalog.metadata.indexes, index.tableId = bound.tableId → IndexAgrees db index) →
        ∃ index ∈ db'.catalog.metadata.indexes, index.tableId = bound.tableId ∧ ¬ IndexAgrees db' index) := by
  obtain ⟨catalog', s'⟩ := db'
  obtain ⟨id, row, hnone, -, ⟨rfl, hs⟩, hgains, index₀, hindex₀, ht₀, on₀, k, htype, hkey, hsearch⟩ := h
  rw [← ht₀] at hnone hs hgains ⊢
  have hafter : Carries db.catalog.metadata (changed heap [((index₀.tableId, id), some row)]) s' := hs.carries
  have hrows : storedRow db.storage index₀.tableId = heap index₀.tableId := storedRow_eq hcarries _
  have hrows' : storedRow s' index₀.tableId = Function.update (heap index₀.tableId) id (some row) := by
    rw [storedRow_eq hafter]
    exact Function.update_self ..
  refine ⟨id, row, (congrFun hrows id).trans hnone, hrows'.trans (by rw [hrows]), ?_, ?_⟩
  · intro index hindex ht hagrees
    obtain ⟨on, m, hfinds, hentries⟩ := (indexAgrees_iff hcarries).mp hagrees
    rw [ht] at hentries
    rcases hgains index hindex ht on with hkeep | ⟨hkey', hkeep⟩ | ⟨k', hk', hgain⟩
    · right
      rw [indexHolds_iff, hrows]
      exact ⟨on, m, hfinds.keep hkeep, hentries⟩
    · left
      rw [IndexAgrees, indexHolds_iff, ht, hrows']
      exact ⟨on, m, hfinds.keep hkeep, hentries.insert_none hnone hkey'⟩
    · left
      rw [IndexAgrees, indexHolds_iff, ht, hrows']
      exact ⟨on, _, hfinds.insert hgain, hentries.insert hnone hk'⟩
  · intro hall
    refine ⟨index₀, hindex₀, rfl, ?_⟩
    intro hagrees'
    obtain ⟨on, m, hfinds, hentries⟩ := (indexAgrees_iff hcarries).mp (hall index₀ hindex₀ rfl)
    obtain rfl := Subsingleton.elim on₀ on
    obtain ⟨on', m', hfinds', hentries'⟩ := indexHolds_iff.mp hagrees'
    obtain rfl := Subsingleton.elim on₀ on'
    rw [hrows'] at hentries'
    have hmem' : (k, id) ∈ m' := hentries'.mem (Function.update_self ..) hkey
    -- the searches for the key are those from before the insertion
    have hmem : (k, id) ∈ m := by
      rw [hfinds'.mem_iff htype, hsearch] at hmem'
      exact (hfinds.mem_iff htype).mpr hmem'
    obtain ⟨row', hrow', -⟩ := (hentries.mem_iff k id).mp hmem
    rw [hnone] at hrow'
    cases hrow'

lemma Reached.missed {statement : Statement} {insert : BoundInsert} (h : Reached db)
    (herr : (execute statement).run db = .err e db')
    (hbind : (Binder.mk db.catalog.metadata).bind statement = .ok (.insert insert)) (he : e.OfIndex) :
    ∃ id row, storedRow db.storage insert.tableId id = none ∧
      storedRow db'.storage insert.tableId =
        Function.update (storedRow db.storage insert.tableId) id (some row) ∧
      (∀ index ∈ db'.catalog.metadata.indexes, index.tableId = insert.tableId → IndexAgrees db index →
        IndexAgrees db' index ∨ IndexHolds db' index (storedRow db.storage insert.tableId)) ∧
      ((∀ index ∈ db'.catalog.metadata.indexes, index.tableId = insert.tableId → IndexAgrees db index) →
        ∃ index ∈ db'.catalog.metadata.indexes, index.tableId = insert.tableId ∧ ¬ IndexAgrees db' index) := by
  obtain ⟨hnumbered, heap, hcarries⟩ := h.intact
  have hends := (execute_ends statement hnumbered hcarries
    fun bound hbind => reads_live hcarries hbind).of_err ⟨rfl, rfl⟩ herr
  rcases hends with ⟨⟨error, herror⟩, -⟩ | ⟨bound, hbind', hstopped⟩
  · rw [hbind] at herror
    cases herror
  · rw [hbind] at hbind'
    cases hbind'
    rcases hstopped with ⟨hother, -⟩ | ⟨-, hmissed⟩
    · exact absurd he hother
    · exact hmissed.spec hcarries

end Stores

/-! ### Statements that put an index out of step -/

namespace OutOfStep

/-- A database without files. -/
def newFiles : Database FileStore := ⟨⟨[], ⟨"d", [], [], .empty⟩⟩, .empty⟩

/-- The database after statements that succeed. -/
def afterAll {σ : Type} [PageStore σ] [UnstableSort] (statements : List Statement) (db : Database σ) : Database σ :=
  match (executeAll statements).run db with
  | .ok _ db' => db'
  | _ => db

/-- A table with a row. -/
def withRow : Database FileStore :=
  afterAll [.createTable ⟨"t", [⟨"k", .int⟩, ⟨"n", .varchar⟩]⟩, .insert ⟨"t", [.integer 1, .string "a"]⟩]
    newFiles

/-- The table with two indexes. -/
def indexed : Database FileStore :=
  afterAll [.createIndex ⟨"onKey", "t", "k"⟩, .createIndex ⟨"onName", "t", "n"⟩] withRow

/-- A statement whose result is known. -/
lemma run_afterAll {σ : Type} [PageStore σ] [UnstableSort] {statement : Statement} {db : Database σ}
    {result : ExecuteResult} (h : ((execute statement).run db).value? = some result) :
    (execute statement).run db = .ok result (afterAll [statement] db) := by
  obtain ⟨db', hrun⟩ := Outcome.value?_eq_some.mp h
  have hall : (executeAll [statement]).run db = .ok () db' := by
    rw [executeAll, Exec.forM_cons, Exec.run_bind, Exec.run_bind, hrun]
    rfl
  rw [hrun, afterAll, hall]

/-- Every index of the database agrees with its table. -/
lemma reached_indexed : Reached indexed ∧
    ∀ index ∈ indexed.catalog.metadata.indexes, IndexAgrees indexed index := by
  have hstart : Reached newFiles := .start fun _ => rfl
  have htable : ∃ db₁ : Database FileStore,
      (execute (.createTable ⟨"t", [⟨"k", .int⟩, ⟨"n", .varchar⟩]⟩)).run newFiles = .ok .success db₁ ∧
      (execute (.insert ⟨"t", [.integer 1, .string "a"]⟩)).run db₁ = .ok (.command 1) withRow :=
    ⟨_, rfl, rfl⟩
  obtain ⟨db₁, hcreate, hinsert⟩ := htable
  have hrow : Reached withRow := (hstart.step (.inl ⟨_, hcreate⟩)).step (.inl ⟨_, hinsert⟩)
  have hrun : (executeAll [.createIndex ⟨"onKey", "t", "k"⟩, .createIndex ⟨"onName", "t", "n"⟩]).run withRow =
      .ok () indexed := rfl
  apply hrow.executeAll _ _ hrun
  · simp [Statement.Creates]
  · rintro index ⟨⟩

def columns : List ColumnMetadata := [⟨⟨1⟩, "k", .int⟩, ⟨⟨2⟩, "n", .varchar⟩]

def tableT : TableMetadata := ⟨⟨1⟩, "t", columns, by decide, by decide⟩

lemma tableById_indexed : indexed.catalog.metadata.tableById ⟨1⟩ = some tableT := rfl

def onKey : IndexMetadata := ⟨⟨1⟩, "onKey", ⟨1⟩, ⟨1⟩, PageId.new 0⟩

def onName : IndexMetadata := ⟨⟨2⟩, "onName", ⟨1⟩, ⟨2⟩, PageId.new 0⟩

lemma mem_onKey : onKey ∈ indexed.catalog.metadata.indexes := List.mem_cons_self

lemma mem_onName : onName ∈ indexed.catalog.metadata.indexes := List.mem_cons_of_mem _ List.mem_cons_self

def onKeyColumn : IndexedColumn indexed.catalog.metadata onKey where
  tableMeta := tableT
  position := 0
  column := ⟨⟨1⟩, "k", .int⟩
  keyType := .int
  table_eq := rfl
  position_eq := rfl
  column_eq := rfl
  keyType_eq := rfl

def onNameColumn : IndexedColumn indexed.catalog.metadata onName where
  tableMeta := tableT
  position := 1
  column := ⟨⟨2⟩, "n", .varchar⟩
  keyType := .varchar
  table_eq := rfl
  position_eq := rfl
  column_eq := rfl
  keyType_eq := rfl

/-- The only row. -/
def firstRow : RowId := ⟨PageId.new 0, SlotId.new 0⟩

def firstValues : List Value := [.int 1, .varchar "a"]

lemma firstKey_hasType : (Value.int 1).HasType onKeyColumn.column.dataType := trivial

lemma firstKey_key : valueToBtreeKey (.int 1) = some (.int 1) := rfl

lemma name_hasType (text : String) : (Value.varchar text).HasType onNameColumn.column.dataType := trivial

lemma name_key (text : String) : valueToBtreeKey (.varchar text) = some (.varchar text) := rfl

/-- A leaf, told from its entries and its link. -/
lemma eq_leaf_of_leavesOf {nodes : PageId → Node} {p : PageId} {es : List LeafEntry} {next : Option PageId}
    (h : ((leavesOf nodes p).map fun l => (l.entries, l.next)) = some (es, next)) : nodes p = .leaf ⟨es, next⟩ := by
  obtain ⟨l, hl, heq⟩ := Option.map_eq_some_iff.mp h
  cases heq
  exact leavesOf_eq_some.mp hl

/-- Each index is a leaf with one entry. -/
lemma nodesAt_indexed :
    onKeyColumn.tree.nodesAt indexed.storage (PageId.new 0) = .leaf ⟨[⟨.int 1, firstRow⟩], none⟩ ∧
      onNameColumn.tree.nodesAt indexed.storage (PageId.new 0) = .leaf ⟨[⟨.varchar "a", firstRow⟩], none⟩ :=
  ⟨eq_leaf_of_leavesOf (by decide +kernel), eq_leaf_of_leavesOf (by decide +kernel)⟩

section Rows

variable {heap : TableId → RowId → Option Row} {s : FileStore} {text : String}
  (hcarries : Carries indexed.catalog.metadata heap indexed.storage)

include hcarries

/-- The row is the only one. -/
lemma heap_indexed : ∃ row, (∀ id r, heap ⟨1⟩ id = some r ↔ id = firstRow ∧ r = row) ∧
    Executor.decoded row columns = firstValues := by
  have hvalue : ((TableManager.scanRows ⟨1⟩).run indexed.storage).value?.map
      (List.map fun e => (e.1, Executor.decoded e.2 columns)) = some [(firstRow, firstValues)] := by
    decide +kernel
  obtain ⟨live, s, hrun, -, -, hmem⟩ := scanRows_ok hcarries tableById_indexed
  rw [hrun, Outcome.value?, Option.map_some, Option.some.injEq] at hvalue
  obtain ⟨⟨id₀, row⟩, hlive, heq⟩ := List.map_eq_singleton_iff.mp hvalue
  obtain ⟨rfl, hdecoded⟩ := Prod.mk.inj heq
  refine ⟨row, ?_, hdecoded⟩
  intro id r
  rw [← hmem (id, r), hlive, List.mem_singleton, Prod.mk.injEq]

/-- The row is found in no index that has become empty. -/
lemma not_agrees_of_empty {index : IndexMetadata} {on : IndexedColumn indexed.catalog.metadata index}
    {v : Value} {k : BTreeKey} (hs : Carries indexed.catalog.metadata heap s)
    (hindex : index ∈ indexed.catalog.metadata.indexes) (htable : index.tableId = ⟨1⟩)
    (hcolumns : on.tableMeta.columns = columns) (hv : firstValues[on.position]? = some v)
    (htype : v.HasType on.column.dataType) (hk : valueToBtreeKey v = some k)
    (hempty : on.tree.nodesAt s on.tree.rootPageId = .leaf ⟨[], none⟩) :
    ¬ IndexAgrees ⟨indexed.catalog, s⟩ index := by
  obtain ⟨row, hheap, hdecoded⟩ := heap_indexed hcarries
  obtain ⟨on', hreach⟩ := hs.tree index hindex
  obtain rfl := Subsingleton.elim on on'
  have hrow : storedRow s index.tableId firstRow = some row := by
    rw [htable, storedRow_eq hs]
    exact (hheap _ _).mpr ⟨rfl, rfl⟩
  have hvalue : on.value row = some v := by rw [IndexedColumn.value, hcolumns, hdecoded, hv]
  have hsearch := hreach.sound.searchRows_root (keyType_of_hasType htype hk on.keyType_eq) hempty
  exact not_agrees_of_search hrow hvalue hk htype hsearch (by simp [rowsAt])

/-- What the FROM clause reads from a store that carries the row. -/
lemma executeFromClause_one (hs : Carries indexed.catalog.metadata heap s) :
    (executeFromClause (.table ⟨⟨1⟩, ⟨0⟩, none⟩) none).run ⟨indexed.catalog, s⟩ =
      .ok [⟨[⟨firstRow, ⟨0⟩, firstValues⟩]⟩] ⟨indexed.catalog, s⟩ := by
  obtain ⟨row, hheap, hdecoded⟩ := heap_indexed hcarries
  have htable : indexed.catalog.metadata.tableById (BoundTable.mk ⟨1⟩ ⟨0⟩ none).tableId = some tableT := rfl
  obtain ⟨live, s', hnodup, hmem, hpages, hrun⟩ := executeFromClause_table hs htable
  have hlive : live = [(firstRow, row)] := by
    apply List.perm_singleton.mp
    rw [List.perm_ext_iff_of_nodup hnodup (List.nodup_singleton _)]
    rintro ⟨id, r⟩
    rw [hmem, List.mem_singleton, Prod.mk.injEq]
    exact hheap id r
  rw [hlive, FileStore.ext_pages hpages] at hrun
  rw [hrun, ← hdecoded]
  rfl

end Rows

/-- The row of a text. -/
lemma encode_columns {v : Value} {text : String} (hv : v = .null ∨ v = .int 1)
    (h : (utf8Bytes text).length ≤ u16Max) : ∃ row, Tuple.encode [v, .varchar text] columns = .ok row ∧
      row.data.length ≤ (utf8Bytes text).length + 8 := by
  have hfirst : ∃ bytes, Tuple.encodeValue v ⟨⟨1⟩, "k", .int⟩ = .ok bytes ∧ bytes.length ≤ 5 := by
    rcases hv with rfl | rfl
    · exact ⟨_, rfl, by decide⟩
    · exact ⟨_, rfl, by decide⟩
  have htext : Tuple.encodeValues [.varchar text] [⟨⟨2⟩, "n", .varchar⟩] =
      .ok (Tuple.notNullMarker :: (beBytes 2 (utf8Bytes text).length ++ utf8Bytes text)) := by
    simp [Tuple.encodeValues, Tuple.encodeValue, h]
  obtain ⟨bytes, hbytes, hlength⟩ := hfirst
  refine ⟨⟨bytes ++ Tuple.notNullMarker :: (beBytes 2 (utf8Bytes text).length ++ utf8Bytes text)⟩, ?_, ?_⟩
  · rw [Tuple.encode, if_neg (by simp [columns]), columns, Tuple.encodeValues, hbytes, htext]
    rfl
  · simp only [List.length_append, List.length_cons, length_beBytes]
    omega

def insertName (text : String) : InsertStatement := ⟨"t", [.null, .string text]⟩

lemma bind_insertName (text : String) : (Binder.mk indexed.catalog.metadata).bind (.insert (insertName text)) =
    .ok (.insert ⟨⟨1⟩, [.null, .varchar text]⟩) := rfl

/-- The heap takes the row of a text of this length, and the index does not take its key. -/
lemma execute_insertName {text : String} (hlong : 8167 ≤ (utf8Bytes text).length)
    (hlen : (utf8Bytes text).length ≤ 8172) : ∃ e s,
      (execute (.insert (insertName text))).run indexed = .err (.index e) ⟨indexed.catalog, s⟩ := by
  obtain ⟨row, hrow, hsize⟩ := encode_columns (.inl rfl) (hlen.trans (by decide))
  obtain ⟨-, heap, hcarries⟩ := reached_indexed.1.intact
  obtain ⟨on, hreach⟩ := hcarries.tree onName mem_onName
  obtain rfl := Subsingleton.elim onNameColumn on
  -- the heap
  have hencode : (Executor.encodeInsert ⟨indexed.catalog.metadata⟩ ⟨⟨1⟩, [.null, .varchar text]⟩).run indexed =
      .ok row indexed := by
    change (Exec.mapErr ExecutorError.tuple
      (Exec.liftExcept (Tuple.encode [.null, .varchar text] columns))).run indexed = _
    rw [hrow]
    rfl
  have hspace : rowAllocationSize row.data.length ≤ 8180 := by
    rw [rowAllocationSize_eq]
    split_ifs <;> omega
  obtain ⟨n, hshows⟩ := hcarries.shows_of_table tableById_indexed
  have hpages : n < PageStore.maxPages FileStore := by
    obtain ⟨ps, hps, rfl, -⟩ := hshows
    have hcount : (PageStore.pages indexed.storage (.heap ⟨1⟩)).map List.length = some 1 := rfl
    rw [show PageStore.pages indexed.storage (.heap ⟨1⟩) = some ps from hps, Option.map_some,
      Option.some.injEq] at hcount
    rw [hcount]
    decide
  have hkeeps := hshows.insert_keepsRows row
  obtain ⟨id, s, hinsert⟩ := hshows.insert_ok hpages hspace
  rw [hinsert] at hkeeps
  obtain ⟨-, -, -, -, hspares⟩ := hkeeps
  obtain ⟨ps, hps, -⟩ := hshows
  have hstored : (TableManager.insertRow ⟨1⟩ row).run indexed.storage = .ok id s := by
    rw [TableManager.insertRow, Exec.run_bind, TableManager.run_getOrOpenTable hps, Outcome.andThen_ok]
    exact hinsert
  -- the index
  have hreach' : onNameColumn.tree.Reachable s := hreach.elsewhere (hspares _ (by rintro ⟨⟩))
  obtain ⟨e, s', -, hentry⟩ := IndexManager.insertEntry_longKey (name_hasType text) (name_key text)
    hreach'.sound id (Nat.add_le_add_right hlong 26)
  have hindex : (IndexManager.insertRow indexed.catalog ⟨1⟩ id [.null, .varchar text] :
      Exec IndexError FileStore Unit) =
        [onName].forM fun index => IndexManager.insertEntry index (.varchar text) id := rfl
  refine ⟨.btree e, s', ?_⟩
  change (executeInsert ⟨⟨1⟩, [.null, .varchar text]⟩).run indexed = _
  apply executeInsert_err hencode hstored
  rw [hindex, Exec.forM_cons, Exec.run_bind, hentry, Outcome.andThen_err]

def setName (text : String) : UpdateStatement := ⟨.table ⟨"t", none⟩, [⟨⟨none, "n"⟩, .string text⟩], none⟩

def boundSetName (text : String) : BoundUpdate :=
  ⟨.table ⟨⟨1⟩, ⟨0⟩, none⟩, [⟨⟨⟨1⟩, ⟨0⟩, ⟨2⟩⟩, .varchar text⟩], none⟩

lemma bind_setName (text : String) : (Binder.mk indexed.catalog.metadata).bind (.update (setName text)) =
    .ok (.update (boundSetName text)) := rfl

/-- The statement does not assign the column `k`. -/
lemma setName_spares_onKey (text : String) (e : DatabaseError) (bound : BoundStatement)
    (hbind : (Binder.mk indexed.catalog.metadata).bind (.update (setName text)) = .ok bound) :
    ¬ bound.Disturbs e onKey := by
  rw [bind_setName] at hbind
  cases hbind
  rintro ⟨⟨a, ha, -, hcolumn⟩, -⟩
  rw [List.mem_singleton.mp ha] at hcolumn
  cases hcolumn

/-- The entry of the row is deleted, and the new one is not inserted. -/
lemma execute_setName {heap : TableId → RowId → Option Row} {text : String}
    (hcarries : Carries indexed.catalog.metadata heap indexed.storage) (hlong : 8167 ≤ (utf8Bytes text).length)
    (hlen : (utf8Bytes text).length ≤ u16Max) : ∃ e s,
      (execute (.update (setName text))).run indexed = .err (.index e) ⟨indexed.catalog, s⟩ ∧
      CarriesOver {onKey.id} indexed.storage indexed.catalog.metadata heap s ∧
      onNameColumn.tree.nodesAt s (PageId.new 0) = .leaf ⟨[], none⟩ := by
  obtain ⟨row, hrow, -⟩ := encode_columns (.inr rfl) hlen
  have hprepare : (Executor.prepareUpdate ⟨indexed.catalog.metadata⟩
      [⟨[⟨firstRow, ⟨0⟩, [.int 1, .varchar "a"]⟩]⟩] (boundSetName text)).run indexed =
      .ok [⟨⟨1⟩, firstRow, row, [.int 1, .varchar "a"], [.int 1, .varchar text]⟩] indexed := by
    change ((Exec.mapErr ExecutorError.tuple
      (Exec.liftExcept (Tuple.encode [.int 1, .varchar text] columns)) >>= fun row =>
        pure ([] ++ [⟨⟨1⟩, firstRow, row, [.int 1, .varchar "a"], [.int 1, .varchar text]⟩])) >>= fun results =>
          [].foldlM (Executor.prepare ⟨indexed.catalog.metadata⟩) results).run indexed = _
    rw [hrow]
    rfl
  have hne : Value.varchar "a" ≠ .varchar text := by
    intro heq
    rw [← Value.varchar.inj heq] at hlong
    exact absurd hlong (by decide)
  have hindexes : (IndexManager.updateRow indexed.catalog ⟨1⟩ firstRow [.int 1, .varchar "a"]
      [.int 1, .varchar text] : Exec IndexError FileStore Unit) =
        [onName].forM fun index => if Value.varchar "a" ≠ .varchar text then do
          IndexManager.deleteEntry index (.varchar "a") firstRow
          IndexManager.insertEntry index (.varchar text) firstRow
        else pure () := rfl
  have hother : onName.id ∉ ({onKey.id} : Set IndexId) := by rintro ⟨⟩
  have hstart : CarriesOver {onKey.id} indexed.storage indexed.catalog.metadata heap indexed.storage :=
    ⟨hcarries, fun _ _ => rfl⟩
  obtain ⟨e, s, hrun, hs, hnodes⟩ := IndexManager.replaceEntry_longKey mem_onName hother (name_hasType "a")
    (name_key "a") hstart nodesAt_indexed.2 List.mem_cons_self (name_hasType text) (name_key text)
    (Nat.add_le_add_right hlong 26)
  refine ⟨e, s, ?_, hs, hnodes⟩
  change (executeUpdate (boundSetName text)).run indexed = _
  apply executeUpdate_err (executeFromClause_one hcarries hcarries) hprepare
  rw [hindexes, Exec.forM_cons, if_pos hne, Exec.run_bind, hrun, Outcome.andThen_err]

def deleteRows : DeleteStatement := ⟨none, .table ⟨"t", none⟩, none⟩

def boundDeleteRows : BoundDelete := ⟨[⟨⟨1⟩, ⟨0⟩, none⟩], .table ⟨⟨1⟩, ⟨0⟩, none⟩, none⟩

/-- The entry of the first index is deleted, and the second has none. -/
lemma execute_deleteRows {heap : TableId → RowId → Option Row} {s : FileStore}
    (hcarries : Carries indexed.catalog.metadata heap indexed.storage)
    (hs : CarriesOver {onKey.id} indexed.storage indexed.catalog.metadata heap s)
    (hmissing : onNameColumn.tree.nodesAt s (PageId.new 0) = .leaf ⟨[], none⟩) : ∃ e s',
      (execute (.delete deleteRows)).run ⟨indexed.catalog, s⟩ = .err (.index e) ⟨indexed.catalog, s'⟩ ∧
      Carries indexed.catalog.metadata heap s' ∧
      onKeyColumn.tree.nodesAt s' (PageId.new 0) = .leaf ⟨[], none⟩ := by
  have hprepare : (Executor.prepareDelete ⟨indexed.catalog.metadata⟩ [⟨[⟨firstRow, ⟨0⟩, firstValues⟩]⟩]
      boundDeleteRows : Exec ExecutorError (Database FileStore) _).run ⟨indexed.catalog, s⟩ =
        .ok [⟨⟨1⟩, firstRow, firstValues⟩] ⟨indexed.catalog, s⟩ := rfl
  have hindexes : (IndexManager.deleteRow indexed.catalog ⟨1⟩ firstRow firstValues :
      Exec IndexError FileStore Unit) = IndexManager.deleteEntry onKey (.int 1) firstRow >>= fun _ =>
        [onName].forM fun index => IndexManager.deleteEntry index (.varchar "a") firstRow := rfl
  have hname : onName.id ∉ ({onKey.id} : Set IndexId) := by rintro ⟨⟩
  have hkey : onKey.id ∉ ({onName.id} : Set IndexId) := by rintro ⟨⟩
  have hroot : onKeyColumn.tree.nodesAt s (PageId.new 0) = .leaf ⟨[⟨.int 1, firstRow⟩], none⟩ := by
    rw [BTree.nodesAt_congr (hs.trees onKey.id rfl)]
    exact nodesAt_indexed.1
  -- the entry of `onKey`
  have hbefore : CarriesOver {onName.id} s indexed.catalog.metadata heap s := ⟨hs.carries, fun _ _ => rfl⟩
  obtain ⟨s₁, hrun₁, hs₁, hnodes⟩ := IndexManager.deleteEntry_root mem_onKey hkey firstKey_hasType firstKey_key
    hbefore hroot List.mem_cons_self
  -- no entry of `onName`
  have hmissing₁ : onNameColumn.tree.nodesAt s₁ (PageId.new 0) = .leaf ⟨[], none⟩ := by
    rw [BTree.nodesAt_congr (hs₁.trees onName.id rfl)]
    exact hmissing
  have hnone : (⟨.varchar "a", firstRow⟩ : LeafEntry) ∉ [] := List.not_mem_nil
  have hbefore₁ : CarriesOver {onKey.id} s₁ indexed.catalog.metadata heap s₁ := ⟨hs₁.carries, fun _ _ => rfl⟩
  obtain ⟨s₂, hrun₂, hs₂⟩ := IndexManager.deleteEntry_root_absent mem_onName hname (name_hasType "a")
    (name_key "a") hbefore₁ hmissing₁ hnone
  refine ⟨.entryNotFound onName.id firstRow, s₂, ?_, hs₂.carries, ?_⟩
  · change (executeDelete boundDeleteRows).run ⟨indexed.catalog, s⟩ = _
    apply executeDelete_err (executeFromClause_one hcarries hs.carries) hprepare
    change (IndexManager.deleteRow indexed.catalog ⟨1⟩ firstRow firstValues).run s = _
    rw [hindexes, Exec.run_bind, hrun₁, Outcome.andThen_ok, Exec.forM_cons, Exec.run_bind, hrun₂,
      Outcome.andThen_err]
  · rw [BTree.nodesAt_congr (hs₂.trees onKey.id rfl)]
    exact hnodes

/-- A text whose row fits a page, and whose key does not fit a leaf. -/
def longText : String := String.ofList (List.replicate 8170 'x')

lemma length_longText : (utf8Bytes longText).length = 8170 := length_utf8Bytes_replicate (by decide) _

lemma execute_insertName_longText : ∃ e s,
    (execute (.insert (insertName longText))).run indexed = .err (.index e) ⟨indexed.catalog, s⟩ :=
  execute_insertName (by rw [length_longText]; decide) (by rw [length_longText]; decide)

lemma execute_setName_longText {heap : TableId → RowId → Option Row}
    (hcarries : Carries indexed.catalog.metadata heap indexed.storage) : ∃ e s,
      (execute (.update (setName longText))).run indexed = .err (.index e) ⟨indexed.catalog, s⟩ ∧
      CarriesOver {onKey.id} indexed.storage indexed.catalog.metadata heap s ∧
      onNameColumn.tree.nodesAt s (PageId.new 0) = .leaf ⟨[], none⟩ :=
  execute_setName hcarries (by rw [length_longText]; decide) (by rw [length_longText]; decide)

end OutOfStep

/-! ### What a failed statement leaves -/

open OutOfStep

/-- The statement fails, and an index of the catalog is no longer in step. -/
def Breaks (db : Database FileStore) (statement : Statement) : Prop :=
  ∃ e db' index, (execute statement).run db = .err e db' ∧ index ∈ db'.catalog.metadata.indexes ∧
    IndexAgrees db index ∧ ¬ IndexAgrees db' index

/-- A failed statement puts an index out of step. An `INSERT` stores its row before the entry, an `UPDATE`
deletes the entry of a row before it inserts the new one, and a `DELETE` that misses an entry has deleted those
of the indexes before. -/
theorem execute_err_breaks :
    (¬ ∀ (db db' : Database FileStore) (statement : Statement) (e : DatabaseError), Reached db →
      (execute statement).run db = .err e db' → ∀ index ∈ db'.catalog.metadata.indexes, IndexAgrees db' index) ∧
    (∃ db statement, Reached db ∧ Breaks db (.insert statement)) ∧
    (∃ db statement, Reached db ∧ Breaks db (.update statement)) ∧
    ∃ db statement, Reached db ∧ Breaks db (.delete statement) := by
  obtain ⟨hreached, hagrees⟩ := reached_indexed
  obtain ⟨-, heap, hcarries⟩ := hreached.intact
  have hinsert : Breaks indexed (.insert (insertName longText)) := by
    obtain ⟨e, s, herr⟩ := execute_insertName_longText
    have hindexError : (DatabaseError.index e).OfIndex := trivial
    obtain ⟨id, row, -, -, -, hmissed⟩ := hreached.missed herr (bind_insertName longText) hindexError
    obtain ⟨index, hindex, -, hnot⟩ := hmissed fun index hindex _ => hagrees index hindex
    exact ⟨_, _, index, herr, hindex, hagrees index hindex, hnot⟩
  obtain ⟨e, s, herr, hs, hempty⟩ := execute_setName_longText hcarries
  have hupdate : Breaks indexed (.update (setName longText)) := by
    refine ⟨_, _, onName, herr, mem_onName, hagrees _ mem_onName, ?_⟩
    exact not_agrees_of_empty hcarries hs.carries mem_onName rfl rfl rfl (name_hasType "a") (name_key "a")
      hempty
  have hdelete : Breaks ⟨indexed.catalog, s⟩ (.delete deleteRows) := by
    obtain ⟨e', s', herr', hs', hempty'⟩ := execute_deleteRows hcarries hs hempty
    refine ⟨_, _, onKey, herr', mem_onKey, ?_, ?_⟩
    · exact hreached.spared herr mem_onKey (hagrees onKey) (setName_spares_onKey longText _)
    · exact not_agrees_of_empty hcarries hs' mem_onKey rfl rfl rfl firstKey_hasType firstKey_key hempty'
  have hupdated : Reached ⟨indexed.catalog, s⟩ := hreached.step (.inr ⟨_, herr⟩)
  refine ⟨?_, ⟨_, _, hreached, hinsert⟩, ⟨_, _, hreached, hupdate⟩, ⟨_, _, hupdated, hdelete⟩⟩
  intro hall
  obtain ⟨e, db', index, herr, hindex, -, hnot⟩ := hinsert
  exact hnot (hall _ _ _ _ hreached herr index hindex)

end Database

end RdbRs
