import RdbRs.Database.StoreStatements

/-!
# New tables and new indexes on a page store

What `CREATE TABLE` and `CREATE INDEX` leave. They change no row, and an index that has come into the catalog
has the entries of the rows of its table, also where the catalog is not saved.
-/

namespace RdbRs

open Exec

section Stores

variable {σ : Type} [PageStore σ] [UnstableSort] {database database' : DatabaseMetadata}
  {heap heap₀ : TableId → RowId → Option Row} {index : IndexMetadata} {K : Set IndexId} {s s' s₀ : σ}
  {t : TableId} {catalog : Catalog}

/-! ### Larger catalogs -/

/-- The column of an index in a larger catalog. -/
def IndexedColumn.extend (on : IndexedColumn database index) (hext : Extends database database') :
    IndexedColumn database' index :=
  { on with table_eq := hext _ _ on.table_eq }

/-- A table with a file comes into the catalog. -/
lemma Carries.addTable {table : TableMetadata} (h : Carries database heap s)
    (hadd : database.addTable table = .ok database')
    (hfile : ∃ n, (HeapTable.new table.id).Shows n (heap table.id) s) : Carries database' heap s := by
  obtain ⟨-, -, htables, hindexes⟩ := DatabaseMetadata.addTable_eq_ok.mp hadd
  have hext := extends_addTable hadd
  constructor
  · intro t
    by_cases heq : t = table.id
    · rw [heq]
      exact .inl hfile
    · apply (h.file t).imp_right
      rintro ⟨hpages, hnone⟩
      refine ⟨hpages, ?_⟩
      rw [DatabaseMetadata.tableById] at hnone ⊢
      rw [htables, List.find?_append, hnone]
      simp [Ne.symm heq]
  · exact HoldsEncoded.extends hext h.encoded
  · intro index hindex
    rw [hindexes] at hindex
    obtain ⟨on, hreach⟩ := h.tree index hindex
    exact ⟨on.extend hext, hreach⟩

/-- An index whose tree can be reached comes into the catalog. -/
lemma Carries.addIndex (h : Carries database heap s) (hadd : database.addIndex index = .ok database')
    (on : IndexedColumn database index) (hreach : on.tree.Reachable s) : Carries database' heap s := by
  obtain ⟨-, -, htables, hindexes⟩ := DatabaseMetadata.addIndex_eq_ok.mp hadd
  have hext := extends_addIndex hadd
  constructor
  · intro t
    rw [DatabaseMetadata.tableById, htables]
    exact h.file t
  · exact HoldsEncoded.extends hext h.encoded
  · intro i hi
    rw [hindexes] at hi
    cases List.mem_append.mp hi with
    | inl hold =>
      obtain ⟨on', hreach'⟩ := h.tree i hold
      exact ⟨on'.extend hext, hreach'⟩
    | inr hnew =>
      obtain rfl := List.mem_singleton.mp hnew
      exact ⟨on.extend hext, hreach⟩

/-! ### Entries -/

/-- The tree of the index finds the entries of the rows of its table. -/
def Mirrors (database : DatabaseMetadata) (heap : TableId → RowId → Option Row) (index : IndexMetadata)
    (s : σ) : Prop :=
  ∃ (on : IndexedColumn database index) (m : Multiset (BTreeKey × RowId)),
    on.tree.FindsEntries m s ∧ EntriesOf on.key (heap index.tableId) m

/-- The numbers of the indexes have been given out in order. -/
def Numbered (database : DatabaseMetadata) : Prop :=
  ∀ index ∈ database.indexes, index.id.id.toNat ≤ database.indexes.length

/-! ### CREATE TABLE -/

/-- A table that is created has a file, which keeps its rows if it was there. -/
lemma TableManager.createTable_triple :
    Triple (CarriesOver K s₀ database heap) (createTable t : Exec TableError σ Unit)
      (fun _ s => (∃ n, (HeapTable.new t).Shows n (heap t) s) ∧ CarriesOver K s₀ database heap s)
      (CarriesOver K s₀ database heap) := by
  apply Triple.mapErr
  intro s hs
  obtain ⟨s', hrun, hpages⟩ := PageStore.create_ok s (.heap t)
  rw [hrun]
  have hspares : (HeapTable.new t).Spares s s' := HeapTable.spares_of_update hpages
  have hshows : ∃ n, (HeapTable.new t).Shows n (heap t) s' := by
    cases hs.carries.file t with
    | inl hfile =>
      obtain ⟨n, ps, hps, hlen, hrows⟩ := hfile
      refine ⟨n, ps, ?_, hlen, hrows⟩
      rw [hpages, show (HeapTable.new t).relationId = .heap t from rfl, Function.update_self,
        show PageStore.pages s (.heap t) = some ps from hps]
      rfl
    | inr hnone =>
      refine ⟨0, [], ?_, rfl, ?_⟩
      · rw [hpages, show (HeapTable.new t).relationId = .heap t from rfl, Function.update_self, hnone.1]
        rfl
      · rw [hs.carries.rows_eq_none hnone.2]
        exact heapPages_nil
  obtain ⟨n, hshows⟩ := hshows
  have hcarries := hs.carries.changeRows hshows hspares (hs.carries.encoded t)
  rw [Function.update_eq_self] at hcarries
  exact ⟨⟨n, hshows⟩, hcarries, hs.trees.trans hspares.sameTrees⟩

namespace Database

omit [PageStore σ] [UnstableSort] in
lemma onCatalog_triple {ε α : Type} {x : Exec ε Catalog α} {P : σ → Prop} {Q : α → Catalog → Prop}
    {E : Catalog → Prop} (h : Triple (· = catalog) x Q E) : Triple (HasStore catalog P) (onCatalog x)
      (fun a db => ∃ catalog', Q a catalog' ∧ HasStore catalog' P db)
      fun db => ∃ catalog', E catalog' ∧ HasStore catalog' P db :=
  h.zoom (fun _ hdb => hdb.1) (fun _ catalog' _ hdb hQ => ⟨catalog', hQ, rfl, hdb.2⟩)
    fun catalog' _ hdb hE => ⟨catalog', hE, rfl, hdb.2⟩

/-- The names and the types of the columns, in order. -/
def columnsOf (bound : BoundCreateTable) : List (String × DataType) :=
  bound.columns.map fun column => (column.name, column.dataType)

/-- A table has come into the catalog, with its rows. -/
def TableAdded (catalog : Catalog) (heap : TableId → RowId → Option Row) (s₀ : σ) (bound : BoundCreateTable)
    (db : Database σ) : Prop :=
  ∃ table : TableMetadata, (table.name = bound.table ∧ table.columns = Catalog.columnMetadatas (columnsOf bound)) ∧
    catalog.metadata.addTable table = .ok db.catalog.metadata ∧
    (∃ n, (HeapTable.new table.id).Shows n (heap table.id) db.storage) ∧
    CarriesOver Set.univ s₀ catalog.metadata heap db.storage

omit [PageStore σ] [UnstableSort] in
lemma buildTableMetadata_triple {name : String} {columns : List (String × DataType)} {P : σ → Prop} :
    Triple (HasStore catalog P) (onCatalog (Catalog.buildTableMetadata name columns))
      (fun table db => (table.name = name ∧ table.columns = Catalog.columnMetadatas columns) ∧
        HasStore catalog P db)
      (HasStore catalog P) := by
  have hbuild : Triple (· = catalog) (Catalog.buildTableMetadata name columns)
      (fun table catalog' => (table.name = name ∧ table.columns = Catalog.columnMetadatas columns) ∧
        catalog' = catalog) (· = catalog) := by
    unfold Catalog.buildTableMetadata
    apply Triple.bind (keeps_gets _)
    intro metadata
    split
    · exact fun _ hs => hs
    split
    · exact fun _ hs => hs
    split
    · exact triple_panic
    apply ((triple_liftExcept fun _ hs => hs).mapErr CatalogError.schema).imp (fun _ hs => hs) _ fun _ hs => hs
    rintro table _ ⟨hnew, hs⟩
    obtain ⟨-, hname, hcolumns⟩ := TableMetadata.fields_of_new hnew
    exact ⟨⟨hname, hcolumns⟩, hs⟩
  apply (onCatalog_triple hbuild).imp (fun _ hdb => hdb)
  · rintro table db ⟨catalog', ⟨hfields, rfl⟩, hdb⟩
    exact ⟨hfields, hdb⟩
  · rintro db ⟨catalog', rfl, hdb⟩
    exact hdb

/-- A new table is in the catalog, also where the catalog is not saved. -/
lemma createTable_triple {bound : BoundCreateTable} (hcarries : Carries catalog.metadata heap s₀) :
    Triple (Untouched catalog s₀) (createTable bound)
      (fun result db => result = .success ∧ TableAdded catalog heap s₀ bound db)
      fun db => Made Set.univ catalog heap s₀ [] db ∨ TableAdded catalog heap s₀ bound db := by
  unfold createTable
  apply Triple.bind_of (Q := fun _ => Made Set.univ catalog heap s₀ [])
    (V := fun table => table.name = bound.table ∧ table.columns = Catalog.columnMetadatas (columnsOf bound))
  · exact (buildTableMetadata_triple.mapErr DatabaseError.catalog).imp
      (fun db hdb => Untouched.made hcarries hdb) (fun _ _ hdb => hdb) fun _ hdb => .inl hdb
  intro table htable
  apply Triple.bind
  · exact ((onStorage_triple TableManager.createTable_triple).mapErr DatabaseError.table).imp
      (fun _ hdb => hdb) (fun _ _ hdb => hdb) fun _ hdb => .inl hdb
  intro _
  apply Triple.bind (Q := fun _ => TableAdded catalog heap s₀ bound)
  · apply ((onCatalog_triple (saved_triple run_addTable)).mapErr DatabaseError.catalog).imp (fun _ hdb => hdb)
    · rintro _ db ⟨catalog', hadd, rfl, hs⟩
      exact ⟨table, htable, hadd, hs⟩
    · rintro db ⟨catalog', hcatalog | hadd, rfl, hs⟩
      · exact .inl ⟨hcatalog, hs.2⟩
      · exact .inr ⟨table, htable, hadd, hs⟩
  · exact fun _ _ hdb => ⟨rfl, hdb⟩

end Database

/-! ### CREATE INDEX -/

section NewIndex

variable {i : IndexId} (hK : i ∉ K) (hfresh : ∀ index ∈ database.indexes, index.id ≠ i)

include hK hfresh

/-- A call on the tree of an index that is not in the catalog. -/
lemma onNewIndex_keeps {ε α : Type} {x : Exec ε σ α}
    (hframe : ∀ contents, Keeps (ElsewhereAt (.index i) contents) x) :
    Keeps (CarriesOver K s₀ database heap) x :=
  onIndex_keeps hK hframe fun _ _ _ _ index hindex hid => absurd hid (hfresh index hindex)

lemma createRelation_keeps :
    Keeps (CarriesOver K s₀ database heap) (PageStore.createRelation (.index i) : Exec StorageError σ Unit) := by
  apply onNewIndex_keeps hK hfresh
  intro contents s hs
  obtain ⟨s', hrun, hpages⟩ := PageStore.create_ok s (.index i)
  rw [hrun]
  exact hs.of_update hpages

/-- The tree of a new index is empty. -/
lemma createTree_triple {keyType : BTreeKeyType} :
    Triple (CarriesOver K s₀ database heap) (BTree.create i keyType : Exec BTreeError σ BTree)
      (fun tree s => (tree = BTree.open' i tree.rootPageId keyType ∧ tree.Reachable s ∧
        tree.FindsEntries 0 s) ∧ CarriesOver K s₀ database heap s)
      (CarriesOver K s₀ database heap) := by
  have hrules (contents : RelationId → Option (List Page)) (root : PageId) :
      (BTree.open' i root keyType).CallRules (ElsewhereAt (.index i) contents) fun pageId (s : σ) =>
        ElsewhereAt (.index i) contents s ∧ PageStore.Cached s ⟨.index i, pageId⟩ :=
    (BTree.open' i root keyType).elsewhereRules contents
  have hcreate : Keeps (CarriesOver K s₀ database heap) (BTree.create i keyType : Exec BTreeError σ BTree) :=
    onNewIndex_keeps hK hfresh fun contents => BTree.CallRules.create (hrules contents)
  intro s hs
  have hkeeps := hcreate s hs
  cases hrun : (BTree.create i keyType : Exec BTreeError σ BTree).run s with
  | ok tree s' =>
    rw [hrun] at hkeeps
    obtain ⟨heq, hfinds⟩ := BTree.create_finds hrun
    exact ⟨⟨heq, .create hrun, hfinds⟩, hkeeps⟩
  | err e s' =>
    rw [hrun] at hkeeps
    exact hkeeps
  | panic => trivial
  | diverge => trivial

lemma createIndexBtree_triple {dataType : DataType} :
    Triple (CarriesOver K s₀ database heap)
      (IndexManager.createIndexBtree i dataType : Exec IndexError σ PageId)
      (fun root s => (∃ keyType, BTreeKeyType.tryFrom dataType = some keyType ∧
        (BTree.open' i root keyType).Reachable s ∧ (BTree.open' i root keyType).FindsEntries 0 s) ∧
          CarriesOver K s₀ database heap s)
      (CarriesOver K s₀ database heap) := by
  unfold IndexManager.createIndexBtree
  split
  · exact fun _ hs => hs
  · next keyType hkeyType =>
    apply Triple.bind ((createRelation_keeps hK hfresh).mapErr _)
    intro _
    apply ((createTree_triple hK hfresh).mapErr IndexError.btree).bind
    rintro tree s ⟨⟨heq, hreach, hfinds⟩, hs⟩
    rw [heq] at hreach hfinds
    exact ⟨⟨keyType, hkeyType, hreach, hfinds⟩, hs⟩

lemma insertEntry_new_keeps {v : Value} {id : RowId} (hid : index.id = i) :
    Keeps (CarriesOver K s₀ database heap) (IndexManager.insertEntry index v id : Exec IndexError σ Unit) := by
  unfold IndexManager.insertEntry
  split
  · next k hk =>
    have hopen : Triple (CarriesOver K s₀ database heap)
        (IndexManager.openIndexBtree index.id index.rootPageId k.keyType : Exec IndexError σ BTree)
        (fun tree s => tree.relationId = .index i ∧ CarriesOver K s₀ database heap s)
        (CarriesOver K s₀ database heap) := by
      apply Triple.bind ((keeps_of_reads (keeps_registerRelation _)).mapErr _)
      intro _ s hs
      exact ⟨congrArg RelationId.index hid, hs⟩
    apply hopen.bind_of
    intro tree htree
    apply Keeps.mapErr
    apply onNewIndex_keeps hK hfresh
    intro contents
    have hinsert := (tree.elsewhereRules (σ := σ) contents).insert k id
    rwa [htree] at hinsert
  · exact keeps_pure

omit [PageStore σ] [UnstableSort] hK hfresh in
lemma backfillEntry_keeps {P : σ → Prop} {table : TableMetadata} {columnIndex : Nat}
    {entries : List (Value × RowId)} {row : RowId × Row} :
    Keeps P (IndexManager.backfillEntry table columnIndex entries row : Exec IndexError σ _) := by
  have hdecode : Keeps P (Tuple.decode row.2 table.columns : Exec TupleError σ _) := by
    apply Keeps.bind (keeps_withLocal _ _)
    rintro ⟨values, cursor⟩
    exact keeps_throw.ite keeps_pure
  apply Keeps.bind (hdecode.mapErr _)
  intro values
  apply Keeps.bind _ fun _ => keeps_pure
  unfold Exec.index
  split
  · exact keeps_pure
  · exact triple_panic

/-- A backfill that fails has changed the new index only. -/
lemma backfill_keeps (hid : index.id = i) :
    Keeps (CarriesOver K s₀ database heap) (IndexManager.backfill catalog index : Exec IndexError σ Unit) := by
  unfold IndexManager.backfill
  apply Keeps.bind ((keeps_of_reads (TableManager.scanRows_reads _)).mapErr _)
  intro rows
  apply Keeps.bind ((keeps_liftExcept _).mapErr _)
  intro table
  apply Keeps.bind ((keeps_liftExcept _).mapErr _)
  intro columnIndex
  apply Keeps.bind
  · apply (triple_foldlM (V := fun _ => True) _ trivial).imp (fun _ hs => hs) (fun _ _ hs => hs.2)
      fun _ hs => hs
    exact fun _ _ _ _ => Triple.imp backfillEntry_keeps (fun _ hs => hs) (fun _ _ hs => ⟨trivial, hs⟩)
      fun _ hs => hs
  intro entries
  apply keeps_forM
  exact fun _ _ => insertEntry_new_keeps hK hfresh hid

/-! ### Filling a new index -/

/-- The tree of the new index finds these entries. -/
def Filled (K : Set IndexId) (s₀ : σ) (heap : TableId → RowId → Option Row)
    (on : IndexedColumn database index) (m : Multiset (BTreeKey × RowId)) (s : σ) : Prop :=
  (on.tree.Reachable s ∧ on.tree.FindsEntries m s) ∧ CarriesOver K s₀ database heap s

omit hK hfresh in
lemma Filled.of_pages {on : IndexedColumn database index} {m : Multiset (BTreeKey × RowId)}
    (h : Filled K s₀ heap on m s) (hpages : PageStore.pages s' = PageStore.pages s) :
    Filled K s₀ heap on m s' := by
  have hsame : PageStore.pages s' on.tree.relationId = PageStore.pages s on.tree.relationId := by rw [hpages]
  exact ⟨⟨h.1.1.elsewhere hsame, h.1.2.keep (h.1.1.sound.searchesKeep hsame)⟩, h.2.of_pages hpages⟩

lemma fills_filled (hid : index.id = i) (on : IndexedColumn database index) :
    IndexManager.Fills on (Filled K s₀ heap on) where
  opens {m} := by
    intro s hs
    obtain ⟨n, seq, ⟨ps, hps, -⟩, -⟩ := hs.1.1.sound
    exact ⟨(), s, run_registerRelation hps, hs⟩
  inserts {m k id} := by
    have hkeeps : Keeps (CarriesOver K s₀ database heap) (on.tree.insert k id : Exec BTreeError σ Unit) := by
      apply onNewIndex_keeps hK hfresh
      intro contents
      rw [← hid]
      exact (on.tree.elsewhereRules contents).insert k id
    intro s hs
    have hcarries := hkeeps s hs.2
    cases hrun : (Engine.insert on.tree k id).run s with
    | ok _ s' =>
      have hrun' : (on.tree.insert k id).run s = .ok () s' := hrun
      rw [hrun'] at hcarries
      exact ⟨⟨hs.1.1.insert (.inl ⟨(), hrun'⟩), hs.1.2.insert (hs.1.1.searchesGain hrun')⟩, hcarries⟩
    | err e s' => trivial
    | panic => trivial
    | diverge => trivial

end NewIndex

/-- A new index is filled, or the rest of the store is as it was. -/
lemma backfill_triple (on : IndexedColumn catalog.metadata index) (hK : index.id ∉ K)
    (hfresh : ∀ i ∈ catalog.metadata.indexes, i.id ≠ index.id) :
    Triple (Filled K s₀ heap on 0) (IndexManager.backfill catalog index : Exec IndexError σ Unit)
      (fun _ s => ∃ m, EntriesOf on.key (heap index.tableId) m ∧ Filled K s₀ heap on m s)
      (CarriesOver K s₀ catalog.metadata heap) := by
  intro s hs
  have hscan : Succeeds (Filled K s₀ heap on 0) (TableManager.scanRows index.tableId : Exec TableError σ _)
      fun live s => (live.Nodup ∧ ∀ e, e ∈ live ↔ heap index.tableId e.1 = some e.2) ∧
        Filled K s₀ heap on 0 s := by
    intro s hs
    obtain ⟨live, s', hrun, hpages, hlive⟩ := Database.scanRows_ok hs.2.carries on.table_eq
    exact ⟨live, s', hrun, hlive, hs.of_pages hpages⟩
  have hfill := IndexManager.backfill_yields (fills_filled hK hfresh rfl on) hscan
    (hs.2.carries.encoded index.tableId)
  apply (hfill.triple ((backfill_keeps hK hfresh rfl).imp (fun _ hs => hs.2) (fun _ _ hs => hs)
    fun _ hs => hs)).imp (fun _ hs => hs) _ (fun _ hs => hs) s hs
  rintro _ s' ⟨m, hs', hentries⟩
  exact ⟨m, hentries, hs'⟩

namespace Database

/-- The ids that have been given out. -/
def givenIds (database : DatabaseMetadata) : Set IndexId := {i | i.id.toNat ≤ database.indexes.length}

omit [UnstableSort] in
lemma nextIndexId_triple {name : String} : Triple (· = catalog) (Catalog.nextIndexId name)
    (fun i catalog' => i.id.toNat = catalog.metadata.indexes.length + 1 ∧ catalog' = catalog)
    (· = catalog) := by
  rintro s rfl
  rw [Catalog.nextIndexId, Exec.run_bind, Exec.run_gets, Outcome.andThen_ok]
  by_cases hname : (s.metadata.index name).isSome
  · rw [if_pos hname]
    exact rfl
  rw [if_neg hname]
  by_cases hmany : u16Max ≤ s.metadata.indexes.length
  · rw [if_pos hmany]
    exact rfl
  · rw [if_neg hmany]
    refine ⟨UInt32.toNat_ofNat_of_lt' ?_, rfl⟩
    have hmax : u16Max = 65535 := rfl
    have hsize : UInt32.size = 4294967296 := rfl
    omega

/-- An index has come into the catalog, whose tree finds the entries of the rows of its table. -/
def IndexAdded (K : Set IndexId) (catalog : Catalog) (heap : TableId → RowId → Option Row) (s₀ : σ)
    (bound : BoundCreateIndex) (db : Database σ) : Prop :=
  ∃ index : IndexMetadata, (index.name = bound.indexName ∧ index.tableId = bound.tableId ∧
      index.columnId = bound.columnId) ∧
    index.id.id.toNat = catalog.metadata.indexes.length + 1 ∧
    catalog.metadata.addIndex index = .ok db.catalog.metadata ∧
    ∃ (on : IndexedColumn catalog.metadata index) (m : Multiset (BTreeKey × RowId)),
      EntriesOf on.key (heap index.tableId) m ∧ Filled K s₀ heap on m db.storage

/-- A new index is in the catalog, also where the catalog is not saved. -/
lemma createIndex_triple {bound : BoundCreateIndex} (hnumbered : Numbered catalog.metadata)
    (hK : K ⊆ givenIds catalog.metadata) (hcarries : Carries catalog.metadata heap s₀) :
    Triple (Untouched catalog s₀) (createIndex bound)
      (fun result db => result = .success ∧ IndexAdded K catalog heap s₀ bound db)
      fun db => Made K catalog heap s₀ [] db ∨ IndexAdded K catalog heap s₀ bound db := by
  have hsame : ∀ db : Database σ, Made K catalog heap s₀ [] db →
      Made K catalog heap s₀ [] db ∨ IndexAdded K catalog heap s₀ bound db := fun _ hdb => .inl hdb
  unfold createIndex
  apply Triple.bind (Q := fun _ => IndexAdded K catalog heap s₀ bound)
  swap
  · exact fun _ _ hdb => ⟨rfl, hdb⟩
  apply Triple.mapErr
  unfold IndexManager.createIndex
  apply Triple.bind_of (V := fun i : IndexId => i.id.toNat = catalog.metadata.indexes.length + 1)
    (Q := fun _ => Made K catalog heap s₀ [])
  · apply ((onCatalog_triple (P := CarriesOver K s₀ catalog.metadata heap) nextIndexId_triple).mapErr
      IndexError.catalog).imp
      (fun db hdb => Untouched.made hcarries hdb)
    · rintro i db ⟨catalog', ⟨hi, rfl⟩, hdb⟩
      exact ⟨hi, hdb⟩
    · rintro db ⟨catalog', rfl, hdb⟩
      exact .inl hdb
  intro i hi
  have hnew : i ∉ K := by
    intro hmem
    have hle : i.id.toNat ≤ catalog.metadata.indexes.length := hK hmem
    omega
  have hfresh : ∀ index ∈ catalog.metadata.indexes, index.id ≠ i := by
    rintro index hindex rfl
    have hle : index.id.id.toNat ≤ catalog.metadata.indexes.length := hnumbered index hindex
    omega
  apply catalog_triple.bind_of
  intro catalog₁ hcatalog
  rw [hcatalog]
  apply ((triple_liftExcept hsame).mapErr IndexError.catalog).bind_of
  intro dataType hdataType
  apply Triple.bind
  · exact (onStorage_triple (createIndexBtree_triple hnew hfresh)).imp (fun _ hdb => hdb)
      (fun _ _ hdb => hdb) hsame
  rintro root db ⟨hdb, ⟨keyType, hkeyType, htree⟩, hs⟩
  obtain ⟨on, hon⟩ : ∃ on : IndexedColumn catalog.metadata ⟨i, bound.indexName, bound.tableId,
      bound.columnId, root⟩, on.keyType = keyType := IndexManager.indexedColumn_of hdataType hkeyType
  rw [← hon] at htree
  have hfilled := (onStorage_triple (backfill_triple on hnew hfresh)).imp
    (fun _ hdb => hdb) (fun _ _ hdb => hdb) hsame
  apply hfilled.bind _ db ⟨hdb, htree, hs⟩
  rintro _ db ⟨hdb, m, hentries, hs⟩
  apply ((onCatalog_triple (P := Filled K s₀ heap on m) (saved_triple run_addIndex)).mapErr
    IndexError.catalog).imp (fun _ hdb => hdb) _ _ db ⟨hdb, hs⟩
  · rintro _ db ⟨catalog', hadd, rfl, hs⟩
    exact ⟨_, ⟨rfl, rfl, rfl⟩, hi, hadd, on, m, hentries, hs⟩
  · rintro db ⟨catalog', hcatalog | hadd, rfl, hs⟩
    · exact .inl ⟨hcatalog, hs.2⟩
    · exact .inr ⟨_, ⟨rfl, rfl, rfl⟩, hi, hadd, on, m, hentries, hs⟩

end Database

end Stores

end RdbRs
