import RdbRs.Catalog.MetadataCodec
import RdbRs.Database.Execute
import RdbRs.Lib.SecondaryIndex

/-!
# Indexes that agree with their tables

An index holds the pairs of a key and a row id of the live rows of its table whose value in the
indexed column is not `NULL`.
-/

namespace RdbRs

/-! ### Keys -/

lemma valueToBtreeKey_injective {v w : Value} {k : BTreeKey} (hv : valueToBtreeKey v = some k)
    (hw : valueToBtreeKey w = some k) : v = w := by
  cases v <;> cases w <;> cases hv <;> cases hw <;> rfl

lemma valueToBtreeKey_eq_none {v : Value} : valueToBtreeKey v = none ↔ v = .null := by
  cases v <;> simp [valueToBtreeKey]

/-- The key of a typed value has the key type of the column. -/
lemma keyType_of_hasType {v : Value} {k : BTreeKey} {dataType : DataType} {keyType : BTreeKeyType}
    (htype : v.HasType dataType) (hk : valueToBtreeKey v = some k)
    (hkeyType : BTreeKeyType.tryFrom dataType = some keyType) : k.keyType = keyType := by
  cases v <;> cases hk <;> cases dataType <;> cases hkeyType <;> first | rfl | exact htype.elim

/-! ### Indexed columns -/

/-- The column of a table that an index is on. -/
structure IndexedColumn (database : DatabaseMetadata) (index : IndexMetadata) where
  tableMeta : TableMetadata
  position : Nat
  column : ColumnMetadata
  keyType : BTreeKeyType
  table_eq : database.tableById index.tableId = some tableMeta
  position_eq : tableMeta.columnIndex index.columnId = some position
  column_eq : tableMeta.columns[position]? = some column
  keyType_eq : BTreeKeyType.tryFrom column.dataType = some keyType

namespace IndexedColumn

variable {database : DatabaseMetadata} {index : IndexMetadata} (on : IndexedColumn database index)

def tree : BTree := BTree.open' index.id index.rootPageId on.keyType

/-- The value of a row in the column. -/
def value (row : Row) : Option Value := (Executor.decoded row on.tableMeta.columns)[on.position]?

/-- The key of a row, which has none for `NULL`. -/
def key (row : Row) : Option BTreeKey := (on.value row).bind valueToBtreeKey

variable {on} {v : Value} {k : BTreeKey} {row : Row}

lemma key_eq (h : on.value row = some v) : on.key row = valueToBtreeKey v := by
  rw [key, h]
  rfl

lemma tree_eq (htype : v.HasType on.column.dataType) (hk : valueToBtreeKey v = some k) :
    BTree.open' index.id index.rootPageId k.keyType = on.tree := by
  rw [keyType_of_hasType htype hk on.keyType_eq]
  rfl

instance : Subsingleton (IndexedColumn database index) := by
  constructor
  intro on on'
  cases on with
  | mk tableMeta position column keyType htable hposition hcolumn hkeyType =>
    cases on' with
    | mk tableMeta' position' column' keyType' htable' hposition' hcolumn' hkeyType' =>
      cases htable.symm.trans htable'
      cases hposition.symm.trans hposition'
      cases hcolumn.symm.trans hcolumn'
      cases hkeyType.symm.trans hkeyType'
      rfl

/-- An encoded row of the table has a typed value. -/
lemma value_of_encoded (on : IndexedColumn database index)
    (h : Executor.IsEncoded database index.tableId row) :
    ∃ v, on.value row = some v ∧ v.HasType on.column.dataType := by
  have ⟨tableMeta, values, htable, hencode⟩ := h
  rw [on.table_eq] at htable
  cases htable
  have ⟨v, hv, htype⟩ := forall₂_getElem? (Executor.typed_of_encode hencode) on.column_eq
  exact ⟨v, by rwa [value, Executor.decoded_of_encode hencode], htype⟩

end IndexedColumn

/-! ### Agreement -/

/-- The rows of a table. -/
def Contents.rows (c : Contents) (tableId : TableId) : RowId → Option Row :=
  (c.heap tableId).getD fun _ => none

/-- The entries of the index are those of the rows. -/
def Tracks (database : DatabaseMetadata) (c : Contents) (index : IndexMetadata)
    (rows : RowId → Option Row) : Prop :=
  ∃ (on : IndexedColumn database index) (m : Multiset (BTreeKey × RowId)),
    c.entries on.tree = some m ∧ EntriesOf on.key rows m

/-- Every index tracks the rows of its table. -/
def AllTrack (database : DatabaseMetadata) (c : Contents) (heap : TableId → RowId → Option Row) : Prop :=
  ∀ index ∈ database.indexes, Tracks database c index (heap index.tableId)

/-- The tables exist, hold rows that were encoded for them, and have indexes that track them. -/
structure Agrees (database : DatabaseMetadata) (c : Contents) : Prop where
  tables : ∀ t tableMeta, database.tableById t = some tableMeta → c.heap t = some (c.rows t)
  encoded : Executor.HoldsEncoded database c.rows
  tracks : AllTrack database c c.rows

section Agreement

variable {database : DatabaseMetadata} {c c' : Contents} {index : IndexMetadata} {tableId : TableId}
  {rows : RowId → Option Row}

lemma Contents.rows_eq (h : c.heap tableId = some rows) : c.rows tableId = rows := by
  rw [Contents.rows, h]
  rfl

lemma Contents.rows_congr (h : c'.heap = c.heap) : c'.rows = c.rows := by
  funext t
  rw [Contents.rows, Contents.rows, h]

lemma Contents.rows_withTable :
    (c.withTable tableId rows).rows = Function.update c.rows tableId rows := by
  funext t
  by_cases h : t = tableId
  · rw [h, Function.update_self]
    exact rows_eq heap_withTable_self
  · rw [Function.update_of_ne h, Contents.rows, Contents.rows, heap_withTable_of_ne h]

lemma Contents.withTree_self {tree : BTree} {m : Multiset (BTreeKey × RowId)}
    (h : c.entries tree = some m) : c.withTree tree m = c := by
  rw [withTree, ← h, Function.update_eq_self]

lemma Contents.withTree_withTree {tree : BTree} {m m' : Multiset (BTreeKey × RowId)} :
    (c.withTree tree m).withTree tree m' = c.withTree tree m' := by
  rw [withTree, withTree, withTree, Function.update_idem]

/-- Only the trees of an index decide what it tracks. -/
lemma Tracks.congr (h : Tracks database c index rows)
    (heq : ∀ tree, tree.relationId = .index index.id → c'.entries tree = c.entries tree) :
    Tracks database c' index rows := by
  have ⟨on, m, hm, hentries⟩ := h
  exact ⟨on, m, by rwa [heq on.tree rfl], hentries⟩

/-! ### Changes -/

/-- The heap of one table changes, and the indexes track it. -/
lemma Agrees.change {rows' : RowId → Option Row} (h : Agrees database c)
    (hheap : c'.heap = (c.withTable tableId rows').heap)
    (hencoded : ∀ id row, rows' id = some row → Executor.IsEncoded database tableId row)
    (htracks : AllTrack database c' (Function.update c.rows tableId rows')) : Agrees database c' := by
  have hrows : c'.rows = Function.update c.rows tableId rows' :=
    (Contents.rows_congr hheap).trans Contents.rows_withTable
  constructor
  · intro t tableMeta ht
    by_cases heq : t = tableId
    · rw [heq, hrows, Function.update_self, hheap, Contents.heap_withTable_self]
    · rw [hrows, Function.update_of_ne heq, hheap, Contents.heap_withTable_of_ne heq]
      exact h.tables t tableMeta ht
  · intro t id row hrow
    by_cases heq : t = tableId
    · rw [heq]
      rw [hrows, heq, Function.update_self] at hrow
      exact hencoded id row hrow
    · rw [hrows, Function.update_of_ne heq] at hrow
      exact h.encoded t id row hrow
  · rwa [hrows]

lemma Agrees.encoded_update {id : RowId} {value : Option Row} (h : Agrees database c)
    (hvalue : ∀ row ∈ value, Executor.IsEncoded database tableId row) :
    ∀ id' row, Function.update (c.rows tableId) id value id' = some row →
      Executor.IsEncoded database tableId row := by
  intro id' row hrow
  by_cases heq : id' = id
  · rw [heq, Function.update_self] at hrow
    exact hvalue row hrow
  · rw [Function.update_of_ne heq] at hrow
    exact h.encoded _ _ _ hrow

/-- The tables are there in a larger database, with their columns. -/
def Extends (database database' : DatabaseMetadata) : Prop :=
  ∀ t tableMeta, database.tableById t = some tableMeta → database'.tableById t = some tableMeta

variable {database' : DatabaseMetadata}

lemma Tracks.extends (hext : Extends database database') (h : Tracks database c index rows) :
    Tracks database' c index rows := by
  have ⟨on, m, hm, hentries⟩ := h
  exact ⟨{ on with table_eq := hext _ _ on.table_eq }, m, hm, hentries⟩

lemma IsEncoded.extends {row : Row} (hext : Extends database database')
    (h : Executor.IsEncoded database tableId row) : Executor.IsEncoded database' tableId row := by
  have ⟨tableMeta, values, htable, hencode⟩ := h
  exact ⟨tableMeta, values, hext _ _ htable, hencode⟩

lemma HoldsEncoded.extends {heap : TableId → RowId → Option Row} (hext : Extends database database')
    (h : Executor.HoldsEncoded database heap) : Executor.HoldsEncoded database' heap :=
  fun t id row hrow => IsEncoded.extends hext (h t id row hrow)

lemma extends_addTable {table : TableMetadata} (h : database.addTable table = .ok database') :
    Extends database database' := by
  have ⟨_, _, htables, _⟩ := DatabaseMetadata.addTable_eq_ok.mp h
  intro t tableMeta ht
  rw [DatabaseMetadata.tableById, htables, List.find?_append]
  rw [DatabaseMetadata.tableById] at ht
  rw [ht]
  rfl

lemma extends_addIndex (h : database.addIndex index = .ok database') : Extends database database' := by
  have ⟨_, _, htables, _⟩ := DatabaseMetadata.addIndex_eq_ok.mp h
  intro t tableMeta ht
  rwa [DatabaseMetadata.tableById, htables]

/-- Creating a table leaves the rows as they are. -/
lemma Agrees.addTable {table : TableMetadata} (h : Agrees database c)
    (hadd : database.addTable table = .ok database') :
    Agrees database' (c.withTable table.id ((c.heap table.id).getD fun _ => none)) := by
  have ⟨_, _, htables, hindexes⟩ := DatabaseMetadata.addTable_eq_ok.mp hadd
  have hext := extends_addTable hadd
  have hrows : (c.withTable table.id ((c.heap table.id).getD fun _ => none)).rows = c.rows := by
    rw [Contents.rows_withTable]
    exact Function.update_eq_self ..
  constructor
  · intro t tableMeta ht
    rw [hrows]
    by_cases heq : t = table.id
    · rw [heq, Contents.heap_withTable_self]
      rfl
    · rw [Contents.heap_withTable_of_ne heq]
      apply h.tables t tableMeta
      rw [DatabaseMetadata.tableById, htables, List.find?_append] at ht
      cases hfind : database.tables.find? fun table => table.id = t with
      | some found =>
        rw [hfind] at ht
        rw [DatabaseMetadata.tableById, hfind]
        exact ht
      | none =>
        rw [hfind] at ht
        have hlast := List.find?_some ht
        have hmem := List.mem_of_find?_eq_some ht
        rw [List.mem_singleton.mp hmem, decide_eq_true_iff] at hlast
        exact absurd hlast.symm heq
  · rw [hrows]
    exact HoldsEncoded.extends hext h.encoded
  · rw [hrows]
    intro index hindex
    rw [hindexes] at hindex
    exact ((h.tracks index hindex).congr fun _ _ => rfl).extends hext

/-- A new index tracks its table. -/
lemma Agrees.addIndex (h : Agrees database c) (hadd : database.addIndex index = .ok database')
    (hheap : c'.heap = c.heap)
    (hothers : ∀ tree, tree.relationId ≠ .index index.id → c'.entries tree = c.entries tree)
    (htracks : Tracks database c' index (c.rows index.tableId)) : Agrees database' c' := by
  have ⟨⟨hids, _, _⟩, _, htables, hindexes⟩ := DatabaseMetadata.addIndex_eq_ok.mp hadd
  have hext := extends_addIndex hadd
  have hrows : c'.rows = c.rows := Contents.rows_congr hheap
  constructor
  · intro t tableMeta ht
    rw [hrows, hheap]
    apply h.tables t tableMeta
    rwa [DatabaseMetadata.tableById, htables] at ht
  · rw [hrows]
    exact HoldsEncoded.extends hext h.encoded
  · rw [hrows]
    intro i hi
    rw [hindexes] at hi
    cases List.mem_append.mp hi with
    | inl hold =>
      apply ((h.tracks i hold).congr _).extends hext
      intro tree htree
      apply hothers
      rw [htree]
      intro heq
      exact hids i hold (RelationId.index.inj heq)
    | inr hnew =>
      rw [List.mem_singleton.mp hnew]
      exact htracks.extends hext

end Agreement

end RdbRs
