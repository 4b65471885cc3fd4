import RdbRs.Database.StoreCalls
import RdbRs.Index.TreeReturns
import RdbRs.Table.HeapReturns

/-!
# Calls of the table manager and of the index manager return

On a store that carries the rows of the catalog every call on a table and on an index returns `Ok` or `Err`, but
for an update with a row that does not fit sixteen bits.
-/

namespace RdbRs

open Exec

lemma PageStore.total_registerRelation {σ : Type} [PageStore σ] (relationId : RelationId) :
    Total (registerRelation relationId : Exec StorageError σ Unit) := total_query _

section Stores

variable {σ : Type} [PageStore σ] [UnstableSort] {F : Prop} {database : DatabaseMetadata}
  {heap : TableId → RowId → Option Row} {index : IndexMetadata} {K : Set IndexId} {s₀ : σ} {t : TableId}
  {id : RowId}

/-! ### Tables -/

namespace TableManager

/-- A call on a table that has no file fails. -/
lemma halts_onTable {α : Type} {call : HeapTable → Exec TableError σ α}
    (h : ∀ n, Halts F ((HeapTable.new t).Shows n (heap t)) (call (HeapTable.new t)) fun _ _ => True) :
    Halts F (CarriesOver K s₀ database heap) (getOrOpenTable t >>= call) fun _ _ => True := by
  intro s hs
  cases hpages : PageStore.pages s (.heap t) with
  | none =>
    rw [getOrOpenTable, run_bind, run_bind, run_mapErr, PageStore.registerRelation, run_query, hpages]
    trivial
  | some ps =>
    rw [run_bind, run_getOrOpenTable hpages, Outcome.andThen_ok]
    have hfile : (PageStore.pages s (.heap t)).isSome := by
      rw [hpages]
      rfl
    obtain ⟨n, hshows⟩ := hs.carries.shows hfile
    exact h n s hshows

lemma halts_insertRow (row : Row) :
    Halts F (CarriesOver K s₀ database heap) (insertRow t row : Exec TableError σ RowId) fun _ _ => True :=
  halts_onTable fun _ => HeapTable.halts_insert row

lemma halts_updateRow {row : Row} (hrow : ¬ FitsU16 row → F) :
    Halts F (CarriesOver K s₀ database heap) (updateRow t id row : Exec TableError σ Unit) fun _ _ => True :=
  halts_onTable fun _ => HeapTable.halts_update id row hrow

lemma halts_deleteRow :
    Halts F (CarriesOver K s₀ database heap) (deleteRow t id : Exec TableError σ Unit) fun _ _ => True :=
  halts_onTable fun _ => HeapTable.halts_delete id

lemma halts_scanRows :
    Halts F (CarriesOver K s₀ database heap) (scanRows t : Exec TableError σ _) fun _ _ => True := by
  apply halts_onTable
  intro n s hs
  obtain ⟨live, s', hrun, -⟩ := hs.scan_ok
  rw [hrun]
  trivial

lemma halts_getRow :
    Halts F (CarriesOver K s₀ database heap) (getRow t id : Exec TableError σ Row) fun _ _ => True := by
  apply halts_onTable
  intro n s hs
  obtain ⟨s', -, -, hget⟩ := hs.get_eq id
  cases hrow : heap t id with
  | some row =>
    simp only [hrow] at hget
    rw [hget]
    trivial
  | none =>
    simp only [hrow] at hget
    obtain ⟨e, hget⟩ := hget
    rw [hget]
    trivial

end TableManager

/-! ### Trees -/

namespace IndexManager

variable {v : Value} (hindex : index ∈ database.indexes) (on : IndexedColumn database index)
  (htype : v.HasType on.column.dataType)

lemma total_openIndexBtree {indexId : IndexId} {rootPageId : PageId} {keyType : BTreeKeyType} :
    Total (openIndexBtree indexId rootPageId keyType : Exec IndexError σ BTree) :=
  ((PageStore.total_registerRelation _).mapErr _).bind fun _ => total_pure

include hindex htype

/-- A call on the tree that is opened for a value of the column. -/
lemma halts_onTree {α : Type} {k : BTreeKey} (hk : valueToBtreeKey v = some k) {call : BTree → Exec IndexError σ α}
    (h : Halts F on.tree.Sound (call on.tree) fun _ _ => True) :
    Halts F (CarriesOver K s₀ database heap)
      (openIndexBtree index.id index.rootPageId k.keyType >>= call) fun _ _ => True := by
  have hopen := total_openIndexBtree.halts.of_triple (F := F)
    (openIndexBtree_triple (σ := σ) (P := CarriesOver K s₀ database heap) htype hk
      (keeps_of_reads (keeps_registerRelation _)))
  apply hopen.bind_of
  rintro tree rfl
  apply h.pre
  intro s hs
  obtain ⟨on', hreach⟩ := hs.carries.tree index hindex
  obtain rfl := Subsingleton.elim on on'
  exact hreach.sound

lemma halts_insertEntry (id : RowId) : Halts F (CarriesOver K s₀ database heap)
    (insertEntry index v id : Exec IndexError σ Unit) fun _ _ => True := by
  unfold insertEntry
  split
  · next k hk => exact halts_onTree hindex on htype hk ((BTree.halts_insert k id).mapErr _)
  · exact total_pure.halts

lemma halts_deleteEntry (id : RowId) : Halts F (CarriesOver K s₀ database heap)
    (deleteEntry index v id : Exec IndexError σ Unit) fun _ _ => True := by
  unfold deleteEntry
  split
  · next k hk =>
    apply halts_onTree hindex on htype hk
    apply ((BTree.halts_delete k id).mapErr IndexError.btree).bind
    exact fun deleted => (total_pure.ite total_throw).halts
  · exact total_pure.halts

lemma halts_searchRowIds : Halts F (CarriesOver K s₀ database heap)
    (searchRowIds index v : Exec IndexError σ _) fun _ _ => True := by
  unfold searchRowIds
  split
  · next k hk => exact halts_onTree hindex on htype hk ((BTree.halts_search k).mapErr _)
  · exact total_pure.halts

end IndexManager

/-! ### Rounds -/

namespace IndexManager

variable {catalog : Catalog} {row row' : Row} {values newValues : List Value} {tableMeta : TableMetadata}

lemma halts_insertIndex (hindex : index ∈ catalog.metadata.indexes) (on : IndexedColumn catalog.metadata index)
    (hencodes : Encodes catalog.metadata index.tableId values row) :
    Halts F (CarriesOver ∅ s₀ catalog.metadata heap)
      (insertIndex catalog index.tableId id values index : Exec IndexError σ Unit)
      fun _ => CarriesOver ∅ s₀ catalog.metadata heap := by
  obtain ⟨v, -, htype, heq⟩ := insertIndex_eq (σ := σ) id on hencodes
  rw [heq]
  exact (halts_insertEntry hindex on htype id).of_triple (insertEntry_keeps id hindex (Set.notMem_empty _) on htype)

lemma halts_deleteIndex (hindex : index ∈ catalog.metadata.indexes) (on : IndexedColumn catalog.metadata index)
    (hencodes : Encodes catalog.metadata index.tableId values row) :
    Halts F (CarriesOver ∅ s₀ catalog.metadata heap)
      (deleteIndex catalog index.tableId id values index : Exec IndexError σ Unit)
      fun _ => CarriesOver ∅ s₀ catalog.metadata heap := by
  obtain ⟨v, hget, -, htype⟩ := hencodes.value_eq on
  rw [deleteIndex, indexColumnPosition_eq on, Exec.liftExcept_ok, Exec.mapErr_pure, Exec.pure_bind, index_eq hget,
    Exec.pure_bind]
  exact (halts_deleteEntry hindex on htype id).of_triple (deleteEntry_keeps id hindex (Set.notMem_empty _) on htype)

lemma halts_updateIndex (hindex : index ∈ catalog.metadata.indexes) (on : IndexedColumn catalog.metadata index)
    (hold : Encodes catalog.metadata index.tableId values row)
    (hnew : Encodes catalog.metadata index.tableId newValues row') :
    Halts F (CarriesOver ∅ s₀ catalog.metadata heap)
      (updateIndex catalog index.tableId id values newValues index : Exec IndexError σ Unit)
      fun _ => CarriesOver ∅ s₀ catalog.metadata heap := by
  obtain ⟨v, hget, -, htype⟩ := hold.value_eq on
  obtain ⟨v', hget', -, htype'⟩ := hnew.value_eq on
  have hnone : index.id ∉ (∅ : Set IndexId) := Set.notMem_empty _
  rw [updateIndex, indexColumnPosition_eq on, Exec.liftExcept_ok, Exec.mapErr_pure, Exec.pure_bind, index_eq hget,
    Exec.pure_bind, index_eq hget', Exec.pure_bind]
  apply Halts.ite _ halts_pure
  apply ((halts_deleteEntry hindex on htype id).of_triple (deleteEntry_keeps id hindex hnone on htype)).bind
  intro _
  exact (halts_insertEntry hindex on htype' id).of_triple (insertEntry_keeps id hindex hnone on htype')

/-- The rounds for the indexes of a table. -/
lemma halts_indexes {f : IndexMetadata → Exec IndexError σ PUnit}
    (htable : catalog.metadata.tableById t = some tableMeta)
    (hround : ∀ index ∈ catalog.metadata.indexes, index.tableId = t →
      ∀ _ : IndexedColumn catalog.metadata index, Halts F (CarriesOver ∅ s₀ catalog.metadata heap) (f index)
        fun _ => CarriesOver ∅ s₀ catalog.metadata heap) :
    Halts F (CarriesOver ∅ s₀ catalog.metadata heap)
      (Exec.mapErr .catalog (Exec.liftExcept (catalog.indexTable t)) >>= fun table =>
        (indexesOf catalog table).forM f)
      fun _ => CarriesOver ∅ s₀ catalog.metadata heap := by
  rw [indexes_eq htable]
  apply halts_forM
  intro index hmem s hs
  obtain ⟨hindex, hid⟩ := (mem_indexesOf htable).mp hmem
  obtain ⟨on, -⟩ := hs.carries.tree index hindex
  exact hround index hindex hid on s hs

lemma halts_insertRow (hencodes : Encodes catalog.metadata t values row) :
    Halts F (CarriesOver ∅ s₀ catalog.metadata heap)
      (insertRow catalog t id values : Exec IndexError σ Unit)
      fun _ => CarriesOver ∅ s₀ catalog.metadata heap := by
  obtain ⟨tableMeta, htable⟩ := hencodes.table
  apply halts_indexes htable
  rintro index hindex rfl on
  exact halts_insertIndex hindex on hencodes

lemma halts_deleteRow (hencodes : Encodes catalog.metadata t values row) :
    Halts F (CarriesOver ∅ s₀ catalog.metadata heap)
      (deleteRow catalog t id values : Exec IndexError σ Unit)
      fun _ => CarriesOver ∅ s₀ catalog.metadata heap := by
  obtain ⟨tableMeta, htable⟩ := hencodes.table
  apply halts_indexes htable
  rintro index hindex rfl on
  exact halts_deleteIndex hindex on hencodes

lemma halts_updateRow (hold : Encodes catalog.metadata t values row)
    (hnew : Encodes catalog.metadata t newValues row') :
    Halts F (CarriesOver ∅ s₀ catalog.metadata heap)
      (updateRow catalog t id values newValues : Exec IndexError σ Unit)
      fun _ => CarriesOver ∅ s₀ catalog.metadata heap := by
  obtain ⟨tableMeta, htable⟩ := hold.table
  apply halts_indexes htable
  rintro index hindex rfl on
  exact halts_updateIndex hindex on hold hnew

end IndexManager

end Stores

end RdbRs
