import RdbRs.Database.Execute
import RdbRs.Executor.Stateless

/-!
# One database over two engines

Where the calls of two engines match, so do the statements: what a database returns depends on its engine only
through the calls of the engine.
-/

namespace RdbRs

open Exec

/-- The calls of the two engines match. -/
structure EnginesMatch {σ τ : Type} [Engine σ] [Engine τ] (R : σ → τ → Prop) : Prop where
  createTable (t : TableId) :
    Matches R (Engine.createTable t : Exec TableError σ Unit) (Engine.createTable t)
  insertRow (t : TableId) (row : Row) :
    Matches R (Engine.insertRow t row : Exec TableError σ RowId) (Engine.insertRow t row)
  updateRow (t : TableId) (rowId : RowId) (row : Row) :
    Matches R (Engine.updateRow t rowId row : Exec TableError σ Unit) (Engine.updateRow t rowId row)
  deleteRow (t : TableId) (rowId : RowId) :
    Matches R (Engine.deleteRow t rowId : Exec TableError σ Unit) (Engine.deleteRow t rowId)
  scanRows (t : TableId) :
    Matches R (Engine.scanRows t : Exec TableError σ (List (RowId × Row))) (Engine.scanRows t)
  getRow (t : TableId) (rowId : RowId) :
    Matches R (Engine.getRow t rowId : Exec TableError σ Row) (Engine.getRow t rowId)
  createRelation (i : IndexId) :
    Matches R (Engine.createRelation i : Exec StorageError σ Unit) (Engine.createRelation i)
  registerRelation (i : IndexId) :
    Matches R (Engine.registerRelation i : Exec StorageError σ Unit) (Engine.registerRelation i)
  createTree (i : IndexId) (keyType : BTreeKeyType) :
    Matches R (Engine.createTree i keyType : Exec BTreeError σ BTree) (Engine.createTree i keyType)
  insert (i : IndexId) (root : PageId) (keyType : BTreeKeyType) (key : BTreeKey) (rowId : RowId) :
    Matches R (Engine.insert (BTree.open' i root keyType) key rowId : Exec BTreeError σ Unit)
      (Engine.insert (BTree.open' i root keyType) key rowId)
  delete (i : IndexId) (root : PageId) (keyType : BTreeKeyType) (key : BTreeKey) (rowId : RowId) :
    Matches R (Engine.delete (BTree.open' i root keyType) key rowId : Exec BTreeError σ Bool)
      (Engine.delete (BTree.open' i root keyType) key rowId)
  search (i : IndexId) (root : PageId) (keyType : BTreeKeyType) (key : BTreeKey) :
    Matches R (Engine.search (BTree.open' i root keyType) key : Exec BTreeError σ (List RowId))
      (Engine.search (BTree.open' i root keyType) key)

/-- The databases have one catalog, which is in `C`, and storages in `R`. -/
structure Beside {σ τ : Type} (C : Catalog → Prop) (R : σ → τ → Prop) (db : Database σ) (db' : Database τ) :
    Prop where
  catalog : db.catalog = db'.catalog
  holds : C db.catalog
  storage : R db.storage db'.storage

/-- New tables and new indexes keep the catalog in `C`. -/
structure CatalogKeeps (C : Catalog → Prop) : Prop where
  addTable (table : TableMetadata) : Keeps C (Catalog.addTable table)
  addIndex (index : IndexMetadata) : Keeps C (Catalog.addIndex index)

section Parts

variable {ε σ τ α : Type} {C : Catalog → Prop} {R : σ → τ → Prop}

lemma matches_onStorage {x : Exec ε σ α} {y : Exec ε τ α} (h : Matches R x y) :
    Matches (Beside C R) (Database.onStorage x) (Database.onStorage y) :=
  Couples.zoom h (fun _ _ hdb => hdb.storage) fun _ _ _ _ hdb hst => ⟨hdb.catalog, hdb.holds, hst⟩

lemma matches_onCatalog {x : Exec ε Catalog α} (h : Keeps C x) :
    Matches (Beside C R) (Database.onCatalog x) (Database.onCatalog x) :=
  Couples.zoom h.matches (fun _ _ hdb => ⟨hdb.catalog, hdb.holds⟩)
    fun _ _ _ _ hdb heq => ⟨heq.1, heq.2, hdb.storage⟩

lemma matches_catalog :
    Matches (Beside C R) (Exec.gets Database.catalog : Exec ε (Database σ) _) (Exec.gets Database.catalog) :=
  matches_gets fun _ _ hdb => hdb.catalog

lemma keeps_buildTableMetadata (name : String) (columns : List (String × DataType)) :
    Keeps C (Catalog.buildTableMetadata name columns) := by
  apply Keeps.bind (keeps_gets _)
  intro metadata
  apply keeps_throw.ite
  apply keeps_throw.ite
  apply Keeps.ite triple_panic
  exact (keeps_liftExcept _).mapErr _

lemma keeps_nextIndexId (indexName : String) : Keeps C (Catalog.nextIndexId indexName) := by
  apply Keeps.bind (keeps_gets _)
  intro metadata
  exact keeps_throw.ite (keeps_throw.ite keeps_pure)

end Parts

namespace EnginesMatch

variable {σ τ : Type} [Engine σ] [Engine τ] {C : Catalog → Prop}
  {R : σ → τ → Prop} (h : EnginesMatch R)

include h

/-! ### The index manager -/

section IndexManager

open IndexManager

lemma onIndexBtree {α : Type} (i : IndexId) (root : PageId) (keyType : BTreeKeyType)
    {f : BTree → Exec IndexError σ α} {g : BTree → Exec IndexError τ α}
    (hfg : Matches R (f (BTree.open' i root keyType)) (g (BTree.open' i root keyType))) :
    Matches R (openIndexBtree i root keyType >>= f) (openIndexBtree i root keyType >>= g) := by
  unfold openIndexBtree
  rw [bind_assoc, bind_assoc]
  exact Matches.bind ((h.registerRelation i).mapErr _) fun _ => hfg

lemma insertEntry (index : IndexMetadata) (value : Value) (rowId : RowId) :
    Matches R (IndexManager.insertEntry index value rowId : Exec IndexError σ Unit)
      (IndexManager.insertEntry index value rowId) := by
  unfold IndexManager.insertEntry
  split
  · exact h.onIndexBtree _ _ _ ((h.insert _ _ _ _ _).mapErr _)
  · exact matches_pure _

lemma deleteEntry (index : IndexMetadata) (value : Value) (rowId : RowId) :
    Matches R (IndexManager.deleteEntry index value rowId : Exec IndexError σ Unit)
      (IndexManager.deleteEntry index value rowId) := by
  unfold IndexManager.deleteEntry
  split
  · apply h.onIndexBtree
    apply Matches.bind ((h.delete _ _ _ _ _).mapErr _)
    exact fun _ => (matches_pure _).ite (matches_throw _)
  · exact matches_pure _

lemma updateIndexes (catalog : Catalog) (tableId : TableId) (rowId : RowId) (oldValues newValues : List Value) :
    Matches R (IndexManager.updateRow catalog tableId rowId oldValues newValues : Exec IndexError σ Unit)
      (IndexManager.updateRow catalog tableId rowId oldValues newValues) := by
  apply Matches.bind ((matches_liftExcept _).mapErr _)
  intro table
  apply matches_forM
  intro index
  apply Matches.bind ((matches_liftExcept _).mapErr _)
  intro columnIndex
  apply Matches.bind (matches_index _ _)
  intro oldValue
  apply Matches.bind (matches_index _ _)
  intro newValue
  apply Matches.ite _ (matches_pure _)
  exact Matches.bind (h.deleteEntry _ _ _) fun _ => h.insertEntry _ _ _

lemma insertIndexes (catalog : Catalog) (tableId : TableId) (rowId : RowId) (values : List Value) :
    Matches R (IndexManager.insertRow catalog tableId rowId values : Exec IndexError σ Unit)
      (IndexManager.insertRow catalog tableId rowId values) := by
  apply Matches.bind ((matches_liftExcept _).mapErr _)
  intro table
  apply matches_forM
  intro index
  apply Matches.bind ((matches_liftExcept _).mapErr _)
  intro columnIndex
  apply Matches.bind (matches_index _ _)
  exact fun value => h.insertEntry _ _ _

lemma deleteIndexes (catalog : Catalog) (tableId : TableId) (rowId : RowId) (values : List Value) :
    Matches R (IndexManager.deleteRow catalog tableId rowId values : Exec IndexError σ Unit)
      (IndexManager.deleteRow catalog tableId rowId values) := by
  apply Matches.bind ((matches_liftExcept _).mapErr _)
  intro table
  apply matches_forM
  intro index
  apply Matches.bind ((matches_liftExcept _).mapErr _)
  intro columnIndex
  apply Matches.bind (matches_index _ _)
  exact fun value => h.deleteEntry _ _ _

lemma searchIndexRowIds (indexes : List IndexMetadata) (tableId : TableId) (columnId : ColumnId)
    (value : Value) : Matches R
      (IndexManager.searchIndexRowIds indexes tableId columnId value : Exec IndexError σ _)
      (IndexManager.searchIndexRowIds indexes tableId columnId value) := by
  unfold IndexManager.searchIndexRowIds searchRowIds
  split
  · apply Matches.bind _ fun _ => matches_pure _
    split
    · exact h.onIndexBtree _ _ _ ((h.search _ _ _ _).mapErr _)
    · exact matches_pure _
  · exact matches_pure _

lemma createIndexBtree (indexId : IndexId) (dataType : DataType) :
    Matches R (IndexManager.createIndexBtree indexId dataType : Exec IndexError σ PageId)
      (IndexManager.createIndexBtree indexId dataType) := by
  unfold IndexManager.createIndexBtree
  split
  · exact matches_throw _
  · apply Matches.bind ((h.createRelation _).mapErr _)
    intro _
    apply Matches.bind ((h.createTree _ _).mapErr _)
    exact fun _ => matches_pure _

lemma backfill (catalog : Catalog) (index : IndexMetadata) :
    Matches R (IndexManager.backfill catalog index : Exec IndexError σ Unit)
      (IndexManager.backfill catalog index) := by
  apply Matches.bind ((h.scanRows _).mapErr _)
  intro rows
  apply Matches.bind ((matches_liftExcept _).mapErr _)
  intro table
  apply Matches.bind ((matches_liftExcept _).mapErr _)
  intro columnIndex
  apply Matches.bind
  · apply matches_foldlM
    intro entries row
    apply Matches.bind ((matches_decode _ _).mapErr _)
    intro values
    apply Matches.bind (matches_index _ _)
    exact fun _ => matches_pure _
  intro entries
  apply matches_forM
  exact fun entry => h.insertEntry _ _ _

lemma newIndex (hC : CatalogKeeps C) (indexName : String) (tableId : TableId) (columnId : ColumnId) :
    Matches (Beside C R) (IndexManager.createIndex indexName tableId columnId : Exec IndexError (Database σ) Unit)
      (IndexManager.createIndex indexName tableId columnId) := by
  apply Matches.bind ((matches_onCatalog (keeps_nextIndexId _)).mapErr _)
  intro indexId
  apply Matches.bind matches_catalog
  intro catalog
  apply Matches.bind ((matches_liftExcept _).mapErr _)
  intro dataType
  apply Matches.bind (matches_onStorage (h.createIndexBtree _ _))
  intro rootPageId
  apply Matches.bind (matches_onStorage (h.backfill _ _))
  exact fun _ => (matches_onCatalog (hC.addIndex _)).mapErr _

end IndexManager

/-! ### Fetching rows -/

omit [Engine σ] [Engine τ] h in
lemma executor : Matches (Beside C R) (Database.executor : Exec DatabaseError (Database σ) Executor)
    Database.executor :=
  matches_gets fun _ _ hdb => by rw [hdb.catalog]

lemma getRows (tableId : TableId) (rowIds : List RowId) :
    Matches R (Database.getRows tableId rowIds : Exec TableError σ _) (Database.getRows tableId rowIds) := by
  apply matches_foldlM
  intro rows rowId
  apply Matches.bind (h.getRow tableId rowId)
  exact fun _ => matches_pure _

lemma getTableRows (table : BoundTable) (rowIds : List RowId) :
    Matches (Beside C R) (Database.getTableRows table rowIds : Exec DatabaseError (Database σ) _)
      (Database.getTableRows table rowIds) := by
  apply Matches.bind ((matches_onStorage (h.getRows _ _)).mapErr _)
  intro rows
  apply Matches.bind executor
  exact fun executor => (executor.matches_decodeTableRows _ _).mapErr _

lemma scanTableRows (table : BoundTable) :
    Matches (Beside C R) (Database.scanTableRows table : Exec DatabaseError (Database σ) _)
      (Database.scanTableRows table) := by
  apply Matches.bind ((matches_onStorage (h.scanRows _)).mapErr _)
  intro rows
  apply Matches.bind executor
  exact fun executor => (executor.matches_decodeTableRows _ _).mapErr _

lemma fetchTableRows (filter : Option BoundExpression) (table : BoundTable) :
    Matches (Beside C R) (Database.fetchTableRows filter table : Exec DatabaseError (Database σ) _)
      (Database.fetchTableRows filter table) := by
  unfold Database.fetchTableRows
  split
  · apply Matches.bind matches_catalog
    intro catalog
    apply Matches.bind ((matches_onStorage (h.searchIndexRowIds _ _ _ _)).mapErr _)
    intro rowIds
    cases rowIds with
    | some rowIds => exact h.getTableRows table rowIds
    | none => exact h.scanTableRows table
  · exact h.scanTableRows table

lemma executeFromClause (from_ : BoundFromClause) (filter : Option BoundExpression) :
    Matches (Beside C R) (Database.executeFromClause from_ filter : Exec DatabaseError (Database σ) _)
      (Database.executeFromClause from_ filter) := by
  apply Matches.bind executor
  exact fun executor => executor.matches_fromClause _ (h.fetchTableRows filter) from_

/-! ### Statements -/

lemma executeInsert (bound : BoundInsert) :
    Matches (Beside C R) (Database.executeInsert bound : Exec DatabaseError (Database σ) _)
      (Database.executeInsert bound) := by
  apply Matches.bind executor
  intro executor
  apply Matches.bind ((executor.matches_encodeInsert bound).mapErr _)
  intro row
  apply Matches.bind ((matches_onStorage (h.insertRow _ _)).mapErr _)
  intro rowId
  apply Matches.bind matches_catalog
  intro catalog
  apply Matches.bind ((matches_onStorage (h.insertIndexes _ _ _ _)).mapErr _)
  exact fun _ => matches_pure _

lemma executeSelect (bound : BoundSelect) :
    Matches (Beside C R) (Database.executeSelect bound : Exec DatabaseError (Database σ) _)
      (Database.executeSelect bound) := by
  apply Matches.bind (h.executeFromClause _ _)
  intro rows
  apply Matches.bind executor
  intro executor
  apply Matches.bind ((executor.matches_selectRows rows bound).mapErr _)
  exact fun _ => matches_pure _

lemma executeUpdate (bound : BoundUpdate) :
    Matches (Beside C R) (Database.executeUpdate bound : Exec DatabaseError (Database σ) _)
      (Database.executeUpdate bound) := by
  apply Matches.bind (h.executeFromClause _ _)
  intro rows
  apply Matches.bind executor
  intro executor
  apply Matches.bind ((executor.matches_prepareUpdate rows bound).mapErr _)
  intro preparedUpdates
  apply Matches.bind _ fun _ => matches_pure _
  apply matches_forM
  intro update
  apply Matches.bind matches_catalog
  intro catalog
  apply Matches.bind ((matches_onStorage (h.updateIndexes _ _ _ _ _)).mapErr _)
  exact fun _ => (matches_onStorage (h.updateRow _ _ _)).mapErr _

lemma executeDelete (bound : BoundDelete) :
    Matches (Beside C R) (Database.executeDelete bound : Exec DatabaseError (Database σ) _)
      (Database.executeDelete bound) := by
  apply Matches.bind (h.executeFromClause _ _)
  intro rows
  apply Matches.bind executor
  intro executor
  apply Matches.bind ((executor.matches_prepareDelete rows bound).mapErr _)
  intro preparedDeletes
  apply Matches.bind _ fun _ => matches_pure _
  apply matches_forM
  intro delete
  apply Matches.bind matches_catalog
  intro catalog
  apply Matches.bind ((matches_onStorage (h.deleteIndexes _ _ _ _)).mapErr _)
  exact fun _ => (matches_onStorage (h.deleteRow _ _)).mapErr _

lemma newTable (hC : CatalogKeeps C) (bound : BoundCreateTable) :
    Matches (Beside C R) (Database.createTable bound : Exec DatabaseError (Database σ) _)
      (Database.createTable bound) := by
  apply Matches.bind ((matches_onCatalog (keeps_buildTableMetadata _ _)).mapErr _)
  intro table
  apply Matches.bind ((matches_onStorage (h.createTable _)).mapErr _)
  intro _
  apply Matches.bind ((matches_onCatalog (hC.addTable _)).mapErr _)
  exact fun _ => matches_pure _

/-- A statement does the same on two databases whose engines match. -/
lemma execute (hC : CatalogKeeps C) (statement : Statement) :
    Matches (Beside C R) (Database.execute statement : Exec DatabaseError (Database σ) _)
      (Database.execute statement) := by
  apply Matches.bind (matches_gets fun _ _ hdb => by rw [hdb.catalog])
  intro metadata
  apply Matches.bind ((matches_liftExcept _).mapErr _)
  intro bound
  cases bound with
  | createTable bound => exact h.newTable hC bound
  | createIndex bound =>
    apply Matches.bind ((h.newIndex hC _ _ _).mapErr _)
    exact fun _ => matches_pure _
  | insert bound => exact h.executeInsert bound
  | select bound => exact h.executeSelect bound
  | update bound => exact h.executeUpdate bound
  | delete bound => exact h.executeDelete bound

end EnginesMatch

end RdbRs
