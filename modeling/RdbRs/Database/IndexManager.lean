import RdbRs.Catalog.Catalog
import RdbRs.Database.Engine
import RdbRs.Lib.Loop
import RdbRs.Tuple.Tuple

/-!
# The index manager

Keeps the trees of a table in step with its rows, and looks row ids up by the value of a column.
-/

namespace RdbRs

inductive IndexError where
  | unsupportedKeyDataType (dataType : DataType)
  | entryNotFound (indexId : IndexId) (rowId : RowId)
  | btree (error : BTreeError)
  | storage (error : StorageError)
  | catalog (error : CatalogError)
  | table (error : TableError)
  | tuple (error : TupleError)
  deriving DecidableEq

def valueToBtreeKey : Value → Option BTreeKey
  | .int v => some (.int v)
  | .bigInt v => some (.bigInt v)
  | .boolean v => some (.boolean v)
  | .varchar v => some (.varchar v)
  | .null => none

/-- The catalog and the storage of a database. -/
structure Database (σ : Type) where
  catalog : Catalog
  storage : σ

namespace Database

variable {ε σ α : Type}

def onCatalog (x : Exec ε Catalog α) : Exec ε (Database σ) α :=
  Exec.zoom Database.catalog (fun catalog db => { db with catalog := catalog }) x

def onStorage (x : Exec ε σ α) : Exec ε (Database σ) α :=
  Exec.zoom Database.storage (fun storage db => { db with storage := storage }) x

end Database

namespace IndexManager

variable {σ : Type} [Engine σ]

def openIndexBtree (indexId : IndexId) (rootPageId : PageId) (keyType : BTreeKeyType) :
    Exec IndexError σ BTree := do
  Exec.mapErr .storage (Engine.registerRelation indexId)
  pure (BTree.open' indexId rootPageId keyType)

def insertEntry (indexMetadata : IndexMetadata) (value : Value) (rowId : RowId) :
    Exec IndexError σ Unit :=
  match valueToBtreeKey value with
  | some key => do
    let btree ← openIndexBtree indexMetadata.id indexMetadata.rootPageId key.keyType
    Exec.mapErr .btree (Engine.insert btree key rowId)
  | none => pure ()

def deleteEntry (indexMetadata : IndexMetadata) (value : Value) (rowId : RowId) :
    Exec IndexError σ Unit :=
  match valueToBtreeKey value with
  | some key => do
    let btree ← openIndexBtree indexMetadata.id indexMetadata.rootPageId key.keyType
    let deleted ← Exec.mapErr .btree (Engine.delete btree key rowId)
    if deleted then pure () else Exec.throw (.entryNotFound indexMetadata.id rowId)
  | none => pure ()

/-- The indexes of a table. -/
def indexesOf (catalog : Catalog) (table : TableMetadata) : List IndexMetadata :=
  catalog.metadata.indexes.filter fun index => index.tableId = table.id

/-- A round of the loop of `update_row`. -/
def updateIndex (catalog : Catalog) (tableId : TableId) (rowId : RowId) (oldValues newValues : List Value)
    (indexMetadata : IndexMetadata) : Exec IndexError σ Unit := do
  let columnIndex ← Exec.mapErr .catalog
    (Exec.liftExcept (catalog.indexColumnPosition tableId indexMetadata.columnId))
  let oldValue ← Exec.index oldValues columnIndex
  let newValue ← Exec.index newValues columnIndex
  if oldValue ≠ newValue then do
    deleteEntry indexMetadata oldValue rowId
    insertEntry indexMetadata newValue rowId
  else pure ()

def updateRow (catalog : Catalog) (tableId : TableId) (rowId : RowId) (oldValues newValues : List Value) :
    Exec IndexError σ Unit := do
  let table ← Exec.mapErr .catalog (Exec.liftExcept (catalog.indexTable tableId))
  (indexesOf catalog table).forM (updateIndex catalog tableId rowId oldValues newValues)

/-- A round of the loop of `insert_row`. -/
def insertIndex (catalog : Catalog) (tableId : TableId) (rowId : RowId) (values : List Value)
    (indexMetadata : IndexMetadata) : Exec IndexError σ Unit := do
  let columnIndex ← Exec.mapErr .catalog
    (Exec.liftExcept (catalog.indexColumnPosition tableId indexMetadata.columnId))
  let value ← Exec.index values columnIndex
  insertEntry indexMetadata value rowId

def insertRow (catalog : Catalog) (tableId : TableId) (rowId : RowId) (values : List Value) :
    Exec IndexError σ Unit := do
  let table ← Exec.mapErr .catalog (Exec.liftExcept (catalog.indexTable tableId))
  (indexesOf catalog table).forM (insertIndex catalog tableId rowId values)

/-- A round of the loop of `delete_row`. -/
def deleteIndex (catalog : Catalog) (tableId : TableId) (rowId : RowId) (values : List Value)
    (indexMetadata : IndexMetadata) : Exec IndexError σ Unit := do
  let columnIndex ← Exec.mapErr .catalog
    (Exec.liftExcept (catalog.indexColumnPosition tableId indexMetadata.columnId))
  let value ← Exec.index values columnIndex
  deleteEntry indexMetadata value rowId

def deleteRow (catalog : Catalog) (tableId : TableId) (rowId : RowId) (values : List Value) :
    Exec IndexError σ Unit := do
  let table ← Exec.mapErr .catalog (Exec.liftExcept (catalog.indexTable tableId))
  (indexesOf catalog table).forM (deleteIndex catalog tableId rowId values)

/-! ### Lookups -/

def searchRowIds (indexMetadata : IndexMetadata) (value : Value) : Exec IndexError σ (List RowId) :=
  match valueToBtreeKey value with
  | some key => do
    let btree ← openIndexBtree indexMetadata.id indexMetadata.rootPageId key.keyType
    Exec.mapErr .btree (Engine.search btree key)
  | none => pure []

def searchIndexRowIds (indexes : List IndexMetadata) (tableId : TableId) (columnId : ColumnId)
    (value : Value) : Exec IndexError σ (Option (List RowId)) :=
  match indexes.find? fun index => index.tableId = tableId ∧ index.columnId = columnId with
  | some index => do
    let rowIds ← searchRowIds index value
    pure (some rowIds)
  | none => pure none

/-! ### New indexes -/

def createIndexBtree (indexId : IndexId) (dataType : DataType) : Exec IndexError σ PageId :=
  match BTreeKeyType.tryFrom dataType with
  | none => Exec.throw (.unsupportedKeyDataType dataType)
  | some keyType => do
    Exec.mapErr .storage (Engine.createRelation indexId)
    let btree ← Exec.mapErr .btree (Engine.createTree indexId keyType)
    pure btree.rootPageId

/-- A round of the first loop of `backfill`. -/
def backfillEntry (table : TableMetadata) (columnIndex : Nat) (entries : List (Value × RowId))
    (row : RowId × Row) : Exec IndexError σ (List (Value × RowId)) := do
  let values ← Exec.mapErr .tuple (Tuple.decode row.2 table.columns)
  let value ← Exec.index values columnIndex
  pure (entries ++ [(value, row.1)])

def backfill (catalog : Catalog) (indexMetadata : IndexMetadata) : Exec IndexError σ Unit := do
  let rows ← Exec.mapErr .table (Engine.scanRows indexMetadata.tableId)
  let table ← Exec.mapErr .catalog (Exec.liftExcept (catalog.indexTable indexMetadata.tableId))
  let columnIndex ← Exec.mapErr .catalog
    (Exec.liftExcept (catalog.indexColumnPosition table.id indexMetadata.columnId))
  let entries ← rows.foldlM (backfillEntry table columnIndex) []
  entries.forM fun entry => insertEntry indexMetadata entry.1 entry.2

def createIndex (indexName : String) (tableId : TableId) (columnId : ColumnId) :
    Exec IndexError (Database σ) Unit := do
  let indexId ← Exec.mapErr .catalog (Database.onCatalog (Catalog.nextIndexId indexName))
  let catalog ← Exec.gets Database.catalog
  let dataType ← Exec.mapErr .catalog
    (Exec.liftExcept (catalog.indexColumnDataType tableId columnId))
  let rootPageId ← Database.onStorage (createIndexBtree indexId dataType)
  let indexMetadata : IndexMetadata := ⟨indexId, indexName, tableId, columnId, rootPageId⟩
  Database.onStorage (backfill catalog indexMetadata)
  Exec.mapErr .catalog (Database.onCatalog (Catalog.addIndex indexMetadata))

end IndexManager

end RdbRs
