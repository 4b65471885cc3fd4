import RdbRs.Catalog.Metadata

/-!
# The catalog

The metadata in memory and the contents of the catalog file. File operations succeed, so that
saving fails only where the encoding does.
-/

namespace RdbRs

inductive CatalogError where
  | schema (error : SchemaError)
  | trailingCatalogBytes
  deriving DecidableEq

def i32Max : Nat := 2147483647

structure Catalog where
  file : List UInt8
  metadata : DatabaseMetadata

namespace Catalog

variable {σ : Type}

def load (file : List UInt8) : Exec CatalogError σ (Option DatabaseMetadata) :=
  if file = [] then pure none
  else do
    let (database, consumed) ← Exec.mapErr .schema (DatabaseMetadata.fromBytes file)
    if consumed ≠ file.length then Exec.throw .trailingCatalogBytes
    else pure (some database)

/-- The encoding takes the place of what the file held. -/
def save : Exec CatalogError Catalog Unit := do
  let bytes ← Exec.mapErr .schema (Exec.query fun self => self.metadata.toBytes)
  Exec.modify fun self => { self with file := bytes }

/-- `Catalog::open` on the contents of the catalog file, which are empty where there was no
file. -/
def openCatalog (databaseName : String) : Exec CatalogError (List UInt8) DatabaseMetadata := do
  let file ← Exec.gets id
  match ← load file with
  | some metadata => pure metadata
  | none => do
    let metadata ←
      Exec.mapErr .schema (Exec.liftExcept (DatabaseMetadata.new databaseName [] []))
    Exec.zoom (fun file => (⟨file, metadata⟩ : Catalog)) (fun catalog _ => catalog.file) save
    pure metadata

/-- Columns numbered from one. -/
def columnMetadatas (columns : List (String × DataType)) : List ColumnMetadata :=
  (columns.zipIdx 1).map fun (column, index) => ⟨⟨UInt32.ofNat index⟩, column.1, column.2⟩

/-- The counter of the columns is an `i32` that stands one ahead of them. -/
def buildTableMetadata (name : String) (columns : List (String × DataType)) :
    Exec CatalogError Catalog TableMetadata := do
  let metadata ← Exec.gets Catalog.metadata
  if u16Max ≤ metadata.tables.length then Exec.throw (.schema .tooManyTables)
  else if (metadata.table name).isSome then Exec.throw (.schema (.duplicateTableName name))
  else if i32Max ≤ columns.length + 1 then Exec.panic
  else
    let tableId : TableId := ⟨UInt32.ofNat (metadata.tables.length + 1)⟩
    Exec.mapErr .schema
      (Exec.liftExcept (TableMetadata.new tableId name (columnMetadatas columns)))

def addIndex (indexMetadata : IndexMetadata) : Exec CatalogError Catalog Unit := do
  let metadata ← Exec.mapErr .schema (Exec.query fun self => self.metadata.addIndex indexMetadata)
  Exec.modify fun self => { self with metadata := metadata }
  save

def addTable (tableMetadata : TableMetadata) : Exec CatalogError Catalog Unit := do
  let metadata ← Exec.mapErr .schema (Exec.query fun self => self.metadata.addTable tableMetadata)
  Exec.modify fun self => { self with metadata := metadata }
  save

def nextIndexId (indexName : String) : Exec CatalogError Catalog IndexId := do
  let metadata ← Exec.gets Catalog.metadata
  if (metadata.index indexName).isSome then Exec.throw (.schema (.duplicateIndexName indexName))
  else if u16Max ≤ metadata.indexes.length then Exec.throw (.schema .tooManyIndexes)
  else pure ⟨UInt32.ofNat (metadata.indexes.length + 1)⟩

def indexColumnDataType (self : Catalog) (tableId : TableId) (columnId : ColumnId) :
    Except CatalogError DataType :=
  match self.metadata.tableById tableId with
  | none => .error (.schema (.indexTableNotFound tableId))
  | some table =>
    match table.columnById columnId with
    | some column => .ok column.dataType
    | none => .error (.schema (.indexColumnNotFound tableId columnId))

def indexTable (self : Catalog) (tableId : TableId) : Except CatalogError TableMetadata :=
  match self.metadata.tableById tableId with
  | some table => .ok table
  | none => .error (.schema (.indexTableNotFound tableId))

def indexColumnPosition (self : Catalog) (tableId : TableId) (columnId : ColumnId) :
    Except CatalogError Nat := do
  let table ← self.indexTable tableId
  match table.columnIndex columnId with
  | some position => .ok position
  | none => .error (.schema (.indexColumnNotFound tableId columnId))

/-- `build_table_metadata` followed by `add_table`. -/
def createTable (name : String) (columns : List (String × DataType)) :
    Exec CatalogError Catalog Unit := do
  let table ← buildTableMetadata name columns
  addTable table

/-- `next_index_id` followed by `add_index`. -/
def createIndex (name : String) (tableId : TableId) (columnId : ColumnId) (rootPageId : PageId) :
    Exec CatalogError Catalog Unit := do
  let indexId ← nextIndexId name
  addIndex ⟨indexId, name, tableId, columnId, rootPageId⟩

end Catalog

/-! ### Runs -/

/-- The catalog file, and the metadata in memory once the catalog has been opened. -/
structure CatalogSession where
  file : List UInt8
  memory : Option DatabaseMetadata

inductive CatalogCall where
  | openCatalog (databaseName : String)
  | createTable (name : String) (columns : List (String × DataType))
  | createIndex (name : String) (tableId : TableId) (columnId : ColumnId) (rootPageId : PageId)

namespace CatalogSession

/-- Opening gives up the catalog in memory for the one that is loaded. -/
def reopen (databaseName : String) : Exec CatalogError CatalogSession Unit := ⟨fun s =>
  match (Catalog.openCatalog databaseName).run s.file with
  | .ok metadata file => .ok () ⟨file, some metadata⟩
  | .err e file => .err e ⟨file, none⟩
  | .panic => .panic
  | .diverge => .diverge⟩

/-- A call on the open catalog. There is none to call before `open`. -/
def onCatalog (call : Exec CatalogError Catalog Unit) : Exec CatalogError CatalogSession Unit :=
  ⟨fun s =>
    match s.memory with
    | none => .ok () s
    | some metadata =>
      (call.run ⟨s.file, metadata⟩).mapState fun catalog => ⟨catalog.file, some catalog.metadata⟩⟩

def perform : CatalogCall → Exec CatalogError CatalogSession Unit
  | .openCatalog databaseName => reopen databaseName
  | .createTable name columns => onCatalog (Catalog.createTable name columns)
  | .createIndex name tableId columnId rootPageId =>
    onCatalog (Catalog.createIndex name tableId columnId rootPageId)

end CatalogSession

end RdbRs
