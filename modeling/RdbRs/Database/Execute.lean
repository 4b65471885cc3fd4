import RdbRs.Database.IndexManager
import RdbRs.Executor.FromClause

/-!
# The database

`Database::execute` over any engine.
-/

namespace RdbRs

inductive DatabaseError where
  | binder (error : BinderError)
  | executor (error : ExecutorError)
  | catalog (error : CatalogError)
  | table (error : TableError)
  | storage (error : StorageError)
  | index (error : IndexError)
  | tuple (error : TupleError)
  deriving DecidableEq

inductive ExecuteResult where
  | success
  | command (affectedRows : Nat)
  | rows (rows : List (List Value))
  deriving DecidableEq

/-- The comparison an index lookup of a table may use. -/
def indexPredicateForTable (filter : Option BoundExpression) (table : BoundTable) :
    Option (BoundColumnReference × Value) :=
  filter.bind go
where
  /-- The recursion into the two sides of an `AND`. -/
  go : BoundExpression → Option (BoundColumnReference × Value)
    | .comparison column operator value =>
      if operator = .equal ∧ column.instanceId = table.instanceId then some (column, value) else none
    | .and left right => (go left).or (go right)
    | .or _ _ => none

namespace Database

variable {σ : Type} [Engine σ]

/-! ### Fetching rows -/

/-- `TableManager::get_rows`. -/
def getRows (tableId : TableId) (rowIds : List RowId) : Exec TableError σ (List (RowId × Row)) :=
  rowIds.foldlM (fun rows rowId => do
    let row ← Engine.getRow tableId rowId
    pure (rows ++ [(rowId, row)])) []

def executor : Exec DatabaseError (Database σ) Executor :=
  Exec.gets fun self => ⟨self.catalog.metadata⟩

def getTableRows (table : BoundTable) (rowIds : List RowId) :
    Exec DatabaseError (Database σ) (List TableRow) := do
  let rows ← Exec.mapErr .table (onStorage (getRows table.tableId rowIds))
  let executor ← executor
  Exec.mapErr .executor (executor.decodeTableRows table rows)

def scanTableRows (table : BoundTable) : Exec DatabaseError (Database σ) (List TableRow) := do
  let rows ← Exec.mapErr .table (onStorage (Engine.scanRows table.tableId))
  let executor ← executor
  Exec.mapErr .executor (executor.decodeTableRows table rows)

def fetchTableRows (filter : Option BoundExpression) (table : BoundTable) :
    Exec DatabaseError (Database σ) (List TableRow) :=
  match indexPredicateForTable filter table with
  | some (column, value) => do
    let catalog ← Exec.gets Database.catalog
    let rowIds ← Exec.mapErr .index (onStorage
      (IndexManager.searchIndexRowIds catalog.metadata.indexes table.tableId column.columnId value))
    match rowIds with
    | some rowIds => getTableRows table rowIds
    | none => scanTableRows table
  | none => scanTableRows table

def executeFromClause (from_ : BoundFromClause) (filter : Option BoundExpression) :
    Exec DatabaseError (Database σ) (List QueryRow) := do
  let executor ← executor
  executor.fromClause .executor (fetchTableRows filter) from_

/-! ### Statements -/

def executeInsert (bound : BoundInsert) : Exec DatabaseError (Database σ) ExecuteResult := do
  let executor ← executor
  let row ← Exec.mapErr .executor (executor.encodeInsert bound)
  let rowId ← Exec.mapErr .table (onStorage (Engine.insertRow bound.tableId row))
  let catalog ← Exec.gets Database.catalog
  Exec.mapErr .index (onStorage (IndexManager.insertRow catalog bound.tableId rowId bound.values))
  pure (.command 1)

def executeSelect (bound : BoundSelect) : Exec DatabaseError (Database σ) ExecuteResult := do
  let rows ← executeFromClause bound.from_ bound.filter
  let executor ← executor
  let results ← Exec.mapErr .executor (executor.selectRows rows bound)
  pure (.rows results)

/-- A round of the loop of `execute_update`. -/
def applyUpdate (update : PreparedUpdate) : Exec DatabaseError (Database σ) Unit := do
  let catalog ← Exec.gets Database.catalog
  Exec.mapErr .index (onStorage
    (IndexManager.updateRow catalog update.tableId update.rowId update.oldValues update.newValues))
  Exec.mapErr .table (onStorage (Engine.updateRow update.tableId update.rowId update.newRow))

def executeUpdate (bound : BoundUpdate) : Exec DatabaseError (Database σ) ExecuteResult := do
  let rows ← executeFromClause bound.from_ bound.filter
  let executor ← executor
  let preparedUpdates ← Exec.mapErr .executor (executor.prepareUpdate rows bound)
  preparedUpdates.forM applyUpdate
  pure (.command preparedUpdates.length)

/-- A round of the loop of `execute_delete`. -/
def applyDelete (delete : PreparedDelete) : Exec DatabaseError (Database σ) Unit := do
  let catalog ← Exec.gets Database.catalog
  Exec.mapErr .index (onStorage
    (IndexManager.deleteRow catalog delete.tableId delete.rowId delete.values))
  Exec.mapErr .table (onStorage (Engine.deleteRow delete.tableId delete.rowId))

def executeDelete (bound : BoundDelete) : Exec DatabaseError (Database σ) ExecuteResult := do
  let rows ← executeFromClause bound.from_ bound.filter
  let executor ← executor
  let preparedDeletes ← Exec.mapErr .executor (executor.prepareDelete rows bound)
  preparedDeletes.forM applyDelete
  pure (.command preparedDeletes.length)

def createIndex (bound : BoundCreateIndex) : Exec DatabaseError (Database σ) ExecuteResult := do
  Exec.mapErr .index (IndexManager.createIndex bound.indexName bound.tableId bound.columnId)
  pure .success

def createTable (bound : BoundCreateTable) : Exec DatabaseError (Database σ) ExecuteResult := do
  let columns := bound.columns.map fun column => (column.name, column.dataType)
  let table ← Exec.mapErr .catalog (onCatalog (Catalog.buildTableMetadata bound.table columns))
  Exec.mapErr .table (onStorage (Engine.createTable table.id))
  Exec.mapErr .catalog (onCatalog (Catalog.addTable table))
  pure .success

def executeBound : BoundStatement → Exec DatabaseError (Database σ) ExecuteResult
  | .createTable bound => createTable bound
  | .createIndex bound => createIndex bound
  | .insert bound => executeInsert bound
  | .select bound => executeSelect bound
  | .update bound => executeUpdate bound
  | .delete bound => executeDelete bound

def execute (statement : Statement) : Exec DatabaseError (Database σ) ExecuteResult := do
  let metadata ← Exec.gets fun self : Database σ => self.catalog.metadata
  let bound ← Exec.mapErr .binder (Exec.liftExcept ((Binder.mk metadata).bind statement))
  executeBound bound

end Database

end RdbRs
