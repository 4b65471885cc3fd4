import RdbRs.Lib.Loop
import RdbRs.Query.Bound
import RdbRs.Storage.Types

/-!
# Rows of a query

A row of a query holds one row of each table of its FROM clause, with the instance it is for.
-/

namespace RdbRs

inductive ExecutorError where
  | tuple (error : TupleError)
  | tableNotFound (tableId : TableId)
  | tableInstanceNotFound (instanceId : TableInstanceId)
  | columnNotFound (columnId : ColumnId)
  | countOutOfRange (count : Nat)
  | sumOverflow
  | unsupported
  deriving DecidableEq

structure TableRow where
  rowId : RowId
  instanceId : TableInstanceId
  values : List Value
  deriving DecidableEq

structure QueryRow where
  tableRows : List TableRow
  deriving DecidableEq

def QueryRow.findTableRow (self : QueryRow) (instanceId : TableInstanceId) : Option TableRow :=
  self.tableRows.find? fun tableRow => tableRow.instanceId = instanceId

structure Executor where
  database : DatabaseMetadata

namespace Executor

variable {σ : Type} (self : Executor)

def columnValue (row : QueryRow) (column : BoundColumnReference) : Exec ExecutorError σ Value := do
  let tableRow ← Exec.okOr (.tableInstanceNotFound column.instanceId)
    (row.findTableRow column.instanceId)
  let tableMeta ← Exec.okOr (.tableNotFound column.tableId)
    (self.database.tableById column.tableId)
  let columnIndex ← Exec.okOr (.columnNotFound column.columnId)
    (tableMeta.columnIndex column.columnId)
  Exec.okOr (.columnNotFound column.columnId) tableRow.values[columnIndex]?

end Executor

end RdbRs
