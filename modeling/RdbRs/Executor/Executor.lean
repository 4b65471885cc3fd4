import RdbRs.Executor.Projection

/-!
# The executor

Joins, the rows of a `SELECT`, and the rows an `UPDATE` or a `DELETE` touches.
-/

namespace RdbRs

structure PreparedUpdate where
  tableId : TableId
  rowId : RowId
  newRow : Row
  oldValues : List Value
  newValues : List Value
  deriving DecidableEq

structure PendingUpdate where
  tableId : TableId
  rowId : RowId
  oldValues : List Value
  newValues : List Value
  deriving DecidableEq

structure PreparedDelete where
  tableId : TableId
  rowId : RowId
  values : List Value
  deriving DecidableEq

/-- The updates so far and, for each stored row, the position of its update. -/
structure Pendings where
  pendings : List PendingUpdate
  positions : HashMap (TableId × RowId) Nat

/-- The deletes so far and the stored rows they are for. -/
structure Deletes where
  results : List PreparedDelete
  seen : List (TableId × RowId)

namespace Executor

variable {σ : Type} (self : Executor)

def tableMeta (tableId : TableId) : Exec ExecutorError σ TableMetadata :=
  Exec.okOr (.tableNotFound tableId) (self.database.tableById tableId)

def encodeRow (values : List Value) (columns : List ColumnMetadata) : Exec ExecutorError σ Row :=
  (Exec.liftExcept (Tuple.encode values columns)).mapErr .tuple

def encodeInsert (bound : BoundInsert) : Exec ExecutorError σ Row := do
  let table ← self.tableMeta bound.tableId
  encodeRow bound.values table.columns

/-- The rows passing the filter, if there is one. -/
def filtered (rows : List QueryRow) (filter : Option BoundExpression) :
    Exec ExecutorError σ (List QueryRow) :=
  match filter with
  | some filter => self.filterRows rows filter
  | none => pure rows

/-! ### UPDATE and DELETE -/

/-- A round of the loop over the assignments of a joined row. -/
def applyAssignment (row : QueryRow) (state : Pendings) (assignment : BoundAssignment) :
    Exec ExecutorError σ Pendings := do
  let tableRow ← Exec.okOr (.tableInstanceNotFound assignment.column.instanceId)
    (row.findTableRow assignment.column.instanceId)
  let tableMeta ← self.tableMeta assignment.column.tableId
  let columnIndex ← Exec.okOr (.columnNotFound assignment.column.columnId)
    (tableMeta.columnIndex assignment.column.columnId)
  let key := (assignment.column.tableId, tableRow.rowId)
  match state.positions.get key with
  | some index => do
    let prepared ← Exec.index state.pendings index
    let newValues ← Exec.assign prepared.newValues columnIndex assignment.value
    let pendings ← Exec.assign state.pendings index { prepared with newValues := newValues }
    pure ⟨pendings, state.positions⟩
  | none => do
    let newValues ← Exec.assign tableRow.values columnIndex assignment.value
    pure ⟨state.pendings ++
        [⟨assignment.column.tableId, tableRow.rowId, tableRow.values, newValues⟩],
      state.positions.insert key state.pendings.length⟩

def applyAssignments (assignments : List BoundAssignment) (state : Pendings) (row : QueryRow) :
    Exec ExecutorError σ Pendings :=
  assignments.foldlM (self.applyAssignment row) state

/-- The encoding of the row of one update. -/
def prepare (results : List PreparedUpdate) (pending : PendingUpdate) :
    Exec ExecutorError σ (List PreparedUpdate) := do
  let tableMeta ← self.tableMeta pending.tableId
  let newRow ← encodeRow pending.newValues tableMeta.columns
  pure (results ++
    [⟨pending.tableId, pending.rowId, newRow, pending.oldValues, pending.newValues⟩])

def prepareUpdate (rows : List QueryRow) (bound : BoundUpdate) :
    Exec ExecutorError σ (List PreparedUpdate) := do
  let rows ← self.filtered rows bound.filter
  let state ← rows.foldlM (self.applyAssignments bound.assignments) ⟨[], HashMap.new⟩
  state.pendings.foldlM self.prepare []

/-- A round of the loop over the targets of a joined row. -/
def deleteTarget (row : QueryRow) (state : Deletes) (target : BoundTable) :
    Exec ExecutorError σ Deletes := do
  let tableRow ← Exec.okOr (.tableInstanceNotFound target.instanceId)
    (row.findTableRow target.instanceId)
  let key := (target.tableId, tableRow.rowId)
  if key ∈ state.seen then pure state
  else
    pure ⟨state.results ++ [⟨target.tableId, tableRow.rowId, tableRow.values⟩], key :: state.seen⟩

def deleteTargets (targets : List BoundTable) (state : Deletes) (row : QueryRow) :
    Exec ExecutorError σ Deletes :=
  targets.foldlM (deleteTarget row) state

def prepareDelete (rows : List QueryRow) (bound : BoundDelete) :
    Exec ExecutorError σ (List PreparedDelete) := do
  let rows ← self.filtered rows bound.filter
  let state ← rows.foldlM (deleteTargets bound.targets) ⟨[], []⟩
  pure state.results

/-! ### SELECT -/

/-- `results.truncate(limit)`. -/
def truncate (limit : Option Nat) (results : List (List Value)) : List (List Value) :=
  match limit with
  | some limit => results.take limit
  | none => results

def selectGroups (rows : List QueryRow) (groupBy : List BoundColumnReference) (bound : BoundSelect) :
    Exec ExecutorError σ (List (List Value)) := do
  let groups ← self.groupRows rows groupBy
  let groups ← match bound.orderBy with
    | some order => orderGroups groups groupBy order
    | none => pure groups
  let results ← self.aggregateGroups groups groupBy bound.projections
  pure (truncate bound.limit results)

def selectAggregate (rows : List QueryRow) (bound : BoundSelect) :
    Exec ExecutorError σ (List (List Value)) :=
  if bound.orderBy.isSome then Exec.throw .unsupported
  else do
    let results ← self.aggregate rows bound.projections
    pure (truncate bound.limit results)

def selectProjected (rows : List QueryRow) (bound : BoundSelect) :
    Exec ExecutorError σ (List (List Value)) := do
  let rows ← match bound.orderBy with
    | some order => self.orderRows rows order
    | none => pure rows
  let results ← self.projectRows rows bound.projections
  pure (truncate bound.limit results)

def selectRows (rows : List QueryRow) (bound : BoundSelect) :
    Exec ExecutorError σ (List (List Value)) := do
  let rows ← self.filtered rows bound.filter
  match bound.groupBy with
  | some groupBy => self.selectGroups rows groupBy bound
  | none =>
    if bound.projections.any BoundProjection.isAggregate then self.selectAggregate rows bound
    else self.selectProjected rows bound

/-! ### Joins -/

def decodeTableRows (table : BoundTable) (rows : List (RowId × Row)) :
    Exec ExecutorError σ (List TableRow) := do
  let tableMeta ← self.tableMeta table.tableId
  rows.foldlM (fun tableRows row => do
    let values ← (Tuple.decode row.2 tableMeta.columns).mapErr .tuple
    pure (tableRows ++ [⟨row.1, table.instanceId, values⟩])) []

def joinColumnValue (leftRow rightRow : QueryRow) (column : BoundColumnReference) :
    Exec ExecutorError σ Value :=
  if (leftRow.findTableRow column.instanceId).isSome then self.columnValue leftRow column
  else if (rightRow.findTableRow column.instanceId).isSome then self.columnValue rightRow column
  else Exec.throw (.tableInstanceNotFound column.instanceId)

def matchesJoinCondition (leftRow rightRow : QueryRow) (condition : BoundJoinCondition) :
    Exec ExecutorError σ Bool := do
  let leftValue ← self.joinColumnValue leftRow rightRow condition.left
  let rightValue ← self.joinColumnValue leftRow rightRow condition.right
  pure (leftValue.compare .equal rightValue)

/-- The row of two joined rows. -/
def joinRows (leftRow rightRow : QueryRow) : QueryRow := ⟨leftRow.tableRows ++ rightRow.tableRows⟩

def nestedLoopJoin (leftRows rightRows : List QueryRow) (condition : BoundJoinCondition) :
    Exec ExecutorError σ (List QueryRow) :=
  leftRows.foldlM (fun joinedRows leftRow =>
    rightRows.foldlM (fun joinedRows rightRow => do
      let holds ← self.matchesJoinCondition leftRow rightRow condition
      pure (if holds then joinedRows ++ [joinRows leftRow rightRow] else joinedRows)) joinedRows) []

def hashJoinColumn (row : QueryRow) (condition : BoundJoinCondition) : Option BoundColumnReference :=
  if (row.findTableRow condition.left.instanceId).isSome then some condition.left
  else if (row.findTableRow condition.right.instanceId).isSome then some condition.right
  else none

/-- The loop over the right rows. `None` where a row has neither column. -/
def buildHash (condition : BoundJoinCondition) :
    List QueryRow → Nat → HashMap Value (List Nat) →
      Exec ExecutorError σ (Option (HashMap Value (List Nat)))
  | [], _, hash => pure (some hash)
  | rightRow :: rightRows, index, hash =>
    match hashJoinColumn rightRow condition with
    | none => pure none
    | some column => do
      let value ← self.columnValue rightRow column
      let hash := if value ≠ .null then hash.insert value ((hash.get value).getD [] ++ [index])
        else hash
      buildHash condition rightRows (index + 1) hash

/-- The loop over the right indexes of a left row. -/
def joinIndexes (rightRows : List QueryRow) (leftRow : QueryRow) (joinedRows : List QueryRow)
    (rightIndexes : List Nat) : Exec ExecutorError σ (List QueryRow) :=
  rightIndexes.foldlM (fun joinedRows rightIndex => do
    let rightRow ← Exec.index rightRows rightIndex
    pure (joinedRows ++ [joinRows leftRow rightRow])) joinedRows

/-- The loop over the left rows. `None` where a row has neither column. -/
def probeHash (rightRows : List QueryRow) (condition : BoundJoinCondition)
    (hash : HashMap Value (List Nat)) :
    List QueryRow → List QueryRow → Exec ExecutorError σ (Option (List QueryRow))
  | [], joinedRows => pure (some joinedRows)
  | leftRow :: leftRows, joinedRows =>
    match hashJoinColumn leftRow condition with
    | none => pure none
    | some column => do
      let value ← self.columnValue leftRow column
      let joinedRows ← joinIndexes rightRows leftRow joinedRows ((hash.get value).getD [])
      probeHash rightRows condition hash leftRows joinedRows

def hashJoin (leftRows rightRows : List QueryRow) (condition : BoundJoinCondition) :
    Exec ExecutorError σ (List QueryRow) := do
  match ← self.buildHash condition rightRows 0 HashMap.new with
  | none => self.nestedLoopJoin leftRows rightRows condition
  | some hash =>
    match ← self.probeHash rightRows condition hash leftRows [] with
    | none => self.nestedLoopJoin leftRows rightRows condition
    | some joinedRows => pure joinedRows

end Executor

end RdbRs
