import RdbRs.Executor.Rows

/-!
# Filters and orders
-/

namespace RdbRs

structure RowGroup where
  key : List Value
  rows : List QueryRow

/-- `NULL` is the greatest value. The columns of an order have one type, values of two types do
not meet. -/
def compareValues (left right : Value) : Ordering :=
  match left, right with
  | .null, .null => .eq
  | .null, _ => .gt
  | _, .null => .lt
  | .int a, .int b => compare a b
  | .bigInt a, .bigInt b => compare a b
  | .varchar a, .varchar b => compare a b
  | .boolean a, .boolean b => compare a b
  | _, _ => .eq

/-- `sort_by`, which is stable. -/
def sortBy {α : Type} (cmp : α → α → Ordering) (l : List α) : List α :=
  l.mergeSort fun a b => decide (cmp a b ≠ .gt)

namespace Executor

variable {σ : Type} (self : Executor)

def rowMatchesFilter (row : QueryRow) : BoundExpression → Exec ExecutorError σ Bool
  | .and left right => do
    let holds ← rowMatchesFilter row left
    if holds then rowMatchesFilter row right else pure false
  | .or left right => do
    let holds ← rowMatchesFilter row left
    if holds then pure true else rowMatchesFilter row right
  | .comparison column operator value => do
    let columnValue ← self.columnValue row column
    pure (columnValue.compare operator value)

def filterRows (rows : List QueryRow) (filter : BoundExpression) :
    Exec ExecutorError σ (List QueryRow) :=
  rows.foldlM (fun results row => do
    let holds ← self.rowMatchesFilter row filter
    pure (if holds then results ++ [row] else results)) []

def orderRows (rows : List QueryRow) (order : BoundOrderBy) : Exec ExecutorError σ (List QueryRow) := do
  let keyedRows ← rows.foldlM (fun keyedRows row => do
    let key ← self.columnValue row order.column
    pure (keyedRows ++ [(key, row)])) []
  let keyedRows := sortBy (fun left right => compareValues left.1 right.1) keyedRows
  let keyedRows := if order.direction = .desc then keyedRows.reverse else keyedRows
  pure (keyedRows.map fun r => r.2)

/-- Sorting two groups or more compares, and so indexes, the key of each of them. -/
def orderGroups (groups : List RowGroup) (groupBy : List BoundColumnReference) (order : BoundOrderBy) :
    Exec ExecutorError σ (List RowGroup) := do
  let keyIndex ← Exec.okOr .unsupported
    (groupBy.findIdx? fun groupColumn => groupColumn = order.column)
  if 2 ≤ groups.length ∧ ∃ group ∈ groups, group.key.length ≤ keyIndex then Exec.panic
  else
    let keyOf (group : RowGroup) := group.key.getD keyIndex .null
    let groups := sortBy (fun left right => compareValues (keyOf left) (keyOf right)) groups
    pure (if order.direction = .desc then groups.reverse else groups)

end Executor

end RdbRs
