import RdbRs.Executor.Predicate

/-!
# Projections and groups
-/

namespace RdbRs

def valueToAddend : Value → Except ExecutorError (Option Int64)
  | .int v => .ok (some v.toInt64)
  | .bigInt v => .ok (some v)
  | .null => .ok none
  | _ => .error .unsupported

/-- `i64::checked_add`. -/
def checkedAdd (a b : Int64) : Option Int64 :=
  if -9223372036854775808 ≤ a.toInt + b.toInt ∧ a.toInt + b.toInt ≤ 9223372036854775807 then
    some (a + b)
  else none

/-- `i64::try_from` of a `usize`. -/
def i64TryFrom (n : Nat) : Option Int64 :=
  if n ≤ 9223372036854775807 then some (Int64.ofNat n) else none

namespace Executor

variable {σ : Type} (self : Executor)

/-- A round of the inner loop of `project_rows`. -/
def projectValue (row : QueryRow) (values : List Value) (projection : BoundProjection) :
    Exec ExecutorError σ (List Value) :=
  match projection with
  | .all => pure (values ++ row.tableRows.flatMap fun tableRow => tableRow.values)
  | .column column => do
    let value ← self.columnValue row column
    pure (values ++ [value])
  | .aggregate _ => Exec.throw .unsupported

def projectRows (rows : List QueryRow) (projections : List BoundProjection) :
    Exec ExecutorError σ (List (List Value)) :=
  rows.foldlM (fun results row => do
    let values ← projections.foldlM (self.projectValue row) []
    pure (results ++ [values])) []

/-- The values of the grouping columns. -/
def groupKey (row : QueryRow) (groupBy : List BoundColumnReference) :
    Exec ExecutorError σ (List Value) :=
  groupBy.foldlM (fun key columnRef => do
    let value ← self.columnValue row columnRef
    pure (key ++ [value])) []

/-- The groups and, for each key, the position of its group. -/
structure Grouping where
  groups : List RowGroup
  indices : HashMap (List Value) Nat

/-- A round of the loop of `group_rows`. -/
def groupRow (groupBy : List BoundColumnReference) (grouping : Grouping) (row : QueryRow) :
    Exec ExecutorError σ Grouping := do
  let key ← self.groupKey row groupBy
  match grouping.indices.get key with
  | some groupIndex => do
    let group ← Exec.index grouping.groups groupIndex
    let groups ← Exec.assign grouping.groups groupIndex ⟨group.key, group.rows ++ [row]⟩
    pure ⟨groups, grouping.indices⟩
  | none =>
    pure ⟨grouping.groups ++ [⟨key, [row]⟩], grouping.indices.insert key grouping.groups.length⟩

def groupRows (rows : List QueryRow) (groupBy : List BoundColumnReference) :
    Exec ExecutorError σ (List RowGroup) := do
  let grouping ← rows.foldlM (self.groupRow groupBy) ⟨[], HashMap.new⟩
  pure grouping.groups

/-- A round of the loop of a `SUM`. -/
def sumRow (column : BoundColumnReference) (sum : Option Int64) (row : QueryRow) :
    Exec ExecutorError σ (Option Int64) := do
  let value ← self.columnValue row column
  let addend ← Exec.liftExcept (valueToAddend value)
  match addend with
  | none => pure sum
  | some addend => do
    let current := sum.getD 0
    let total ← Exec.okOr .sumOverflow (checkedAdd current addend)
    pure (some total)

/-- A round of the loop of `aggregate_group`. -/
def aggregateProjection (group : RowGroup) (groupBy : List BoundColumnReference)
    (projectionResult : List Value) (projection : BoundProjection) :
    Exec ExecutorError σ (List Value) :=
  match projection with
  | .column column => do
    let keyIndex ← Exec.okOr .unsupported
      (groupBy.findIdx? fun groupColumn => groupColumn = column)
    let value ← Exec.index group.key keyIndex
    pure (projectionResult ++ [value])
  | .aggregate .countAll => do
    let count ← Exec.okOr (.countOutOfRange group.rows.length) (i64TryFrom group.rows.length)
    pure (projectionResult ++ [.bigInt count])
  | .aggregate (.sum column) => do
    let sum ← group.rows.foldlM (self.sumRow column) none
    pure (projectionResult ++ [(sum.map Value.bigInt).getD .null])
  | .all => Exec.throw .unsupported

def aggregateGroup (group : RowGroup) (groupBy : List BoundColumnReference)
    (projections : List BoundProjection) : Exec ExecutorError σ (List Value) :=
  projections.foldlM (self.aggregateProjection group groupBy) []

def aggregateGroups (groups : List RowGroup) (groupBy : List BoundColumnReference)
    (projections : List BoundProjection) : Exec ExecutorError σ (List (List Value)) :=
  groups.foldlM (fun results group => do
    let values ← self.aggregateGroup group groupBy projections
    pure (results ++ [values])) []

def aggregate (rows : List QueryRow) (projections : List BoundProjection) :
    Exec ExecutorError σ (List (List Value)) :=
  self.aggregateGroups [⟨[], rows⟩] [] projections

end Executor

end RdbRs
