import RdbRs.Catalog.Types
import RdbRs.Tuple.Tuple

/-!
# Bound statements

What the binder makes of a statement: names are replaced by the ids of tables, of their
instances in the statement, and of columns.
-/

namespace RdbRs

/-- A statement has fewer tables than the `u32` of the source counts. -/
structure TableInstanceId where
  id : Nat
  deriving DecidableEq

structure BoundTable where
  tableId : TableId
  instanceId : TableInstanceId
  alias_ : Option String
  deriving DecidableEq

structure BoundColumnReference where
  tableId : TableId
  instanceId : TableInstanceId
  columnId : ColumnId
  deriving DecidableEq

structure BoundJoinCondition where
  left : BoundColumnReference
  right : BoundColumnReference
  deriving DecidableEq

inductive BoundFromClause where
  | table (table : BoundTable)
  | innerJoin (left : BoundFromClause) (on : BoundJoinCondition) (right : BoundFromClause)
  deriving DecidableEq

inductive BoundAggregate where
  | countAll
  | sum (column : BoundColumnReference)
  deriving DecidableEq

inductive BoundProjection where
  | all
  | column (column : BoundColumnReference)
  | aggregate (aggregate : BoundAggregate)
  deriving DecidableEq

def BoundProjection.isAggregate : BoundProjection → Bool
  | aggregate _ => true
  | _ => false

inductive BoundExpression where
  | comparison (column : BoundColumnReference) (operator : ComparisonOperator) (value : Value)
  | and (left right : BoundExpression)
  | or (left right : BoundExpression)
  deriving DecidableEq

structure BoundAssignment where
  column : BoundColumnReference
  value : Value
  deriving DecidableEq

structure BoundColumnDefinition where
  name : String
  dataType : DataType
  deriving DecidableEq

structure BoundOrderBy where
  column : BoundColumnReference
  direction : SortDirection
  deriving DecidableEq

structure BoundSelect where
  projections : List BoundProjection
  from_ : BoundFromClause
  filter : Option BoundExpression
  groupBy : Option (List BoundColumnReference)
  orderBy : Option BoundOrderBy
  limit : Option Nat
  deriving DecidableEq

structure BoundInsert where
  tableId : TableId
  values : List Value
  deriving DecidableEq

structure BoundUpdate where
  from_ : BoundFromClause
  assignments : List BoundAssignment
  filter : Option BoundExpression
  deriving DecidableEq

structure BoundDelete where
  targets : List BoundTable
  from_ : BoundFromClause
  filter : Option BoundExpression
  deriving DecidableEq

structure BoundCreateTable where
  table : String
  columns : List BoundColumnDefinition
  deriving DecidableEq

structure BoundCreateIndex where
  indexName : String
  tableId : TableId
  columnId : ColumnId
  deriving DecidableEq

inductive BoundStatement where
  | createTable (bound : BoundCreateTable)
  | createIndex (bound : BoundCreateIndex)
  | insert (bound : BoundInsert)
  | select (bound : BoundSelect)
  | update (bound : BoundUpdate)
  | delete (bound : BoundDelete)
  deriving DecidableEq

end RdbRs
