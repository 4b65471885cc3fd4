import Mathlib.Tactic.Common

/-!
# Tokens and statements

The tokens the lexer makes and the statements the parser builds from them.
-/

namespace RdbRs

inductive SortDirection where
  | asc
  | desc
  deriving DecidableEq

inductive ComparisonOperator where
  | equal
  | notEqual
  | lessThan
  | greaterThan
  | lessThanOrEqual
  | greaterThanOrEqual
  deriving DecidableEq

inductive TokenKind where
  | create
  | table
  | insert
  | into
  | index
  | on
  | values
  | select
  | from_
  | where_
  | update
  | set
  | delete
  | order
  | group
  | by_
  | asc
  | desc
  | limit
  | count
  | sum
  | join
  | dot
  | int
  | bigInt
  | boolean
  | varchar
  | null
  | identifier (name : String)
  | integer (value : Int64)
  | stringLiteral (value : String)
  | leftParen
  | rightParen
  | comma
  | semicolon
  | asterisk
  | and
  | or
  | eq
  | notEq
  | lt
  | gt
  | ltEq
  | gtEq
  | eof
  deriving DecidableEq

structure Token where
  kind : TokenKind
  offset : Nat
  deriving DecidableEq

inductive SqlDataType where
  | int
  | bigInt
  | boolean
  | varchar
  | null
  deriving DecidableEq

inductive Literal where
  | integer (value : Int64)
  | string (value : String)
  | null
  deriving DecidableEq

structure ColumnReference where
  table : Option String
  column : String
  deriving DecidableEq

structure TableReference where
  name : String
  alias_ : Option String
  deriving DecidableEq

structure JoinCondition where
  left : ColumnReference
  right : ColumnReference
  deriving DecidableEq

inductive FromClause where
  | table (reference : TableReference)
  | innerJoin (left : FromClause) (on : JoinCondition) (right : FromClause)
  deriving DecidableEq

inductive Expression where
  | column (reference : ColumnReference)
  | literal (value : Literal)
  | comparison (left : Expression) (operator : ComparisonOperator) (right : Expression)
  | and (left right : Expression)
  | or (left right : Expression)
  deriving DecidableEq

inductive Aggregate where
  | countAll
  | sum (column : ColumnReference)
  deriving DecidableEq

inductive Projection where
  | all
  | expression (value : Expression)
  | aggregate (value : Aggregate)
  deriving DecidableEq

structure Assignment where
  column : ColumnReference
  value : Literal
  deriving DecidableEq

structure OrderBy where
  column : ColumnReference
  direction : SortDirection
  deriving DecidableEq

structure ColumnDefinition where
  name : String
  dataType : SqlDataType
  deriving DecidableEq

structure CreateTableStatement where
  table : String
  columns : List ColumnDefinition
  deriving DecidableEq

structure CreateIndexStatement where
  indexName : String
  table : String
  columnName : String
  deriving DecidableEq

structure SelectStatement where
  projections : List Projection
  from_ : FromClause
  filter : Option Expression
  groupBy : Option (List ColumnReference)
  orderBy : Option OrderBy
  limit : Option Nat
  deriving DecidableEq

structure InsertStatement where
  table : String
  literals : List Literal
  deriving DecidableEq

structure UpdateStatement where
  from_ : FromClause
  assignments : List Assignment
  filter : Option Expression
  deriving DecidableEq

structure DeleteStatement where
  targets : Option (List String)
  from_ : FromClause
  filter : Option Expression
  deriving DecidableEq

inductive Statement where
  | select (statement : SelectStatement)
  | createTable (statement : CreateTableStatement)
  | createIndex (statement : CreateIndexStatement)
  | insert (statement : InsertStatement)
  | update (statement : UpdateStatement)
  | delete (statement : DeleteStatement)
  deriving DecidableEq

end RdbRs
