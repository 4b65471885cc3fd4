import RdbRs.Lib.Decides
import RdbRs.Query.BinderSpec

/-!
# What names stand for

The statements that resolve, and what to. A reference stands for the only column that it may mean, no two tables
of a clause go by one name, and a literal stands for a value of the type of its column. Nothing here says in
which order names are looked up. The binder accepts the statements that resolve.
-/

namespace RdbRs

/-! ### Names -/

/-- The name of a table in its clause: its alias, or without one its name in the catalog. -/
def BoundTable.GoesBy (database : DatabaseMetadata) (table : BoundTable) (name : String) : Prop :=
  match table.alias_ with
  | some tableAlias => tableAlias = name
  | none => ∃ tableMeta ∈ database.tables, tableMeta.id = table.tableId ∧ tableMeta.name = name

/-- No two tables go by one name. -/
def DistinctNames (database : DatabaseMetadata) (tables : List BoundTable) : Prop :=
  tables.Pairwise fun table table' => ∀ name, table.GoesBy database name → ¬ table'.GoesBy database name

/-- The column has the ids of the reference. -/
def BoundColumnReference.Is (database : DatabaseMetadata) (c : BoundColumnReference)
    (column : ColumnMetadata) : Prop :=
  ∃ tableMeta ∈ database.tables, tableMeta.id = c.tableId ∧ column ∈ tableMeta.columns ∧ column.id = c.columnId

/-- A column with the name, of a table that goes by the qualifier if there is one. -/
def ColumnReference.MayMean (database : DatabaseMetadata) (tables : List BoundTable)
    (reference : ColumnReference) (c : BoundColumnReference) : Prop :=
  ∃ table ∈ tables, (∀ qualifier ∈ reference.table, table.GoesBy database qualifier) ∧
    ∃ tableMeta ∈ database.tables, tableMeta.id = table.tableId ∧
      ∃ column ∈ tableMeta.columns, column.name = reference.column ∧
        c = ⟨table.tableId, table.instanceId, column.id⟩

/-- The only column that the reference may mean. -/
def ColumnReference.Denotes (database : DatabaseMetadata) (tables : List BoundTable)
    (reference : ColumnReference) (c : BoundColumnReference) : Prop :=
  reference.MayMean database tables c ∧ ∀ c', reference.MayMean database tables c' → c' = c

/-- The value of a literal in a column of that type. -/
inductive Literal.Denotes : Literal → DataType → Value → Prop
  | null {dataType : DataType} : Denotes .null dataType .null
  | int {v : Int64} {w : Int32} : w.toInt = v.toInt → Denotes (.integer v) .int (.int w)
  | bigInt {v : Int64} : Denotes (.integer v) .bigInt (.bigInt v)
  | varchar {text : String} : Denotes (.string text) .varchar (.varchar text)

/-! ### Clauses -/

section Clauses

variable (database : DatabaseMetadata) (tables : List BoundTable)

/-- The columns of a join condition are columns of its tables, which have different names, and of one type. -/
structure JoinCondition.Resolves (on : JoinCondition) (bound : BoundJoinCondition) : Prop where
  names : DistinctNames database tables
  left : on.left.Denotes database tables bound.left
  right : on.right.Denotes database tables bound.right
  types : ∃ leftColumn rightColumn, bound.left.Is database leftColumn ∧ bound.right.Is database rightColumn ∧
    leftColumn.dataType = rightColumn.dataType

inductive FromClause.Resolves : FromClause → BoundFromClause → Prop
  | table {reference : TableReference} {tableMeta : TableMetadata} {instanceId : TableInstanceId} :
      tableMeta ∈ database.tables → tableMeta.name = reference.name →
      Resolves (.table reference) (.table ⟨tableMeta.id, instanceId, reference.alias_⟩)
  | innerJoin {left right : FromClause} {on : JoinCondition} {boundLeft boundRight : BoundFromClause}
      {boundOn : BoundJoinCondition} : Resolves left boundLeft → Resolves right boundRight →
      on.Resolves database (collectTables boundLeft ++ collectTables boundRight) boundOn →
      Resolves (.innerJoin left on right) (.innerJoin boundLeft boundOn boundRight)

inductive Expression.Resolves : Expression → BoundExpression → Prop
  | comparison {reference : ColumnReference} {operator : ComparisonOperator} {literal : Literal}
      {c : BoundColumnReference} {column : ColumnMetadata} {value : Value} :
      reference.Denotes database tables c → c.Is database column → literal.Denotes column.dataType value →
      Resolves (.comparison (.column reference) operator (.literal literal)) (.comparison c operator value)
  | and {left right : Expression} {boundLeft boundRight : BoundExpression} : Resolves left boundLeft →
      Resolves right boundRight → Resolves (.and left right) (.and boundLeft boundRight)
  | or {left right : Expression} {boundLeft boundRight : BoundExpression} : Resolves left boundLeft →
      Resolves right boundRight → Resolves (.or left right) (.or boundLeft boundRight)

inductive Projection.Resolves : Projection → BoundProjection → Prop
  | all : Resolves .all .all
  | column {reference : ColumnReference} {c : BoundColumnReference} : reference.Denotes database tables c →
      Resolves (.expression (.column reference)) (.column c)
  | countAll : Resolves (.aggregate .countAll) (.aggregate .countAll)
  | sum {reference : ColumnReference} {c : BoundColumnReference} {column : ColumnMetadata} :
      reference.Denotes database tables c → c.Is database column →
      column.dataType = .int ∨ column.dataType = .bigInt →
      Resolves (.aggregate (.sum reference)) (.aggregate (.sum c))

structure OrderBy.Resolves (order : OrderBy) (bound : BoundOrderBy) : Prop where
  column : order.column.Denotes database tables bound.column
  direction : bound.direction = order.direction

structure Assignment.Resolves (assignment : Assignment) (bound : BoundAssignment) : Prop where
  column : assignment.column.Denotes database tables bound.column
  value : ∃ column, bound.column.Is database column ∧ assignment.value.Denotes column.dataType bound.value

end Clauses

/-! ### Statements -/

/-- The tables of a clause are numbered from zero. -/
def BoundFromClause.Numbered (bound : BoundFromClause) : Prop :=
  (collectTables bound).map (fun table => table.instanceId.id) = List.range (collectTables bound).length

/-- The results are of groups of rows. -/
def BoundSelect.Grouped (bound : BoundSelect) : Prop :=
  bound.groupBy.isSome ∨ ∃ aggregate, .aggregate aggregate ∈ bound.projections

def BoundSelect.GroupsBy (bound : BoundSelect) (c : BoundColumnReference) : Prop :=
  ∃ columns ∈ bound.groupBy, c ∈ columns

section Statements

variable (database : DatabaseMetadata)

/-- Of groups, only what they are grouped by can be shown or ordered by. -/
structure SelectStatement.Resolves (s : SelectStatement) (bound : BoundSelect) : Prop where
  from_ : s.from_.Resolves database bound.from_
  numbered : bound.from_.Numbered
  projections : List.Forall₂ (Projection.Resolves database (collectTables bound.from_)) s.projections
    bound.projections
  filter : Option.Rel (Expression.Resolves database (collectTables bound.from_)) s.filter bound.filter
  groupBy : Option.Rel (List.Forall₂ (ColumnReference.Denotes database (collectTables bound.from_))) s.groupBy
    bound.groupBy
  shown : bound.Grouped → ∀ p ∈ bound.projections, (∃ c, p = .column c ∧ bound.GroupsBy c) ∨
    ∃ aggregate, p = .aggregate aggregate
  orderBy : Option.Rel (OrderBy.Resolves database (collectTables bound.from_)) s.orderBy bound.orderBy
  ordered : bound.Grouped → ∀ order ∈ bound.orderBy, bound.GroupsBy order.column
  limit : bound.limit = s.limit

structure UpdateStatement.Resolves (s : UpdateStatement) (bound : BoundUpdate) : Prop where
  from_ : s.from_.Resolves database bound.from_
  numbered : bound.from_.Numbered
  assignments : List.Forall₂ (Assignment.Resolves database (collectTables bound.from_)) s.assignments
    bound.assignments
  filter : Option.Rel (Expression.Resolves database (collectTables bound.from_)) s.filter bound.filter

/-- The rows that a `DELETE` removes are those of the tables it names, or of the first one of its clause. -/
def DeleteStatement.Targets (s : DeleteStatement) (bound : BoundDelete) : Prop :=
  match s.targets with
  | some names => List.Forall₂ (fun name table => table ∈ collectTables bound.from_ ∧ table.GoesBy database name)
      names bound.targets
  | none => bound.targets = [leftmostTable bound.from_]

structure DeleteStatement.Resolves (s : DeleteStatement) (bound : BoundDelete) : Prop where
  from_ : s.from_.Resolves database bound.from_
  numbered : bound.from_.Numbered
  targets : s.Targets database bound
  filter : Option.Rel (Expression.Resolves database (collectTables bound.from_)) s.filter bound.filter

/-- One literal for each column of the table. -/
def InsertStatement.Resolves (s : InsertStatement) (bound : BoundInsert) : Prop :=
  ∃ tableMeta ∈ database.tables, tableMeta.name = s.table ∧ bound.tableId = tableMeta.id ∧
    s.literals.length = tableMeta.columns.length ∧
    List.Forall₂ (fun (p : Literal × ColumnMetadata) value => p.1.Denotes p.2.dataType value)
      (s.literals.zip tableMeta.columns) bound.values

/-- A table that is not there. -/
structure CreateTableStatement.Resolves (s : CreateTableStatement) (bound : BoundCreateTable) : Prop where
  fresh : ∀ tableMeta ∈ database.tables, tableMeta.name ≠ s.table
  eq : bound = ⟨s.table, s.columns.map fun column => ⟨column.name, bindDataType column.dataType⟩⟩

def CreateIndexStatement.Resolves (s : CreateIndexStatement) (bound : BoundCreateIndex) : Prop :=
  ∃ tableMeta ∈ database.tables, tableMeta.name = s.table ∧
    ∃ column ∈ tableMeta.columns, column.name = s.columnName ∧ bound = ⟨s.indexName, tableMeta.id, column.id⟩

inductive Statement.Resolves : Statement → BoundStatement → Prop
  | createTable {s : CreateTableStatement} {bound : BoundCreateTable} : s.Resolves database bound →
      Resolves (.createTable s) (.createTable bound)
  | createIndex {s : CreateIndexStatement} {bound : BoundCreateIndex} : s.Resolves database bound →
      Resolves (.createIndex s) (.createIndex bound)
  | insert {s : InsertStatement} {bound : BoundInsert} : s.Resolves database bound →
      Resolves (.insert s) (.insert bound)
  | select {s : SelectStatement} {bound : BoundSelect} : s.Resolves database bound →
      Resolves (.select s) (.select bound)
  | update {s : UpdateStatement} {bound : BoundUpdate} : s.Resolves database bound →
      Resolves (.update s) (.update bound)
  | delete {s : DeleteStatement} {bound : BoundDelete} : s.Resolves database bound →
      Resolves (.delete s) (.delete bound)

end Statements

/-- An error that is about names and values of the statement, not about ids. -/
def BinderError.OfStatement : BinderError → Prop
  | tableIdNotFound _ => False
  | columnIdNotFound _ _ => False
  | _ => True

end RdbRs
