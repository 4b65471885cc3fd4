import RdbRs.Query.Bound

/-!
# The binder

Resolves the names of a statement against the metadata of the database.
-/

namespace RdbRs

inductive BinderError where
  | tableNotFound (name : String)
  | tableIdNotFound (tableId : TableId)
  | columnNotFound (table column : String)
  | columnIdNotFound (tableId : TableId) (columnId : ColumnId)
  | columnNotFoundInScope (column : String)
  | ambiguousColumn (column : String)
  | alreadyExistsTable (name : String)
  | valueCountMismatch (expected actual : Nat)
  | typeMismatch (column : String) (expected : DataType)
  | invalidFilterExpression
  | invalidProjectionExpression
  | unsupportedAggregateType
  | invalidGroupingProjection
  | invalidGroupingOrder
  | invalidAggregateOrder
  | joinColumnTypeMismatch (left right : DataType)
  | duplicateTableReference (name : String)
  deriving DecidableEq

def leftmostTable : BoundFromClause → BoundTable
  | .table table => table
  | .innerJoin left _ _ => leftmostTable left

def collectTables : BoundFromClause → List BoundTable
  | .table table => [table]
  | .innerJoin left _ right => collectTables left ++ collectTables right

def requireColumnByName (table : TableMetadata) (name : String) : Except BinderError ColumnMetadata :=
  match table.column name with
  | some column => .ok column
  | none => .error (.columnNotFound table.name name)

def i32TryFrom (v : Int64) : Option Int32 :=
  if -2147483648 ≤ v.toInt ∧ v.toInt ≤ 2147483647 then some v.toInt32 else none

def bindValue (literal : Literal) (column : ColumnMetadata) : Except BinderError Value :=
  match literal, column.dataType with
  | .null, _ => .ok .null
  | .integer v, .int =>
    match i32TryFrom v with
    | some v => .ok (.int v)
    | none => .error (.typeMismatch column.name column.dataType)
  | .integer v, .bigInt => .ok (.bigInt v)
  | .string v, .varchar => .ok (.varchar v)
  | _, _ => .error (.typeMismatch column.name column.dataType)

def bindDataType : SqlDataType → DataType
  | .int => .int
  | .bigInt => .bigInt
  | .boolean => .boolean
  | .varchar => .varchar
  | .null => .null

/-- The check of one projection in `validate_projection`. -/
def BoundProjection.fits (hasAggregate : Bool) (groupBy : Option (List BoundColumnReference)) :
    BoundProjection → Bool
  | column reference =>
    !((hasAggregate || groupBy.isSome) && !groupBy.any fun columns => columns.contains reference)
  | all => !(hasAggregate || groupBy.isSome)
  | aggregate _ => true

def validateProjection (projections : List BoundProjection)
    (groupBy : Option (List BoundColumnReference)) : Except BinderError Unit :=
  let hasAggregate := projections.any BoundProjection.isAggregate
  if projections.all (BoundProjection.fits hasAggregate groupBy) then .ok ()
  else .error .invalidGroupingProjection

def validateOrderBy (projections : List BoundProjection)
    (groupBy : Option (List BoundColumnReference)) (orderBy : Option BoundOrderBy) :
    Except BinderError Unit :=
  match orderBy, groupBy with
  | none, _ => .ok ()
  | some order, some columns =>
    if columns.contains order.column then .ok () else .error .invalidGroupingOrder
  | some _, none =>
    if projections.any BoundProjection.isAggregate then .error .invalidAggregateOrder else .ok ()

structure Binder where
  database : DatabaseMetadata

namespace Binder

variable (self : Binder)

def requireTable (name : String) : Except BinderError TableMetadata :=
  match self.database.table name with
  | some table => .ok table
  | none => .error (.tableNotFound name)

def requireTableById (tableId : TableId) : Except BinderError TableMetadata :=
  match self.database.tableById tableId with
  | some table => .ok table
  | none => .error (.tableIdNotFound tableId)

def requireColumn (column : BoundColumnReference) : Except BinderError ColumnMetadata := do
  let tableMeta ← self.requireTableById column.tableId
  match tableMeta.columnById column.columnId with
  | some columnMeta => .ok columnMeta
  | none => .error (.columnIdNotFound tableMeta.id column.columnId)

def tableReferenceName (table : BoundTable) : Except BinderError String :=
  match table.alias_ with
  | some tableAlias => .ok tableAlias
  | none => do
    let tableMeta ← self.requireTableById table.tableId
    .ok tableMeta.name

/-- The loops that look for the first table with a reference name. -/
def findTable (name : String) : List BoundTable → Except BinderError (Option BoundTable)
  | [] => .ok none
  | table :: tables => do
    let qualifier ← self.tableReferenceName table
    if qualifier = name then .ok (some table) else findTable name tables

/-! ### Columns -/

def bindQualifiedColumnReference (tables : List BoundTable) (columnRef : ColumnReference)
    (alias_ : String) : Except BinderError BoundColumnReference := do
  match ← self.findTable alias_ tables with
  | none => .error (.tableNotFound alias_)
  | some boundTable =>
    let tableMeta ← self.requireTableById boundTable.tableId
    match tableMeta.column columnRef.column with
    | none => .error (.columnNotFound alias_ columnRef.column)
    | some columnMeta => .ok ⟨tableMeta.id, boundTable.instanceId, columnMeta.id⟩

/-- The columns of that name, one for each table that has it. -/
def matchingColumns (name : String) : List BoundTable → Except BinderError (List BoundColumnReference)
  | [] => .ok []
  | boundTable :: tables => do
    let tableMeta ← self.requireTableById boundTable.tableId
    let columns ← matchingColumns name tables
    match tableMeta.column name with
    | some columnMeta => .ok (⟨tableMeta.id, boundTable.instanceId, columnMeta.id⟩ :: columns)
    | none => .ok columns

def bindUnqualifiedColumnReference (tables : List BoundTable) (columnRef : ColumnReference) :
    Except BinderError BoundColumnReference := do
  match ← self.matchingColumns columnRef.column tables with
  | [] => .error (.columnNotFoundInScope columnRef.column)
  | [column] => .ok column
  | _ => .error (.ambiguousColumn columnRef.column)

def bindColumnReference (tables : List BoundTable) (columnRef : ColumnReference) :
    Except BinderError BoundColumnReference :=
  match columnRef.table with
  | some alias_ => self.bindQualifiedColumnReference tables columnRef alias_
  | none => self.bindUnqualifiedColumnReference tables columnRef

/-! ### FROM clauses -/

/-- The loop over the reference names, which are to be distinct. -/
def checkReferences (seen : List String) : List BoundTable → Except BinderError Unit
  | [] => .ok ()
  | table :: tables => do
    let qualifier ← self.tableReferenceName table
    if qualifier ∈ seen then .error (.duplicateTableReference qualifier)
    else checkReferences (qualifier :: seen) tables

def bindJoinCondition (left right : BoundFromClause) (condition : JoinCondition) :
    Except BinderError BoundJoinCondition := do
  let tables := collectTables left ++ collectTables right
  self.checkReferences [] tables
  let leftColumn ← self.bindColumnReference tables condition.left
  let rightColumn ← self.bindColumnReference tables condition.right
  let leftMeta ← self.requireColumn leftColumn
  let rightMeta ← self.requireColumn rightColumn
  if leftMeta.dataType ≠ rightMeta.dataType then
    .error (.joinColumnTypeMismatch leftMeta.dataType rightMeta.dataType)
  else .ok ⟨leftColumn, rightColumn⟩

/-- Returns the clause and the next instance id. -/
def bindFromClause : FromClause → Nat → Except BinderError (BoundFromClause × Nat)
  | .table tableRef, nextInstanceId => do
    let tableMeta ← self.requireTable tableRef.name
    .ok (.table ⟨tableMeta.id, ⟨nextInstanceId⟩, tableRef.alias_⟩, nextInstanceId + 1)
  | .innerJoin left on right, nextInstanceId => do
    let (boundLeft, nextInstanceId) ← bindFromClause left nextInstanceId
    let (boundRight, nextInstanceId) ← bindFromClause right nextInstanceId
    let boundOn ← self.bindJoinCondition boundLeft boundRight on
    .ok (.innerJoin boundLeft boundOn boundRight, nextInstanceId)

/-! ### Clauses -/

def bindFilter (tables : List BoundTable) : Expression → Except BinderError BoundExpression
  | .and left right => do
    let left ← bindFilter tables left
    let right ← bindFilter tables right
    .ok (.and left right)
  | .or left right => do
    let left ← bindFilter tables left
    let right ← bindFilter tables right
    .ok (.or left right)
  | .comparison (.column columnRef) operator (.literal literal) => do
    let column ← self.bindColumnReference tables columnRef
    let columnMeta ← self.requireColumn column
    let value ← bindValue literal columnMeta
    .ok (.comparison column operator value)
  | _ => .error .invalidFilterExpression

/-- `option.as_ref().map(f).transpose()?`. -/
def bindOptional {α β : Type} (f : α → Except BinderError β) : Option α → Except BinderError (Option β)
  | some a => do
    let b ← f a
    .ok (some b)
  | none => .ok none

def bindProjection (tables : List BoundTable) : Projection → Except BinderError BoundProjection
  | .all => .ok .all
  | .expression (.column columnRef) => do
    let column ← self.bindColumnReference tables columnRef
    .ok (.column column)
  | .aggregate .countAll => .ok (.aggregate .countAll)
  | .aggregate (.sum columnRef) => do
    let column ← self.bindColumnReference tables columnRef
    let columnMeta ← self.requireColumn column
    if columnMeta.dataType = .int ∨ columnMeta.dataType = .bigInt then
      .ok (.aggregate (.sum column))
    else .error .unsupportedAggregateType
  | .expression _ => .error .invalidProjectionExpression

def bindProjections (tables : List BoundTable) (projections : List Projection) :
    Except BinderError (List BoundProjection) :=
  projections.mapM (self.bindProjection tables)

def bindGroupBy (tables : List BoundTable) (columns : Option (List ColumnReference)) :
    Except BinderError (Option (List BoundColumnReference)) :=
  bindOptional (fun columnRefs => columnRefs.mapM (self.bindColumnReference tables)) columns

def bindOrderBy (tables : List BoundTable) (order : Option OrderBy) :
    Except BinderError (Option BoundOrderBy) :=
  bindOptional (fun order => do
    let column ← self.bindColumnReference tables order.column
    .ok ⟨column, order.direction⟩) order

def bindAssignment (tables : List BoundTable) (assignment : Assignment) :
    Except BinderError BoundAssignment := do
  let column ← self.bindColumnReference tables assignment.column
  let columnMeta ← self.requireColumn column
  let value ← bindValue assignment.value columnMeta
  .ok ⟨column, value⟩

/-! ### Statements -/

def bindSelect (statement : SelectStatement) : Except BinderError BoundSelect := do
  let (from_, _) ← self.bindFromClause statement.from_ 0
  let tables := collectTables from_
  let projections ← self.bindProjections tables statement.projections
  let filter ← bindOptional (self.bindFilter tables) statement.filter
  let groupBy ← self.bindGroupBy tables statement.groupBy
  validateProjection projections groupBy
  let orderBy ← self.bindOrderBy tables statement.orderBy
  validateOrderBy projections groupBy orderBy
  .ok ⟨projections, from_, filter, groupBy, orderBy, statement.limit⟩

def bindInsert (statement : InsertStatement) : Except BinderError BoundInsert := do
  let table ← self.requireTable statement.table
  if statement.literals.length ≠ table.columns.length then
    .error (.valueCountMismatch table.columns.length statement.literals.length)
  else do
    let values ← (statement.literals.zip table.columns).mapM fun p => bindValue p.1 p.2
    .ok ⟨table.id, values⟩

def bindTarget (tables : List BoundTable) (targetName : String) : Except BinderError BoundTable := do
  match ← self.findTable targetName tables with
  | some table => .ok table
  | none => .error (.tableNotFound targetName)

def bindDelete (statement : DeleteStatement) : Except BinderError BoundDelete := do
  let (from_, _) ← self.bindFromClause statement.from_ 0
  let tables := collectTables from_
  let targets ← match statement.targets with
    | some targetNames => targetNames.mapM (self.bindTarget tables)
    | none => .ok [leftmostTable from_]
  let filter ← bindOptional (self.bindFilter tables) statement.filter
  .ok ⟨targets, from_, filter⟩

def bindUpdate (statement : UpdateStatement) : Except BinderError BoundUpdate := do
  let (from_, _) ← self.bindFromClause statement.from_ 0
  let tables := collectTables from_
  let assignments ← statement.assignments.mapM (self.bindAssignment tables)
  let filter ← bindOptional (self.bindFilter tables) statement.filter
  .ok ⟨from_, assignments, filter⟩

def bindCreateTable (statement : CreateTableStatement) : Except BinderError BoundCreateTable :=
  if (self.database.table statement.table).isSome then .error (.alreadyExistsTable statement.table)
  else
    .ok ⟨statement.table,
      statement.columns.map fun column => ⟨column.name, bindDataType column.dataType⟩⟩

def bindCreateIndex (statement : CreateIndexStatement) : Except BinderError BoundCreateIndex := do
  let table ← self.requireTable statement.table
  let column ← requireColumnByName table statement.columnName
  .ok ⟨statement.indexName, table.id, column.id⟩

def bind : Statement → Except BinderError BoundStatement
  | .createTable s => do
    let bound ← self.bindCreateTable s
    .ok (.createTable bound)
  | .createIndex s => do
    let bound ← self.bindCreateIndex s
    .ok (.createIndex bound)
  | .select s => do
    let bound ← self.bindSelect s
    .ok (.select bound)
  | .insert s => do
    let bound ← self.bindInsert s
    .ok (.insert bound)
  | .update s => do
    let bound ← self.bindUpdate s
    .ok (.update bound)
  | .delete s => do
    let bound ← self.bindDelete s
    .ok (.delete bound)

end Binder

end RdbRs
