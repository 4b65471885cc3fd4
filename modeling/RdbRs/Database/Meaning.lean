import RdbRs.Database.Execute
import RdbRs.Executor.JoinedRows
import RdbRs.Executor.Selections
import RdbRs.Lib.Changes

/-!
# What statements mean

A database as its catalog and the values of the rows of its tables, and what statements do to it. Nothing here
is said of pages, trees or the order in which rows are read.
-/

namespace RdbRs

/-- A catalog, and the values of the rows of its tables. -/
structure View where
  database : DatabaseMetadata
  tables : TableId → RowId → Option (List Value)

/-- A statement and what it returns, which is nothing where it fails. -/
abbrev Reply := Statement × Option ExecuteResult

namespace View

/-- The values of a row. -/
def stored (v : View) (tableId : TableId) (rowId : RowId) : List Value := (v.tables tableId rowId).getD []

/-- The row is one of the table. -/
def Has (v : View) (table : BoundTable) (tableRow : TableRow) : Prop :=
  tableRow.instanceId = table.instanceId ∧ v.tables table.tableId tableRow.rowId = some tableRow.values

/-! ### Rows -/

/-- The rows that a FROM clause and a filter select: one row of each table, that meet the conditions of the
joins and pass the filter. -/
def Picks (v : View) (from_ : BoundFromClause) (filter : Option BoundExpression) (row : QueryRow) : Prop :=
  List.Forall₂ v.Has (collectTables from_) row.tableRows ∧
    (∀ on ∈ from_.conditions, Executor.Equates ⟨v.database⟩ row on) ∧
    ∀ f ∈ filter, Executor.holds ⟨v.database⟩ row f

/-- The selected rows in some order, each of them once. -/
structure Selects (v : View) (from_ : BoundFromClause) (filter : Option BoundExpression)
    (rows : List QueryRow) : Prop where
  nodup : rows.Nodup
  mem_iff : ∀ row, row ∈ rows ↔ v.Picks from_ filter row

/-! ### Changes -/

/-- Each row that an assignment reaches is changed once. In a column it gets the value of the last assignment,
and keeps its own where there is none. -/
structure Assigns (v : View) (hits : List (QueryRow × BoundAssignment))
    (changes : List (Change TableId RowId (List Value))) : Prop where
  distinct : (changes.map Prod.fst).Nodup
  covers : ∀ key, key ∈ changes.map Prod.fst ↔ ∃ hit ∈ hits, Executor.updatedRow hit = some key
  values : ∀ change ∈ changes, ∃ values, change.2 = some values ∧
    ∀ i, values[i]? = Executor.mergedValue ⟨v.database⟩ v.stored hits change.1 i

/-- Each row that a target names is removed once. -/
structure Drops (hits : List (QueryRow × BoundTable)) (changes : List (Change TableId RowId (List Value))) :
    Prop where
  distinct : (changes.map Prod.fst).Nodup
  covers : ∀ key, key ∈ changes.map Prod.fst ↔ ∃ hit ∈ hits, Executor.deletedRow hit = some key
  none : ∀ change ∈ changes, change.2 = none

/-- What a statement on rows returns, and the rows it changes. -/
inductive Does (v : View) : BoundStatement → ExecuteResult → List (Change TableId RowId (List Value)) → Prop
  | insert {bound : BoundInsert} {rowId : RowId} : v.tables bound.tableId rowId = none →
      Does v (.insert bound) (.command 1) [((bound.tableId, rowId), some bound.values)]
  | select {bound : BoundSelect} {rows : List QueryRow} {results : List (List Value)} :
      v.Selects bound.from_ bound.filter rows → Executor.Answers ⟨v.database⟩ bound rows results →
      Does v (.select bound) (.rows results) []
  | update {bound : BoundUpdate} {rows : List QueryRow} {changes : List (Change TableId RowId (List Value))} :
      v.Selects bound.from_ bound.filter rows →
      v.Assigns (Executor.hits rows bound.assignments) changes →
      Does v (.update bound) (.command changes.length) changes
  | delete {bound : BoundDelete} {rows : List QueryRow} {changes : List (Change TableId RowId (List Value))} :
      v.Selects bound.from_ bound.filter rows → Drops (rows ×ˢ bound.targets) changes →
      Does v (.delete bound) (.command changes.length) changes

/-- A table or an index comes into the catalog. No row changes. -/
inductive Creates (v : View) : BoundStatement → View → Prop
  | table {bound : BoundCreateTable} {table : TableMetadata} {database : DatabaseMetadata} :
      table.name = bound.table →
      table.columns = Catalog.columnMetadatas (bound.columns.map fun column => (column.name, column.dataType)) →
      v.database.addTable table = .ok database → (∀ rowId, v.tables table.id rowId = none) →
      Creates v (.createTable bound) ⟨database, v.tables⟩
  | index {bound : BoundCreateIndex} {index : IndexMetadata} {database : DatabaseMetadata} :
      index.name = bound.indexName → index.tableId = bound.tableId → index.columnId = bound.columnId →
      v.database.addIndex index = .ok database → Creates v (.createIndex bound) ⟨database, v.tables⟩

/-- What a statement returns, and what it makes of the tables. -/
inductive Means (v : View) (bound : BoundStatement) : ExecuteResult → View → Prop
  | creates {v' : View} : v.Creates bound v' → Means v bound .success v'
  | changes {result : ExecuteResult} {changes : List (Change TableId RowId (List Value))} :
      v.Does bound result changes → Means v bound result ⟨v.database, changed v.tables changes⟩

/-- What a statement that fails makes of the tables: nothing, the new entry of a catalog that is not saved, or
the first ones of its changes. -/
inductive MeansInPart (v : View) (bound : BoundStatement) : View → Prop
  | nothing : MeansInPart v bound v
  | creates {v' : View} : v.Creates bound v' → MeansInPart v bound v'
  | changes {result : ExecuteResult} {changes done : List (Change TableId RowId (List Value))} :
      v.Does bound result changes → List.IsPrefix done changes →
      MeansInPart v bound ⟨v.database, changed v.tables done⟩

/-! ### Runs -/

/-- What the tables become when a statement is executed. -/
inductive Steps (v : View) : Reply → View → Prop
  | returns {statement : Statement} {bound : BoundStatement} {result : ExecuteResult} {v' : View} :
      (Binder.mk v.database).bind statement = .ok bound → v.Means bound result v' →
      Steps v (statement, some result) v'
  | refused {statement : Statement} {error : BinderError} :
      (Binder.mk v.database).bind statement = .error error → Steps v (statement, none) v
  | stops {statement : Statement} {bound : BoundStatement} {v' : View} :
      (Binder.mk v.database).bind statement = .ok bound → v.MeansInPart bound v' →
      Steps v (statement, none) v'

/-- What the tables become when statements are executed one after the other. -/
inductive Runs (v : View) : List Reply → View → Prop
  | start : Runs v [] v
  | step {replies : List Reply} {reply : Reply} {v' v'' : View} : Runs v replies v' → v'.Steps reply v'' →
      Runs v (replies ++ [reply]) v''

/-- A database without tables. -/
def empty (name : String) : View := ⟨⟨name, [], [], .empty⟩, fun _ _ => none⟩

end View

end RdbRs
