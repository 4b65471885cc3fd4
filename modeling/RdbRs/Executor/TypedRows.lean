import Mathlib.Data.List.Forall2
import RdbRs.Executor.Executor
import RdbRs.Query.BinderSpec

/-!
# Typed rows

The rows of a bound FROM clause hold one row for each of its tables, with values of the types of
the columns. On them every bound column has a value of its type, and every bound filter is true
or false.
-/

namespace RdbRs

variable {database : DatabaseMetadata} {tables : List BoundTable}

/-- A row of a table of the clause. -/
def TableRow.IsOf (database : DatabaseMetadata) (table : BoundTable) (row : TableRow) : Prop :=
  row.instanceId = table.instanceId ∧
    ∃ tableMeta, database.tableById table.tableId = some tableMeta ∧
      List.Forall₂ (fun (value : Value) (column : ColumnMetadata) => value.HasType column.dataType)
        row.values tableMeta.columns

/-- A row of the joined tables. -/
def QueryRow.IsFrom (database : DatabaseMetadata) (tables : List BoundTable) (row : QueryRow) : Prop :=
  List.Forall₂ (TableRow.IsOf database) tables row.tableRows

/-! ### The rows of the tables -/

namespace QueryRow

variable {row : QueryRow} {instanceId : TableInstanceId}

lemma findTableRow_isSome (h : row.IsFrom database tables) :
    (row.findTableRow instanceId).isSome ↔ ∃ table ∈ tables, table.instanceId = instanceId := by
  unfold findTableRow
  rw [List.find?_isSome]
  unfold IsFrom at h
  generalize row.tableRows = rows at h
  induction h with
  | nil => simp
  | cons hfirst _ ih =>
    rw [List.exists_mem_cons_iff, List.exists_mem_cons_iff, ih, decide_eq_true_eq, hfirst.1]

/-- The row found for an instance is the row that stands at its table. -/
lemma findTableRow_at {R : BoundTable → TableRow → Prop} {row : QueryRow}
    (hR : ∀ {table tableRow}, R table tableRow → tableRow.instanceId = table.instanceId)
    (h : List.Forall₂ R tables row.tableRows) (hscope : Scope tables) {table : BoundTable}
    (hmem : table ∈ tables) :
    ∃ tableRow, row.findTableRow table.instanceId = some tableRow ∧ R table tableRow := by
  unfold findTableRow
  generalize row.tableRows = rows at h
  induction h with
  | nil => cases hmem
  | @cons first tableRow rest _ hfirst _ ih =>
    rw [Scope, List.map_cons, List.nodup_cons] at hscope
    cases List.mem_cons.mp hmem with
    | inl heq =>
      rw [heq, List.find?_cons_of_pos (by simp [hR hfirst])]
      exact ⟨tableRow, rfl, hfirst⟩
    | inr hrest =>
      have hne : ¬ tableRow.instanceId = table.instanceId := by
        rw [hR hfirst]
        exact fun heq => hscope.1 (List.mem_map.mpr ⟨table, hrest, heq.symm⟩)
      rw [List.find?_cons_of_neg (by simp [hne])]
      exact ih hscope.2 hrest

lemma findTableRow_isOf (h : row.IsFrom database tables) (hscope : Scope tables) {table : BoundTable}
    (hmem : table ∈ tables) :
    ∃ tableRow, row.findTableRow table.instanceId = some tableRow ∧ tableRow.IsOf database table :=
  findTableRow_at (fun hrow => hrow.1) h hscope hmem

end QueryRow

lemma columnIndex_of_columnById {tableMeta : TableMetadata} {columnId : ColumnId}
    {column : ColumnMetadata} (h : tableMeta.columnById columnId = some column) :
    ∃ i, tableMeta.columnIndex columnId = some i ∧ tableMeta.columns[i]? = some column := by
  unfold TableMetadata.columnById at h
  unfold TableMetadata.columnIndex
  generalize tableMeta.columns = columns at h
  induction columns with
  | nil => cases h
  | cons first columns ih =>
    by_cases hfirst : first.id = columnId
    · rw [List.find?_cons_of_pos (by simp [hfirst])] at h
      rw [List.findIdx?_cons, decide_eq_true hfirst]
      exact ⟨0, rfl, h⟩
    · rw [List.find?_cons_of_neg (by simp [hfirst])] at h
      have ⟨i, hi, hget⟩ := ih h
      rw [List.findIdx?_cons, decide_eq_false hfirst, hi]
      exact ⟨i + 1, rfl, hget⟩

lemma forall₂_getElem? {α β : Type} {R : α → β → Prop} {as : List α} {bs : List β} {i : Nat} {b : β}
    (h : List.Forall₂ R as bs) (hb : bs[i]? = some b) : ∃ a, as[i]? = some a ∧ R a b := by
  induction h generalizing i with
  | nil => cases hb
  | @cons a _ _ _ hfirst _ ih =>
    cases i with
    | zero =>
      cases hb
      exact ⟨a, rfl, hfirst⟩
    | succ i => exact ih hb

/-! ### The values of columns -/

namespace Executor

variable {σ : Type} {self : Executor} {row : QueryRow} {rows : List QueryRow}
  {c : BoundColumnReference} {dataType : DataType}

/-- The value of a column, for a row that has it. -/
def valueOf (self : Executor) (row : QueryRow) (column : BoundColumnReference) : Value :=
  Option.getD (do
    let tableRow ← row.findTableRow column.instanceId
    let tableMeta ← self.database.tableById column.tableId
    let columnIndex ← tableMeta.columnIndex column.columnId
    tableRow.values[columnIndex]?) .null

/-- Where a bound column of a typed row stands. -/
lemma columnValue_parts (hscope : Scope tables) (h : row.IsFrom self.database tables)
    (hc : c.IsIn self.database tables dataType) :
    ∃ tableRow tableMeta i v, row.findTableRow c.instanceId = some tableRow ∧
      self.database.tableById c.tableId = some tableMeta ∧
        tableMeta.columnIndex c.columnId = some i ∧ tableRow.values[i]? = some v ∧
          v.HasType dataType := by
  have ⟨table, hmem, hinstance, hid, tableMeta, htable, column, hcolumn, htype⟩ := hc
  have ⟨tableRow, hfound, _, tableMeta', htable', htyped⟩ :=
    QueryRow.findTableRow_isOf h hscope hmem
  have ⟨i, hi, hget⟩ := columnIndex_of_columnById hcolumn
  rw [hid, htable] at htable'
  cases htable'
  have ⟨v, hv, hvtype⟩ := forall₂_getElem? htyped hget
  rw [hinstance] at hfound
  rw [htype] at hvtype
  exact ⟨tableRow, tableMeta, i, v, hfound, htable, hi, hv, hvtype⟩

lemma columnValue_eq (hscope : Scope tables) (h : row.IsFrom self.database tables)
    (hc : c.IsIn self.database tables dataType) :
    (self.columnValue row c : Exec ExecutorError σ _) = pure (self.valueOf row c) := by
  have ⟨tableRow, tableMeta, i, v, hfound, htable, hi, hv, _⟩ := columnValue_parts hscope h hc
  have hvalue : self.valueOf row c = v := by
    simp [valueOf, hfound, htable, hi, hv]
  rw [hvalue]
  simp only [columnValue, hfound, htable, hi, hv, Exec.okOr_some, Exec.pure_bind]

lemma valueOf_hasType (hscope : Scope tables) (h : row.IsFrom self.database tables)
    (hc : c.IsIn self.database tables dataType) : (self.valueOf row c).HasType dataType := by
  have ⟨tableRow, tableMeta, i, v, hfound, htable, hi, hv, hvtype⟩ := columnValue_parts hscope h hc
  have hvalue : self.valueOf row c = v := by
    simp [valueOf, hfound, htable, hi, hv]
  rw [hvalue]
  exact hvtype

/-! ### Filters -/

/-- Whether a filter holds of a row that has its columns. -/
def holds (self : Executor) (row : QueryRow) : BoundExpression → Bool
  | .and left right => holds self row left && holds self row right
  | .or left right => holds self row left || holds self row right
  | .comparison column operator value => (self.valueOf row column).compare operator value

/-- The rows passing an optional filter. -/
def passing (self : Executor) (filter : Option BoundExpression) (rows : List QueryRow) :
    List QueryRow :=
  match filter with
  | some filter => rows.filter fun row => self.holds row filter
  | none => rows

lemma rowMatchesFilter_eq {filter : BoundExpression} (hscope : Scope tables)
    (h : row.IsFrom self.database tables) (hfilter : filter.Fits self.database tables) :
    (self.rowMatchesFilter row filter : Exec ExecutorError σ _) = pure (self.holds row filter) := by
  induction filter with
  | comparison column operator value =>
    have ⟨dataType, hc, _⟩ := hfilter
    rw [rowMatchesFilter, columnValue_eq hscope h hc, Exec.pure_bind, holds]
  | and left right ihl ihr =>
    rw [rowMatchesFilter, ihl hfilter.1, Exec.pure_bind, ihr hfilter.2, holds]
    cases self.holds row left <;> rfl
  | or left right ihl ihr =>
    rw [rowMatchesFilter, ihl hfilter.1, Exec.pure_bind, ihr hfilter.2, holds]
    cases self.holds row left <;> rfl

lemma filterRows_eq {filter : BoundExpression} (hscope : Scope tables)
    (h : ∀ row ∈ rows, row.IsFrom self.database tables) (hfilter : filter.Fits self.database tables) :
    (self.filterRows rows filter : Exec ExecutorError σ _) =
      pure (rows.filter fun row => self.holds row filter) := by
  have hround (acc : List QueryRow) (row : QueryRow) (hrow : row ∈ rows) :
      (do
        let holds ← self.rowMatchesFilter row filter
        pure (if holds then acc ++ [row] else acc) : Exec ExecutorError σ _) =
        pure (if self.holds row filter then acc ++ [row] else acc) := by
    rw [rowMatchesFilter_eq hscope (h row hrow) hfilter, Exec.pure_bind]
  rw [filterRows, Exec.foldlM_filter (g := fun row => row) hround, List.map_id', List.nil_append]

lemma filtered_eq {filter : Option BoundExpression} (hscope : Scope tables)
    (h : ∀ row ∈ rows, row.IsFrom self.database tables)
    (hfilter : ∀ f ∈ filter, f.Fits self.database tables) :
    (self.filtered rows filter : Exec ExecutorError σ _) = pure (self.passing filter rows) := by
  cases filter with
  | none => rfl
  | some f => exact filterRows_eq hscope h (hfilter f rfl)

lemma mem_of_mem_passing {filter : Option BoundExpression} (h : row ∈ self.passing filter rows) :
    row ∈ rows := by
  cases filter with
  | none => exact h
  | some f => exact (List.mem_filter.mp h).1

end Executor

/-! ### A table -/

/-- A database with one table `t` with the columns `k INT`, `amount BIGINT` and `name VARCHAR`. -/
def ledger : DatabaseMetadata where
  name := "d"
  tables := [⟨⟨1⟩, "t", [⟨⟨1⟩, "k", .int⟩, ⟨⟨2⟩, "amount", .bigInt⟩, ⟨⟨3⟩, "name", .varchar⟩],
    by decide, by decide⟩]
  indexes := []
  consistent := ⟨by decide, by decide, by decide, by decide, by decide⟩

/-- A row of `t`. -/
def ledgerRow (instanceId slot : Nat) (k : Int32) (amount : Value) (name : String) : TableRow :=
  ⟨RowId.ofSlot slot, ⟨instanceId⟩, [.int k, amount, .varchar name]⟩

lemma ledgerRow_isOf {instanceId slot : Nat} {k : Int32} {amount : Value} {name : String}
    {alias_ : Option String} (h : amount.HasType .bigInt) :
    (ledgerRow instanceId slot k amount name).IsOf ledger ⟨⟨1⟩, ⟨instanceId⟩, alias_⟩ :=
  ⟨rfl, _, rfl, .cons trivial (.cons h (.cons trivial .nil))⟩

end RdbRs
