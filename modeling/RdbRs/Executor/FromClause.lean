import RdbRs.Executor.Joins
import RdbRs.Executor.Modifications

/-!
# FROM clauses

A bound FROM clause over any way to fetch the rows of its tables.
-/

namespace RdbRs

variable {database : DatabaseMetadata}

/-- Every table exists, and the columns of a join are columns of the joined tables. -/
def BoundFromClause.Fits (database : DatabaseMetadata) : BoundFromClause → Prop
  | table t => ∃ tableMeta, database.tableById t.tableId = some tableMeta
  | innerJoin left on right => left.Fits database ∧ right.Fits database ∧ ∃ dataType,
      on.left.IsIn database (collectTables left ++ collectTables right) dataType ∧
        on.right.IsIn database (collectTables left ++ collectTables right) dataType

lemma BoundFromClause.Fits.table {from_ : BoundFromClause} (h : from_.Fits database) :
    ∀ table ∈ collectTables from_, ∃ tableMeta, database.tableById table.tableId = some tableMeta := by
  induction from_ with
  | table t =>
    intro table htable
    rw [List.mem_singleton.mp htable]
    exact h
  | innerJoin left on right ihl ihr =>
    intro table htable
    cases List.mem_append.mp htable with
    | inl hl => exact ihl h.1 table hl
    | inr hr => exact ihr h.2.1 table hr

namespace Binder

variable {self : Binder}

lemma requireTable_eq_ok {name : String} {tableMeta : TableMetadata}
    (h : self.requireTable name = .ok tableMeta) : self.database.tableById tableMeta.id = some tableMeta := by
  unfold requireTable at h
  split at h
  · next found hfound =>
    cases h
    exact find_key_of_mem self.database.consistent.tableIds (List.mem_of_find?_eq_some hfound)
  · cases h

lemma bindFromClause_fits {source : FromClause} {bound : BoundFromClause} {next stop : Nat}
    (h : self.bindFromClause source next = .ok (bound, stop)) : bound.Fits self.database := by
  induction source generalizing bound next stop with
  | table tableRef =>
    have ⟨tableMeta, htable, heq⟩ := except_bind_eq_ok.mp h
    cases heq
    exact ⟨tableMeta, requireTable_eq_ok htable⟩
  | innerJoin left on right ihl ihr =>
    have ⟨⟨boundLeft, mid⟩, hl, hrest⟩ := except_bind_eq_ok.mp h
    have ⟨⟨boundRight, last⟩, hr, hrest⟩ := except_bind_eq_ok.mp hrest
    have ⟨boundOn, hon, heq⟩ := except_bind_eq_ok.mp hrest
    cases heq
    exact ⟨ihl hl, ihr hr, bindJoinCondition_isIn hon⟩

lemma bindSelect_from {statement : SelectStatement} {bound : BoundSelect}
    (h : self.bindSelect statement = .ok bound) : bound.from_.Fits self.database := by
  have ⟨⟨from_, stop⟩, hfrom, h⟩ := except_bind_eq_ok.mp h
  have ⟨_, _, h⟩ := except_bind_eq_ok.mp h
  have ⟨_, _, h⟩ := except_bind_eq_ok.mp h
  have ⟨_, _, h⟩ := except_bind_eq_ok.mp h
  have ⟨_, _, h⟩ := except_bind_eq_ok.mp h
  have ⟨_, _, h⟩ := except_bind_eq_ok.mp h
  have ⟨_, _, heq⟩ := except_bind_eq_ok.mp h
  cases heq
  exact bindFromClause_fits hfrom

lemma bindUpdate_from {statement : UpdateStatement} {bound : BoundUpdate}
    (h : self.bindUpdate statement = .ok bound) : bound.from_.Fits self.database := by
  have ⟨⟨from_, stop⟩, hfrom, h⟩ := except_bind_eq_ok.mp h
  have ⟨_, _, h⟩ := except_bind_eq_ok.mp h
  have ⟨_, _, heq⟩ := except_bind_eq_ok.mp h
  cases heq
  exact bindFromClause_fits hfrom

lemma bindDelete_from {statement : DeleteStatement} {bound : BoundDelete}
    (h : self.bindDelete statement = .ok bound) : bound.from_.Fits self.database := by
  have ⟨⟨from_, stop⟩, hfrom, h⟩ := except_bind_eq_ok.mp h
  have hfits (targets : List BoundTable)
      (h : (bindOptional (self.bindFilter (collectTables from_)) statement.filter >>= fun filter =>
        .ok ⟨targets, from_, filter⟩) = .ok bound) : bound.from_.Fits self.database := by
    have ⟨_, _, heq⟩ := except_bind_eq_ok.mp h
    cases heq
    exact bindFromClause_fits hfrom
  simp only at h
  split at h
  · have ⟨targets, _, h⟩ := except_bind_eq_ok.mp h
    exact hfits targets h
  · exact hfits _ h

end Binder

namespace Executor

variable {ε σ : Type} {self : Executor} {from_ : BoundFromClause}

/-- `execute_from_clause`, where `wrap` is the conversion of the errors of the executor. -/
def fromClause (self : Executor) (wrap : ExecutorError → ε)
    (fetchTableRows : BoundTable → Exec ε σ (List TableRow)) : BoundFromClause → Exec ε σ (List QueryRow)
  | .innerJoin left on right => do
    let leftRows ← fromClause self wrap fetchTableRows left
    let rightRows ← fromClause self wrap fetchTableRows right
    Exec.mapErr wrap (self.hashJoin leftRows rightRows on)
  | .table table => do
    let tableRows ← fetchTableRows table
    pure (tableRows.map fun tableRow => ⟨[tableRow]⟩)

/-- The joined rows of the rows of the tables. -/
def joinedRows (self : Executor) (tableRows : BoundTable → List TableRow) :
    BoundFromClause → List QueryRow
  | .innerJoin left on right =>
    joined (self.meets on) (joinedRows self tableRows left) (joinedRows self tableRows right)
  | .table table => (tableRows table).map fun tableRow => ⟨[tableRow]⟩

lemma joinedRows_congr {tableRows tableRows' : BoundTable → List TableRow}
    (h : ∀ table ∈ collectTables from_, tableRows table = tableRows' table) :
    self.joinedRows tableRows from_ = self.joinedRows tableRows' from_ := by
  induction from_ with
  | table table => rw [joinedRows, joinedRows, h table (List.mem_singleton_self table)]
  | innerJoin left on right ihl ihr =>
    rw [joinedRows, joinedRows, ihl fun table ht => h table (List.mem_append_left _ ht),
      ihr fun table ht => h table (List.mem_append_right _ ht)]

lemma mem_joined {test : QueryRow → QueryRow → Bool} {leftRows rightRows : List QueryRow} {row : QueryRow} :
    row ∈ joined test leftRows rightRows ↔
      ∃ leftRow ∈ leftRows, ∃ rightRow ∈ rightRows, test leftRow rightRow ∧ joinRows leftRow rightRow = row := by
  simp only [joined, List.mem_flatMap, List.mem_map, List.mem_filter, and_assoc]

/-- A joined row has a row of each table, in the order of the tables. -/
lemma joinedRows_forall₂ {R : BoundTable → TableRow → Prop} {tableRows : BoundTable → List TableRow}
    (h : ∀ table ∈ collectTables from_, ∀ tableRow ∈ tableRows table, R table tableRow) :
    ∀ row ∈ self.joinedRows tableRows from_, List.Forall₂ R (collectTables from_) row.tableRows := by
  induction from_ with
  | table table =>
    intro row hrow
    have ⟨tableRow, hmem, heq⟩ := List.mem_map.mp hrow
    rw [← heq]
    exact .cons (h table (List.mem_singleton_self table) tableRow hmem) .nil
  | innerJoin left on right ihl ihr =>
    intro row hrow
    have ⟨leftRow, hl, rightRow, hr, _, heq⟩ := mem_joined.mp hrow
    rw [← heq]
    exact List.rel_append (ihl (fun table ht => h table (List.mem_append_left _ ht)) leftRow hl)
      (ihr (fun table ht => h table (List.mem_append_right _ ht)) rightRow hr)

/-- A round of a join: the rows of both sides are typed, and the join returns those that meet the
condition. -/
lemma hashJoin_joinedRows {left right : BoundFromClause} {on : BoundJoinCondition}
    {tableRows : BoundTable → List TableRow} (hfits : (BoundFromClause.innerJoin left on right).Fits self.database)
    (hscope : Scope (collectTables left ++ collectTables right))
    (htyped : ∀ table ∈ collectTables left ++ collectTables right, ∀ tableRow ∈ tableRows table,
      tableRow.IsOf self.database table) :
    (self.hashJoin (self.joinedRows tableRows left) (self.joinedRows tableRows right) on :
        Exec ExecutorError σ _) = pure (self.joinedRows tableRows (.innerJoin left on right)) := by
  have ⟨_, _, dataType, hl, hr⟩ := hfits
  apply hashJoin_joined hscope hl hr
  · exact joinedRows_forall₂ fun table ht => htyped table (List.mem_append_left _ ht)
  · exact joinedRows_forall₂ fun table ht => htyped table (List.mem_append_right _ ht)

/-- A FROM clause whose tables can be read returns the joined rows. -/
lemma fromClause_eq {wrap : ExecutorError → ε} {fetchTableRows : BoundTable → Exec ε σ (List TableRow)}
    {tableRows : BoundTable → List TableRow} (hfits : from_.Fits self.database)
    (hscope : Scope (collectTables from_))
    (hfetch : ∀ table ∈ collectTables from_, fetchTableRows table = pure (tableRows table))
    (htyped : ∀ table ∈ collectTables from_, ∀ tableRow ∈ tableRows table,
      tableRow.IsOf self.database table) :
    self.fromClause wrap fetchTableRows from_ = pure (self.joinedRows tableRows from_) := by
  induction from_ with
  | table table =>
    rw [fromClause, hfetch table (List.mem_singleton_self table), Exec.pure_bind]
    rfl
  | innerJoin left on right ihl ihr =>
    have hl := ihl hfits.1 hscope.left (fun table ht => hfetch table (List.mem_append_left _ ht))
      fun table ht => htyped table (List.mem_append_left _ ht)
    have hr := ihr hfits.2.1 hscope.swap.left (fun table ht => hfetch table (List.mem_append_right _ ht))
      fun table ht => htyped table (List.mem_append_right _ ht)
    rw [fromClause, hl, Exec.pure_bind, hr, Exec.pure_bind, hashJoin_joinedRows hfits hscope htyped,
      Exec.mapErr_pure]

/-! ### Stored rows -/

/-- The values a row decodes to. -/
def decoded (row : Row) (columns : List ColumnMetadata) : List Value :=
  (((Tuple.decode row columns : Exec TupleError Unit _).run ()).value?).getD []

lemma decoded_of_encode {values : List Value} {columns : List ColumnMetadata} {row : Row}
    (h : Tuple.encode values columns = .ok row) : decoded row columns = values := by
  rw [decoded, Tuple.decode_eq_ok.mpr ⟨h, rfl⟩]
  rfl

lemma decode_eq_pure {values : List Value} {columns : List ColumnMetadata} {row : Row}
    (h : Tuple.encode values columns = .ok row) : (Tuple.decode row columns : Exec TupleError σ _) = pure values := by
  apply Exec.ext_run
  intro s
  rw [Tuple.decode_eq_ok.mpr ⟨h, rfl⟩, Exec.run_pure]

/-- The rows of a table as its instance shows them. -/
def shownRows (self : Executor) (table : BoundTable) (rows : List (RowId × Row)) : List TableRow :=
  match self.database.tableById table.tableId with
  | some tableMeta => rows.map fun row => ⟨row.1, table.instanceId, decoded row.2 tableMeta.columns⟩
  | none => []

lemma hasType_of_encodeValue {value : Value} {column : ColumnMetadata} {bytes : List UInt8}
    (h : Tuple.encodeValue value column = .ok bytes) : value.HasType column.dataType := by
  cases Tuple.encodeValue_eq_ok.mp h with
  | inl hnull =>
    rw [hnull.1]
    trivial
  | inr hcontent =>
    have ⟨content, hof, _⟩ := hcontent
    generalize column.dataType = dataType at hof
    cases hof <;> trivial

lemma typed_of_encode {values : List Value} {columns : List ColumnMetadata} {row : Row}
    (h : Tuple.encode values columns = .ok row) :
    List.Forall₂ (fun (value : Value) (column : ColumnMetadata) => value.HasType column.dataType)
      values columns := by
  have ⟨hlen, hvalues⟩ := Tuple.encode_eq_ok.mp h
  generalize row.data = text at hvalues
  clear h
  induction columns generalizing values text with
  | nil =>
    rw [List.eq_nil_of_length_eq_zero hlen]
    exact .nil
  | cons column columns ih =>
    cases values with
    | nil => cases hlen
    | cons value values =>
      have ⟨first, rest, hfirst, hrest, _⟩ := Tuple.encodeValues_cons_eq_ok.mp hvalues
      exact .cons (hasType_of_encodeValue hfirst) (ih (Nat.succ.inj hlen) rest hrest)

/-- The row has been encoded for the columns of the table. -/
def IsEncoded (database : DatabaseMetadata) (tableId : TableId) (row : Row) : Prop :=
  ∃ tableMeta values, database.tableById tableId = some tableMeta ∧
    Tuple.encode values tableMeta.columns = .ok row

lemma decodeTableRows_eq {table : BoundTable} {rows : List (RowId × Row)}
    (htable : ∃ tableMeta, self.database.tableById table.tableId = some tableMeta)
    (hrows : ∀ row ∈ rows, IsEncoded self.database table.tableId row.2) :
    (self.decodeTableRows table rows : Exec ExecutorError σ _) = pure (self.shownRows table rows) := by
  have ⟨tableMeta, htable⟩ := htable
  have hround (acc : List TableRow) (row : RowId × Row) (hrow : row ∈ rows) :
      ((Tuple.decode row.2 tableMeta.columns).mapErr .tuple >>= fun values =>
        pure (acc ++ [⟨row.1, table.instanceId, values⟩]) : Exec ExecutorError σ _) =
        pure (acc ++ [⟨row.1, table.instanceId, decoded row.2 tableMeta.columns⟩]) := by
    have ⟨tableMeta', values, htable', hencode⟩ := hrows row hrow
    rw [htable] at htable'
    cases htable'
    rw [decode_eq_pure hencode, Exec.mapErr_pure, Exec.pure_bind, decoded_of_encode hencode]
  rw [decodeTableRows, Executor.tableMeta, htable, Exec.okOr_some, Exec.pure_bind, shownRows, htable]
  simp only
  rw [Exec.foldlM_push hround, List.nil_append, ← List.map_eq_flatMap]

lemma shownRows_isOf {table : BoundTable} {rows : List (RowId × Row)}
    (hrows : ∀ row ∈ rows, IsEncoded self.database table.tableId row.2) :
    ∀ tableRow ∈ self.shownRows table rows, tableRow.IsOf self.database table := by
  intro tableRow hmem
  unfold shownRows at hmem
  split at hmem
  · next tableMeta htable =>
    have ⟨row, hrow, heq⟩ := List.mem_map.mp hmem
    have ⟨tableMeta', values, htable', hencode⟩ := hrows row hrow
    rw [htable] at htable'
    cases htable'
    rw [← heq, decoded_of_encode hencode]
    exact ⟨rfl, tableMeta, htable, typed_of_encode hencode⟩
  · cases hmem

/-- The values stored for a row, by the columns of its table. -/
def storedValues (self : Executor) (heap : TableId → RowId → Option Row) (tableId : TableId)
    (rowId : RowId) : List Value :=
  match self.database.tableById tableId, heap tableId rowId with
  | some tableMeta, some row => decoded row tableMeta.columns
  | _, _ => []

/-- Every row of the heap has been encoded for its table. -/
def HoldsEncoded (database : DatabaseMetadata) (heap : TableId → RowId → Option Row) : Prop :=
  ∀ tableId rowId row, heap tableId rowId = some row → IsEncoded database tableId row

/-- A row of a table of the clause, with the values of a live row. -/
def IsLive (database : DatabaseMetadata) (heap : TableId → RowId → Option Row) (table : BoundTable)
    (tableRow : TableRow) : Prop :=
  (tableRow.IsOf database table ∧
    tableRow.values = storedValues ⟨database⟩ heap table.tableId tableRow.rowId) ∧
      ∃ row, heap table.tableId tableRow.rowId = some row

/-- What live rows of a table decode to. -/
lemma shownRows_live {heap : TableId → RowId → Option Row} {table : BoundTable} {live : List (RowId × Row)}
    (hencoded : HoldsEncoded self.database heap) (hlive : ∀ e ∈ live, heap table.tableId e.1 = some e.2) :
    ∀ tableRow ∈ self.shownRows table live, IsLive self.database heap table tableRow := by
  intro tableRow hmem
  have hof := shownRows_isOf (fun e he => hencoded _ _ _ (hlive e he)) tableRow hmem
  unfold shownRows at hmem
  split at hmem
  · next tableMeta htable =>
    have ⟨e, he, heq⟩ := List.mem_map.mp hmem
    rw [← heq] at hof ⊢
    refine ⟨⟨hof, ?_⟩, e.2, hlive e he⟩
    rw [storedValues, htable, hlive e he]
  · cases hmem

section Heap

variable {heap : TableId → RowId → Option Row} {contents : BoundTable → List (RowId × Row)}
  (hencoded : HoldsEncoded self.database heap)
  (hcontents : ∀ table, ∀ row ∈ contents table, heap table.tableId row.1 = some row.2)

include hencoded hcontents

lemma contents_encoded (table : BoundTable) :
    ∀ row ∈ contents table, IsEncoded self.database table.tableId row.2 :=
  fun row hrow => hencoded _ _ _ (hcontents table row hrow)

/-- A FROM clause over rows of a heap returns the joined rows of what they decode to. -/
lemma fromClause_shown {wrap : ExecutorError → ε} (hfits : from_.Fits self.database)
    (hscope : Scope (collectTables from_)) :
    self.fromClause wrap (fun table => (self.decodeTableRows table (contents table)).mapErr wrap) from_ =
      (pure (self.joinedRows (fun table => self.shownRows table (contents table)) from_) :
        Exec ε σ _) := by
  apply fromClause_eq hfits hscope
  · intro table htable
    rw [decodeTableRows_eq (BoundFromClause.Fits.table hfits table htable)
      (contents_encoded hencoded hcontents table), Exec.mapErr_pure]
  · intro table _
    exact shownRows_isOf (contents_encoded hencoded hcontents table)

lemma joinedRows_stored : ∀ row ∈ self.joinedRows (fun table => self.shownRows table (contents table)) from_,
    row.IsStored self.database (self.storedValues heap) (collectTables from_) :=
  joinedRows_forall₂ fun table _ tableRow hmem =>
    (shownRows_live hencoded (hcontents table) tableRow hmem).1

end Heap

end Executor

end RdbRs
