import RdbRs.Executor.FromClause
import RdbRs.Lib.Coupling

/-!
# The executor has no state

What the executor computes does not depend on the state that it is called with, nor on its kind, and leaves it as
it is.
-/

namespace RdbRs

open Exec

variable {σ τ : Type} {R : σ → τ → Prop}

/-- A row decodes to the same values from any state. -/
lemma matches_decode (row : Row) (columns : List ColumnMetadata) :
    Matches R (Tuple.decode row columns : Exec TupleError σ _) (Tuple.decode row columns) := by
  apply Matches.bind (matches_withLocal _ _)
  exact fun decoded => (matches_throw _).ite (matches_pure _)

namespace Executor

variable (self : Executor)

lemma matches_columnValue (row : QueryRow) (column : BoundColumnReference) :
    Matches R (self.columnValue row column : Exec ExecutorError σ _) (self.columnValue row column) := by
  apply Matches.bind (matches_okOr _ _)
  intro tableRow
  apply Matches.bind (matches_okOr _ _)
  intro tableMeta
  apply Matches.bind (matches_okOr _ _)
  exact fun columnIndex => matches_okOr _ _

/-! ### Filters and orders -/

lemma matches_rowMatchesFilter (row : QueryRow) (filter : BoundExpression) :
    Matches R (self.rowMatchesFilter row filter : Exec ExecutorError σ _) (self.rowMatchesFilter row filter) := by
  induction filter with
  | and left right ihl ihr => exact Matches.bind ihl fun holds => ihr.ite (matches_pure _)
  | or left right ihl ihr => exact Matches.bind ihl fun holds => (matches_pure _).ite ihr
  | comparison column operator value =>
    apply Matches.bind (self.matches_columnValue row column)
    exact fun _ => matches_pure _

lemma matches_filterRows (rows : List QueryRow) (filter : BoundExpression) :
    Matches R (self.filterRows rows filter : Exec ExecutorError σ _) (self.filterRows rows filter) := by
  apply matches_foldlM
  intro results row
  apply Matches.bind (self.matches_rowMatchesFilter row filter)
  exact fun _ => matches_pure _

lemma matches_filtered (rows : List QueryRow) (filter : Option BoundExpression) :
    Matches R (self.filtered rows filter : Exec ExecutorError σ _) (self.filtered rows filter) := by
  cases filter with
  | some filter => exact self.matches_filterRows rows filter
  | none => exact matches_pure _

lemma matches_orderRows (rows : List QueryRow) (order : BoundOrderBy) :
    Matches R (self.orderRows rows order : Exec ExecutorError σ _) (self.orderRows rows order) := by
  apply Matches.bind
  · apply matches_foldlM
    intro keyedRows row
    apply Matches.bind (self.matches_columnValue row order.column)
    exact fun _ => matches_pure _
  · exact fun _ => matches_pure _

lemma matches_orderGroups (groups : List RowGroup) (groupBy : List BoundColumnReference) (order : BoundOrderBy) :
    Matches R (orderGroups groups groupBy order : Exec ExecutorError σ _) (orderGroups groups groupBy order) := by
  apply Matches.bind (matches_okOr _ _)
  intro keyIndex
  exact Matches.ite couples_panic (matches_pure _)

/-! ### Projections and groups -/

lemma matches_projectRows (rows : List QueryRow) (projections : List BoundProjection) :
    Matches R (self.projectRows rows projections : Exec ExecutorError σ _)
      (self.projectRows rows projections) := by
  apply matches_foldlM
  intro results row
  apply Matches.bind _ fun _ => matches_pure _
  apply matches_foldlM
  intro values projection
  cases projection with
  | all => exact matches_pure _
  | column column =>
    apply Matches.bind (self.matches_columnValue row column)
    exact fun _ => matches_pure _
  | aggregate _ => exact matches_throw _

lemma matches_groupKey (row : QueryRow) (groupBy : List BoundColumnReference) :
    Matches R (self.groupKey row groupBy : Exec ExecutorError σ _) (self.groupKey row groupBy) := by
  apply matches_foldlM
  intro key column
  apply Matches.bind (self.matches_columnValue row column)
  exact fun _ => matches_pure _

lemma matches_groupRows (rows : List QueryRow) (groupBy : List BoundColumnReference) :
    Matches R (self.groupRows rows groupBy : Exec ExecutorError σ _) (self.groupRows rows groupBy) := by
  apply Matches.bind _ fun _ => matches_pure _
  apply matches_foldlM
  intro grouping row
  apply Matches.bind (self.matches_groupKey row groupBy)
  intro key
  split
  · apply Matches.bind (matches_index _ _)
    intro group
    apply Matches.bind (matches_assign _ _ _)
    exact fun _ => matches_pure _
  · exact matches_pure _

lemma matches_sumRow (column : BoundColumnReference) (sum : Option Int64) (row : QueryRow) :
    Matches R (self.sumRow column sum row : Exec ExecutorError σ _) (self.sumRow column sum row) := by
  apply Matches.bind (self.matches_columnValue row column)
  intro value
  apply Matches.bind (matches_liftExcept _)
  intro addend
  cases addend with
  | none => exact matches_pure _
  | some addend =>
    apply Matches.bind (matches_okOr _ _)
    exact fun _ => matches_pure _

lemma matches_aggregateProjection (group : RowGroup) (groupBy : List BoundColumnReference)
    (projectionResult : List Value) (projection : BoundProjection) :
    Matches R (self.aggregateProjection group groupBy projectionResult projection : Exec ExecutorError σ _)
      (self.aggregateProjection group groupBy projectionResult projection) := by
  cases projection with
  | column column =>
    apply Matches.bind (matches_okOr _ _)
    intro keyIndex
    apply Matches.bind (matches_index _ _)
    exact fun _ => matches_pure _
  | aggregate aggregate =>
    cases aggregate with
    | countAll =>
      apply Matches.bind (matches_okOr _ _)
      exact fun _ => matches_pure _
    | sum column =>
      apply Matches.bind (matches_foldlM (self.matches_sumRow column) _ _)
      exact fun _ => matches_pure _
  | all => exact matches_throw _

lemma matches_aggregateGroups (groups : List RowGroup) (groupBy : List BoundColumnReference)
    (projections : List BoundProjection) :
    Matches R (self.aggregateGroups groups groupBy projections : Exec ExecutorError σ _)
      (self.aggregateGroups groups groupBy projections) := by
  apply matches_foldlM
  intro results group
  apply Matches.bind (matches_foldlM (self.matches_aggregateProjection group groupBy) _ _)
  exact fun _ => matches_pure _

/-! ### Statements -/

lemma matches_selectGroups (rows : List QueryRow) (groupBy : List BoundColumnReference) (bound : BoundSelect) :
    Matches R (self.selectGroups rows groupBy bound : Exec ExecutorError σ _)
      (self.selectGroups rows groupBy bound) := by
  apply Matches.bind (self.matches_groupRows rows groupBy)
  intro groups
  have hresults (groups : List RowGroup) : Matches R (do
      let results ← self.aggregateGroups groups groupBy bound.projections
      pure (truncate bound.limit results) : Exec ExecutorError σ _) (do
      let results ← self.aggregateGroups groups groupBy bound.projections
      pure (truncate bound.limit results)) := by
    apply Matches.bind (self.matches_aggregateGroups groups groupBy _)
    exact fun _ => matches_pure _
  simp only
  split
  · exact (matches_orderGroups _ _ _).bind hresults
  · exact (matches_pure _).bind hresults

lemma matches_selectProjected (rows : List QueryRow) (bound : BoundSelect) :
    Matches R (self.selectProjected rows bound : Exec ExecutorError σ _) (self.selectProjected rows bound) := by
  have hresults (rows : List QueryRow) : Matches R (do
      let results ← self.projectRows rows bound.projections
      pure (truncate bound.limit results) : Exec ExecutorError σ _) (do
      let results ← self.projectRows rows bound.projections
      pure (truncate bound.limit results)) := by
    apply Matches.bind (self.matches_projectRows rows _)
    exact fun _ => matches_pure _
  unfold selectProjected
  simp only
  split
  · exact (self.matches_orderRows _ _).bind hresults
  · exact (matches_pure _).bind hresults

lemma matches_selectRows (rows : List QueryRow) (bound : BoundSelect) :
    Matches R (self.selectRows rows bound : Exec ExecutorError σ _) (self.selectRows rows bound) := by
  apply Matches.bind (self.matches_filtered rows bound.filter)
  intro rows
  split
  · exact self.matches_selectGroups rows _ bound
  · apply Matches.ite _ (self.matches_selectProjected rows bound)
    apply Matches.ite (matches_throw _)
    apply Matches.bind (self.matches_aggregateGroups _ _ _)
    exact fun _ => matches_pure _

lemma matches_encodeRow (values : List Value) (columns : List ColumnMetadata) :
    Matches R (encodeRow values columns : Exec ExecutorError σ _) (encodeRow values columns) :=
  (matches_liftExcept _).mapErr _

lemma matches_encodeInsert (bound : BoundInsert) :
    Matches R (self.encodeInsert bound : Exec ExecutorError σ _) (self.encodeInsert bound) := by
  apply Matches.bind (matches_okOr _ _)
  exact fun table => matches_encodeRow _ _

lemma matches_applyAssignment (row : QueryRow) (state : Pendings) (assignment : BoundAssignment) :
    Matches R (self.applyAssignment row state assignment : Exec ExecutorError σ _)
      (self.applyAssignment row state assignment) := by
  apply Matches.bind (matches_okOr _ _)
  intro tableRow
  apply Matches.bind (matches_okOr _ _)
  intro tableMeta
  apply Matches.bind (matches_okOr _ _)
  intro columnIndex
  simp only
  split
  · apply Matches.bind (matches_index _ _)
    intro prepared
    apply Matches.bind (matches_assign _ _ _)
    intro newValues
    apply Matches.bind (matches_assign _ _ _)
    exact fun _ => matches_pure _
  · apply Matches.bind (matches_assign _ _ _)
    exact fun _ => matches_pure _

lemma matches_prepareUpdate (rows : List QueryRow) (bound : BoundUpdate) :
    Matches R (self.prepareUpdate rows bound : Exec ExecutorError σ _) (self.prepareUpdate rows bound) := by
  apply Matches.bind (self.matches_filtered rows bound.filter)
  intro rows
  apply Matches.bind
  · apply matches_foldlM
    intro state row
    exact matches_foldlM (self.matches_applyAssignment row) _ _
  intro state
  apply matches_foldlM
  intro results pending
  apply Matches.bind (matches_okOr _ _)
  intro tableMeta
  apply Matches.bind (matches_encodeRow _ _)
  exact fun _ => matches_pure _

lemma matches_prepareDelete (rows : List QueryRow) (bound : BoundDelete) :
    Matches R (self.prepareDelete rows bound : Exec ExecutorError σ _) (self.prepareDelete rows bound) := by
  apply Matches.bind (self.matches_filtered rows bound.filter)
  intro rows
  apply Matches.bind _ fun _ => matches_pure _
  apply matches_foldlM
  intro state row
  apply matches_foldlM
  intro state target
  apply Matches.bind (matches_okOr _ _)
  exact fun tableRow => (matches_pure _).ite (matches_pure _)

/-! ### Joins -/

lemma matches_decodeTableRows (table : BoundTable) (rows : List (RowId × Row)) :
    Matches R (self.decodeTableRows table rows : Exec ExecutorError σ _) (self.decodeTableRows table rows) := by
  apply Matches.bind (matches_okOr _ _)
  intro tableMeta
  apply matches_foldlM
  intro tableRows row
  apply Matches.bind ((matches_decode _ _).mapErr _)
  exact fun _ => matches_pure _

lemma matches_joinColumnValue (leftRow rightRow : QueryRow) (column : BoundColumnReference) :
    Matches R (self.joinColumnValue leftRow rightRow column : Exec ExecutorError σ _)
      (self.joinColumnValue leftRow rightRow column) :=
  (self.matches_columnValue leftRow column).ite ((self.matches_columnValue rightRow column).ite (matches_throw _))

lemma matches_nestedLoopJoin (leftRows rightRows : List QueryRow) (condition : BoundJoinCondition) :
    Matches R (self.nestedLoopJoin leftRows rightRows condition : Exec ExecutorError σ _)
      (self.nestedLoopJoin leftRows rightRows condition) := by
  apply matches_foldlM
  intro joinedRows leftRow
  apply matches_foldlM
  intro joinedRows rightRow
  apply Matches.bind _ fun _ => matches_pure _
  apply Matches.bind (self.matches_joinColumnValue leftRow rightRow _)
  intro leftValue
  apply Matches.bind (self.matches_joinColumnValue leftRow rightRow _)
  exact fun _ => matches_pure _

lemma matches_buildHash (condition : BoundJoinCondition) (rightRows : List QueryRow) (index : Nat)
    (hash : HashMap Value (List Nat)) :
    Matches R (self.buildHash condition rightRows index hash : Exec ExecutorError σ _)
      (self.buildHash condition rightRows index hash) := by
  induction rightRows generalizing index hash with
  | nil => exact matches_pure _
  | cons rightRow rightRows ih =>
    unfold buildHash
    split
    · exact matches_pure _
    · apply Matches.bind (self.matches_columnValue rightRow _)
      exact fun value => ih _ _

lemma matches_probeHash (rightRows : List QueryRow) (condition : BoundJoinCondition)
    (hash : HashMap Value (List Nat)) (leftRows joinedRows : List QueryRow) :
    Matches R (self.probeHash rightRows condition hash leftRows joinedRows : Exec ExecutorError σ _)
      (self.probeHash rightRows condition hash leftRows joinedRows) := by
  induction leftRows generalizing joinedRows with
  | nil => exact matches_pure _
  | cons leftRow leftRows ih =>
    unfold probeHash
    split
    · exact matches_pure _
    · apply Matches.bind (self.matches_columnValue leftRow _)
      intro value
      apply Matches.bind
      · apply matches_foldlM
        intro joinedRows rightIndex
        apply Matches.bind (matches_index _ _)
        exact fun _ => matches_pure _
      · exact fun joinedRows => ih _

lemma matches_hashJoin (leftRows rightRows : List QueryRow) (condition : BoundJoinCondition) :
    Matches R (self.hashJoin leftRows rightRows condition : Exec ExecutorError σ _)
      (self.hashJoin leftRows rightRows condition) := by
  apply Matches.bind (self.matches_buildHash condition rightRows 0 HashMap.new)
  intro hash
  cases hash with
  | none => exact self.matches_nestedLoopJoin leftRows rightRows condition
  | some hash =>
    apply Matches.bind (self.matches_probeHash rightRows condition hash leftRows [])
    intro joinedRows
    cases joinedRows with
    | none => exact self.matches_nestedLoopJoin leftRows rightRows condition
    | some joinedRows => exact matches_pure _

/-- A FROM clause, whatever the calls that fetch the rows of its tables. -/
lemma matches_fromClause {ε : Type} (wrap : ExecutorError → ε)
    {fetchTableRows : BoundTable → Exec ε σ (List TableRow)}
    {fetchTableRows' : BoundTable → Exec ε τ (List TableRow)}
    (h : ∀ table, Matches R (fetchTableRows table) (fetchTableRows' table)) (from_ : BoundFromClause) :
    Matches R (self.fromClause wrap fetchTableRows from_) (self.fromClause wrap fetchTableRows' from_) := by
  induction from_ with
  | table table => exact (h table).bind fun _ => matches_pure _
  | innerJoin left on right ihl ihr =>
    apply Matches.bind ihl
    intro leftRows
    apply Matches.bind ihr
    intro rightRows
    exact (self.matches_hashJoin leftRows rightRows on).mapErr wrap

end Executor

end RdbRs
