import RdbRs.Executor.Soundness

/-!
# What a `SELECT` answers

The results of a `SELECT` said of the rows that pass its filter: in the order of an `ORDER BY`, projected,
as groups or as one row of aggregates, and cut at the `LIMIT`.
-/

namespace RdbRs

namespace Executor

variable {σ : Type} {self : Executor} {tables : List BoundTable} {rows : List QueryRow} {row : QueryRow}
  {bound : BoundSelect}

/-! ### Answers -/

/-- What a projection shows of a joined row. -/
def projected (self : Executor) (row : QueryRow) : BoundProjection → List Value
  | .all => row.tableRows.flatMap TableRow.values
  | .column c => [self.valueOf row c]
  | .aggregate _ => []

/-- The rows in the order of an `ORDER BY`. Rows with the same value keep their order, which `DESC` turns
round. -/
structure OrdersRows (executor : Executor) (order : BoundOrderBy) (rows sorted : List QueryRow) : Prop where
  perm : sorted.Perm rows
  ordered : sorted.Pairwise fun a b =>
    order.direction.Ordered (executor.valueOf a order.column) (executor.valueOf b order.column)
  ties : ∀ v, sorted.filter (fun row => executor.valueOf row order.column = v) =
    if order.direction = .desc then (rows.filter fun row => executor.valueOf row order.column = v).reverse
    else rows.filter fun row => executor.valueOf row order.column = v

/-- The results of a `SELECT` whose filter these rows pass. -/
def Answers (self : Executor) (bound : BoundSelect) (rows : List QueryRow) (results : List (List Value)) :
    Prop :=
  match bound.groupBy with
  | some groupBy => ∃ keys all, self.GroupedRows groupBy bound rows keys all ∧
      results = truncate bound.limit all
  | none =>
    if bound.projections.any BoundProjection.isAggregate then
      ∃ values, List.Forall₂ (self.CellOf rows) bound.projections values ∧
        results = truncate bound.limit [values]
    else ∃ sorted, (bound.orderBy = none → sorted = rows) ∧
      (∀ order ∈ bound.orderBy, self.OrdersRows order rows sorted) ∧
      results = truncate bound.limit (sorted.map fun row => bound.projections.flatMap (self.projected row))

/-! ### Rows -/

lemma orderRows_eq {order : BoundOrderBy} {dataType : DataType} (hscope : Scope tables)
    (hin : order.column.IsIn self.database tables dataType)
    (hrows : ∀ row ∈ rows, row.IsFrom self.database tables) :
    ∃ sorted, (self.orderRows rows order : Exec ExecutorError σ _) = pure sorted ∧
      self.OrdersRows order rows sorted := by
  have hround (acc : List (Value × QueryRow)) (row : QueryRow) (hrow : row ∈ rows) :
      (self.columnValue row order.column >>= fun key => pure (acc ++ [(key, row)]) :
        Exec ExecutorError σ _) = pure (acc ++ [(self.valueOf row order.column, row)]) := by
    rw [columnValue_eq hscope (hrows row hrow) hin, Exec.pure_bind]
  have htype : ∀ row ∈ rows, (self.valueOf row order.column).HasType dataType :=
    fun row hrow => valueOf_hasType hscope (hrows row hrow) hin
  obtain ⟨hperm, hordered⟩ := sortBy_ordered htype order.direction
  refine ⟨_, ?_, ⟨hperm, hordered, sortBy_ties htype order.direction⟩⟩
  have hkeyed : ([] ++ rows.flatMap fun row => [(self.valueOf row order.column, row)]) =
      rows.map fun row => (self.valueOf row order.column, row) := by
    rw [List.nil_append, List.map_eq_flatMap]
  rw [orderRows, Exec.foldlM_push hround, Exec.pure_bind, hkeyed, sortBy_map]
  simp only
  split
  · rw [← List.map_reverse, List.map_map]
    exact congrArg _ (List.map_id _)
  · rw [List.map_map]
    exact congrArg _ (List.map_id _)

lemma projectRows_eq {projections : List BoundProjection} (hscope : Scope tables)
    (hrows : ∀ row ∈ rows, row.IsFrom self.database tables)
    (hfits : ∀ p ∈ projections, p.Fits self.database tables)
    (hany : projections.any BoundProjection.isAggregate = false) :
    (self.projectRows rows projections : Exec ExecutorError σ _) =
      pure (rows.map fun row => projections.flatMap (self.projected row)) := by
  have hvalue (row : QueryRow) (hrow : row ∈ rows) (acc : List Value) (p : BoundProjection)
      (hp : p ∈ projections) :
      (self.projectValue row acc p : Exec ExecutorError σ _) = pure (acc ++ self.projected row p) := by
    cases p with
    | all => rfl
    | column c =>
      obtain ⟨dataType, hin⟩ := hfits _ hp
      rw [projectValue, columnValue_eq hscope (hrows row hrow) hin, Exec.pure_bind]
      rfl
    | aggregate a => exact absurd rfl (List.any_eq_false.mp hany _ hp)
  have hround (acc : List (List Value)) (row : QueryRow) (hrow : row ∈ rows) :
      (projections.foldlM (self.projectValue row) [] >>= fun values => pure (acc ++ [values]) :
        Exec ExecutorError σ _) = pure (acc ++ [projections.flatMap (self.projected row)]) := by
    rw [Exec.foldlM_push (hvalue row hrow), Exec.pure_bind, List.nil_append]
  rw [projectRows, Exec.foldlM_push hround, List.nil_append, ← List.map_eq_flatMap]

lemma selectProjected_eq (hfits : Binder.SelectFits self.database bound)
    (hany : bound.projections.any BoundProjection.isAggregate = false)
    (hrows : ∀ row ∈ rows, row.IsFrom self.database (collectTables bound.from_)) :
    ∃ sorted, (bound.orderBy = none → sorted = rows) ∧
      (∀ order ∈ bound.orderBy, self.OrdersRows order rows sorted) ∧
      (self.selectProjected rows bound : Exec ExecutorError σ _) = pure (truncate bound.limit
        (sorted.map fun row => bound.projections.flatMap (self.projected row))) := by
  rw [selectProjected]
  cases horder : bound.orderBy with
  | none =>
    refine ⟨rows, fun _ => rfl, by simp, ?_⟩
    simp only [Exec.pure_bind]
    rw [projectRows_eq hfits.scope hrows hfits.projections hany, Exec.pure_bind]
  | some order =>
    obtain ⟨dataType, hin⟩ := hfits.orderBy order (by rw [horder]; rfl)
    obtain ⟨sorted, hrun, hsorted⟩ := orderRows_eq (σ := σ) hfits.scope hin hrows
    have hmem : ∀ row ∈ sorted, row.IsFrom self.database (collectTables bound.from_) :=
      fun row hrow => hrows row (hsorted.perm.mem_iff.mp hrow)
    refine ⟨sorted, fun h => (by cases h), ?_, ?_⟩
    · rintro _ ⟨⟩
      exact hsorted
    · simp only
      rw [hrun, Exec.pure_bind, projectRows_eq hfits.scope hmem hfits.projections hany, Exec.pure_bind]

/-! ### Aggregates -/

/-- What a projection of a group needs: a grouping column has one value in the group. -/
def ShowsGroup (self : Executor) (groupBy : List BoundColumnReference) (group : RowGroup)
    (projection : BoundProjection) : Prop :=
  projection ≠ .all ∧ ∀ c, projection = .column c → ∃ i v,
    groupBy.findIdx? (fun groupColumn => groupColumn = c) = some i ∧ group.key[i]? = some v ∧
      ∀ row ∈ group.rows, v = self.valueOf row c

lemma aggregateProjection_cell {groupBy : List BoundColumnReference} {group : RowGroup}
    {projection : BoundProjection} (hscope : Scope tables)
    (hrows : ∀ row ∈ group.rows, row.IsFrom self.database tables)
    (hfits : projection.Fits self.database tables) (hshows : self.ShowsGroup groupBy group projection)
    (acc : List Value) : Exec.Computes ExecutorError.IsOfData
      (self.aggregateProjection group groupBy acc projection : Exec ExecutorError σ _)
      fun acc' => ∃ v, acc' = acc ++ [v] ∧ self.CellOf group.rows projection v := by
  cases projection with
  | all => exact absurd rfl hshows.1
  | column c =>
    obtain ⟨i, v, hi, hv, hvalue⟩ := hshows.2 c rfl
    rw [aggregateProjection, hi, Exec.okOr_some, Exec.pure_bind, Exec.index_eq hv, Exec.pure_bind]
    exact Exec.computes_pure ⟨v, rfl, hvalue⟩
  | aggregate aggregate =>
    cases aggregate with
    | countAll =>
      rw [aggregateProjection, i64TryFrom]
      split
      · next hle =>
        rw [Exec.okOr_some, Exec.pure_bind]
        exact Exec.computes_pure ⟨_, rfl, _, rfl, Int64.toInt_ofNat_of_lt (by omega)⟩
      · rw [Exec.okOr_none, Exec.throw_bind]
        exact Exec.computes_throw trivial
    | sum c =>
      obtain ⟨dataType, hin, htype⟩ := hfits
      rw [aggregateProjection]
      by_cases hruns : Runs 0 (self.addends c group.rows)
      · obtain ⟨sum, hrun, hexact⟩ := sumRows_of_runs (σ := σ) hscope hin htype hrows hruns
        rw [hrun, Exec.pure_bind]
        exact Exec.computes_pure ⟨_, rfl, hexact⟩
      · rw [(sumRows_eq (σ := σ) hscope hin htype hrows none).2 hruns, Exec.throw_bind]
        exact Exec.computes_throw trivial

/-- Groups give one row each, in order. -/
lemma aggregateGroups_cells {groupBy : List BoundColumnReference} {groups : List RowGroup}
    {projections : List BoundProjection} (hscope : Scope tables)
    (hrows : ∀ group ∈ groups, ∀ row ∈ group.rows, row.IsFrom self.database tables)
    (hfits : ∀ p ∈ projections, p.Fits self.database tables)
    (hshows : ∀ group ∈ groups, ∀ p ∈ projections, self.ShowsGroup groupBy group p) :
    Exec.Computes ExecutorError.IsOfData
      (self.aggregateGroups groups groupBy projections : Exec ExecutorError σ _)
      (List.Forall₂ (fun group => List.Forall₂ (self.CellOf group.rows) projections) groups) := by
  have hround : ∀ group ∈ groups, ∀ acc : List (List Value), Exec.Computes ExecutorError.IsOfData
      (self.aggregateGroup group groupBy projections >>= fun values => pure (acc ++ [values]) :
        Exec ExecutorError σ _)
      fun acc' => ∃ values, acc' = acc ++ [values] ∧
        List.Forall₂ (self.CellOf group.rows) projections values := by
    intro group hgroup acc
    apply (Exec.Computes.gather (fun p hp => aggregateProjection_cell hscope (hrows group hgroup) (hfits p hp)
      (hshows group hgroup p hp)) []).bind
    rintro _ ⟨values, heq, hcells⟩
    rw [List.nil_append] at heq
    exact Exec.computes_pure ⟨values, by rw [heq], hcells⟩
  apply (Exec.Computes.gather hround []).imp
  rintro _ ⟨results, heq, hresults⟩
  rwa [heq, List.nil_append]

/-- Every row of a group has the key of the group in its grouping columns. -/
lemma showsGroup_groupOf {groupBy : List BoundColumnReference} {key : List Value}
    {projection : BoundProjection} (hkey : key ∈ self.keysOf groupBy rows)
    (hcolumn : projection ≠ .all ∧ ∀ c, projection = .column c → c ∈ groupBy) :
    self.ShowsGroup groupBy ⟨key, self.groupOf groupBy rows key⟩ projection := by
  refine ⟨hcolumn.1, ?_⟩
  intro c hc
  obtain ⟨i, hi, -, hvalue⟩ := findIdx_groupBy self (hcolumn.2 c hc)
  obtain ⟨row, -, heq⟩ := mem_keysOf.mp hkey
  have hindex : key[i]? = some (self.valueOf row c) := heq ▸ hvalue row
  refine ⟨i, _, hi, hindex, ?_⟩
  intro r hr
  have hboth := hindex.symm.trans ((mem_groupOf.mp hr).2 ▸ hvalue r)
  exact Option.some.inj hboth

lemma selectGroups_answers {groupBy : List BoundColumnReference}
    (hfits : Binder.SelectFits self.database bound) (hgroup : bound.groupBy = some groupBy)
    (hrows : ∀ row ∈ rows, row.IsFrom self.database (collectTables bound.from_)) :
    Exec.Computes ExecutorError.IsOfData (self.selectGroups rows groupBy bound : Exec ExecutorError σ _)
      fun results => ∃ keys all, self.GroupedRows groupBy bound rows keys all ∧
        results = truncate bound.limit all := by
  obtain ⟨keys, hperm, hfirst, hsorted, hselect⟩ := selectGroups_eq (σ := σ) hfits hgroup hrows
  have hmem (key : List Value) : key ∈ keys ↔ key ∈ rows.map (self.keyOf groupBy) := by
    rw [hperm.mem_iff, keysOf, mem_firsts]
  have hdistinct : keys.Nodup := hperm.nodup_iff.mpr nodup_firsts
  rw [hselect]
  apply (aggregateGroups_cells hfits.scope _ hfits.projections _).bind
  · intro results hcells
    refine Exec.computes_pure ⟨keys, results, ?_, rfl⟩
    constructor
    · exact hdistinct
    · intro key
      rw [hmem, List.mem_map]
    · intro hnone
      rw [hfirst hnone, keysOf]
      exact pairwise_firsts (κ := List Value)
    · exact hsorted
    · exact List.forall₂_map_left_iff.mp hcells
    · exact sum_length_withKey hdistinct hmem
  · intro group hmem row hrow
    obtain ⟨key, -, rfl⟩ := List.mem_map.mp hmem
    exact hrows row (mem_groupOf.mp hrow).1
  · intro group hmem p hp
    obtain ⟨key, hkey, rfl⟩ := List.mem_map.mp hmem
    exact showsGroup_groupOf (hperm.mem_iff.mp hkey) (projections_of_grouped hfits hgroup hp)

lemma selectAggregate_answers (hfits : Binder.SelectFits self.database bound)
    (hgroup : bound.groupBy = none) (hany : bound.projections.any BoundProjection.isAggregate = true)
    (hrows : ∀ row ∈ rows, row.IsFrom self.database (collectTables bound.from_)) :
    Exec.Computes ExecutorError.IsOfData (self.selectAggregate rows bound : Exec ExecutorError σ _)
      fun results => ∃ values, List.Forall₂ (self.CellOf rows) bound.projections values ∧
        results = truncate bound.limit [values] := by
  obtain ⟨hprojections, horder⟩ := projections_of_ungrouped hfits hgroup hany
  rw [selectAggregate, horder, Option.isSome_none, if_neg Bool.false_ne_true]
  apply (aggregateGroups_cells hfits.scope _ hfits.projections _).bind
  · intro results hcells
    obtain ⟨values, _, hvalues, hrest, rfl⟩ := List.forall₂_cons_left_iff.mp hcells
    rw [List.forall₂_nil_left_iff.mp hrest]
    exact Exec.computes_pure ⟨values, hvalues, rfl⟩
  · intro group hmem
    rw [List.mem_singleton.mp hmem]
    exact hrows
  · intro group hmem p hp
    refine ⟨(hprojections p hp).1, ?_⟩
    intro c hc
    cases (hprojections p hp).2 c hc

/-! ### SELECT -/

/-- The errors of a `SELECT` with groups or aggregates. -/
def AggregateError (bound : BoundSelect) (e : ExecutorError) : Prop :=
  e.IsOfData ∧ (bound.groupBy ≠ none ∨ bound.projections.any BoundProjection.isAggregate)

lemma selectRows_computes {statement : SelectStatement}
    (hbind : (Binder.mk self.database).bindSelect statement = .ok bound)
    (hrows : ∀ row ∈ rows, row.IsFrom self.database (collectTables bound.from_)) :
    Exec.Computes (AggregateError bound) (self.selectRows rows bound : Exec ExecutorError σ _)
      (self.Answers bound (self.passing bound.filter rows)) := by
  have hfits : Binder.SelectFits self.database bound := Binder.bindSelect_fits hbind
  have hpassing : ∀ row ∈ self.passing bound.filter rows,
      row.IsFrom self.database (collectTables bound.from_) :=
    fun row hrow => hrows row (mem_of_mem_passing hrow)
  rw [selectRows, filtered_eq hfits.scope hrows hfits.filter, Exec.pure_bind]
  cases hgroup : bound.groupBy with
  | some groupBy =>
    apply ((selectGroups_answers hfits hgroup hpassing).imp _).imp_err
    · exact fun e he => ⟨he, .inl (by simp [hgroup])⟩
    · intro results hresults
      simp only [Answers, hgroup]
      exact hresults
  | none =>
    by_cases hany : bound.projections.any BoundProjection.isAggregate = true
    · simp only [if_pos hany]
      apply ((selectAggregate_answers hfits hgroup hany hpassing).imp _).imp_err
      · exact fun e he => ⟨he, .inr hany⟩
      · intro results hresults
        simp only [Answers, hgroup, if_pos hany]
        exact hresults
    · simp only [if_neg hany]
      obtain ⟨sorted, hnone, hsome, hrun⟩ :=
        selectProjected_eq (σ := σ) hfits (Bool.eq_false_iff.mpr hany) hpassing
      rw [hrun]
      apply Exec.computes_pure
      simp only [Answers, hgroup, if_neg hany]
      exact ⟨sorted, hnone, hsome, rfl⟩

end Executor

end RdbRs
