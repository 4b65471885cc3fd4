import RdbRs.Executor.FromClause
import RdbRs.Executor.Groups
import RdbRs.Executor.Modifications

/-!
# Bound statements

A statement that the binder accepts runs over any rows of the types of its tables. Only the data can
make it fail: a sum or a count out of range, or a text that is too long for its row.
-/

namespace RdbRs

/-- An error that comes from the data and not from the statement. -/
def ExecutorError.IsOfData : ExecutorError → Prop
  | sumOverflow => True
  | countOutOfRange _ => True
  | tuple error => error = .varcharTooLong
  | _ => False

/-- A bound `INSERT` has a value of its type for each column. -/
def BoundInsert.Fits (database : DatabaseMetadata) (bound : BoundInsert) : Prop :=
  ∃ tableMeta, database.tableById bound.tableId = some tableMeta ∧
    List.Forall₂ (fun (value : Value) (column : ColumnMetadata) => value.HasType column.dataType)
      bound.values tableMeta.columns

lemma Binder.bindInsert_fits {self : Binder} {statement : InsertStatement} {bound : BoundInsert}
    (h : self.bindInsert statement = .ok bound) : bound.Fits self.database := by
  have ⟨tableMeta, htable, hrest⟩ := except_bind_eq_ok.mp h
  split at hrest
  · cases hrest
  · next hlen =>
    have ⟨values, hvalues, heq⟩ := except_bind_eq_ok.mp hrest
    cases heq
    refine ⟨tableMeta, requireTable_eq_ok htable, ?_⟩
    have hbound := (mapM_eq_ok.mp hvalues).flip.imp fun _ _ hvalue => bindValue_hasType hvalue
    rw [← List.map_snd_zip (not_not.mp hlen).ge, List.forall₂_map_right_iff]
    exact hbound

namespace Executor

variable {σ : Type} {self : Executor} {tables : List BoundTable} {rows : List QueryRow}
  {groupBy : List BoundColumnReference} {bound : BoundSelect}

/-- The call ends with a value, or with an error that comes from the data. -/
abbrev Sound {α : Type} (x : Exec ExecutorError σ α) : Prop :=
  Exec.Computes ExecutorError.IsOfData x fun _ => True

lemma Sound.bind_pure {α β : Type} {x : Exec ExecutorError σ α} {g : α → β} (h : Sound x) :
    Sound (x >>= fun a => pure (g a)) := Exec.Computes.bind h fun _ _ => Exec.computes_pure trivial

/-! ### Sums, counts and groups -/

lemma sumRows_sound {c : BoundColumnReference} {dataType : DataType} (hscope : Scope tables)
    (hc : c.IsIn self.database tables dataType) (htype : dataType = .int ∨ dataType = .bigInt)
    (hrows : ∀ row ∈ rows, row.IsFrom self.database tables) :
    Sound (rows.foldlM (self.sumRow c) none : Exec ExecutorError σ _) := by
  have hcases := sumRows_eq (σ := σ) hscope hc htype hrows none
  by_cases hruns : Runs 0 (self.addends c rows)
  · rw [hcases.1 hruns]
    exact Exec.computes_pure trivial
  · rw [hcases.2 hruns]
    exact Exec.computes_throw trivial

/-- A projection of a group: a grouping column, a count or a sum. -/
lemma aggregateProjection_sound {group : RowGroup} {projection : BoundProjection} (hscope : Scope tables)
    (hrows : ∀ row ∈ group.rows, row.IsFrom self.database tables)
    (hkey : group.key.length = groupBy.length) (hfits : projection.Fits self.database tables)
    (hcolumn : projection ≠ .all ∧ ∀ c, projection = .column c → c ∈ groupBy) (values : List Value) :
    Sound (self.aggregateProjection group groupBy values projection : Exec ExecutorError σ _) := by
  cases projection with
  | all => exact absurd rfl hcolumn.1
  | column c =>
    obtain ⟨i, hi, hlt, _⟩ := findIdx_groupBy self (hcolumn.2 c rfl)
    rw [aggregateProjection, hi, Exec.okOr_some, Exec.pure_bind,
      Exec.index_eq (List.getElem?_eq_getElem (hkey ▸ hlt)), Exec.pure_bind]
    exact Exec.computes_pure trivial
  | aggregate aggregate =>
    cases aggregate with
    | countAll =>
      rw [aggregateProjection]
      cases i64TryFrom group.rows.length with
      | none =>
        rw [Exec.okOr_none, Exec.throw_bind]
        exact Exec.computes_throw trivial
      | some count =>
        rw [Exec.okOr_some, Exec.pure_bind]
        exact Exec.computes_pure trivial
    | sum c =>
      obtain ⟨dataType, hc, htype⟩ := hfits
      rw [aggregateProjection]
      exact (sumRows_sound hscope hc htype hrows).bind_pure

lemma aggregateGroups_sound {groups : List RowGroup} {projections : List BoundProjection}
    (hscope : Scope tables)
    (hgroups : ∀ group ∈ groups, (∀ row ∈ group.rows, row.IsFrom self.database tables) ∧
      group.key.length = groupBy.length)
    (hfits : ∀ p ∈ projections, p.Fits self.database tables)
    (hcolumn : ∀ p ∈ projections, p ≠ .all ∧ ∀ c, p = .column c → c ∈ groupBy) :
    Sound (self.aggregateGroups groups groupBy projections : Exec ExecutorError σ _) := by
  apply Exec.Computes.foldlM trivial
  intro results group hgroup _
  have hone : Sound (self.aggregateGroup group groupBy projections : Exec ExecutorError σ _) := by
    apply Exec.Computes.foldlM trivial
    intro values p hp _
    exact aggregateProjection_sound hscope (hgroups group hgroup).1 (hgroups group hgroup).2 (hfits p hp)
      (hcolumn p hp) values
  exact hone.bind_pure

/-! ### SELECT -/

lemma selectGroups_sound (hfits : Binder.SelectFits self.database bound)
    (hgroup : bound.groupBy = some groupBy)
    (hrows : ∀ row ∈ rows, row.IsFrom self.database (collectTables bound.from_)) :
    Sound (self.selectGroups rows groupBy bound : Exec ExecutorError σ _) := by
  have ⟨keys, hperm, _, _, hselect⟩ := selectGroups_eq (σ := σ) hfits hgroup hrows
  rw [hselect]
  apply Sound.bind_pure
  apply aggregateGroups_sound hfits.scope _ hfits.projections
  · exact fun p hp => projections_of_grouped hfits hgroup hp
  · intro group hmem
    have ⟨key, hkey, heq⟩ := List.mem_map.mp hmem
    have ⟨row, _, hkeyOf⟩ := mem_keysOf.mp (hperm.mem_iff.mp hkey)
    rw [← heq]
    constructor
    · exact fun row hrow => hrows row (mem_groupOf.mp hrow).1
    · simp only [← hkeyOf, keyOf, List.length_map]

/-- Without groups the projections are aggregates or there is none among them. -/
lemma projections_of_ungrouped (hfits : Binder.SelectFits self.database bound)
    (hgroup : bound.groupBy = none) (hany : bound.projections.any BoundProjection.isAggregate = true) :
    (∀ p ∈ bound.projections, p ≠ .all ∧ ∀ c, p = .column c → c ∈ ([] : List BoundColumnReference)) ∧
      bound.orderBy = none := by
  have hvalid := hfits.groupedProjections
  have horder := hfits.groupedOrder
  rw [hgroup, validateProjection] at hvalid
  constructor
  · intro p hp
    split at hvalid
    · next hall =>
      have hone := List.all_eq_true.mp hall p hp
      rw [hany] at hone
      cases p with
      | all => cases hone
      | column c => cases hone
      | aggregate a => exact ⟨by simp, by simp⟩
    · cases hvalid
  · cases hnone : bound.orderBy with
    | none => rfl
    | some order =>
      rw [hgroup, hnone, validateOrderBy, if_pos hany] at horder
      cases horder

lemma selectAggregate_sound (hfits : Binder.SelectFits self.database bound)
    (hgroup : bound.groupBy = none) (hany : bound.projections.any BoundProjection.isAggregate = true)
    (hrows : ∀ row ∈ rows, row.IsFrom self.database (collectTables bound.from_)) :
    Sound (self.selectAggregate rows bound : Exec ExecutorError σ _) := by
  have ⟨hprojections, horder⟩ := projections_of_ungrouped hfits hgroup hany
  have hsound : Sound (self.aggregate rows bound.projections : Exec ExecutorError σ _) := by
    apply aggregateGroups_sound hfits.scope _ hfits.projections hprojections
    intro group hmem
    rw [List.mem_singleton.mp hmem]
    exact ⟨hrows, rfl⟩
  rw [selectAggregate, horder, Option.isSome_none, if_neg Bool.false_ne_true]
  exact hsound.bind_pure

lemma orderRows_computes {order : BoundOrderBy} {dataType : DataType} (hscope : Scope tables)
    (hin : order.column.IsIn self.database tables dataType)
    (hrows : ∀ row ∈ rows, row.IsFrom self.database tables) :
    ∃ sorted, (self.orderRows rows order : Exec ExecutorError σ _) = pure sorted ∧
      ∀ row ∈ sorted, row ∈ rows := by
  have hround (acc : List (Value × QueryRow)) (row : QueryRow) (hrow : row ∈ rows) :
      (self.columnValue row order.column >>= fun key => pure (acc ++ [(key, row)]) :
        Exec ExecutorError σ _) = pure (acc ++ [(self.valueOf row order.column, row)]) := by
    rw [columnValue_eq hscope (hrows row hrow) hin, Exec.pure_bind]
  rw [orderRows, Exec.foldlM_push hround, Exec.pure_bind]
  refine ⟨_, rfl, ?_⟩
  intro row hrow
  have ⟨pair, hpair, heq⟩ := List.mem_map.mp hrow
  have hsorted : pair ∈ sortBy (fun left right => compareValues left.1 right.1)
      ([] ++ rows.flatMap fun row => [(self.valueOf row order.column, row)]) := by
    split at hpair
    · exact List.mem_reverse.mp hpair
    · exact hpair
  rw [sortBy, List.mem_mergeSort, List.nil_append, List.mem_flatMap] at hsorted
  have ⟨row', hrow', hsingle⟩ := hsorted
  rw [← heq, List.mem_singleton.mp hsingle]
  exact hrow'

lemma projectRows_sound {projections : List BoundProjection} (hscope : Scope tables)
    (hrows : ∀ row ∈ rows, row.IsFrom self.database tables)
    (hfits : ∀ p ∈ projections, p.Fits self.database tables)
    (hany : projections.any BoundProjection.isAggregate = false) :
    Sound (self.projectRows rows projections : Exec ExecutorError σ _) := by
  apply Exec.Computes.foldlM trivial
  intro results row hrow _
  have hvalues : Sound (projections.foldlM (self.projectValue row) [] : Exec ExecutorError σ _) := by
    apply Exec.Computes.foldlM trivial
    intro values p hp _
    cases p with
    | all => exact Exec.computes_pure trivial
    | column c =>
      have ⟨dataType, hin⟩ := hfits _ hp
      rw [projectValue, columnValue_eq hscope (hrows row hrow) hin, Exec.pure_bind]
      exact Exec.computes_pure trivial
    | aggregate a =>
      have hnot := List.any_eq_false.mp hany _ hp
      exact absurd rfl hnot
  exact hvalues.bind_pure

lemma selectProjected_sound (hfits : Binder.SelectFits self.database bound)
    (hany : bound.projections.any BoundProjection.isAggregate = false)
    (hrows : ∀ row ∈ rows, row.IsFrom self.database (collectTables bound.from_)) :
    Sound (self.selectProjected rows bound : Exec ExecutorError σ _) := by
  have hproject {sorted : List QueryRow} (hmem : ∀ row ∈ sorted, row ∈ rows) :
      Sound (self.projectRows sorted bound.projections >>= fun results =>
        pure (truncate bound.limit results) : Exec ExecutorError σ _) :=
    (projectRows_sound hfits.scope (fun row hrow => hrows row (hmem row hrow)) hfits.projections
      hany).bind_pure
  rw [selectProjected]
  cases horder : bound.orderBy with
  | none => exact hproject fun _ hrow => hrow
  | some order =>
    have ⟨dataType, hin⟩ := hfits.orderBy order (by rw [horder]; rfl)
    have ⟨sorted, hrun, hmem⟩ := orderRows_computes (σ := σ) hfits.scope hin hrows
    simp only
    rw [hrun, Exec.pure_bind]
    exact hproject hmem

lemma selectRows_sound (hfits : Binder.SelectFits self.database bound)
    (hrows : ∀ row ∈ rows, row.IsFrom self.database (collectTables bound.from_)) :
    Sound (self.selectRows rows bound : Exec ExecutorError σ _) := by
  have hpassing : ∀ row ∈ self.passing bound.filter rows,
      row.IsFrom self.database (collectTables bound.from_) :=
    fun row hrow => hrows row (mem_of_mem_passing hrow)
  rw [selectRows, filtered_eq hfits.scope hrows hfits.filter, Exec.pure_bind]
  cases hgroup : bound.groupBy with
  | some groupBy => exact selectGroups_sound hfits hgroup hpassing
  | none =>
    simp only
    by_cases hany : bound.projections.any BoundProjection.isAggregate = true
    · rw [if_pos hany]
      exact selectAggregate_sound hfits hgroup hany hpassing
    · rw [if_neg hany]
      exact selectProjected_sound hfits (Bool.eq_false_iff.mpr hany) hpassing

/-! ### Statements -/

/-- What the executor does for a statement: the joined rows of its FROM clause over the given rows of
its tables, and the rows that are returned, changed or stored. -/
def evaluate (self : Executor) (contents : BoundTable → List (RowId × Row)) :
    BoundStatement → Exec ExecutorError σ Unit
  | .createTable _ => pure ()
  | .createIndex _ => pure ()
  | .insert bound => do
    let _ ← self.encodeInsert bound
    pure ()
  | .select bound => do
    let rows ← self.fromClause id (fun table => (self.decodeTableRows table (contents table)).mapErr id)
      bound.from_
    let _ ← self.selectRows rows bound
    pure ()
  | .update bound => do
    let rows ← self.fromClause id (fun table => (self.decodeTableRows table (contents table)).mapErr id)
      bound.from_
    let _ ← self.prepareUpdate rows bound
    pure ()
  | .delete bound => do
    let rows ← self.fromClause id (fun table => (self.decodeTableRows table (contents table)).mapErr id)
      bound.from_
    let _ ← self.prepareDelete rows bound
    pure ()

lemma encodeInsert_computes {bound : BoundInsert} (hfits : bound.Fits self.database) :
    Exec.Computes ExecutorError.IsOfData (self.encodeInsert bound : Exec ExecutorError σ _)
      fun row => ∃ tableMeta, self.database.tableById bound.tableId = some tableMeta ∧
        Tuple.encode bound.values tableMeta.columns = .ok row := by
  obtain ⟨tableMeta, htable, htyped⟩ := hfits
  rw [encodeInsert, Executor.tableMeta, htable, Exec.okOr_some, Exec.pure_bind, encodeRow]
  cases encode_typed htyped with
  | inl hok =>
    obtain ⟨_, row, hrow⟩ := hok
    rw [hrow, Exec.liftExcept_ok, Exec.mapErr_pure]
    exact Exec.computes_pure ⟨tableMeta, rfl, hrow⟩
  | inr hlong =>
    rw [hlong.2, Exec.liftExcept_error, Exec.mapErr_throw]
    exact Exec.computes_throw rfl

/-- A statement that the binder accepts, over rows that have been encoded for their tables, ends with a
result or with a sum or a count out of range or a text that is too long. -/
theorem evaluate_sound {statement : Statement} {bound : BoundStatement}
    {heap : TableId → RowId → Option Row} {contents : BoundTable → List (RowId × Row)}
    (hbind : (Binder.mk self.database).bind statement = .ok bound)
    (hencoded : HoldsEncoded self.database heap)
    (hcontents : ∀ table, ∀ row ∈ contents table, heap table.tableId row.1 = some row.2) (s : σ) :
    (self.evaluate contents bound).run s = .ok () s ∨
      ∃ e, ExecutorError.IsOfData e ∧ (self.evaluate contents bound).run s = .err e s := by
  suffices hsound : Sound (self.evaluate contents bound : Exec ExecutorError σ _) by
    apply (hsound.run s).imp_left
    intro ⟨_, hrun, _⟩
    exact hrun
  cases statement with
  | createTable statement =>
    have ⟨_, _, heq⟩ := except_bind_eq_ok.mp hbind
    cases heq
    exact Exec.computes_pure trivial
  | createIndex statement =>
    have ⟨_, _, heq⟩ := except_bind_eq_ok.mp hbind
    cases heq
    exact Exec.computes_pure trivial
  | insert statement =>
    have ⟨_, hinsert, heq⟩ := except_bind_eq_ok.mp hbind
    cases heq
    apply (encodeInsert_computes (Binder.bindInsert_fits hinsert)).bind
    exact fun _ _ => Exec.computes_pure trivial
  | select statement =>
    have ⟨bound, hselect, heq⟩ := except_bind_eq_ok.mp hbind
    cases heq
    have hfits : Binder.SelectFits self.database bound := Binder.bindSelect_fits hselect
    have hfrom := Binder.bindSelect_from hselect
    rw [evaluate, fromClause_shown hencoded hcontents hfrom hfits.scope, Exec.pure_bind]
    apply Sound.bind_pure
    apply selectRows_sound hfits
    exact fun row hrow => (joinedRows_stored hencoded hcontents row hrow).isFrom
  | update statement =>
    have ⟨bound, hupdate, heq⟩ := except_bind_eq_ok.mp hbind
    cases heq
    have hfits : Binder.UpdateFits self.database bound := Binder.bindUpdate_fits hupdate
    have hfrom := Binder.bindUpdate_from hupdate
    rw [evaluate, fromClause_shown hencoded hcontents hfrom hfits.scope, Exec.pure_bind]
    apply Sound.bind_pure
    cases prepareUpdate_cases (σ := σ) hupdate (joinedRows_stored hencoded hcontents) with
    | inl hlong =>
      rw [hlong.2]
      exact Exec.computes_throw rfl
    | inr hprepared =>
      have ⟨entries, hrun, _⟩ := hprepared
      rw [hrun]
      exact Exec.computes_pure trivial
  | delete statement =>
    have ⟨bound, hdelete, heq⟩ := except_bind_eq_ok.mp hbind
    cases heq
    have hfits : Binder.DeleteFits self.database bound := Binder.bindDelete_fits hdelete
    have hfrom := Binder.bindDelete_from hdelete
    rw [evaluate, fromClause_shown hencoded hcontents hfrom hfits.scope, Exec.pure_bind]
    apply Sound.bind_pure
    have ⟨entries, hrun, _⟩ := prepareDelete_eq (σ := σ) hdelete (joinedRows_stored hencoded hcontents)
    rw [hrun]
    exact Exec.computes_pure trivial

/-- `UPDATE t SET amount = 1 WHERE k = 7;` over one row. -/
theorem evaluate_sound_update :
    let row : Row := ⟨[1, 0, 0, 0, 7, 0, 1, 0, 1, 120]⟩
    let contents : BoundTable → List (RowId × Row) := fun table =>
      if table.tableId = ⟨1⟩ then [(RowId.ofSlot 0, row)] else []
    let bound : BoundStatement := .update ⟨.table ⟨⟨1⟩, ⟨0⟩, none⟩, [⟨⟨⟨1⟩, ⟨0⟩, ⟨2⟩⟩, .bigInt 1⟩],
      some (.comparison ⟨⟨1⟩, ⟨0⟩, ⟨1⟩⟩ .equal (.int 7))⟩
    (Binder.mk ledger).bind (.update ⟨.table ⟨"t", none⟩, [⟨⟨none, "amount"⟩, .integer 1⟩],
      some (.comparison (.column ⟨none, "k"⟩) .equal (.literal (.integer 7)))⟩) = .ok bound ∧
    ((evaluate ⟨ledger⟩ contents bound).run () = .ok () () ∨
      ∃ e, ExecutorError.IsOfData e ∧ (evaluate ⟨ledger⟩ contents bound).run () = .err e ()) := by
  intro row contents bound
  have hbind : (Binder.mk ledger).bind (.update ⟨.table ⟨"t", none⟩, [⟨⟨none, "amount"⟩, .integer 1⟩],
      some (.comparison (.column ⟨none, "k"⟩) .equal (.literal (.integer 7)))⟩) = .ok bound := rfl
  let heap : TableId → RowId → Option Row := fun tableId rowId =>
    if tableId = ⟨1⟩ ∧ rowId = RowId.ofSlot 0 then some row else none
  have hencoded : HoldsEncoded ledger heap := by
    intro tableId rowId r hr
    by_cases hat : tableId = ⟨1⟩ ∧ rowId = RowId.ofSlot 0
    · have heq : heap tableId rowId = some row := if_pos hat
      cases heq.symm.trans hr
      rw [hat.1]
      exact ⟨_, [.int 7, .null, .varchar "x"], rfl, rfl⟩
    · have heq : heap tableId rowId = none := if_neg hat
      cases heq.symm.trans hr
  apply And.intro hbind
  apply @evaluate_sound _ ⟨ledger⟩ _ _ heap contents hbind hencoded
  intro table r hr
  by_cases ht : table.tableId = ⟨1⟩
  · have hone : contents table = [(RowId.ofSlot 0, row)] := if_pos ht
    rw [hone] at hr
    rw [List.mem_singleton.mp hr]
    exact if_pos ⟨ht, rfl⟩
  · have hnone : contents table = [] := if_neg ht
    rw [hnone] at hr
    cases hr

end Executor

end RdbRs
