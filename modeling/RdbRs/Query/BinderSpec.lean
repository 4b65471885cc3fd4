import Mathlib.Data.List.Nodup
import RdbRs.Lib.Loop
import RdbRs.Query.Binder

/-!
# What the binder promises

The instances of a bound FROM clause are numbered one after another, a bound column is a column
of one of its tables, and a bound value has the type of its column.
-/

namespace RdbRs

variable {database : DatabaseMetadata} {tables : List BoundTable}

def Value.HasType : Value → DataType → Prop
  | .null, _ => True
  | .int _, .int => True
  | .bigInt _, .bigInt => True
  | .boolean _, .boolean => True
  | .varchar _, .varchar => True
  | _, _ => False

/-- A column of one of the tables, of that type. -/
def BoundColumnReference.IsIn (c : BoundColumnReference) (database : DatabaseMetadata)
    (tables : List BoundTable) (dataType : DataType) : Prop :=
  ∃ table ∈ tables, table.instanceId = c.instanceId ∧ table.tableId = c.tableId ∧
    ∃ tableMeta, database.tableById c.tableId = some tableMeta ∧
      ∃ column, tableMeta.columnById c.columnId = some column ∧ column.dataType = dataType

/-- The tables of a statement are different instances. -/
def Scope (tables : List BoundTable) : Prop := (tables.map BoundTable.instanceId).Nodup

instance : Decidable (Scope tables) :=
  inferInstanceAs (Decidable (tables.map BoundTable.instanceId).Nodup)

section Scope

variable {tables' : List BoundTable}

lemma Scope.swap (h : Scope (tables ++ tables')) : Scope (tables' ++ tables) := by
  rw [Scope, List.map_append] at *
  exact List.nodup_append_comm.mp h

lemma Scope.left (h : Scope (tables ++ tables')) : Scope tables := by
  rw [Scope, List.map_append] at h
  exact h.of_append_left

end Scope

/-- Every comparison is one of a column of the tables with a value of its type. -/
def BoundExpression.Fits (database : DatabaseMetadata) (tables : List BoundTable) :
    BoundExpression → Prop
  | comparison column _ value => ∃ dataType, column.IsIn database tables dataType ∧ value.HasType dataType
  | and left right => left.Fits database tables ∧ right.Fits database tables
  | or left right => left.Fits database tables ∧ right.Fits database tables

/-- A projected column is one of the tables, a summed one is numeric. -/
def BoundProjection.Fits (database : DatabaseMetadata) (tables : List BoundTable) :
    BoundProjection → Prop
  | column c => ∃ dataType, c.IsIn database tables dataType
  | aggregate (.sum c) =>
    ∃ dataType, c.IsIn database tables dataType ∧ (dataType = .int ∨ dataType = .bigInt)
  | _ => True

lemma find_key_of_mem {α β : Type} [DecidableEq β] {f : α → β} {l : List α} {a : α}
    (h : (l.map f).Nodup) (ha : a ∈ l) : (l.find? fun b => f b = f a) = some a := by
  induction l with
  | nil => cases ha
  | cons b l ih =>
    rw [List.map_cons, List.nodup_cons] at h
    cases List.mem_cons.mp ha with
    | inl heq => rw [heq, List.find?_cons_of_pos (by simp)]
    | inr hmem =>
      have hne : ¬ f b = f a := fun heq => h.1 (List.mem_map.mpr ⟨a, hmem, heq.symm⟩)
      rw [List.find?_cons_of_neg (by simp [hne])]
      exact ih h.2 hmem

namespace Binder

variable {self : Binder} {c : BoundColumnReference} {columnMeta : ColumnMetadata}

/-! ### Columns -/

lemma tableById_id {tableId : TableId} {tableMeta : TableMetadata}
    (h : database.tableById tableId = some tableMeta) : tableMeta.id = tableId := by
  unfold DatabaseMetadata.tableById at h
  have := List.find?_some h
  exact of_decide_eq_true this

lemma requireTableById_eq_ok {tableId : TableId} {tableMeta : TableMetadata} :
    self.requireTableById tableId = .ok tableMeta ↔
      self.database.tableById tableId = some tableMeta := by
  unfold requireTableById
  cases self.database.tableById tableId <;> simp

lemma column_columnById {tableMeta : TableMetadata} {name : String}
    (h : tableMeta.column name = some columnMeta) :
    tableMeta.columnById columnMeta.id = some columnMeta :=
  find_key_of_mem tableMeta.distinctIds (List.mem_of_find?_eq_some h)

lemma findTable_mem {name : String} {table : BoundTable}
    (h : self.findTable name tables = .ok (some table)) : table ∈ tables := by
  induction tables with
  | nil => cases h
  | cons first tables ih =>
    rw [findTable, except_bind_eq_ok] at h
    have ⟨qualifier, _, hrest⟩ := h
    split at hrest
    · cases hrest
      exact List.mem_cons_self
    · exact List.mem_cons_of_mem first (ih hrest)

/-- A column found by its name in a table. -/
lemma isIn_of_column {table : BoundTable} {tableMeta : TableMetadata} {name : String}
    (hmem : table ∈ tables) (htable : self.database.tableById table.tableId = some tableMeta)
    (hcolumn : tableMeta.column name = some columnMeta) :
    (⟨tableMeta.id, table.instanceId, columnMeta.id⟩ : BoundColumnReference).IsIn self.database tables
      columnMeta.dataType := by
  have hid := tableById_id htable
  refine ⟨table, hmem, rfl, hid.symm, tableMeta, ?_, columnMeta, column_columnById hcolumn, rfl⟩
  rw [hid]
  exact htable

lemma matchingColumns_isIn {name : String} {columns : List BoundColumnReference}
    {all : List BoundTable} (hall : ∀ table ∈ tables, table ∈ all)
    (h : self.matchingColumns name tables = .ok columns) :
    ∀ c ∈ columns, ∃ dataType, c.IsIn self.database all dataType := by
  induction tables generalizing columns with
  | nil =>
    cases h
    simp
  | cons table tables ih =>
    rw [matchingColumns, except_bind_eq_ok] at h
    have ⟨tableMeta, htable, hrest⟩ := h
    have ⟨others, hothers, hcolumn⟩ := except_bind_eq_ok.mp hrest
    have hlater := ih (fun t ht => hall t (List.mem_cons_of_mem table ht)) hothers
    split at hcolumn
    · next columnMeta hfound =>
      cases hcolumn
      intro c hc
      cases List.mem_cons.mp hc with
      | inl heq =>
        rw [heq]
        exact ⟨_, isIn_of_column (hall table List.mem_cons_self) (requireTableById_eq_ok.mp htable) hfound⟩
      | inr hmem => exact hlater c hmem
    · cases hcolumn
      exact hlater

lemma bindColumnReference_isIn {columnRef : ColumnReference}
    (h : self.bindColumnReference tables columnRef = .ok c) :
    ∃ dataType, c.IsIn self.database tables dataType := by
  unfold bindColumnReference at h
  split at h
  · next alias_ _ =>
    have ⟨found, hfound, hrest⟩ := except_bind_eq_ok.mp h
    split at hrest
    · cases hrest
    · next boundTable =>
      have ⟨tableMeta, htable, hcolumn⟩ := except_bind_eq_ok.mp hrest
      split at hcolumn
      · cases hcolumn
      · next columnMeta hname =>
        cases hcolumn
        exact ⟨_, isIn_of_column (findTable_mem hfound) (requireTableById_eq_ok.mp htable) hname⟩
  · have ⟨columns, hcolumns, hrest⟩ := except_bind_eq_ok.mp h
    split at hrest
    · cases hrest
    · cases hrest
      exact matchingColumns_isIn (fun _ ht => ht) hcolumns c List.mem_cons_self
    · cases hrest

/-- The type of a bound column is the one of its metadata. -/
lemma isIn_requireColumn {columnRef : ColumnReference}
    (h : self.bindColumnReference tables columnRef = .ok c) (hmeta : self.requireColumn c = .ok columnMeta) :
    c.IsIn self.database tables columnMeta.dataType := by
  have ⟨dataType, table, hmem, hinstance, hid, tableMeta, htable, column, hcolumn, _⟩ :=
    bindColumnReference_isIn h
  have ⟨tableMeta', htable', hfound⟩ := except_bind_eq_ok.mp hmeta
  rw [requireTableById_eq_ok, htable] at htable'
  cases htable'
  rw [hcolumn] at hfound
  cases hfound
  exact ⟨table, hmem, hinstance, hid, tableMeta, htable, columnMeta, hcolumn, rfl⟩

/-! ### Values and filters -/

lemma bindValue_hasType {literal : Literal} {value : Value}
    (h : bindValue literal columnMeta = .ok value) : value.HasType columnMeta.dataType := by
  unfold bindValue at h
  split at h
  · cases h
    trivial
  · next v htype =>
    split at h
    · cases h
      rw [htype]
      trivial
    · cases h
  · next v htype =>
    cases h
    rw [htype]
    trivial
  · next v htype =>
    cases h
    rw [htype]
    trivial
  · cases h

lemma bindFilter_fits {filter : Expression} {bound : BoundExpression}
    (h : self.bindFilter tables filter = .ok bound) : bound.Fits self.database tables := by
  induction filter generalizing bound with
  | column reference => cases h
  | literal value => cases h
  | comparison left operator right ihl ihr =>
    unfold bindFilter at h
    split at h
    · next heq => cases heq
    · next heq => cases heq
    · next heq =>
      cases heq
      have ⟨c, hc, hrest⟩ := except_bind_eq_ok.mp h
      have ⟨columnMeta, hmeta, hlast⟩ := except_bind_eq_ok.mp hrest
      have ⟨value, hvalue, heq⟩ := except_bind_eq_ok.mp hlast
      cases heq
      exact ⟨columnMeta.dataType, isIn_requireColumn hc hmeta, bindValue_hasType hvalue⟩
    · cases h
  | and left right ihl ihr =>
    have ⟨l, hl, hrest⟩ := except_bind_eq_ok.mp h
    have ⟨r, hr, heq⟩ := except_bind_eq_ok.mp hrest
    cases heq
    exact ⟨ihl hl, ihr hr⟩
  | or left right ihl ihr =>
    have ⟨l, hl, hrest⟩ := except_bind_eq_ok.mp h
    have ⟨r, hr, heq⟩ := except_bind_eq_ok.mp hrest
    cases heq
    exact ⟨ihl hl, ihr hr⟩

lemma bindAssignment_isIn {assignment : Assignment} {bound : BoundAssignment}
    (h : self.bindAssignment tables assignment = .ok bound) :
    ∃ dataType, bound.column.IsIn self.database tables dataType ∧ bound.value.HasType dataType := by
  have ⟨c, hc, hrest⟩ := except_bind_eq_ok.mp h
  have ⟨columnMeta, hmeta, hlast⟩ := except_bind_eq_ok.mp hrest
  have ⟨value, hvalue, heq⟩ := except_bind_eq_ok.mp hlast
  cases heq
  exact ⟨columnMeta.dataType, isIn_requireColumn hc hmeta, bindValue_hasType hvalue⟩

lemma bindJoinCondition_isIn {left right : BoundFromClause} {condition : JoinCondition}
    {bound : BoundJoinCondition} (h : self.bindJoinCondition left right condition = .ok bound) :
    ∃ dataType, bound.left.IsIn self.database (collectTables left ++ collectTables right) dataType ∧
      bound.right.IsIn self.database (collectTables left ++ collectTables right) dataType := by
  have ⟨_, _, hrest⟩ := except_bind_eq_ok.mp h
  have ⟨l, hl, hrest⟩ := except_bind_eq_ok.mp hrest
  have ⟨r, hr, hrest⟩ := except_bind_eq_ok.mp hrest
  have ⟨leftMeta, hlmeta, hrest⟩ := except_bind_eq_ok.mp hrest
  have ⟨rightMeta, hrmeta, hlast⟩ := except_bind_eq_ok.mp hrest
  split at hlast
  · cases hlast
  · next htypes =>
    cases hlast
    refine ⟨leftMeta.dataType, isIn_requireColumn hl hlmeta, ?_⟩
    rw [not_not.mp htypes]
    exact isIn_requireColumn hr hrmeta

/-! ### FROM clauses -/

/-- The instances of the tables of a bound clause are numbered one after another. -/
lemma bindFromClause_instances {source : FromClause} {bound : BoundFromClause} {next stop : Nat}
    (h : self.bindFromClause source next = .ok (bound, stop)) :
    next ≤ stop ∧ (collectTables bound).map BoundTable.instanceId =
      (List.range' next (stop - next)).map TableInstanceId.mk := by
  induction source generalizing bound next stop with
  | table tableRef =>
    have ⟨tableMeta, _, heq⟩ := except_bind_eq_ok.mp h
    cases heq
    refine ⟨Nat.le_succ next, ?_⟩
    rw [Nat.add_sub_cancel_left]
    rfl
  | innerJoin left on right ihl ihr =>
    have ⟨⟨boundLeft, mid⟩, hl, hrest⟩ := except_bind_eq_ok.mp h
    have ⟨⟨boundRight, last⟩, hr, hrest⟩ := except_bind_eq_ok.mp hrest
    have ⟨boundOn, _, heq⟩ := except_bind_eq_ok.mp hrest
    cases heq
    have ⟨hlel, hidsl⟩ := ihl hl
    have ⟨hler, hidsr⟩ := ihr hr
    have hlen : stop - next = (mid - next) + (stop - mid) := by omega
    have hmid : mid = next + 1 * (mid - next) := by omega
    refine ⟨hlel.trans hler, ?_⟩
    rw [collectTables, List.map_append, hidsl, hidsr, ← List.map_append, hlen, ← List.range'_append,
      ← hmid]

lemma bindFromClause_scope {source : FromClause} {bound : BoundFromClause} {next stop : Nat}
    (h : self.bindFromClause source next = .ok (bound, stop)) : Scope (collectTables bound) := by
  rw [Scope, (bindFromClause_instances h).2]
  apply List.Nodup.map
  · intro a b hab
    exact congrArg TableInstanceId.id hab
  · exact List.nodup_range'

/-! ### Statements -/

/-- What a bound `SELECT` has been checked for. -/
structure SelectFits (database : DatabaseMetadata) (bound : BoundSelect) : Prop where
  scope : Scope (collectTables bound.from_)
  filter : ∀ f ∈ bound.filter, f.Fits database (collectTables bound.from_)
  groupBy : ∀ columns ∈ bound.groupBy, ∀ c ∈ columns,
    ∃ dataType, c.IsIn database (collectTables bound.from_) dataType
  projections : ∀ p ∈ bound.projections, p.Fits database (collectTables bound.from_)
  orderBy : ∀ order ∈ bound.orderBy,
    ∃ dataType, order.column.IsIn database (collectTables bound.from_) dataType
  groupedProjections : validateProjection bound.projections bound.groupBy = .ok ()
  groupedOrder : validateOrderBy bound.projections bound.groupBy bound.orderBy = .ok ()

lemma bindOptional_eq_ok {α β : Type} {f : α → Except BinderError β} {o : Option α} {b : β}
    {r : Option β} (h : bindOptional f o = .ok r) (hb : b ∈ r) : ∃ a ∈ o, f a = .ok b := by
  cases o with
  | none =>
    cases h
    cases hb
  | some a =>
    have ⟨b', hb', heq⟩ := except_bind_eq_ok.mp h
    cases heq
    cases hb
    exact ⟨a, rfl, hb'⟩

lemma bindProjection_fits {projection : Projection} {bound : BoundProjection}
    (h : self.bindProjection tables projection = .ok bound) : bound.Fits self.database tables := by
  unfold bindProjection at h
  split at h
  · cases h
    trivial
  · have ⟨c, hc, heq⟩ := except_bind_eq_ok.mp h
    cases heq
    exact bindColumnReference_isIn hc
  · cases h
    trivial
  · have ⟨c, hc, hrest⟩ := except_bind_eq_ok.mp h
    have ⟨columnMeta, hmeta, hlast⟩ := except_bind_eq_ok.mp hrest
    split at hlast
    · next htype =>
      cases hlast
      exact ⟨columnMeta.dataType, isIn_requireColumn hc hmeta, htype⟩
    · cases hlast
  · cases h

lemma bindSelect_fits {statement : SelectStatement} {bound : BoundSelect}
    (h : self.bindSelect statement = .ok bound) : SelectFits self.database bound := by
  have ⟨⟨from_, stop⟩, hfrom, h⟩ := except_bind_eq_ok.mp h
  have ⟨projections, hprojections, h⟩ := except_bind_eq_ok.mp h
  have ⟨filter, hfilter, h⟩ := except_bind_eq_ok.mp h
  have ⟨groupBy, hgroupBy, h⟩ := except_bind_eq_ok.mp h
  have ⟨_, hvalid, h⟩ := except_bind_eq_ok.mp h
  have ⟨orderBy, horderBy, h⟩ := except_bind_eq_ok.mp h
  have ⟨_, hvalidOrder, heq⟩ := except_bind_eq_ok.mp h
  cases heq
  refine ⟨bindFromClause_scope hfrom, ?_, ?_, ?_, ?_, hvalid, hvalidOrder⟩
  · intro f hf
    have ⟨_, _, hbind⟩ := bindOptional_eq_ok hfilter hf
    exact bindFilter_fits hbind
  · intro columns hcolumns c hc
    have ⟨_, _, hbind⟩ := bindOptional_eq_ok hgroupBy hcolumns
    have ⟨_, _, hcolumn⟩ := forall₂_mem_right (mapM_eq_ok.mp hbind) hc
    exact bindColumnReference_isIn hcolumn
  · intro p hp
    have ⟨_, _, hbind⟩ := forall₂_mem_right (mapM_eq_ok.mp hprojections) hp
    exact bindProjection_fits hbind
  · intro order horder
    have ⟨_, _, hbind⟩ := bindOptional_eq_ok horderBy horder
    have ⟨_, hcolumn, heq⟩ := except_bind_eq_ok.mp hbind
    cases heq
    exact bindColumnReference_isIn hcolumn

/-- What a bound `UPDATE` has been checked for. -/
structure UpdateFits (database : DatabaseMetadata) (bound : BoundUpdate) : Prop where
  scope : Scope (collectTables bound.from_)
  assignments : ∀ a ∈ bound.assignments, ∃ dataType,
    a.column.IsIn database (collectTables bound.from_) dataType ∧ a.value.HasType dataType
  filter : ∀ f ∈ bound.filter, f.Fits database (collectTables bound.from_)

lemma bindUpdate_fits {statement : UpdateStatement} {bound : BoundUpdate}
    (h : self.bindUpdate statement = .ok bound) : UpdateFits self.database bound := by
  have ⟨⟨from_, stop⟩, hfrom, h⟩ := except_bind_eq_ok.mp h
  have ⟨assignments, hassignments, h⟩ := except_bind_eq_ok.mp h
  have ⟨filter, hfilter, heq⟩ := except_bind_eq_ok.mp h
  cases heq
  refine ⟨bindFromClause_scope hfrom, ?_, ?_⟩
  · intro a ha
    have ⟨_, _, hbind⟩ := forall₂_mem_right (mapM_eq_ok.mp hassignments) ha
    exact bindAssignment_isIn hbind
  · intro f hf
    have ⟨_, _, hbind⟩ := bindOptional_eq_ok hfilter hf
    exact bindFilter_fits hbind

/-- What a bound `DELETE` has been checked for. -/
structure DeleteFits (database : DatabaseMetadata) (bound : BoundDelete) : Prop where
  scope : Scope (collectTables bound.from_)
  targets : ∀ table ∈ bound.targets, table ∈ collectTables bound.from_
  filter : ∀ f ∈ bound.filter, f.Fits database (collectTables bound.from_)

lemma leftmostTable_mem (from_ : BoundFromClause) : leftmostTable from_ ∈ collectTables from_ := by
  induction from_ with
  | table table => exact List.mem_singleton_self table
  | innerJoin left on right ihl ihr => exact List.mem_append_left _ ihl

lemma bindTarget_mem {name : String} {table : BoundTable}
    (h : self.bindTarget tables name = .ok table) : table ∈ tables := by
  have ⟨found, hfound, h⟩ := except_bind_eq_ok.mp h
  split at h
  · cases h
    exact findTable_mem hfound
  · cases h

lemma bindDelete_fits {statement : DeleteStatement} {bound : BoundDelete}
    (h : self.bindDelete statement = .ok bound) : DeleteFits self.database bound := by
  have ⟨⟨from_, stop⟩, hfrom, h⟩ := except_bind_eq_ok.mp h
  have hfits (targets : List BoundTable) (htargets : ∀ table ∈ targets, table ∈ collectTables from_)
      (h : (bindOptional (self.bindFilter (collectTables from_)) statement.filter >>= fun filter =>
        .ok ⟨targets, from_, filter⟩) = .ok bound) : DeleteFits self.database bound := by
    have ⟨filter, hfilter, heq⟩ := except_bind_eq_ok.mp h
    cases heq
    refine ⟨bindFromClause_scope hfrom, htargets, fun f hf => ?_⟩
    have ⟨_, _, hbind⟩ := bindOptional_eq_ok hfilter hf
    exact bindFilter_fits hbind
  simp only at h
  split at h
  · have ⟨targets, htargets, h⟩ := except_bind_eq_ok.mp h
    apply hfits targets _ h
    intro table htable
    have ⟨_, _, hbind⟩ := forall₂_mem_right (mapM_eq_ok.mp htargets) htable
    exact bindTarget_mem hbind
  · apply hfits _ _ h
    intro table htable
    rw [List.mem_singleton.mp htable]
    exact leftmostTable_mem from_

end Binder

end RdbRs
