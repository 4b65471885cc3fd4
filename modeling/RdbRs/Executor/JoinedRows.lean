import RdbRs.Executor.FromClause

/-!
# The rows of a FROM clause

The joined rows are the rows of the product of the tables that meet the conditions of the joins, each of them
once, however the joins are nested.
-/

namespace RdbRs

/-- The conditions of the joins of a clause. -/
def BoundFromClause.conditions : BoundFromClause → List BoundJoinCondition
  | table _ => []
  | innerJoin left on right => left.conditions ++ right.conditions ++ [on]

lemma BoundFromClause.Fits.conditions {database : DatabaseMetadata} {from_ : BoundFromClause}
    (h : from_.Fits database) : ∀ on ∈ from_.conditions, ∃ dataType,
      on.left.IsIn database (collectTables from_) dataType ∧
        on.right.IsIn database (collectTables from_) dataType := by
  induction from_ with
  | table t => rintro on ⟨⟩
  | innerJoin left on right ihl ihr =>
    obtain ⟨hl, hr, dataType, hleft, hright⟩ := h
    intro condition hmem
    rcases List.mem_append.mp hmem with hmem | hmem
    · rcases List.mem_append.mp hmem with hmem | hmem
      · obtain ⟨dataType', h₁, h₂⟩ := ihl hl condition hmem
        exact ⟨dataType', BoundColumnReference.isIn_append.mpr (.inl h₁),
          BoundColumnReference.isIn_append.mpr (.inl h₂)⟩
      · obtain ⟨dataType', h₁, h₂⟩ := ihr hr condition hmem
        exact ⟨dataType', BoundColumnReference.isIn_append.mpr (.inr h₁),
          BoundColumnReference.isIn_append.mpr (.inr h₂)⟩
    · rw [List.mem_singleton.mp hmem]
      exact ⟨dataType, hleft, hright⟩

namespace Executor

variable {self : Executor} {from_ : BoundFromClause} {tables tables' : List BoundTable}
  {row leftRow rightRow : QueryRow} {leftRows rightRows : List QueryRow}
  {tableRows : BoundTable → List TableRow} {on : BoundJoinCondition} {dataType : DataType}

/-- The columns of the condition have the same value in the row, and not `NULL`. -/
def Equates (self : Executor) (row : QueryRow) (on : BoundJoinCondition) : Prop :=
  (self.valueOf row on.left).compare .equal (self.valueOf row on.right)

/-! ### Conditions -/

lemma valueOf_joinRows (c : BoundColumnReference) :
    self.valueOf (joinRows leftRow rightRow) c = self.valueIn leftRow rightRow c := by
  have hfind : (joinRows leftRow rightRow).findTableRow c.instanceId =
      (leftRow.findTableRow c.instanceId).or (rightRow.findTableRow c.instanceId) := List.find?_append
  rw [valueIn]
  split
  · next hleft =>
    rw [valueOf, valueOf, hfind, Option.or_of_isSome hleft]
  · next hleft =>
    rw [Bool.not_eq_true, Option.isSome_eq_false_iff, Option.isNone_iff_eq_none] at hleft
    rw [valueOf, valueOf, hfind, hleft, Option.none_or]

lemma meets_iff : self.meets on leftRow rightRow ↔ self.Equates (joinRows leftRow rightRow) on := by
  rw [Equates, valueOf_joinRows, valueOf_joinRows, Value.compare_equal, meets]

/-- The condition of a join on the left holds of the left row. -/
lemma equates_left (hleft : leftRow.IsFrom self.database tables)
    (hl : on.left.IsIn self.database tables dataType) (hr : on.right.IsIn self.database tables dataType) :
    self.Equates (joinRows leftRow rightRow) on ↔ self.Equates leftRow on := by
  rw [Equates, Equates, valueOf_joinRows, valueOf_joinRows, valueIn_left hleft hl, valueIn_left hleft hr]

lemma equates_right (hscope : Scope (tables ++ tables')) (hleft : leftRow.IsFrom self.database tables)
    (hl : on.left.IsIn self.database tables' dataType) (hr : on.right.IsIn self.database tables' dataType) :
    self.Equates (joinRows leftRow rightRow) on ↔ self.Equates rightRow on := by
  rw [Equates, Equates, valueOf_joinRows, valueOf_joinRows, valueIn_right hscope hleft hl,
    valueIn_right hscope hleft hr]

/-- The conditions of the joins on the left hold of the left row. -/
lemma conditions_left (hfits : from_.Fits self.database)
    (hleft : leftRow.IsFrom self.database (collectTables from_)) :
    (∀ on ∈ from_.conditions, self.Equates (joinRows leftRow rightRow) on) ↔
      ∀ on ∈ from_.conditions, self.Equates leftRow on := by
  apply forall₂_congr
  intro on hon
  obtain ⟨dataType, hl, hr⟩ := hfits.conditions on hon
  exact equates_left hleft hl hr

lemma conditions_right (hfits : from_.Fits self.database) (hscope : Scope (tables ++ collectTables from_))
    (hleft : leftRow.IsFrom self.database tables) :
    (∀ on ∈ from_.conditions, self.Equates (joinRows leftRow rightRow) on) ↔
      ∀ on ∈ from_.conditions, self.Equates rightRow on := by
  apply forall₂_congr
  intro on hon
  obtain ⟨dataType, hl, hr⟩ := hfits.conditions on hon
  exact equates_right hscope hleft hl hr

/-! ### Joined rows -/

/-- One row of each table. -/
abbrev IsOneOfEach (tableRows : BoundTable → List TableRow) (tables : List BoundTable) (row : QueryRow) :
    Prop :=
  List.Forall₂ (fun table tableRow => tableRow ∈ tableRows table) tables row.tableRows

lemma IsOneOfEach.forall₂ {R : BoundTable → TableRow → Prop} (h : IsOneOfEach tableRows tables row)
    (hrows : ∀ table ∈ tables, ∀ tableRow ∈ tableRows table, R table tableRow) :
    List.Forall₂ R tables row.tableRows :=
  ((List.forall₂_and_left _ _).mpr ⟨fun _ hmem => hmem, h⟩).imp
    fun table tableRow hrow => hrows table hrow.1 tableRow hrow.2

lemma isOneOfEach_append : IsOneOfEach tableRows (tables ++ tables') row ↔ ∃ leftRow rightRow,
    IsOneOfEach tableRows tables leftRow ∧ IsOneOfEach tableRows tables' rightRow ∧
      joinRows leftRow rightRow = row := by
  constructor
  · intro h
    refine ⟨⟨row.tableRows.take tables.length⟩, ⟨row.tableRows.drop tables.length⟩, ?_, ?_, ?_⟩
    · exact (List.forall₂_take_append _ _ _ h.flip).flip
    · exact (List.forall₂_drop_append _ _ _ h.flip).flip
    · rw [joinRows, List.take_append_drop]
  · rintro ⟨leftRow, rightRow, hl, hr, rfl⟩
    exact List.rel_append hl hr

/-- The joined rows are the rows of the product that meet the conditions of all joins. -/
lemma mem_joinedRows (hfits : from_.Fits self.database) (hscope : Scope (collectTables from_))
    (htyped : ∀ table ∈ collectTables from_, ∀ tableRow ∈ tableRows table,
      tableRow.IsOf self.database table) :
    row ∈ self.joinedRows tableRows from_ ↔ IsOneOfEach tableRows (collectTables from_) row ∧
      ∀ on ∈ from_.conditions, self.Equates row on := by
  induction from_ generalizing row with
  | table table =>
    rw [joinedRows, List.mem_map]
    constructor
    · rintro ⟨tableRow, hmem, rfl⟩
      exact ⟨.cons hmem .nil, by rintro on ⟨⟩⟩
    · rintro ⟨hrows, -⟩
      obtain ⟨tableRow, rest, hmem, hrest, heq⟩ := List.forall₂_cons_left_iff.mp hrows
      rw [List.forall₂_nil_left_iff.mp hrest] at heq
      exact ⟨tableRow, hmem, by rw [← heq]⟩
  | innerJoin left on right ihl ihr =>
    have htypedL : ∀ table ∈ collectTables left, ∀ tableRow ∈ tableRows table,
        tableRow.IsOf self.database table := fun table ht => htyped table (List.mem_append_left _ ht)
    have htypedR : ∀ table ∈ collectTables right, ∀ tableRow ∈ tableRows table,
        tableRow.IsOf self.database table := fun table ht => htyped table (List.mem_append_right _ ht)
    have hl {row : QueryRow} := @ihl row hfits.1 (Scope.left hscope) htypedL
    have hr {row : QueryRow} := @ihr row hfits.2.1 (Scope.swap hscope).left htypedR
    rw [joinedRows, mem_joined, collectTables, isOneOfEach_append, BoundFromClause.conditions]
    constructor
    · rintro ⟨leftRow, hleft, rightRow, hright, hmeets, rfl⟩
      obtain ⟨hleftRows, hleftOn⟩ := hl.mp hleft
      obtain ⟨hrightRows, hrightOn⟩ := hr.mp hright
      have hfrom : leftRow.IsFrom self.database (collectTables left) := hleftRows.forall₂ htypedL
      refine ⟨⟨leftRow, rightRow, hleftRows, hrightRows, rfl⟩, ?_⟩
      rw [List.forall_mem_append, List.forall_mem_append, List.forall_mem_singleton]
      exact ⟨⟨(conditions_left hfits.1 hfrom).mpr hleftOn,
        (conditions_right hfits.2.1 hscope hfrom).mpr hrightOn⟩, meets_iff.mp hmeets⟩
    · rintro ⟨⟨leftRow, rightRow, hleftRows, hrightRows, rfl⟩, hall⟩
      rw [List.forall_mem_append, List.forall_mem_append, List.forall_mem_singleton] at hall
      obtain ⟨⟨hleftOn, hrightOn⟩, hon⟩ := hall
      have hfrom : leftRow.IsFrom self.database (collectTables left) := hleftRows.forall₂ htypedL
      refine ⟨leftRow, hl.mpr ⟨hleftRows, (conditions_left hfits.1 hfrom).mp hleftOn⟩, rightRow,
        hr.mpr ⟨hrightRows, (conditions_right hfits.2.1 hscope hfrom).mp hrightOn⟩, ?_, rfl⟩
      exact meets_iff.mpr hon

lemma joined_nodup {test : QueryRow → QueryRow → Bool} {n : Nat} (hleft : leftRows.Nodup)
    (hright : rightRows.Nodup) (hlen : ∀ row ∈ leftRows, row.tableRows.length = n) :
    (joined test leftRows rightRows).Nodup := by
  have hinj {l l' r r' : QueryRow} (hl : l ∈ leftRows) (hl' : l' ∈ leftRows)
      (heq : joinRows l r = joinRows l' r') : l = l' ∧ r = r' := by
    have hparts := List.append_inj (QueryRow.mk.inj heq) ((hlen l hl).trans (hlen l' hl').symm)
    cases l; cases l'; cases r; cases r'
    exact ⟨congrArg QueryRow.mk hparts.1, congrArg QueryRow.mk hparts.2⟩
  rw [joined, List.nodup_flatMap]
  constructor
  · intro l hl
    apply List.Nodup.map_on _ (hright.filter _)
    exact fun r _ r' _ heq => (hinj hl hl heq).2
  · apply hleft.imp_of_mem
    intro l l' hl hl' hne row hrow hrow'
    obtain ⟨r, -, heq⟩ := List.mem_map.mp hrow
    obtain ⟨r', -, heq'⟩ := List.mem_map.mp hrow'
    exact hne (hinj hl hl' (heq.trans heq'.symm)).1

/-- A joined row is there once. -/
lemma joinedRows_nodup (h : ∀ table ∈ collectTables from_, (tableRows table).Nodup) :
    (self.joinedRows tableRows from_).Nodup := by
  induction from_ with
  | table table =>
    apply (h table (List.mem_singleton_self table)).map
    rintro a b heq
    cases heq
    rfl
  | innerJoin left on right ihl ihr =>
    apply joined_nodup (n := (collectTables left).length)
    · exact ihl fun table ht => h table (List.mem_append_left _ ht)
    · exact ihr fun table ht => h table (List.mem_append_right _ ht)
    · intro row hrow
      exact (joinedRows_forall₂ (R := fun _ _ => True) (fun _ _ _ _ => trivial) row hrow).length_eq.symm

/-! ### Filters -/

lemma mem_passing {filter : Option BoundExpression} {rows : List QueryRow} :
    row ∈ self.passing filter rows ↔ row ∈ rows ∧ ∀ f ∈ filter, self.holds row f := by
  cases filter with
  | none => simp [passing]
  | some f => simp [passing, List.mem_filter]

lemma passing_nodup {filter : Option BoundExpression} {rows : List QueryRow} (h : rows.Nodup) :
    (self.passing filter rows).Nodup := by
  cases filter with
  | none => exact h
  | some f => exact h.filter _

end Executor

end RdbRs
