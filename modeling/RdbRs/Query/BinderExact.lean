import Mathlib.Data.List.Pairwise
import RdbRs.Query.Resolution

/-!
# The binder decides what statements resolve to

Function by function: the binder returns what a name, a clause or a statement resolves to, and where that is
nothing it fails with an error about the statement.
-/

namespace RdbRs

lemma find_key_eq_some {α β : Type} [DecidableEq β] {f : α → β} {l : List α} {a : α} {k : β}
    (h : (l.map f).Nodup) : (l.find? fun b => f b = k) = some a ↔ a ∈ l ∧ f a = k := by
  constructor
  · intro hfind
    have hkey := List.find?_some hfind
    exact ⟨List.mem_of_find?_eq_some hfind, of_decide_eq_true hkey⟩
  · rintro ⟨hmem, rfl⟩
    exact find_key_of_mem h hmem

section Metadata

variable {database : DatabaseMetadata} {tableMeta : TableMetadata} {column : ColumnMetadata} {name : String}

lemma table_eq_some : database.table name = some tableMeta ↔ tableMeta ∈ database.tables ∧ tableMeta.name = name :=
  find_key_eq_some database.consistent.tableNames

lemma tableById_eq_some {tableId : TableId} :
    database.tableById tableId = some tableMeta ↔ tableMeta ∈ database.tables ∧ tableMeta.id = tableId :=
  find_key_eq_some database.consistent.tableIds

/-- The ids of tables are different. -/
lemma table_unique {tableMeta' : TableMetadata} {tableId : TableId} (hmem : tableMeta ∈ database.tables)
    (hid : tableMeta.id = tableId) (hmem' : tableMeta' ∈ database.tables) (hid' : tableMeta'.id = tableId) :
    tableMeta' = tableMeta := by
  have hfind : database.tableById tableId = some tableMeta := tableById_eq_some.mpr ⟨hmem, hid⟩
  exact Option.some.inj ((tableById_eq_some.mpr ⟨hmem', hid'⟩).symm.trans hfind)

lemma column_eq_some : tableMeta.column name = some column ↔ column ∈ tableMeta.columns ∧ column.name = name :=
  find_key_eq_some tableMeta.distinctNames

lemma columnById_eq_some {columnId : ColumnId} :
    tableMeta.columnById columnId = some column ↔ column ∈ tableMeta.columns ∧ column.id = columnId :=
  find_key_eq_some tableMeta.distinctIds

end Metadata

/-! ### Values -/

lemma i32TryFrom_eq_some {v : Int64} {w : Int32} : i32TryFrom v = some w ↔ w.toInt = v.toInt := by
  have hlow := w.minValue_le_toInt
  have hhigh := w.toInt_le
  unfold i32TryFrom
  split
  · next hrange =>
    have htoInt : v.toInt32.toInt = v.toInt := by
      rw [Int64.toInt_toInt32]
      exact Int.bmod_eq_of_le (by omega) (by omega)
    rw [Option.some.injEq]
    constructor
    · rintro rfl
      exact htoInt
    · intro h
      exact Int32.toInt_inj.mp (htoInt.trans h.symm)
  · next hrange =>
    refine iff_of_false (fun heq => nomatch heq) fun h => hrange ?_
    rw [← h]
    exact ⟨hlow, hhigh⟩

/-- What a literal is worth in a column. -/
lemma decides_bindValue (literal : Literal) (column : ColumnMetadata) :
    Decides BinderError.OfStatement (literal.Denotes column.dataType) (bindValue literal column) := by
  unfold bindValue
  split
  · exact decides_ok .null fun _ h => by cases h; rfl
  · next v htype =>
    rw [htype]
    split
    · next w hw =>
      refine decides_ok (.int (i32TryFrom_eq_some.mp hw)) ?_
      rintro _ ⟨⟩
      next w' hw' => rw [Option.some.inj (hw.symm.trans (i32TryFrom_eq_some.mpr hw'))]
    · next hnone =>
      apply decides_error trivial
      rintro _ ⟨⟩
      next w hw => rw [i32TryFrom_eq_some.mpr hw] at hnone; cases hnone
  · next v htype =>
    rw [htype]
    exact decides_ok .bigInt fun _ h => by cases h; rfl
  · next text htype =>
    rw [htype]
    exact decides_ok .varchar fun _ h => by cases h; rfl
  · next hnull hint hbig htext =>
    apply decides_error trivial
    intro value h
    generalize hcolumn : column.dataType = dataType at h
    cases h with
    | null => exact hnull rfl
    | int _ => exact hint _ rfl hcolumn
    | bigInt => exact hbig _ rfl hcolumn
    | varchar => exact htext _ rfl hcolumn

/-! ### Names -/

/-- The table is one of the catalog. -/
def BoundTable.IsKnown (database : DatabaseMetadata) (table : BoundTable) : Prop :=
  ∃ tableMeta ∈ database.tables, tableMeta.id = table.tableId

/-- The tables among which references are looked up. -/
structure NameScope (database : DatabaseMetadata) (tables : List BoundTable) : Prop where
  instances : Scope tables
  known : ∀ table ∈ tables, table.IsKnown database
  names : DistinctNames database tables

lemma DistinctNames.unique {database : DatabaseMetadata} {tables : List BoundTable} {table table' : BoundTable}
    {name : String} (h : DistinctNames database tables) (hmem : table ∈ tables) (hmem' : table' ∈ tables)
    (hname : table.GoesBy database name) (hname' : table'.GoesBy database name) : table' = table := by
  by_contra hne
  have hsymm : Std.Symm fun table table' : BoundTable =>
      ∀ name, table.GoesBy database name → ¬ table'.GoesBy database name :=
    ⟨fun _ _ h name hname hname' => h name hname' hname⟩
  exact List.Pairwise.forall h hmem' hmem hne name hname' hname

namespace Binder

variable {self : Binder} {tables : List BoundTable} {table : BoundTable} {tableMeta : TableMetadata}
  {column : ColumnMetadata} {name : String} {reference : ColumnReference} {c : BoundColumnReference}

lemma decides_requireTable (self : Binder) (name : String) : Decides BinderError.OfStatement
    (fun tableMeta => tableMeta ∈ self.database.tables ∧ tableMeta.name = name) (self.requireTable name) := by
  have hrun : self.requireTable name = (self.database.table name).elim (.error (.tableNotFound name)) .ok := by
    unfold requireTable
    cases self.database.table name <;> rfl
  rw [hrun]
  exact decides_lookup trivial fun _ => table_eq_some

lemma requireTableById_eq (hmem : tableMeta ∈ self.database.tables) {tableId : TableId}
    (hid : tableMeta.id = tableId) : self.requireTableById tableId = .ok tableMeta := by
  rw [requireTableById_eq_ok, tableById_eq_some]
  exact ⟨hmem, hid⟩

lemma tableReferenceName_eq_ok :
    self.tableReferenceName table = .ok name ↔ table.GoesBy self.database name := by
  unfold tableReferenceName BoundTable.GoesBy
  cases table.alias_ with
  | some tableAlias => exact ⟨Except.ok.inj, congrArg Except.ok⟩
  | none =>
    simp only [except_bind_eq_ok, requireTableById_eq_ok, tableById_eq_some, Except.ok.injEq, and_assoc]

/-- A table of the catalog has a name. -/
lemma exists_tableReferenceName (h : table.IsKnown self.database) :
    ∃ name, self.tableReferenceName table = .ok name := by
  obtain ⟨tableMeta, hmem, hid⟩ := h
  unfold tableReferenceName
  cases table.alias_ with
  | some tableAlias => exact ⟨tableAlias, rfl⟩
  | none => exact ⟨tableMeta.name, by rw [requireTableById_eq hmem hid]; rfl⟩

/-- The loop over the tables finds one with the name, if there is one. -/
lemma findTable_cases (hknown : ∀ table ∈ tables, table.IsKnown self.database) (name : String) :
    (∃ table ∈ tables, table.GoesBy self.database name ∧ self.findTable name tables = .ok (some table)) ∨
      (∀ table ∈ tables, ¬ table.GoesBy self.database name) ∧ self.findTable name tables = .ok none := by
  induction tables with
  | nil => exact .inr ⟨fun _ h => (nomatch h), rfl⟩
  | cons first tables ih =>
    obtain ⟨qualifier, hqualifier⟩ := exists_tableReferenceName (hknown first List.mem_cons_self)
    have hstep : self.findTable name (first :: tables) =
        if qualifier = name then .ok (some first) else self.findTable name tables := by
      rw [findTable, hqualifier]
      rfl
    rw [hstep]
    split
    · next heq =>
      rw [heq] at hqualifier
      exact .inl ⟨first, List.mem_cons_self, tableReferenceName_eq_ok.mp hqualifier, rfl⟩
    · next hne =>
      rcases ih fun table htable => hknown table (List.mem_cons_of_mem first htable) with
        ⟨table, hmem, hname, hfind⟩ | ⟨hnone, hfind⟩
      · exact .inl ⟨table, List.mem_cons_of_mem first hmem, hname, hfind⟩
      · refine .inr ⟨?_, hfind⟩
        rw [List.forall_mem_cons]
        refine ⟨fun hname => hne ?_, hnone⟩
        rw [← tableReferenceName_eq_ok, hqualifier] at hname
        exact Except.ok.inj hname

/-- A target is the table that goes by the name. -/
lemma decides_bindTarget (hscope : NameScope self.database tables) (name : String) :
    Decides BinderError.OfStatement (fun table => table ∈ tables ∧ table.GoesBy self.database name)
      (self.bindTarget tables name) := by
  unfold bindTarget
  rcases findTable_cases hscope.known name with ⟨table, hmem, hname, hfind⟩ | ⟨hnone, hfind⟩
  · rw [hfind]
    exact decides_ok ⟨hmem, hname⟩ fun table' h => hscope.names.unique hmem h.1 hname h.2
  · rw [hfind]
    exact decides_error trivial fun table h => hnone table h.1 h.2

lemma decides_bindQualified (hscope : NameScope self.database tables) {qualifier : String}
    (hqualifier : reference.table = some qualifier) : Decides BinderError.OfStatement
      (reference.Denotes self.database tables) (self.bindQualifiedColumnReference tables reference qualifier) := by
  unfold bindQualifiedColumnReference
  rcases findTable_cases hscope.known qualifier with ⟨table, hmem, hname, hfind⟩ | ⟨hnone, hfind⟩
  · obtain ⟨tableMeta, htable, hid⟩ := hscope.known table hmem
    -- the table and its metadata are the only ones the reference can be about
    have hmean (c : BoundColumnReference) (h : reference.MayMean self.database tables c) :
        ∃ column ∈ tableMeta.columns, column.name = reference.column ∧
          c = ⟨table.tableId, table.instanceId, column.id⟩ := by
      obtain ⟨table', hmem', hname', tableMeta', htable', hid', hcolumn⟩ := h
      obtain rfl := hscope.names.unique hmem hmem' hname (hname' qualifier hqualifier)
      obtain rfl := table_unique htable hid htable' hid'
      exact hcolumn
    rw [hfind]
    change Decides _ _ (self.requireTableById table.tableId >>= _)
    rw [requireTableById_eq htable hid, except_ok_bind]
    cases hcolumn : tableMeta.column reference.column with
    | none =>
      apply decides_error trivial
      intro c h
      obtain ⟨column, hmem, hcname, -⟩ := hmean c h.1
      rw [column_eq_some.mpr ⟨hmem, hcname⟩] at hcolumn
      cases hcolumn
    | some column =>
      have hmay : reference.MayMean self.database tables ⟨tableMeta.id, table.instanceId, column.id⟩ := by
        refine ⟨table, hmem, ?_, tableMeta, htable, hid, column, (column_eq_some.mp hcolumn).1,
          (column_eq_some.mp hcolumn).2, by rw [hid]⟩
        intro qualifier' h
        obtain rfl := Option.some.inj (hqualifier.symm.trans h)
        exact hname
      have hunique (c : BoundColumnReference) (h : reference.MayMean self.database tables c) :
          c = ⟨tableMeta.id, table.instanceId, column.id⟩ := by
        obtain ⟨column', hmem', hname', rfl⟩ := hmean c h
        obtain rfl : column' = column :=
          Option.some.inj ((column_eq_some.mpr ⟨hmem', hname'⟩).symm.trans hcolumn)
        rw [hid]
      exact decides_ok ⟨hmay, hunique⟩ fun c h => hunique c h.1
  · rw [hfind]
    apply decides_error trivial
    rintro c ⟨⟨table, hmem, hname, -⟩, -⟩
    exact hnone table hmem (hname qualifier hqualifier)

/-- The columns with the name are those that an unqualified reference may mean. -/
lemma matchingColumns_cases (hinstances : Scope tables) (hknown : ∀ table ∈ tables, table.IsKnown self.database)
    (hunqualified : reference.table = none) :
    ∃ columns, self.matchingColumns reference.column tables = .ok columns ∧ columns.Nodup ∧
      ∀ c, c ∈ columns ↔ reference.MayMean self.database tables c := by
  induction tables with
  | nil =>
    refine ⟨[], rfl, List.nodup_nil, fun c => ?_⟩
    refine iff_of_false List.not_mem_nil ?_
    rintro ⟨_, hmem, -⟩
    exact List.not_mem_nil hmem
  | cons first tables ih =>
    obtain ⟨tableMeta, htable, hid⟩ := hknown first List.mem_cons_self
    have hnodup := List.nodup_cons.mp (show (List.map _ (first :: tables)).Nodup from hinstances)
    obtain ⟨columns, hcolumns, hdistinct, hmem⟩ := ih hnodup.2
      fun table h => hknown table (List.mem_cons_of_mem first h)
    rw [matchingColumns, requireTableById_eq htable hid, except_ok_bind, hcolumns, except_ok_bind]
    have hmay (c : BoundColumnReference) : reference.MayMean self.database (first :: tables) c ↔
        (∃ column ∈ tableMeta.columns, column.name = reference.column ∧
          c = ⟨tableMeta.id, first.instanceId, column.id⟩) ∨ reference.MayMean self.database tables c := by
      unfold ColumnReference.MayMean
      rw [List.exists_mem_cons_iff, hid]
      apply or_congr_left
      constructor
      · rintro ⟨-, tableMeta', htable', hid', hcolumn⟩
        obtain rfl := table_unique htable hid htable' hid'
        exact hcolumn
      · intro hcolumn
        refine ⟨?_, tableMeta, htable, hid, hcolumn⟩
        rw [hunqualified]
        rintro _ ⟨⟩
    cases hcolumn : tableMeta.column reference.column with
    | none =>
      refine ⟨columns, rfl, hdistinct, fun c => ?_⟩
      rw [hmay, hmem, or_iff_right]
      rintro ⟨column, hin, hname, -⟩
      rw [column_eq_some.mpr ⟨hin, hname⟩] at hcolumn
      cases hcolumn
    | some column =>
      refine ⟨_, rfl, List.nodup_cons.mpr ⟨?_, hdistinct⟩, fun c => ?_⟩
      · -- the other columns are of other instances
        intro hin
        obtain ⟨table, htable, -, _, -, -, _, -, -, heq⟩ := (hmem _).mp hin
        apply hnodup.1
        rw [(BoundColumnReference.mk.inj heq).2.1]
        exact List.mem_map_of_mem htable
      · rw [List.mem_cons, hmay, hmem]
        apply or_congr_left
        constructor
        · rintro rfl
          exact ⟨column, (column_eq_some.mp hcolumn).1, (column_eq_some.mp hcolumn).2, rfl⟩
        · rintro ⟨column', hin, hname, rfl⟩
          rw [column_eq_some.mpr ⟨hin, hname⟩, Option.some.injEq] at hcolumn
          rw [hcolumn]

lemma decides_bindUnqualified (hscope : NameScope self.database tables) (hunqualified : reference.table = none) :
    Decides BinderError.OfStatement (reference.Denotes self.database tables)
      (self.bindUnqualifiedColumnReference tables reference) := by
  obtain ⟨columns, hcolumns, hdistinct, hmem⟩ :=
    matchingColumns_cases hscope.instances hscope.known hunqualified
  unfold bindUnqualifiedColumnReference
  rw [hcolumns, except_ok_bind]
  have hdenotes (c : BoundColumnReference) :
      reference.Denotes self.database tables c ↔ c ∈ columns ∧ ∀ c' ∈ columns, c' = c := by
    unfold ColumnReference.Denotes
    rw [← hmem]
    exact and_congr_right fun _ => forall_congr' fun c' => by rw [hmem]
  -- none, one, or more than one
  rcases columns with _ | ⟨first, _ | ⟨second, rest⟩⟩
  · exact decides_error trivial fun c h => List.not_mem_nil ((hdenotes c).mp h).1
  · refine ⟨(hdenotes first).mpr ⟨List.mem_singleton_self first, fun c' h => List.mem_singleton.mp h⟩, ?_⟩
    exact fun c h => List.mem_singleton.mp ((hdenotes c).mp h).1
  · apply decides_error trivial
    intro c h
    have hall := ((hdenotes c).mp h).2
    have hfirst := hall first List.mem_cons_self
    have hsecond := hall second (List.mem_cons_of_mem first List.mem_cons_self)
    rw [List.nodup_cons, hfirst, hsecond] at hdistinct
    exact hdistinct.1 List.mem_cons_self

/-- A reference is bound to the column it denotes. -/
lemma decides_bindColumnReference (hscope : NameScope self.database tables) (reference : ColumnReference) :
    Decides BinderError.OfStatement (reference.Denotes self.database tables)
      (self.bindColumnReference tables reference) := by
  unfold bindColumnReference
  split
  · next hqualifier => exact decides_bindQualified hscope hqualifier
  · next hnone => exact decides_bindUnqualified hscope hnone

/-- The metadata of a column that a reference denotes is found. -/
lemma decides_requireColumn (h : reference.Denotes self.database tables c) :
    Decides BinderError.OfStatement (c.Is self.database) (self.requireColumn c) := by
  obtain ⟨⟨table, -, -, tableMeta, htable, hid, column, hcolumn, -, rfl⟩, -⟩ := h
  have hfind : tableMeta.columnById column.id = some column := columnById_eq_some.mpr ⟨hcolumn, rfl⟩
  have hrun : self.requireColumn ⟨table.tableId, table.instanceId, column.id⟩ = .ok column := by
    unfold requireColumn
    rw [requireTableById_eq htable hid, except_ok_bind, hfind]
  rw [hrun]
  refine ⟨⟨tableMeta, htable, hid, hcolumn, rfl⟩, ?_⟩
  rintro column' ⟨tableMeta', htable', hid', hcolumn', hcid⟩
  obtain rfl := table_unique htable hid htable' hid'
  exact Option.some.inj ((columnById_eq_some.mpr ⟨hcolumn', hcid⟩).symm.trans hfind)

/-! ### FROM clauses -/

/-- The loop over the names fails if one of them has been seen. -/
lemma decides_checkReferences (hknown : ∀ table ∈ tables, table.IsKnown self.database) (seen : List String) :
    Decides BinderError.OfStatement (fun _ => DistinctNames self.database tables ∧
      ∀ table ∈ tables, ∀ name, table.GoesBy self.database name → name ∉ seen) (self.checkReferences seen tables) := by
  induction tables generalizing seen with
  | nil => exact decides_ok ⟨List.Pairwise.nil, fun _ h => nomatch h⟩ fun _ _ => rfl
  | cons first tables ih =>
    obtain ⟨qualifier, hqualifier⟩ := exists_tableReferenceName (hknown first List.mem_cons_self)
    have hstep : self.checkReferences seen (first :: tables) =
        if qualifier ∈ seen then .error (.duplicateTableReference qualifier)
        else self.checkReferences (qualifier :: seen) tables := by
      rw [checkReferences, hqualifier]
      rfl
    have hfirst (name : String) : first.GoesBy self.database name ↔ qualifier = name := by
      rw [← tableReferenceName_eq_ok, hqualifier, Except.ok.injEq]
    rw [hstep]
    split
    · next hseen =>
      apply decides_error trivial
      rintro _ ⟨-, hfresh⟩
      exact hfresh first List.mem_cons_self qualifier ((hfirst qualifier).mpr rfl) hseen
    · next hfresh =>
      have hrest := ih (fun table h => hknown table (List.mem_cons_of_mem first h)) (qualifier :: seen)
      apply hrest.congr
      intro _
      unfold DistinctNames
      rw [List.pairwise_cons, List.forall_mem_cons]
      simp only [hfirst, List.mem_cons, not_or, forall_eq']
      constructor
      · rintro ⟨hdistinct, hnew⟩
        refine ⟨⟨fun table hmem hname => (hnew table hmem qualifier hname).1 rfl, hdistinct⟩, hfresh, ?_⟩
        exact fun table hmem name hname => (hnew table hmem name hname).2
      · rintro ⟨⟨hother, hdistinct⟩, -, hnew⟩
        refine ⟨hdistinct, fun table hmem name hname => ⟨?_, hnew table hmem name hname⟩⟩
        rintro rfl
        exact hother table hmem hname

lemma decides_bindJoinCondition {left right : BoundFromClause} (condition : JoinCondition)
    (hinstances : Scope (collectTables left ++ collectTables right))
    (hknown : ∀ table ∈ collectTables left ++ collectTables right, table.IsKnown self.database) :
    Decides BinderError.OfStatement
      (condition.Resolves self.database (collectTables left ++ collectTables right))
      (self.bindJoinCondition left right condition) := by
  have hscope (h : DistinctNames self.database (collectTables left ++ collectTables right)) :
      NameScope self.database (collectTables left ++ collectTables right) := ⟨hinstances, hknown, h⟩
  unfold bindJoinCondition
  apply Decides.congr
  · apply (decides_checkReferences hknown []).bind
    intro _ h
    apply (decides_bindColumnReference (hscope h.1) condition.left).bind
    intro l hl
    apply (decides_bindColumnReference (hscope h.1) condition.right).bind
    intro r hr
    apply (decides_requireColumn hl).bind
    intro leftMeta _
    apply (decides_requireColumn hr).bind
    intro rightMeta _
    rw [ite_not]
    exact decides_guard trivial Iff.rfl
  · rintro ⟨l, r⟩
    constructor
    · rintro ⟨-, ⟨hdistinct, -⟩, _, hl, _, hr, leftMeta, hleft, rightMeta, hright, htypes, ⟨⟩⟩
      exact ⟨hdistinct, hl, hr, leftMeta, rightMeta, hleft, hright, htypes⟩
    · rintro ⟨hdistinct, hl, hr, leftMeta, rightMeta, hleft, hright, htypes⟩
      exact ⟨(), ⟨hdistinct, fun _ _ _ _ => List.not_mem_nil⟩, l, hl, r, hr, leftMeta, hleft, rightMeta, hright,
        htypes, rfl⟩

/-- The instances of the tables are numbered from `next` to `stop`. -/
def NumberedFrom (next : Nat) (tables : List BoundTable) (stop : Nat) : Prop :=
  tables.map (fun table => table.instanceId.id) = List.range' next tables.length ∧ stop = next + tables.length

lemma NumberedFrom.scope {next stop : Nat} (h : NumberedFrom next tables stop) : Scope tables := by
  have hnodup : ((tables.map BoundTable.instanceId).map TableInstanceId.id).Nodup := by
    rw [List.map_map]
    change (tables.map fun table => table.instanceId.id).Nodup
    rw [h.1]
    exact List.nodup_range'
  exact hnodup.of_map _

lemma numberedFrom_append {next mid stop : Nat} {left right : List BoundTable} (hmid : mid = next + left.length) :
    NumberedFrom next (left ++ right) stop ↔ NumberedFrom next left mid ∧ NumberedFrom mid right stop := by
  subst hmid
  unfold NumberedFrom
  rw [List.map_append, List.length_append, ← List.range'_append_1]
  constructor
  · rintro ⟨hids, hstop⟩
    obtain ⟨hleft, hright⟩ := List.append_inj hids (by rw [List.length_map, List.length_range'])
    exact ⟨⟨hleft, rfl⟩, hright, by omega⟩
  · rintro ⟨⟨hleft, -⟩, hright, hstop⟩
    exact ⟨by rw [hleft, hright], by omega⟩

lemma known_of_resolves {source : FromClause} {bound : BoundFromClause} (h : source.Resolves self.database bound) :
    ∀ table ∈ collectTables bound, table.IsKnown self.database := by
  induction h with
  | table hmem hname =>
    intro table htable
    rw [List.mem_singleton.mp htable]
    exact ⟨_, hmem, rfl⟩
  | innerJoin _ _ _ ihl ihr =>
    intro table htable
    rcases List.mem_append.mp htable with hleft | hright
    · exact ihl table hleft
    · exact ihr table hright

/-- A clause is bound to what it resolves to, with its tables numbered in order. -/
lemma decides_bindFromClause (source : FromClause) (next : Nat) : Decides BinderError.OfStatement
    (fun p : BoundFromClause × Nat => source.Resolves self.database p.1 ∧
      NumberedFrom next (collectTables p.1) p.2)
    (self.bindFromClause source next) := by
  induction source generalizing next with
  | table reference =>
    unfold bindFromClause
    apply Decides.congr
    · exact (decides_requireTable self reference.name).bind fun _ _ => decides_eq _
    · rintro ⟨bound, stop⟩
      constructor
      · rintro ⟨tableMeta, ⟨hmem, hname⟩, ⟨⟩⟩
        exact ⟨.table hmem hname, rfl, rfl⟩
      · rintro ⟨hresolves, hids, hstop⟩
        cases hresolves with
        | @table _ tableMeta instanceId hmem hname =>
          obtain rfl : instanceId = ⟨next⟩ := congrArg TableInstanceId.mk (List.singleton_inj.mp hids)
          exact ⟨tableMeta, ⟨hmem, hname⟩, congrArg (Prod.mk _) hstop⟩
  | innerJoin left on right ihl ihr =>
    unfold bindFromClause
    apply Decides.congr
    · apply Decides.bind (ihl next) (S := fun p b => ∃ q : BoundFromClause × Nat,
        (right.Resolves self.database q.1 ∧ NumberedFrom p.2 (collectTables q.1) q.2) ∧
          ∃ boundOn, on.Resolves self.database (collectTables p.1 ++ collectTables q.1) boundOn ∧
            b = (.innerJoin p.1 boundOn q.1, q.2))
      rintro ⟨boundLeft, mid⟩ ⟨hleft, hlnum⟩
      apply Decides.bind (ihr mid)
      rintro ⟨boundRight, stop⟩ ⟨hright, hrnum⟩
      have hnum := (numberedFrom_append hlnum.2).mpr ⟨hlnum, hrnum⟩
      have hknown : ∀ table ∈ collectTables boundLeft ++ collectTables boundRight,
          table.IsKnown self.database := by
        intro table htable
        rcases List.mem_append.mp htable with hl | hr
        · exact known_of_resolves hleft table hl
        · exact known_of_resolves hright table hr
      exact (decides_bindJoinCondition on hnum.scope hknown).bind fun _ _ => decides_eq _
    · rintro ⟨bound, stop⟩
      constructor
      · rintro ⟨⟨boundLeft, mid⟩, ⟨hleft, hlnum⟩, ⟨boundRight, stop⟩, ⟨hright, hrnum⟩, boundOn, hon, ⟨⟩⟩
        exact ⟨.innerJoin hleft hright hon, (numberedFrom_append hlnum.2).mpr ⟨hlnum, hrnum⟩⟩
      · rintro ⟨hresolves, hnum⟩
        cases hresolves with
        | innerJoin hleft hright hon =>
          obtain ⟨hlnum, hrnum⟩ := (numberedFrom_append rfl).mp hnum
          exact ⟨(_, _), ⟨hleft, hlnum⟩, (_, _), ⟨hright, hrnum⟩, _, hon, rfl⟩

/-! ### Clauses -/

lemma decides_bindOptional {α β : Type} {R : α → β → Prop} {f : α → Except BinderError β} {o : Option α}
    (h : ∀ a ∈ o, Decides BinderError.OfStatement (R a) (f a)) :
    Decides BinderError.OfStatement (Option.Rel R o) (bindOptional f o) := by
  cases o with
  | none => exact decides_ok .none fun r h => by cases h; rfl
  | some a =>
    refine (h a rfl).wrap (fun _ => .some) ?_
    rintro _ ⟨hb⟩
    exact ⟨_, hb, rfl⟩

section Clauses

variable (hscope : NameScope self.database tables)
include hscope

lemma decides_bindFilter (filter : Expression) : Decides BinderError.OfStatement
    (filter.Resolves self.database tables) (self.bindFilter tables filter) := by
  have hconnective {left right : Expression} {make : BoundExpression → BoundExpression → BoundExpression}
      (ihl : Decides BinderError.OfStatement (left.Resolves self.database tables) (self.bindFilter tables left))
      (ihr : Decides BinderError.OfStatement (right.Resolves self.database tables) (self.bindFilter tables right)) :=
    ihl.bind fun l _ => ihr.bind fun r _ => decides_eq (make l r)
  induction filter with
  | column reference => exact decides_error trivial fun _ h => nomatch h
  | literal value => exact decides_error trivial fun _ h => nomatch h
  | comparison left operator right =>
    unfold bindFilter
    split
    · next heq => cases heq
    · next heq => cases heq
    · next reference operator literal heq =>
      obtain ⟨rfl, rfl, rfl⟩ := Expression.comparison.inj heq
      apply Decides.congr
      · apply (decides_bindColumnReference hscope reference).bind
        intro c hc
        apply (decides_requireColumn hc).bind
        intro column _
        exact (decides_bindValue literal column).bind fun value _ => decides_eq _
      · intro bound
        constructor
        · rintro ⟨c, hc, column, hcolumn, value, hvalue, rfl⟩
          exact .comparison hc hcolumn hvalue
        · intro h
          cases h with
          | comparison hc hcolumn hvalue => exact ⟨_, hc, _, hcolumn, _, hvalue, rfl⟩
    · next hshape =>
      apply decides_error trivial
      rintro _ ⟨⟩
      exact hshape _ _ _ rfl
  | and left right ihl ihr =>
    apply (hconnective ihl ihr).congr
    intro bound
    constructor
    · rintro ⟨l, hl, r, hr, rfl⟩
      exact .and hl hr
    · intro h
      cases h with
      | and hl hr => exact ⟨_, hl, _, hr, rfl⟩
  | or left right ihl ihr =>
    apply (hconnective ihl ihr).congr
    intro bound
    constructor
    · rintro ⟨l, hl, r, hr, rfl⟩
      exact .or hl hr
    · intro h
      cases h with
      | or hl hr => exact ⟨_, hl, _, hr, rfl⟩

lemma decides_bindProjection (projection : Projection) : Decides BinderError.OfStatement
    (projection.Resolves self.database tables) (self.bindProjection tables projection) := by
  unfold bindProjection
  split
  · exact decides_ok .all fun _ h => by cases h; rfl
  · next reference =>
    refine (decides_bindColumnReference hscope reference).wrap (fun _ => .column) ?_
    intro _ h
    cases h with
    | column hc => exact ⟨_, hc, rfl⟩
  · exact decides_ok .countAll fun _ h => by cases h; rfl
  · next reference =>
    apply Decides.congr
    · apply (decides_bindColumnReference hscope reference).bind
      intro c hc
      apply (decides_requireColumn hc).bind
      intro column _
      exact decides_guard trivial Iff.rfl
    · intro bound
      constructor
      · rintro ⟨c, hc, column, hcolumn, htype, rfl⟩
        exact .sum hc hcolumn htype
      · intro h
        cases h with
        | sum hc hcolumn htype => exact ⟨_, hc, _, hcolumn, htype, rfl⟩
  · next hshape =>
    apply decides_error trivial
    rintro _ ⟨⟩
    exact hshape _ rfl

lemma decides_bindGroupBy (columns : Option (List ColumnReference)) : Decides BinderError.OfStatement
    (Option.Rel (List.Forall₂ (ColumnReference.Denotes self.database tables)) columns)
    (self.bindGroupBy tables columns) :=
  decides_bindOptional fun _ _ => decides_mapM fun reference _ => decides_bindColumnReference hscope reference

lemma decides_bindOrderBy (order : Option OrderBy) : Decides BinderError.OfStatement
    (Option.Rel (OrderBy.Resolves self.database tables) order) (self.bindOrderBy tables order) := by
  apply decides_bindOptional
  intro order _
  refine (decides_bindColumnReference hscope order.column).wrap (fun _ hc => ⟨hc, rfl⟩) ?_
  rintro ⟨c, direction⟩ ⟨hc, hdirection⟩
  exact ⟨c, hc, congrArg (BoundOrderBy.mk c) hdirection⟩

lemma decides_bindAssignment (assignment : Assignment) : Decides BinderError.OfStatement
    (assignment.Resolves self.database tables) (self.bindAssignment tables assignment) := by
  apply Decides.congr
  · apply (decides_bindColumnReference hscope assignment.column).bind
    intro c hc
    apply (decides_requireColumn hc).bind
    intro column _
    exact (decides_bindValue assignment.value column).bind fun value _ => decides_eq (BoundAssignment.mk c value)
  · rintro ⟨c, value⟩
    constructor
    · rintro ⟨_, hc, column, hcolumn, _, hvalue, ⟨⟩⟩
      exact ⟨hc, column, hcolumn, hvalue⟩
    · rintro ⟨hc, column, hcolumn, hvalue⟩
      exact ⟨c, hc, column, hcolumn, value, hvalue, rfl⟩

end Clauses

/-! ### Grouping -/

section Grouping

variable {bound : BoundSelect}

lemma grouped_iff :
    bound.Grouped ↔ (bound.projections.any BoundProjection.isAggregate || bound.groupBy.isSome) = true := by
  rw [BoundSelect.Grouped, Bool.or_eq_true, List.any_eq_true, or_comm]
  apply or_congr_left
  constructor
  · rintro ⟨aggregate, hmem⟩
    exact ⟨_, hmem, rfl⟩
  · rintro ⟨p, hmem, haggregate⟩
    cases p with
    | all => cases haggregate
    | column c => cases haggregate
    | aggregate aggregate => exact ⟨aggregate, hmem⟩

lemma groupsBy_iff {c : BoundColumnReference} :
    bound.GroupsBy c ↔ (bound.groupBy.any fun columns => columns.contains c) = true := by
  unfold BoundSelect.GroupsBy
  cases bound.groupBy with
  | none =>
    refine iff_of_false ?_ Bool.false_ne_true
    rintro ⟨_, h, -⟩
    cases h
  | some columns => simp

lemma decides_validateProjection (bound : BoundSelect) : Decides BinderError.OfStatement
    (fun _ => bound.Grouped → ∀ p ∈ bound.projections, (∃ c, p = .column c ∧ bound.GroupsBy c) ∨
      ∃ aggregate, p = .aggregate aggregate) (validateProjection bound.projections bound.groupBy) := by
  apply decides_check trivial
  rw [List.all_eq_true, grouped_iff]
  constructor
  · intro h p hmem
    cases p with
    | all => simpa [BoundProjection.fits] using fun hgrouped => h hgrouped .all hmem
    | aggregate aggregate => rfl
    | column c =>
      have hc : _ → bound.GroupsBy c := fun hgrouped => by simpa using h hgrouped (.column c) hmem
      rw [groupsBy_iff] at hc
      rw [BoundProjection.fits, Bool.not_eq_true', Bool.and_eq_false_iff, Bool.not_eq_false']
      exact or_iff_not_imp_left.mpr fun hgrouped => hc (Bool.of_not_eq_false hgrouped)
  · intro h hgrouped p hmem
    have hfits := h p hmem
    cases p with
    | all =>
      rw [BoundProjection.fits, hgrouped] at hfits
      cases hfits
    | aggregate aggregate => exact .inr ⟨aggregate, rfl⟩
    | column c =>
      rw [BoundProjection.fits, hgrouped, Bool.true_and, Bool.not_not] at hfits
      exact .inl ⟨c, rfl, groupsBy_iff.mpr hfits⟩

lemma decides_validateOrderBy (bound : BoundSelect) : Decides BinderError.OfStatement
    (fun _ => bound.Grouped → ∀ order ∈ bound.orderBy, bound.GroupsBy order.column)
    (validateOrderBy bound.projections bound.groupBy bound.orderBy) := by
  unfold validateOrderBy
  split
  · next hnone =>
    rw [hnone]
    exact decides_ok (fun _ _ h => nomatch h) fun _ _ => rfl
  · next order columns horder hcolumns =>
    apply decides_check trivial
    simp only [horder, Option.mem_some_iff, forall_eq']
    rw [grouped_iff, groupsBy_iff, hcolumns]
    simp
  · next order horder hcolumns =>
    rw [← ite_not]
    apply decides_check trivial
    simp only [horder, Option.mem_some_iff, forall_eq']
    rw [grouped_iff, groupsBy_iff, hcolumns]
    simp

end Grouping

/-! ### Statements -/

lemma names_of_resolves {source : FromClause} {bound : BoundFromClause} (h : source.Resolves self.database bound) :
    DistinctNames self.database (collectTables bound) := by
  cases h with
  | table _ _ => exact List.pairwise_singleton _ _
  | innerJoin _ _ hon => exact hon.names

lemma numbered_iff {bound : BoundFromClause} :
    bound.Numbered ↔ ∃ stop, NumberedFrom 0 (collectTables bound) stop := by
  unfold BoundFromClause.Numbered NumberedFrom
  rw [List.range_eq_range', exists_and_left]
  exact (and_iff_left ⟨_, rfl⟩).symm

/-- The clause of a statement is bound first, and the rest of the statement among its tables. -/
lemma decides_bindFrom {γ : Type} {S : BoundFromClause → γ → Prop}
    {f : BoundFromClause × Nat → Except BinderError γ} (source : FromClause)
    (hf : ∀ from_ stop, NameScope self.database (collectTables from_) →
      Decides BinderError.OfStatement (S from_) (f (from_, stop))) :
    Decides BinderError.OfStatement
      (fun c => ∃ from_, (source.Resolves self.database from_ ∧ from_.Numbered) ∧ S from_ c)
      (self.bindFromClause source 0 >>= f) := by
  apply Decides.congr
  · apply (decides_bindFromClause source 0).bind_fst
    intro from_ stop ⟨hresolves, hnum⟩
    exact hf from_ stop ⟨hnum.scope, known_of_resolves hresolves, names_of_resolves hresolves⟩
  · intro c
    simp only [numbered_iff, exists_and_left]

lemma decides_bindSelect (s : SelectStatement) :
    Decides BinderError.OfStatement (s.Resolves self.database) (self.bindSelect s) := by
  apply Decides.congr
  · apply decides_bindFrom s.from_
    intro from_ _ hscope
    apply (decides_mapM fun p _ => decides_bindProjection hscope p).bind
    intro projections _
    apply (decides_bindOptional fun filter _ => decides_bindFilter hscope filter).bind
    intro filter _
    apply (decides_bindGroupBy hscope s.groupBy).bind
    intro groupBy _
    apply (decides_validateProjection ⟨projections, from_, filter, groupBy, none, none⟩).bind
    intro _ _
    apply (decides_bindOrderBy hscope s.orderBy).bind
    intro orderBy _
    apply (decides_validateOrderBy ⟨projections, from_, filter, groupBy, orderBy, none⟩).bind
    intro _ _
    exact decides_eq _
  · rintro ⟨projections, from_, filter, groupBy, orderBy, limit⟩
    constructor
    · rintro ⟨_, ⟨hfrom, hnum⟩, _, hprojections, _, hfilter, _, hgroup, _, hshown, _, horder, _, hordered, ⟨⟩⟩
      exact ⟨hfrom, hnum, hprojections, hfilter, hgroup, hshown, horder, hordered, rfl⟩
    · rintro ⟨hfrom, hnum, hprojections, hfilter, hgroup, hshown, horder, hordered, rfl⟩
      exact ⟨from_, ⟨hfrom, hnum⟩, projections, hprojections, filter, hfilter, groupBy, hgroup, (), hshown, orderBy,
        horder, (), hordered, rfl⟩

lemma decides_bindUpdate (s : UpdateStatement) :
    Decides BinderError.OfStatement (s.Resolves self.database) (self.bindUpdate s) := by
  apply Decides.congr
  · apply decides_bindFrom s.from_
    intro from_ _ hscope
    apply (decides_mapM fun assignment _ => decides_bindAssignment hscope assignment).bind
    intro assignments _
    apply (decides_bindOptional fun filter _ => decides_bindFilter hscope filter).bind
    intro filter _
    exact decides_eq _
  · rintro ⟨from_, assignments, filter⟩
    constructor
    · rintro ⟨_, ⟨hfrom, hnum⟩, _, hassignments, _, hfilter, ⟨⟩⟩
      exact ⟨hfrom, hnum, hassignments, hfilter⟩
    · rintro ⟨hfrom, hnum, hassignments, hfilter⟩
      exact ⟨from_, ⟨hfrom, hnum⟩, assignments, hassignments, filter, hfilter, rfl⟩

lemma decides_bindDelete (s : DeleteStatement) :
    Decides BinderError.OfStatement (s.Resolves self.database) (self.bindDelete s) := by
  have htargets (from_ : BoundFromClause) (hscope : NameScope self.database (collectTables from_)) :
      Decides BinderError.OfStatement (fun targets => s.Targets self.database ⟨targets, from_, none⟩)
        (s.targets.elim (.ok [leftmostTable from_]) fun names => names.mapM (self.bindTarget (collectTables from_))) := by
    unfold DeleteStatement.Targets
    cases s.targets with
    | some names => exact decides_mapM fun name _ => decides_bindTarget hscope name
    | none => exact decides_eq _
  have hrun : self.bindDelete s = self.bindFromClause s.from_ 0 >>= fun p =>
      s.targets.elim (.ok [leftmostTable p.1]) (fun names => names.mapM (self.bindTarget (collectTables p.1))) >>=
      fun targets =>
      bindOptional (self.bindFilter (collectTables p.1)) s.filter >>= fun filter =>
      .ok ⟨targets, p.1, filter⟩ := by
    unfold bindDelete
    cases s.targets <;> rfl
  rw [hrun]
  apply Decides.congr
  · apply decides_bindFrom s.from_
    intro from_ _ hscope
    apply (htargets from_ hscope).bind
    intro targets _
    apply (decides_bindOptional fun filter _ => decides_bindFilter hscope filter).bind
    intro filter _
    exact decides_eq (BoundDelete.mk targets from_ filter)
  · rintro ⟨targets, from_, filter⟩
    constructor
    · rintro ⟨_, ⟨hfrom, hnum⟩, _, htargets, _, hfilter, ⟨⟩⟩
      exact ⟨hfrom, hnum, htargets, hfilter⟩
    · rintro ⟨hfrom, hnum, htargets, hfilter⟩
      exact ⟨from_, ⟨hfrom, hnum⟩, targets, htargets, filter, hfilter, rfl⟩

lemma decides_bindInsert (s : InsertStatement) :
    Decides BinderError.OfStatement (s.Resolves self.database) (self.bindInsert s) := by
  unfold bindInsert
  apply Decides.congr
  · apply (decides_requireTable self s.table).bind
    intro tableMeta _
    rw [ite_not]
    apply Decides.congr (R := fun bound => s.literals.length = tableMeta.columns.length ∧
      ∃ values, List.Forall₂ (fun (p : Literal × ColumnMetadata) value => p.1.Denotes p.2.dataType value)
        (s.literals.zip tableMeta.columns) values ∧ bound = ⟨tableMeta.id, values⟩)
    · split
      · next hlength =>
        apply ((decides_mapM fun p _ => decides_bindValue p.1 p.2).bind fun values _ => decides_eq _).congr
        exact fun bound => (and_iff_right hlength).symm
      · next hlength => exact decides_error trivial fun bound h => hlength h.1
    · exact fun bound => Iff.rfl
  · rintro ⟨tableId, values⟩
    constructor
    · rintro ⟨tableMeta, ⟨hmem, hname⟩, hlength, _, hvalues, ⟨⟩⟩
      exact ⟨tableMeta, hmem, hname, rfl, hlength, hvalues⟩
    · rintro ⟨tableMeta, hmem, hname, rfl, hlength, hvalues⟩
      exact ⟨tableMeta, ⟨hmem, hname⟩, hlength, values, hvalues, rfl⟩

lemma decides_bindCreateTable (s : CreateTableStatement) :
    Decides BinderError.OfStatement (s.Resolves self.database) (self.bindCreateTable s) := by
  have hfresh : (∀ tableMeta ∈ self.database.tables, tableMeta.name ≠ s.table) ↔
      ¬ (self.database.table s.table).isSome = true := by
    rw [Option.not_isSome_iff_eq_none, DatabaseMetadata.table, List.find?_eq_none]
    simp only [decide_eq_true_eq, ne_eq]
  unfold bindCreateTable
  rw [← ite_not]
  apply (decides_guard trivial hfresh).congr
  intro bound
  exact ⟨fun h => ⟨h.1, h.2⟩, fun h => ⟨h.fresh, h.eq⟩⟩

lemma decides_bindCreateIndex (s : CreateIndexStatement) :
    Decides BinderError.OfStatement (s.Resolves self.database) (self.bindCreateIndex s) := by
  have hcolumn (tableMeta : TableMetadata) : Decides BinderError.OfStatement
      (fun column => column ∈ tableMeta.columns ∧ column.name = s.columnName)
      (requireColumnByName tableMeta s.columnName) := by
    have hrun : requireColumnByName tableMeta s.columnName =
        (tableMeta.column s.columnName).elim (.error (.columnNotFound tableMeta.name s.columnName)) .ok := by
      unfold requireColumnByName
      cases tableMeta.column s.columnName <;> rfl
    rw [hrun]
    exact decides_lookup trivial fun _ => column_eq_some
  apply Decides.congr
  · apply (decides_requireTable self s.table).bind
    intro tableMeta _
    exact (hcolumn tableMeta).bind fun column _ => decides_eq _
  · intro bound
    simp only [CreateIndexStatement.Resolves, and_assoc]

lemma decides_bind (statement : Statement) :
    Decides BinderError.OfStatement (statement.Resolves self.database) (self.bind statement) := by
  cases statement with
  | createTable s =>
    refine (decides_bindCreateTable s).wrap (fun _ => .createTable) ?_
    intro _ h
    cases h with
    | createTable h => exact ⟨_, h, rfl⟩
  | createIndex s =>
    refine (decides_bindCreateIndex s).wrap (fun _ => .createIndex) ?_
    intro _ h
    cases h with
    | createIndex h => exact ⟨_, h, rfl⟩
  | insert s =>
    refine (decides_bindInsert s).wrap (fun _ => .insert) ?_
    intro _ h
    cases h with
    | insert h => exact ⟨_, h, rfl⟩
  | select s =>
    refine (decides_bindSelect s).wrap (fun _ => .select) ?_
    intro _ h
    cases h with
    | select h => exact ⟨_, h, rfl⟩
  | update s =>
    refine (decides_bindUpdate s).wrap (fun _ => .update) ?_
    intro _ h
    cases h with
    | update h => exact ⟨_, h, rfl⟩
  | delete s =>
    refine (decides_bindDelete s).wrap (fun _ => .delete) ?_
    intro _ h
    cases h with
    | delete h => exact ⟨_, h, rfl⟩

/-- The binder returns exactly what a statement resolves to, and otherwise an error about the statement. -/
theorem bind_exact (self : Binder) (statement : Statement) :
    (∀ bound, self.bind statement = .ok bound ↔ statement.Resolves self.database bound) ∧
      ∀ e, self.bind statement = .error e → e.OfStatement :=
  ⟨fun _ => (decides_bind statement).eq_ok_iff, fun _ h => (decides_bind statement).of_error h⟩

end Binder

end RdbRs
