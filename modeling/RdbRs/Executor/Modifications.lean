import RdbRs.Executor.TypedRows
import RdbRs.Lib.Grouping
import RdbRs.Tuple.TupleCodec

/-!
# Rows an UPDATE or a DELETE touches

Joined rows may hold one stored row many times and under several aliases. Each stored row is
prepared once, with the assignments that reached it in the order of the joined rows.
-/

namespace RdbRs

/-! ### Assigning in a list -/

section Assigned

variable {α β : Type} {position : α → Nat} {value : α → β}

/-- The list after some assignments. -/
def assigned (position : α → Nat) (value : α → β) (l : List α) (init : List β) : List β :=
  l.foldl (fun values a => values.set (position a) (value a)) init

lemma assigned_concat (l : List α) (a : α) (init : List β) :
    assigned position value (l ++ [a]) init =
      (assigned position value l init).set (position a) (value a) := by
  rw [assigned, List.foldl_append]
  rfl

@[simp] lemma length_assigned (l : List α) (init : List β) :
    (assigned position value l init).length = init.length := by
  induction l using List.reverseRecOn with
  | nil => rfl
  | append_singleton l a ih => rw [assigned_concat, List.length_set, ih]

/-- The last assignment to a position counts. -/
lemma getElem?_assigned {l : List α} {init : List β} (h : ∀ a ∈ l, position a < init.length) (i : Nat) :
    (assigned position value l init)[i]? =
      ((l.filter fun a => position a = i).getLast?.map value).or init[i]? := by
  induction l using List.reverseRecOn with
  | nil => simp [assigned]
  | append_singleton l a ih =>
    have hlater := ih fun b hb => h b (List.mem_append_left _ hb)
    have hlt := h a (List.mem_append_right _ (List.mem_singleton_self a))
    rw [assigned_concat, List.getElem?_set, length_assigned, List.filter_append]
    by_cases hi : position a = i
    · rw [if_pos hi, if_pos (hi ▸ hlt)]
      simp [hi]
    · rw [if_neg hi, hlater]
      simp [hi]

end Assigned

/-! ### Encoding typed values -/

/-- Whether the length of a text fits its prefix. -/
def Value.FitsRow : Value → Prop
  | varchar v => (utf8Bytes v).length ≤ u16Max
  | _ => True

lemma encodeValue_typed {value : Value} {column : ColumnMetadata} (h : value.HasType column.dataType) :
    (value.FitsRow ∧ ∃ bytes, Tuple.encodeValue value column = .ok bytes) ∨
      (¬ value.FitsRow ∧ Tuple.encodeValue value column = .error .varcharTooLong) := by
  generalize hd : column.dataType = dataType at h
  cases value with
  | null => exact .inl ⟨trivial, _, rfl⟩
  | int v =>
    cases dataType with
    | int => exact .inl ⟨trivial, _, by simp only [Tuple.encodeValue, hd]; rfl⟩
    | _ => exact h.elim
  | bigInt v =>
    cases dataType with
    | bigInt => exact .inl ⟨trivial, _, by simp only [Tuple.encodeValue, hd]; rfl⟩
    | _ => exact h.elim
  | boolean v =>
    cases dataType with
    | boolean => exact .inl ⟨trivial, _, by simp only [Tuple.encodeValue, hd]; rfl⟩
    | _ => exact h.elim
  | varchar v =>
    cases dataType with
    | varchar =>
      by_cases hfits : (utf8Bytes v).length ≤ u16Max
      · exact .inl ⟨hfits, _, by simp only [Tuple.encodeValue, hd]; exact if_pos hfits⟩
      · exact .inr ⟨hfits, by simp only [Tuple.encodeValue, hd]; exact if_neg hfits⟩
    | _ => exact h.elim

/-- Typed values are encoded unless one of them is too long. -/
lemma encode_typed {values : List Value} {columns : List ColumnMetadata}
    (h : List.Forall₂ (fun (value : Value) (column : ColumnMetadata) => value.HasType column.dataType)
      values columns) :
    ((∀ v ∈ values, v.FitsRow) ∧ ∃ row, Tuple.encode values columns = .ok row) ∨
      ((∃ v ∈ values, ¬ v.FitsRow) ∧ Tuple.encode values columns = .error .varcharTooLong) := by
  have hvalues : ((∀ v ∈ values, v.FitsRow) ∧ ∃ bytes, Tuple.encodeValues values columns = .ok bytes) ∨
      ((∃ v ∈ values, ¬ v.FitsRow) ∧ Tuple.encodeValues values columns = .error .varcharTooLong) := by
    induction h with
    | nil => exact .inl ⟨by simp, _, rfl⟩
    | @cons value column values columns hfirst _ ih =>
      cases encodeValue_typed hfirst with
      | inr hlong =>
        refine .inr ⟨⟨value, List.mem_cons_self, hlong.1⟩, ?_⟩
        rw [Tuple.encodeValues, hlong.2, except_bind_error]
      | inl hok =>
        obtain ⟨hfits, bytes, hbytes⟩ := hok
        cases ih with
        | inl hrest =>
          obtain ⟨hall, rest, hrest⟩ := hrest
          refine .inl ⟨List.forall_mem_cons.mpr ⟨hfits, hall⟩, bytes ++ rest, ?_⟩
          rw [Tuple.encodeValues, hbytes, except_bind_ok, hrest, except_bind_ok]
        | inr hrest =>
          obtain ⟨⟨v, hv, hlong⟩, hrest⟩ := hrest
          refine .inr ⟨⟨v, List.mem_cons_of_mem _ hv, hlong⟩, ?_⟩
          rw [Tuple.encodeValues, hbytes, except_bind_ok, hrest, except_bind_error]
  rw [Tuple.encode, if_neg (not_not.mpr h.length_eq)]
  cases hvalues with
  | inl hok =>
    obtain ⟨hall, bytes, hbytes⟩ := hok
    exact .inl ⟨hall, ⟨bytes⟩, by rw [hbytes]; rfl⟩
  | inr hlong => exact .inr ⟨hlong.1, by rw [hlong.2]; rfl⟩

/-! ### Stored rows -/

/-- The rows of the tables of a clause, with the values stored for them. -/
def QueryRow.IsStored (database : DatabaseMetadata) (stored : TableId → RowId → List Value)
    (tables : List BoundTable) (row : QueryRow) : Prop :=
  List.Forall₂ (fun (table : BoundTable) (tableRow : TableRow) =>
    tableRow.IsOf database table ∧ tableRow.values = stored table.tableId tableRow.rowId)
      tables row.tableRows

lemma QueryRow.IsStored.isFrom {database : DatabaseMetadata} {stored : TableId → RowId → List Value}
    {tables : List BoundTable} {row : QueryRow} (h : row.IsStored database stored tables) :
    row.IsFrom database tables := h.imp fun _ _ hrow => hrow.1

def PreparedUpdate.key (e : PreparedUpdate) : TableId × RowId := (e.tableId, e.rowId)

def PreparedDelete.key (e : PreparedDelete) : TableId × RowId := (e.tableId, e.rowId)

namespace Executor

variable {σ : Type} {self : Executor} {stored : TableId → RowId → List Value}
  {tables : List BoundTable} {row : QueryRow} {rows : List QueryRow}

/-- The stored row that a joined row has for an instance of a table. -/
def storedRow (row : QueryRow) (tableId : TableId) (instanceId : TableInstanceId) :
    Option (TableId × RowId) :=
  (row.findTableRow instanceId).map fun tableRow => (tableId, tableRow.rowId)

/-! ### Updates -/

/-- The position of an assigned column. -/
def columnPosition (self : Executor) (assignment : BoundAssignment) : Option Nat :=
  (self.database.tableById assignment.column.tableId).bind fun tableMeta =>
    tableMeta.columnIndex assignment.column.columnId

/-- The assignments of the joined rows, in the order they are made. -/
def hits (rows : List QueryRow) (assignments : List BoundAssignment) :
    List (QueryRow × BoundAssignment) := rows ×ˢ assignments

/-- The stored row an assignment changes. -/
def updatedRow (hit : QueryRow × BoundAssignment) : Option (TableId × RowId) :=
  storedRow hit.1 hit.2.column.tableId hit.2.column.instanceId

/-- The new value of a stored row at a position: the one of the last assignment, if there is one. -/
def mergedValue (executor : Executor) (stored : TableId → RowId → List Value)
    (hits : List (QueryRow × BoundAssignment)) (key : TableId × RowId) (i : Nat) : Option Value :=
  ((hits.filter fun hit => updatedRow hit = some key ∧ executor.columnPosition hit.2 = some i).getLast?.map
    fun hit => hit.2.value).or (stored key.1 key.2)[i]?

/-- One update for each stored row that an assignment reaches. -/
structure Updates (executor : Executor) (stored : TableId → RowId → List Value)
    (hits : List (QueryRow × BoundAssignment)) (entries : List PreparedUpdate) : Prop where
  distinct : (entries.map PreparedUpdate.key).Nodup
  covers : ∀ key, key ∈ entries.map PreparedUpdate.key ↔ ∃ hit ∈ hits, updatedRow hit = some key
  old : ∀ e ∈ entries, e.oldValues = stored e.tableId e.rowId
  new : ∀ e ∈ entries, ∀ i, e.newValues[i]? = executor.mergedValue stored hits e.key i
  decodes : ∀ e ∈ entries, ∃ tableMeta, executor.database.tableById e.tableId = some tableMeta ∧
    ∀ s : Unit, (Tuple.decode e.newRow tableMeta.columns).run s = .ok e.newValues s

/-- Where an assignment of a joined row lands. -/
structure Lands (executor : Executor) (stored : TableId → RowId → List Value)
    (hit : QueryRow × BoundAssignment) (tableRow : TableRow) (tableMeta : TableMetadata) (i : Nat) :
    Prop where
  found : hit.1.findTableRow hit.2.column.instanceId = some tableRow
  table : executor.database.tableById hit.2.column.tableId = some tableMeta
  position : tableMeta.columnIndex hit.2.column.columnId = some i
  typed : ∃ column, tableMeta.columns[i]? = some column ∧ hit.2.value.HasType column.dataType
  values : tableRow.values = stored hit.2.column.tableId tableRow.rowId
  rowTyped : List.Forall₂ (fun (value : Value) (column : ColumnMetadata) => value.HasType column.dataType)
    tableRow.values tableMeta.columns

lemma lands {assignment : BoundAssignment} {dataType : DataType} (hscope : Scope tables)
    (hrow : row.IsStored self.database stored tables)
    (hc : assignment.column.IsIn self.database tables dataType)
    (htype : assignment.value.HasType dataType) :
    ∃ tableRow tableMeta i, Lands self stored (row, assignment) tableRow tableMeta i := by
  have ⟨table, hmem, hinstance, hid, tableMeta, htable, column, hcolumn, heq⟩ := hc
  have ⟨tableRow, hfound, ⟨_, tableMeta', htable', htyped⟩, hvalues⟩ :=
    QueryRow.findTableRow_at (fun hrow => hrow.1.1) hrow hscope hmem
  have ⟨i, hi, hget⟩ := columnIndex_of_columnById hcolumn
  rw [hid, htable] at htable'
  cases htable'
  rw [hinstance] at hfound
  rw [hid] at hvalues
  exact ⟨tableRow, tableMeta, i, hfound, htable, hi, ⟨column, hget, heq ▸ htype⟩, hvalues, htyped⟩

/-- The stored row an assignment changes, for an assignment that lands. -/
def hitKey (hit : QueryRow × BoundAssignment) : TableId × RowId :=
  (updatedRow hit).getD (hit.2.column.tableId, RowId.ofSlot 0)

/-- The position an assignment changes, for an assignment that lands. -/
def hitPosition (executor : Executor) (hit : QueryRow × BoundAssignment) : Nat :=
  (executor.columnPosition hit.2).getD 0

/-- The update of a stored row after some assignments. -/
def pendingOf (executor : Executor) (stored : TableId → RowId → List Value)
    (done : List (QueryRow × BoundAssignment)) (key : TableId × RowId) : PendingUpdate where
  tableId := key.1
  rowId := key.2
  oldValues := stored key.1 key.2
  newValues := assigned executor.hitPosition (fun hit => hit.2.value) (withKey hitKey done key)
    (stored key.1 key.2)

namespace Lands

variable {hit : QueryRow × BoundAssignment} {tableRow : TableRow} {tableMeta : TableMetadata} {i : Nat}

lemma updatedRow_eq (h : Lands self stored hit tableRow tableMeta i) :
    updatedRow hit = some (hit.2.column.tableId, tableRow.rowId) := by
  rw [updatedRow, storedRow, h.found]
  rfl

lemma hitKey_eq (h : Lands self stored hit tableRow tableMeta i) :
    hitKey hit = (hit.2.column.tableId, tableRow.rowId) := by
  rw [hitKey, h.updatedRow_eq]
  rfl

lemma columnPosition_eq (h : Lands self stored hit tableRow tableMeta i) :
    self.columnPosition hit.2 = some i := by
  rw [columnPosition, h.table]
  exact h.position

lemma hitPosition_eq (h : Lands self stored hit tableRow tableMeta i) : self.hitPosition hit = i := by
  rw [hitPosition, h.columnPosition_eq]
  rfl

lemma position_lt (h : Lands self stored hit tableRow tableMeta i) : i < tableRow.values.length := by
  have ⟨column, hget, _⟩ := h.typed
  rw [h.rowTyped.length_eq]
  exact (List.getElem?_eq_some_iff.mp hget).1

end Lands

/-- An assignment changes the update of its stored row, or opens one. -/
lemma applyAssignment_indexed {done : List (QueryRow × BoundAssignment)} {assignment : BoundAssignment}
    {state : Pendings} {tableRow : TableRow} {tableMeta : TableMetadata} {i : Nat}
    (hlands : Lands self stored (row, assignment) tableRow tableMeta i)
    (h : Indexed hitKey (self.pendingOf stored) done state.pendings state.positions) :
    ∃ state', (self.applyAssignment row state assignment : Exec ExecutorError σ _) = pure state' ∧
      Indexed hitKey (self.pendingOf stored) (done ++ [(row, assignment)]) state'.pendings
        state'.positions := by
  have hkey : hitKey (row, assignment) = (assignment.column.tableId, tableRow.rowId) := hlands.hitKey_eq
  have hself : self.pendingOf stored (done ++ [(row, assignment)]) (hitKey (row, assignment)) =
      { self.pendingOf stored done (hitKey (row, assignment)) with
        newValues := (self.pendingOf stored done (hitKey (row, assignment))).newValues.set i
          assignment.value } := by
    rw [pendingOf, withKey_concat_self, assigned_concat, hlands.hitPosition_eq]
    rfl
  have hothers : ∀ key ∈ done.map hitKey, key ≠ hitKey (row, assignment) →
      self.pendingOf stored (done ++ [(row, assignment)]) key = self.pendingOf stored done key := by
    intro key _ hne
    rw [pendingOf, withKey_concat_of_ne hne]
    rfl
  have hfound : row.findTableRow assignment.column.instanceId = some tableRow := hlands.found
  have htable : self.database.tableById assignment.column.tableId = some tableMeta := hlands.table
  have hposition : tableMeta.columnIndex assignment.column.columnId = some i := hlands.position
  simp only [applyAssignment, Executor.tableMeta, hfound, htable, hposition, Exec.okOr_some,
    Exec.pure_bind]
  rw [← hkey]
  cases hget : state.positions.get (hitKey (row, assignment)) with
  | some index =>
    have ⟨hat, hindexed⟩ := h.join hget hothers
    have hlt : index < state.pendings.length := (List.getElem?_eq_some_iff.mp hat).1
    have hi : i < (self.pendingOf stored done (hitKey (row, assignment))).newValues.length := by
      rw [pendingOf, length_assigned, hkey, ← hlands.values]
      exact hlands.position_lt
    rw [hself] at hindexed
    simp only [Exec.index_eq hat, Exec.pure_bind, Exec.assign_eq hi, Exec.assign_eq hlt]
    exact ⟨_, rfl, hindexed⟩
  | none =>
    have hnone : withKey hitKey done (hitKey (row, assignment)) = [] := by
      apply withKey_eq_nil
      intro hmem
      have ⟨j, hj⟩ := List.mem_iff_getElem?.mp (mem_firsts.mpr hmem)
      rw [(h.positions_iff _ j).mpr hj] at hget
      cases hget
    have hindexed := h.push hget hothers
    rw [hself, pendingOf, hnone, hkey] at hindexed
    have hvalues : tableRow.values = stored assignment.column.tableId tableRow.rowId := hlands.values
    simp only [Exec.assign_eq hlands.position_lt, Exec.pure_bind]
    rw [hvalues, hkey]
    exact ⟨_, rfl, hindexed⟩

/-- The updates of the stored rows that the assignments reach. -/
lemma applyAssignments_eq {assignments : List BoundAssignment} (hscope : Scope tables)
    (hrows : ∀ row ∈ rows, row.IsStored self.database stored tables)
    (hassignments : ∀ a ∈ assignments, ∃ dataType, a.column.IsIn self.database tables dataType ∧
      a.value.HasType dataType) :
    ∃ state, (rows.foldlM (self.applyAssignments assignments) ⟨[], HashMap.new⟩ :
        Exec ExecutorError σ _) = pure state ∧
      state.pendings = (firsts ((hits rows assignments).map hitKey)).map
        (self.pendingOf stored (hits rows assignments)) := by
  have hinit : Indexed hitKey (self.pendingOf stored) [] (⟨[], HashMap.new⟩ : Pendings).pendings
      (⟨[], HashMap.new⟩ : Pendings).positions := indexed_nil
  have ⟨state, hrun, hindexed⟩ :=
    Exec.foldlM_invariant (l := hits rows assignments)
      (f := fun state hit => (self.applyAssignment hit.1 state hit.2 : Exec ExecutorError σ _))
      (fun done (state : Pendings) =>
        Indexed hitKey (self.pendingOf stored) done state.pendings state.positions) hinit
      fun done hit state hhit h => by
        have ⟨hrow, hassignment⟩ := List.mem_product.mp hhit
        have ⟨dataType, hc, htype⟩ := hassignments hit.2 hassignment
        have ⟨tableRow, tableMeta, i, hlands⟩ := lands hscope (hrows hit.1 hrow) hc htype
        exact applyAssignment_indexed hlands h
  refine ⟨state, ?_, hindexed.entries_eq⟩
  rw [← hrun, hits, ← Exec.foldlM_product]
  rfl

lemma forall₂_set {α β : Type} {R : α → β → Prop} {l : List α} {l' : List β} {i : Nat} {a : α} {b : β}
    (h : List.Forall₂ R l l') (hb : l'[i]? = some b) (hR : R a b) : List.Forall₂ R (l.set i a) l' := by
  induction h generalizing i with
  | nil => exact .nil
  | cons hfirst hrest ih =>
    cases i with
    | zero =>
      cases hb
      exact .cons hR hrest
    | succ i => exact .cons hfirst (ih hb)

section Merged

variable {hits : List (QueryRow × BoundAssignment)} {key : TableId × RowId}

/-- Whether every assignment of the joined rows lands. -/
def AllLand (executor : Executor) (stored : TableId → RowId → List Value)
    (hits : List (QueryRow × BoundAssignment)) : Prop :=
  ∀ hit ∈ hits, ∃ tableRow tableMeta i, Lands executor stored hit tableRow tableMeta i

lemma mem_keys (hall : AllLand self stored hits) :
    key ∈ firsts (hits.map hitKey) ↔ ∃ hit ∈ hits, updatedRow hit = some key := by
  rw [mem_firsts, List.mem_map]
  constructor
  · intro ⟨hit, hhit, hkey⟩
    have ⟨tableRow, tableMeta, i, hlands⟩ := hall hit hhit
    exact ⟨hit, hhit, by rw [hlands.updatedRow_eq, ← hlands.hitKey_eq, hkey]⟩
  · intro ⟨hit, hhit, hkey⟩
    exact ⟨hit, hhit, by rw [hitKey, hkey]; rfl⟩

/-- The assignments with a key land in the stored row of the key. -/
lemma lands_of_mem_withKey (hall : AllLand self stored hits) {hit : QueryRow × BoundAssignment}
    (hhit : hit ∈ withKey hitKey hits key) :
    ∃ tableRow tableMeta i, Lands self stored hit tableRow tableMeta i ∧
      hit.2.column.tableId = key.1 ∧ tableRow.values = stored key.1 key.2 := by
  have ⟨hmem, hkey⟩ := List.mem_filter.mp hhit
  have ⟨tableRow, tableMeta, i, hlands⟩ := hall hit hmem
  have heq := hlands.hitKey_eq.symm.trans (of_decide_eq_true hkey)
  refine ⟨tableRow, tableMeta, i, hlands, ?_, ?_⟩
  · rw [← heq]
  · rw [← heq]
    exact hlands.values

lemma getElem?_newValues (hall : AllLand self stored hits) (i : Nat) :
    (self.pendingOf stored hits key).newValues[i]? = self.mergedValue stored hits key i := by
  have hlt : ∀ hit ∈ withKey hitKey hits key, self.hitPosition hit < (stored key.1 key.2).length := by
    intro hit hhit
    obtain ⟨tableRow, tableMeta, j, hlands, _, hvalues⟩ := lands_of_mem_withKey hall hhit
    rw [hlands.hitPosition_eq, ← hvalues]
    exact hlands.position_lt
  have hfilter : (withKey hitKey hits key).filter (fun hit => self.hitPosition hit = i) =
      hits.filter fun hit => updatedRow hit = some key ∧ self.columnPosition hit.2 = some i := by
    rw [withKey, List.filter_filter]
    apply List.filter_congr
    intro hit hhit
    obtain ⟨tableRow, tableMeta, j, hlands⟩ := hall hit hhit
    rw [hlands.hitPosition_eq, hlands.hitKey_eq, hlands.updatedRow_eq, hlands.columnPosition_eq]
    simp [and_comm]
  rw [pendingOf, mergedValue]
  simp only
  rw [getElem?_assigned hlt, hfilter]

/-- The updated values have the types of the columns. -/
lemma newValues_typed (hall : AllLand self stored hits) (hkey : key ∈ firsts (hits.map hitKey)) :
    ∃ tableMeta, self.database.tableById key.1 = some tableMeta ∧
      List.Forall₂ (fun (value : Value) (column : ColumnMetadata) => value.HasType column.dataType)
        (self.pendingOf stored hits key).newValues tableMeta.columns := by
  obtain ⟨hit, hhit, hreached⟩ := (mem_keys hall).mp hkey
  have hwith : hit ∈ withKey hitKey hits key := by
    apply List.mem_filter.mpr
    exact ⟨hhit, by rw [hitKey, hreached]; simp⟩
  obtain ⟨tableRow, tableMeta, _, hlands, hid, hvalues⟩ := lands_of_mem_withKey hall hwith
  have htable : self.database.tableById key.1 = some tableMeta := hid ▸ hlands.table
  refine ⟨tableMeta, htable, ?_⟩
  rw [pendingOf]
  simp only
  have hmem : ∀ hit ∈ withKey hitKey hits key, ∃ column, tableMeta.columns[self.hitPosition hit]? =
      some column ∧ hit.2.value.HasType column.dataType := by
    intro hit hhit
    obtain ⟨_, tableMeta', i, hlands, hid, _⟩ := lands_of_mem_withKey hall hhit
    have htable' := hlands.table
    rw [hid, htable] at htable'
    cases htable'
    rw [hlands.hitPosition_eq]
    exact hlands.typed
  generalize withKey hitKey hits key = l at hmem
  induction l using List.reverseRecOn with
  | nil =>
    rw [← hvalues]
    exact hlands.rowTyped
  | append_singleton l hit ih =>
    obtain ⟨column, hcolumn, htype⟩ := hmem hit (List.mem_append_right _ (List.mem_singleton_self hit))
    rw [assigned_concat]
    exact forall₂_set (ih fun h hh => hmem h (List.mem_append_left _ hh)) hcolumn htype

/-- Whether an updated text is too long for its length prefix. -/
def TooLong (executor : Executor) (stored : TableId → RowId → List Value)
    (hits : List (QueryRow × BoundAssignment)) : Prop :=
  ∃ key, (∃ hit ∈ hits, updatedRow hit = some key) ∧
    ∃ i v, executor.mergedValue stored hits key i = some v ∧ ¬ v.FitsRow

lemma tooLong_iff (hall : AllLand self stored hits) :
    self.TooLong stored hits ↔ ∃ key ∈ firsts (hits.map hitKey),
      ∃ v ∈ (self.pendingOf stored hits key).newValues, ¬ v.FitsRow := by
  simp only [TooLong, ← getElem?_newValues hall, mem_keys hall]
  constructor
  · intro ⟨key, hkey, i, v, hv, hlong⟩
    exact ⟨key, hkey, v, List.mem_of_getElem? hv, hlong⟩
  · intro ⟨key, hkey, v, hv, hlong⟩
    have ⟨i, hi⟩ := List.mem_iff_getElem?.mp hv
    exact ⟨key, hkey, i, v, hi, hlong⟩

/-- The entry of an update. -/
structure EntryOf (executor : Executor) (stored : TableId → RowId → List Value)
    (hits : List (QueryRow × BoundAssignment)) (key : TableId × RowId) (e : PreparedUpdate) : Prop where
  key_eq : e.key = key
  old : e.oldValues = stored key.1 key.2
  new : e.newValues = (executor.pendingOf stored hits key).newValues
  fits : ∀ v ∈ e.newValues, v.FitsRow
  decodes : ∃ tableMeta, executor.database.tableById key.1 = some tableMeta ∧
    ∀ s : Unit, (Tuple.decode e.newRow tableMeta.columns).run s = .ok e.newValues s

lemma prepare_cases (hall : AllLand self stored hits) (hkey : key ∈ firsts (hits.map hitKey)) :
    ((∃ v ∈ (self.pendingOf stored hits key).newValues, ¬ v.FitsRow) ∧ ∀ results,
      (self.prepare results (self.pendingOf stored hits key) : Exec ExecutorError σ _) =
        Exec.throw (.tuple .varcharTooLong)) ∨
    ∃ e, (∀ results, (self.prepare results (self.pendingOf stored hits key) : Exec ExecutorError σ _) =
      pure (results ++ [e])) ∧ self.EntryOf stored hits key e := by
  have ⟨tableMeta, htable, htyped⟩ := newValues_typed hall hkey
  have htable' : self.database.tableById (self.pendingOf stored hits key).tableId = some tableMeta := htable
  cases encode_typed htyped with
  | inl hok =>
    have ⟨hfits, newRow, hencode⟩ := hok
    right
    refine ⟨⟨key.1, key.2, newRow, stored key.1 key.2, (self.pendingOf stored hits key).newValues⟩, ?_,
      rfl, rfl, rfl, hfits, tableMeta, htable, ?_⟩
    · intro results
      simp only [prepare, Executor.tableMeta, htable', Exec.okOr_some, Exec.pure_bind, encodeRow, hencode,
        Exec.liftExcept_ok, Exec.mapErr_pure]
      rfl
    · intro s
      exact Tuple.decode_eq_ok.mpr ⟨hencode, rfl⟩
  | inr hlong =>
    left
    refine ⟨hlong.1, fun results => ?_⟩
    simp only [prepare, Executor.tableMeta, htable', Exec.okOr_some, Exec.pure_bind, encodeRow, hlong.2,
      Exec.liftExcept_error, Exec.mapErr_throw, Exec.throw_bind]

lemma prepares_cases (hall : AllLand self stored hits) {results : List PendingUpdate}
    (hresults : results = (firsts (hits.map hitKey)).map (self.pendingOf stored hits)) :
    (self.TooLong stored hits ∧ (results.foldlM self.prepare [] : Exec ExecutorError σ _) =
      Exec.throw (.tuple .varcharTooLong)) ∨
    ∃ entries, (results.foldlM self.prepare [] : Exec ExecutorError σ _) = pure entries ∧
      List.Forall₂ (self.EntryOf stored hits) (firsts (hits.map hitKey)) entries := by
  rw [hresults, List.foldlM_map]
  cases Exec.foldlM_collect (fun key hkey => prepare_cases (σ := σ) hall hkey) [] with
  | inl hthrow => exact .inl ⟨(tooLong_iff hall).mpr hthrow.1, hthrow.2⟩
  | inr hpure => exact .inr hpure

lemma updates_of_entries (hall : AllLand self stored hits) {entries : List PreparedUpdate}
    (h : List.Forall₂ (self.EntryOf stored hits) (firsts (hits.map hitKey)) entries) :
    self.Updates stored hits entries := by
  have hkeys : entries.map PreparedUpdate.key = firsts (hits.map hitKey) := by
    rw [← List.map_id (firsts _), ← List.forall₂_eq_eq_eq, List.forall₂_map_left_iff,
      List.forall₂_map_right_iff]
    exact h.flip.imp fun _ _ he => he.key_eq
  have hentry {e : PreparedUpdate} (he : e ∈ entries) : self.EntryOf stored hits e.key e := by
    have ⟨key, _, hkey⟩ := forall₂_mem_right h he
    rw [hkey.key_eq]
    exact hkey
  constructor
  · rw [hkeys]
    exact nodup_firsts
  · intro key
    rw [hkeys, mem_keys hall]
  · intro e he
    exact (hentry he).old
  · intro e he i
    rw [(hentry he).new, getElem?_newValues hall]
  · intro e he
    exact (hentry he).decodes

end Merged

/-! ### Deletes -/

/-- The stored row a target names. -/
def deletedRow (hit : QueryRow × BoundTable) : Option (TableId × RowId) :=
  storedRow hit.1 hit.2.tableId hit.2.instanceId

/-- One delete for each stored row that a target names. -/
structure Removes (stored : TableId → RowId → List Value) (hits : List (QueryRow × BoundTable))
    (entries : List PreparedDelete) : Prop where
  distinct : (entries.map PreparedDelete.key).Nodup
  covers : ∀ key, key ∈ entries.map PreparedDelete.key ↔ ∃ hit ∈ hits, deletedRow hit = some key
  old : ∀ e ∈ entries, e.values = stored e.tableId e.rowId

/-- The deletes of the stored rows with some keys. -/
def deletesOf (stored : TableId → RowId → List Value) (keys : List (TableId × RowId)) :
    List PreparedDelete :=
  (firsts keys).map fun key => ⟨key.1, key.2, stored key.1 key.2⟩

/-- The deletes of the targets done so far, and the stored rows they are for. -/
structure Removed (stored : TableId → RowId → List Value) (done : List (QueryRow × BoundTable))
    (state : Deletes) : Prop where
  results : state.results = deletesOf stored (done.filterMap deletedRow)
  seen : ∀ key, key ∈ state.seen ↔ key ∈ done.filterMap deletedRow

lemma deleteTarget_removed {done : List (QueryRow × BoundTable)} {target : BoundTable} {state : Deletes}
    (hscope : Scope tables) (hrow : row.IsStored self.database stored tables) (htarget : target ∈ tables)
    (h : Removed stored done state) :
    ∃ state', (deleteTarget row state target : Exec ExecutorError σ _) = pure state' ∧
      Removed stored (done ++ [(row, target)]) state' := by
  have ⟨tableRow, hfound, _, hvalues⟩ :=
    QueryRow.findTableRow_at (fun hrow => hrow.1.1) hrow hscope htarget
  have hdone : (done ++ [(row, target)]).filterMap deletedRow =
      done.filterMap deletedRow ++ [(target.tableId, tableRow.rowId)] := by
    rw [List.filterMap_append]
    simp [deletedRow, storedRow, hfound]
  simp only [deleteTarget, hfound, Exec.okOr_some, Exec.pure_bind]
  by_cases hseen : (target.tableId, tableRow.rowId) ∈ state.seen
  · rw [if_pos hseen]
    have hmem := (h.seen _).mp hseen
    refine ⟨state, rfl, ?_, ?_⟩
    · rw [h.results, hdone, deletesOf, deletesOf, firsts_concat_of_mem (mem_firsts.mpr hmem)]
    · intro key
      rw [h.seen, hdone, List.mem_append, List.mem_singleton]
      constructor
      · exact .inl
      · intro hkey
        cases hkey with
        | inl hkey => exact hkey
        | inr heq => exact heq ▸ hmem
  · rw [if_neg hseen]
    have hnew : (target.tableId, tableRow.rowId) ∉ firsts (done.filterMap deletedRow) :=
      fun hmem => hseen ((h.seen _).mpr (mem_firsts.mp hmem))
    refine ⟨_, rfl, ?_, ?_⟩
    · rw [hdone, deletesOf, firsts_concat_of_notMem hnew, List.map_append, h.results, hvalues]
      rfl
    · intro key
      rw [hdone, List.mem_append, List.mem_singleton, ← h.seen, List.mem_cons, or_comm]

lemma removes_deletesOf (hits : List (QueryRow × BoundTable)) :
    Removes stored hits (deletesOf stored (hits.filterMap deletedRow)) := by
  have hkeys : (deletesOf stored (hits.filterMap deletedRow)).map PreparedDelete.key =
      firsts (hits.filterMap deletedRow) := by
    rw [deletesOf, List.map_map]
    exact List.map_id _
  constructor
  · rw [hkeys]
    exact nodup_firsts
  · intro key
    rw [hkeys, mem_firsts, List.mem_filterMap]
  · intro e he
    have ⟨key, _, heq⟩ := List.mem_map.mp he
    rw [← heq]

/-! ### Statements -/

variable {updateStatement : UpdateStatement} {boundUpdate : BoundUpdate}
  {deleteStatement : DeleteStatement} {boundDelete : BoundDelete}

/-- An `UPDATE` prepares one update for each stored row, unless an updated text is too long. -/
lemma prepareUpdate_cases (hbind : (Binder.mk self.database).bindUpdate updateStatement = .ok boundUpdate)
    (hrows : ∀ row ∈ rows, row.IsStored self.database stored (collectTables boundUpdate.from_)) :
    (self.TooLong stored (hits (self.passing boundUpdate.filter rows) boundUpdate.assignments) ∧
      (self.prepareUpdate rows boundUpdate : Exec ExecutorError σ _) =
        Exec.throw (.tuple .varcharTooLong)) ∨
    ∃ entries, (self.prepareUpdate rows boundUpdate : Exec ExecutorError σ _) = pure entries ∧
      self.Updates stored (hits (self.passing boundUpdate.filter rows) boundUpdate.assignments) entries ∧
      ¬ self.TooLong stored (hits (self.passing boundUpdate.filter rows) boundUpdate.assignments) := by
  have hfits : Binder.UpdateFits self.database boundUpdate := Binder.bindUpdate_fits hbind
  have hpassing : ∀ row ∈ self.passing boundUpdate.filter rows,
      row.IsStored self.database stored (collectTables boundUpdate.from_) :=
    fun row hrow => hrows row (mem_of_mem_passing hrow)
  have hall : AllLand self stored
      (hits (self.passing boundUpdate.filter rows) boundUpdate.assignments) := by
    intro hit hhit
    have ⟨hrow, hassignment⟩ := List.mem_product.mp hhit
    have ⟨dataType, hc, htype⟩ := hfits.assignments hit.2 hassignment
    exact lands hfits.scope (hpassing hit.1 hrow) hc htype
  have ⟨state, hrun, hpendings⟩ :=
    applyAssignments_eq (σ := σ) hfits.scope hpassing hfits.assignments
  have hprepare : (self.prepareUpdate rows boundUpdate : Exec ExecutorError σ _) =
      state.pendings.foldlM self.prepare [] := by
    rw [prepareUpdate, filtered_eq hfits.scope (fun row hrow => (hrows row hrow).isFrom) hfits.filter,
      Exec.pure_bind, hrun, Exec.pure_bind]
  rw [hprepare]
  apply (prepares_cases hall hpendings).imp_right
  intro ⟨entries, hentries, hof⟩
  refine ⟨entries, hentries, updates_of_entries hall hof, ?_⟩
  intro hlong
  have ⟨key, hkey, v, hv, hv'⟩ := (tooLong_iff hall).mp hlong
  have ⟨e, _, he⟩ := forall₂_mem_right hof.flip hkey
  exact hv' (he.fits v (he.new ▸ hv))

lemma prepareDelete_eq (hbind : (Binder.mk self.database).bindDelete deleteStatement = .ok boundDelete)
    (hrows : ∀ row ∈ rows, row.IsStored self.database stored (collectTables boundDelete.from_)) :
    ∃ entries, (self.prepareDelete rows boundDelete : Exec ExecutorError σ _) = pure entries ∧
      Removes stored (self.passing boundDelete.filter rows ×ˢ boundDelete.targets) entries := by
  have hfits : Binder.DeleteFits self.database boundDelete := Binder.bindDelete_fits hbind
  have hinit : Removed stored [] ⟨[], []⟩ := ⟨rfl, fun key => by simp⟩
  have ⟨state, hrun, hremoved⟩ :=
    Exec.foldlM_invariant (l := self.passing boundDelete.filter rows ×ˢ boundDelete.targets)
      (f := fun state hit => (deleteTarget hit.1 state hit.2 : Exec ExecutorError σ _))
      (Removed stored) hinit
      fun done hit state hhit h => by
        have ⟨hrow, htarget⟩ := List.mem_product.mp hhit
        exact deleteTarget_removed hfits.scope (hrows hit.1 (mem_of_mem_passing hrow))
          (hfits.targets hit.2 htarget) h
  refine ⟨state.results, ?_, hremoved.results ▸ removes_deletesOf _⟩
  rw [← Exec.foldlM_product] at hrun
  rw [prepareDelete, filtered_eq hfits.scope (fun row hrow => (hrows row hrow).isFrom) hfits.filter,
    Exec.pure_bind]
  exact congrArg (fun x => x >>= fun state => pure state.results) hrun

/-- A joined `UPDATE` or `DELETE` prepares each stored row it touches once. An `UPDATE` with a text that
is too long for its row prepares nothing. -/
theorem prepare_touchesOnce :
    (∀ (statement : UpdateStatement) (bound : BoundUpdate) (rows : List QueryRow),
      (Binder.mk self.database).bindUpdate statement = .ok bound →
      (∀ row ∈ rows, row.IsStored self.database stored (collectTables bound.from_)) → ∀ s : σ,
      (self.TooLong stored (hits (self.passing bound.filter rows) bound.assignments) →
        (self.prepareUpdate rows bound).run s = .err (.tuple .varcharTooLong) s) ∧
      (¬ self.TooLong stored (hits (self.passing bound.filter rows) bound.assignments) →
        ∃ entries, (self.prepareUpdate rows bound).run s = .ok entries s ∧
          self.Updates stored (hits (self.passing bound.filter rows) bound.assignments) entries)) ∧
    (∀ (statement : DeleteStatement) (bound : BoundDelete) (rows : List QueryRow),
      (Binder.mk self.database).bindDelete statement = .ok bound →
      (∀ row ∈ rows, row.IsStored self.database stored (collectTables bound.from_)) → ∀ s : σ,
      ∃ entries, (self.prepareDelete rows bound).run s = .ok entries s ∧
        Removes stored (self.passing bound.filter rows ×ˢ bound.targets) entries) := by
  constructor
  · intro statement bound rows hbind hrows s
    cases prepareUpdate_cases (σ := σ) hbind hrows with
    | inl hlong =>
      constructor
      · intro _
        rw [hlong.2, Exec.run_throw]
      · intro hfits
        exact absurd hlong.1 hfits
    | inr hupdates =>
      have ⟨entries, hrun, hentries, hfits⟩ := hupdates
      constructor
      · intro hlong
        exact absurd hlong hfits
      · intro _
        exact ⟨entries, by rw [hrun, Exec.run_pure], hentries⟩
  · intro statement bound rows hbind hrows s
    have ⟨entries, hrun, hentries⟩ := prepareDelete_eq (σ := σ) hbind hrows
    exact ⟨entries, by rw [hrun, Exec.run_pure], hentries⟩

/-- `UPDATE t AS a INNER JOIN t AS b ON a.k = b.k SET a.amount = 1, b.amount = 2;` reaches one stored row
twice. -/
theorem prepare_touchesOnce_selfJoin :
    let stored : TableId → RowId → List Value := fun _ _ => [.int 7, .null, .varchar "x"]
    let row : QueryRow := ⟨[ledgerRow 0 0 7 .null "x", ledgerRow 1 0 7 .null "x"]⟩
    let assignments : List BoundAssignment :=
      [⟨⟨⟨1⟩, ⟨0⟩, ⟨2⟩⟩, .bigInt 1⟩, ⟨⟨⟨1⟩, ⟨1⟩, ⟨2⟩⟩, .bigInt 2⟩]
    let from_ : BoundFromClause := .innerJoin (.table ⟨⟨1⟩, ⟨0⟩, some "a"⟩)
      ⟨⟨⟨1⟩, ⟨0⟩, ⟨1⟩⟩, ⟨⟨1⟩, ⟨1⟩, ⟨1⟩⟩⟩ (.table ⟨⟨1⟩, ⟨1⟩, some "b"⟩)
    (∃ entries, (prepareUpdate ⟨ledger⟩ [row] ⟨from_, assignments, none⟩).run () = .ok entries () ∧
      Updates ⟨ledger⟩ stored (hits [row] assignments) entries) ∧
    ∃ entries, (prepareDelete ⟨ledger⟩ [row]
        ⟨[⟨⟨1⟩, ⟨0⟩, some "a"⟩, ⟨⟨1⟩, ⟨1⟩, some "b"⟩], from_, none⟩).run () = .ok entries () ∧
      Removes stored ([row] ×ˢ [⟨⟨1⟩, ⟨0⟩, some "a"⟩, ⟨⟨1⟩, ⟨1⟩, some "b"⟩]) entries := by
  intro stored row assignments from_
  have hrows : ∀ r ∈ [row], r.IsStored ledger stored (collectTables from_) := by
    intro r hr
    rw [List.mem_singleton.mp hr]
    exact .cons ⟨ledgerRow_isOf trivial, rfl⟩ (.cons ⟨ledgerRow_isOf trivial, rfl⟩ .nil)
  let join : FromClause := .innerJoin (.table ⟨"t", some "a"⟩) ⟨⟨some "a", "k"⟩, ⟨some "b", "k"⟩⟩
    (.table ⟨"t", some "b"⟩)
  have hupdate : (Binder.mk ledger).bindUpdate ⟨join, [⟨⟨some "a", "amount"⟩, .integer 1⟩,
      ⟨⟨some "b", "amount"⟩, .integer 2⟩], none⟩ = .ok ⟨from_, assignments, none⟩ := rfl
  have hdelete : (Binder.mk ledger).bindDelete ⟨some ["a", "b"], join, none⟩ =
      .ok ⟨[⟨⟨1⟩, ⟨0⟩, some "a"⟩, ⟨⟨1⟩, ⟨1⟩, some "b"⟩], from_, none⟩ := rfl
  have hcases := prepare_touchesOnce.1 _ _ _ hupdate hrows ()
  refine ⟨hcases.2 ?_, prepare_touchesOnce.2 _ _ _ hdelete hrows ()⟩
  intro hlong
  have hrun : ∃ entries, (prepareUpdate ⟨ledger⟩ [row] ⟨from_, assignments, none⟩).run () =
      .ok entries () := ⟨_, rfl⟩
  have herr : (prepareUpdate ⟨ledger⟩ [row] ⟨from_, assignments, none⟩).run () =
      .err (.tuple .varcharTooLong) () := hcases.1 hlong
  have ⟨entries, hok⟩ := hrun
  rw [herr] at hok
  cases hok

/-- A text of 65536 bytes does not fit a row. -/
theorem prepareUpdate_longText :
    let text := String.ofList (List.replicate 65536 'x')
    let stored : TableId → RowId → List Value := fun _ _ => [.int 7, .null, .varchar "x"]
    let row : QueryRow := ⟨[ledgerRow 0 0 7 .null "x"]⟩
    let bound : BoundUpdate := ⟨.table ⟨⟨1⟩, ⟨0⟩, none⟩, [⟨⟨⟨1⟩, ⟨0⟩, ⟨3⟩⟩, .varchar text⟩], none⟩
    (Binder.mk ledger).bindUpdate ⟨.table ⟨"t", none⟩, [⟨⟨none, "name"⟩, .string text⟩], none⟩ = .ok bound ∧
      row.IsStored ledger stored (collectTables bound.from_) ∧
        (prepareUpdate ⟨ledger⟩ [row] bound).run () = .err (.tuple .varcharTooLong) () := by
  intro text
  have hlong : ¬ (Value.varchar text).FitsRow := by
    rw [Value.FitsRow, length_utf8Bytes_replicate (by decide), u16Max]
    omega
  clear_value text
  intro stored row bound
  have hbind : (Binder.mk (Executor.mk ledger).database).bindUpdate
      ⟨.table ⟨"t", none⟩, [⟨⟨none, "name"⟩, .string text⟩], none⟩ = .ok bound := rfl
  have hrow : row.IsStored ledger stored (collectTables bound.from_) :=
    .cons ⟨ledgerRow_isOf trivial, rfl⟩ .nil
  refine ⟨hbind, hrow, ?_⟩
  have hrows : ∀ r ∈ [row], r.IsStored (Executor.mk ledger).database stored (collectTables bound.from_) := by
    intro r hr
    rw [List.mem_singleton.mp hr]
    exact hrow
  cases prepareUpdate_cases (σ := Unit) hbind hrows with
  | inl hthrow => rw [hthrow.2, Exec.run_throw]
  | inr hpure =>
    obtain ⟨_, _, _, hfits⟩ := hpure
    apply absurd _ hfits
    exact ⟨(⟨1⟩, RowId.ofSlot 0), ⟨_, List.mem_singleton_self _, rfl⟩, 2, .varchar text, rfl, hlong⟩

end Executor

end RdbRs
