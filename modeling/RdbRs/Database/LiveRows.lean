import RdbRs.Database.IndexSpec

/-!
# Prepared rows

The rows an `UPDATE` or a `DELETE` prepares are live, and they are prepared with the values that are stored
for them.
-/

namespace RdbRs

open IndexManager

namespace Executor

variable {database : DatabaseMetadata} {heap : TableId → RowId → Option Row} {tables : List BoundTable}
  {rows : List QueryRow} {row : QueryRow} {key : TableId × RowId}

/-- The values stored for a live row are those it encodes. -/
lemma encodes_stored {t : TableId} {id : RowId} {row : Row} (hencoded : HoldsEncoded database heap)
    (hrow : heap t id = some row) : Encodes database t (storedValues ⟨database⟩ heap t id) row := by
  obtain ⟨tableMeta, values, htable, hencode⟩ := hencoded t id row hrow
  refine ⟨tableMeta, htable, ?_⟩
  rw [storedValues, htable, hrow]
  simp only
  rwa [decoded_of_encode hencode]

/-- The stored row that a joined row has for an instance is live. -/
lemma storedRow_live {table : BoundTable}
    (hlive : List.Forall₂ (IsLive database heap) tables row.tableRows) (hscope : Scope tables)
    (hmem : table ∈ tables) (hkey : storedRow row table.tableId table.instanceId = some key) :
    ∃ r, heap key.1 key.2 = some r := by
  obtain ⟨tableRow, hfound, -, hrow⟩ :=
    QueryRow.findTableRow_at (fun hlive => hlive.1.1.1) hlive hscope hmem
  rw [storedRow, hfound] at hkey
  cases hkey
  exact hrow

variable (hencoded : HoldsEncoded database heap)

include hencoded

/-- An update is for a live row and for values that were encoded. -/
lemma Updates.encodes {bound : BoundUpdate} {entries : List PreparedUpdate}
    (hfits : Binder.UpdateFits database bound)
    (hlive : ∀ row ∈ rows, List.Forall₂ (IsLive database heap) (collectTables bound.from_) row.tableRows)
    (h : Updates ⟨database⟩ (storedValues ⟨database⟩ heap)
      (hits (passing ⟨database⟩ bound.filter rows) bound.assignments) entries)
    {e : PreparedUpdate} (he : e ∈ entries) : ∃ row, heap e.tableId e.rowId = some row ∧
      Encodes database e.tableId e.oldValues row ∧ Encodes database e.tableId e.newValues e.newRow := by
  obtain ⟨hit, hhit, hkey⟩ := (h.covers e.key).mp (List.mem_map_of_mem he)
  obtain ⟨hrow, hassignment⟩ := List.mem_product.mp hhit
  obtain ⟨dataType, ⟨table, hmem, hinstance, hid, -⟩, -⟩ := hfits.assignments hit.2 hassignment
  rw [updatedRow, ← hinstance, ← hid] at hkey
  obtain ⟨row, hheap⟩ :=
    storedRow_live (hlive hit.1 (mem_of_mem_passing hrow)) hfits.scope hmem hkey
  obtain ⟨tableMeta, htable, hdecode⟩ := h.decodes e he
  refine ⟨row, hheap, ?_, tableMeta, htable, (Tuple.decode_eq_ok.mp (hdecode ())).1⟩
  rw [h.old e he]
  exact encodes_stored hencoded hheap

omit hencoded in
/-- The position of a column is that of no other column. -/
lemma columnIndex_inj {tableMeta : TableMetadata} {columnId columnId' : ColumnId} {i : Nat}
    (h : tableMeta.columnIndex columnId = some i) (h' : tableMeta.columnIndex columnId' = some i) :
    columnId = columnId' := by
  obtain ⟨_, hid, -⟩ := List.findIdx?_eq_some_iff_getElem.mp h
  obtain ⟨_, hid', -⟩ := List.findIdx?_eq_some_iff_getElem.mp h'
  exact (of_decide_eq_true hid).symm.trans (of_decide_eq_true hid')

omit hencoded in
/-- An update keeps the value of a column that no assignment is for. -/
lemma Updates.unassigned {bound : BoundUpdate} {entries : List PreparedUpdate}
    (h : Updates ⟨database⟩ (storedValues ⟨database⟩ heap)
      (hits (passing ⟨database⟩ bound.filter rows) bound.assignments) entries)
    {e : PreparedUpdate} (he : e ∈ entries) {index : IndexMetadata} (on : IndexedColumn database index)
    (htable : index.tableId = e.tableId)
    (hnone : ∀ a ∈ bound.assignments, a.column.tableId = index.tableId → a.column.columnId ≠ index.columnId) :
    e.newValues[on.position]? = e.oldValues[on.position]? := by
  have hmissed : ((hits (passing ⟨database⟩ bound.filter rows) bound.assignments).filter fun hit =>
      updatedRow hit = some e.key ∧ columnPosition ⟨database⟩ hit.2 = some on.position) = [] := by
    rw [List.filter_eq_nil_iff]
    intro hit hhit
    rw [decide_eq_true_iff]
    rintro ⟨hkey, hposition⟩
    obtain ⟨tableRow, -, hpair⟩ := Option.map_eq_some_iff.mp hkey
    have hid : hit.2.column.tableId = index.tableId := (congrArg Prod.fst hpair).trans htable.symm
    rw [columnPosition, hid, on.table_eq, Option.bind_some] at hposition
    exact hnone hit.2 (List.mem_product.mp hhit).2 hid (columnIndex_inj hposition on.position_eq)
  rw [h.new e he, mergedValue, hmissed, h.old e he]
  rfl

/-- A delete is of a live row of a target. -/
lemma Removes.encodes {bound : BoundDelete} {entries : List PreparedDelete}
    (hfits : Binder.DeleteFits database bound)
    (hlive : ∀ row ∈ rows, List.Forall₂ (IsLive database heap) (collectTables bound.from_) row.tableRows)
    (h : Removes (storedValues ⟨database⟩ heap)
      (passing ⟨database⟩ bound.filter rows ×ˢ bound.targets) entries)
    {e : PreparedDelete} (he : e ∈ entries) : (∃ row, heap e.tableId e.rowId = some row ∧
      Encodes database e.tableId e.values row) ∧ ∃ table ∈ bound.targets, table.tableId = e.tableId := by
  obtain ⟨hit, hhit, hkey⟩ := (h.covers e.key).mp (List.mem_map_of_mem he)
  obtain ⟨hrow, htarget⟩ := List.mem_product.mp hhit
  obtain ⟨row, hheap⟩ :=
    storedRow_live (hlive hit.1 (mem_of_mem_passing hrow)) hfits.scope (hfits.targets hit.2 htarget) hkey
  refine ⟨⟨row, hheap, ?_⟩, hit.2, htarget, ?_⟩
  · rw [h.old e he]
    exact encodes_stored hencoded hheap
  · obtain ⟨tableRow, -, hpair⟩ := Option.map_eq_some_iff.mp hkey
    exact congrArg Prod.fst hpair

end Executor

end RdbRs
