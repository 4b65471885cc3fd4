import RdbRs.Database.ReadsReturn
import RdbRs.Database.SparedIndexes
import RdbRs.Database.RowWidths

/-!
# Statements return

No statement hangs, whatever the statements before it were. One that panics has too many columns or assigns more
bytes than a length of sixteen bits allows.
-/

namespace RdbRs

open Exec

/-- The bytes that the assignments of an `UPDATE` bring. -/
def BoundUpdate.width (bound : BoundUpdate) : Nat := (bound.assignments.map fun a => a.value.width).sum

/-- The statements that may overflow a counter: a `CREATE TABLE` the one of the columns, and an `UPDATE` the length
of the row that takes the place of one in a page. -/
def BoundStatement.Oversized : BoundStatement → Prop
  | createTable bound => i32Max ≤ bound.columns.length + 1
  | update bound => u16Max < pageSize + 3 + bound.width
  | _ => False

/-- A stored row is part of a page. -/
lemma PageRun.length_le {p : Page} {m : SlotId → Option Row} {slotId : SlotId} {row : Row} (h : PageRun p m)
    (hrow : m slotId = some row) : row.data.length ≤ pageSize := by
  obtain ⟨L, hL, rfl⟩ := h.holds
  obtain ⟨o, hs⟩ := slot_of_lookup hrow
  have hbounds := hL.entry_bounds hs
  have hlen := le_rowAllocationSize row.data.length
  omega

section Stores

variable {σ : Type} [PageStore σ] [UnstableSort] {database : DatabaseMetadata}
  {heap : TableId → RowId → Option Row} {s : σ} {t : TableId} {id : RowId} {row : Row}

lemma Carries.length_le (h : Carries database heap s) (hrow : heap t id = some row) :
    row.data.length ≤ pageSize := by
  rcases h.file t with ⟨n, ps, -, -, hpages⟩ | ⟨-, hnone⟩
  · cases hpage : ps[id.pageId.index]? with
    | none =>
      rw [hpages.absent (List.getElem?_eq_none_iff.mp hpage)] at hrow
      cases hrow
    | some p =>
      have hp := hpages.page hpage
      rw [PageId.new_index] at hp
      exact hp.length_le hrow
  · rw [h.rows_eq_none hnone] at hrow
    cases hrow

end Stores

namespace Database

section Statements

variable {σ : Type} [PageStore σ] [UnstableSort] {catalog : Catalog} {F : Prop}
  {heap : TableId → RowId → Option Row} {s₀ : σ} {db : Database σ}
  {changes : List (Change TableId RowId Row)}

/-! ### INSERT and SELECT -/

lemma carriesOver_of_untouched (hcarries : Carries catalog.metadata heap s₀) (db : Database σ)
    (h : Untouched catalog s₀ db) : HasStore catalog (CarriesOver ∅ s₀ catalog.metadata heap) db :=
  ⟨h.1, carriesOver_of_pagesAre hcarries db.storage h.2⟩

lemma halts_executeInsert {bound : BoundInsert} (hcarries : Carries catalog.metadata heap s₀)
    (hfits : bound.Fits catalog.metadata) :
    Halts F (Untouched catalog s₀) (executeInsert bound) fun _ _ => True := by
  unfold executeInsert
  apply halts_executor.bind_of
  intro executor hexecutor
  rw [hexecutor]
  have hencode : Computes ExecutorError.IsOfData
      (Executor.encodeInsert ⟨catalog.metadata⟩ bound : Exec ExecutorError (Database σ) Row)
      (IndexManager.Encodes catalog.metadata bound.tableId bound.values) :=
    Executor.encodeInsert_computes hfits
  apply ((hencode.halts (P := Untouched catalog s₀)).mapErr DatabaseError.executor).bind_of
  intro row hencodes
  have hinsert : Halts F (CarriesOver ∅ s₀ catalog.metadata heap)
      (Engine.insertRow bound.tableId row : Exec TableError σ RowId)
      fun id s => heap bound.tableId id = none ∧
        CarriesOver ∅ s₀ catalog.metadata (setAt heap bound.tableId id (some row)) s :=
    (TableManager.halts_insertRow row).of_triple (TableManager.insertRow_triple hencodes.isEncoded)
  have hstored := ((halts_onStorage hinsert).mapErr DatabaseError.table).pre
    (carriesOver_of_untouched hcarries)
  apply hstored.bind
  rintro id db ⟨hcatalog, -, hs⟩
  apply halts_catalog.bind_of _ db ⟨hcatalog, hs⟩
  intro catalog' hcatalog'
  rw [hcatalog']
  apply ((halts_onStorage (IndexManager.halts_insertRow hencodes)).mapErr DatabaseError.index).bind
  exact fun _ _ _ => trivial

lemma halts_executeSelect {statement : SelectStatement} {bound : BoundSelect}
    (hcarries : Carries catalog.metadata heap s₀)
    (hbind : (Binder.mk catalog.metadata).bindSelect statement = .ok bound)
    (hfit : ReadsFit catalog.metadata (bound.from_, bound.filter)) :
    Halts F (Untouched catalog s₀) (executeSelect bound) fun _ _ => True := by
  unfold executeSelect
  apply (halts_executeFromClause hcarries hfit).bind_of
  rintro rows ⟨hlive, -⟩
  apply halts_executor.bind_of
  intro executor hexecutor
  rw [hexecutor]
  have hrows : ∀ row ∈ rows, row.IsFrom catalog.metadata (collectTables bound.from_) :=
    fun row hrow => (hlive row hrow).imp fun _ _ h => h.1.1
  have hselect := Executor.selectRows_computes (σ := Database σ)
    (show (Binder.mk (Executor.mk catalog.metadata).database).bindSelect statement = .ok bound from hbind) hrows
  apply ((hselect.halts (P := Untouched catalog s₀)).mapErr DatabaseError.executor).bind
  exact fun _ _ _ => trivial

/-! ### UPDATE and DELETE -/

lemma halts_applyUpdate {update : PreparedUpdate} {row : Row}
    (hold : IndexManager.Encodes catalog.metadata update.tableId update.oldValues row)
    (hnew : IndexManager.Encodes catalog.metadata update.tableId update.newValues update.newRow)
    (hrow : ¬ FitsU16 update.newRow → F) (done : List (Change TableId RowId Row)) :
    Halts F (Made ∅ catalog heap s₀ done) (applyUpdate update)
      fun _ => Made ∅ catalog heap s₀ (done ++ [update.change]) := by
  apply Halts.of_ends _ (applyUpdate_ends hold hnew (fun _ _ _ hmem => absurd hmem (Set.notMem_empty _)) done)
  unfold applyUpdate
  apply halts_catalog.bind_of
  intro catalog' hcatalog
  rw [hcatalog]
  apply ((halts_onStorage (IndexManager.halts_updateRow hold hnew)).mapErr DatabaseError.index).bind
  intro _
  apply ((halts_onStorage (TableManager.halts_updateRow hrow)).mapErr DatabaseError.table).imp id
    (fun _ hdb => hdb)
  exact fun _ _ _ => trivial

lemma halts_applyDelete {delete : PreparedDelete} {row : Row}
    (hold : IndexManager.Encodes catalog.metadata delete.tableId delete.values row)
    (done : List (Change TableId RowId Row)) :
    Halts F (Made ∅ catalog heap s₀ done) (applyDelete delete)
      fun _ => Made ∅ catalog heap s₀ (done ++ [delete.change]) := by
  apply Halts.of_ends _ (applyDelete_ends hold (fun _ _ _ => Set.notMem_empty _) done)
  unfold applyDelete
  apply halts_catalog.bind_of
  intro catalog' hcatalog
  rw [hcatalog]
  apply ((halts_onStorage (IndexManager.halts_deleteRow hold)).mapErr DatabaseError.index).bind
  intro _
  apply ((halts_onStorage TableManager.halts_deleteRow).mapErr DatabaseError.table).imp id (fun _ hdb => hdb)
  exact fun _ _ _ => trivial

/-- A loop of changes. -/
lemma halts_changes {α : Type} (change : α → Change TableId RowId Row)
    {f : α → Exec DatabaseError (Database σ) PUnit} {l : List α}
    (h : ∀ a ∈ l, ∀ done, Halts F (Made ∅ catalog heap s₀ done) (f a)
      fun _ => Made ∅ catalog heap s₀ (done ++ [change a])) :
    Halts F (Made ∅ catalog heap s₀ []) (l.forM f) fun _ _ => True := by
  have hloop : Halts F (fun db => ∃ done, Made ∅ catalog heap s₀ done db) (l.forM f)
      fun _ db => ∃ done, Made ∅ catalog heap s₀ done db := by
    apply halts_forM
    rintro a ha db ⟨done, hdb⟩
    exact (h a ha done).imp id (fun _ hdb => hdb) (fun _ _ hdb => ⟨_, hdb⟩) db hdb
  exact hloop.imp id (fun db hdb => ⟨[], hdb⟩) fun _ _ _ => trivial

/-- The row of an update fits sixteen bits, if the assigned bytes do beside those of a page. -/
lemma fitsU16_of_updates {bound : BoundUpdate} {rows : List QueryRow} {entries : List PreparedUpdate}
    {e : PreparedUpdate} {row : Row} (hcarries : Carries catalog.metadata heap s₀)
    (hentries : Executor.Updates ⟨catalog.metadata⟩ (Executor.storedValues ⟨catalog.metadata⟩ heap)
      (Executor.hits rows bound.assignments) entries)
    (he : e ∈ entries) (hrow : heap e.tableId e.rowId = some row)
    (hold : IndexManager.Encodes catalog.metadata e.tableId e.oldValues row)
    (hnew : IndexManager.Encodes catalog.metadata e.tableId e.newValues e.newRow)
    (hwidth : pageSize + 3 + bound.width ≤ u16Max) : FitsU16 e.newRow := by
  obtain ⟨_, -, hencode⟩ := hold
  obtain ⟨_, -, hencode'⟩ := hnew
  have hstored := hcarries.length_le hrow
  have hmerged := hentries.widths_le he
  have halloc := rowAllocationSize_eq e.newRow.data.length
  rw [Tuple.length_of_encode hencode] at hstored
  rw [FitsU16, halloc, Tuple.length_of_encode hencode']
  rw [BoundUpdate.width] at hwidth
  have hpage : pageSize = 8192 := rfl
  split
  · omega
  · omega

lemma halts_executeUpdate {statement : UpdateStatement} {bound : BoundUpdate}
    (hcarries : Carries catalog.metadata heap s₀)
    (hbind : (Binder.mk catalog.metadata).bindUpdate statement = .ok bound)
    (hfit : ReadsFit catalog.metadata (bound.from_, bound.filter)) :
    Halts (u16Max < pageSize + 3 + bound.width) (Untouched catalog s₀) (executeUpdate bound)
      fun _ _ => True := by
  have hfits : Binder.UpdateFits catalog.metadata bound := Binder.bindUpdate_fits hbind
  unfold executeUpdate
  apply (halts_executeFromClause hcarries hfit).bind_of
  rintro rows ⟨hlive, -⟩
  apply halts_executor.bind_of
  intro executor hexecutor
  rw [hexecutor]
  have hstored : ∀ row ∈ rows, row.IsStored catalog.metadata
      (Executor.storedValues ⟨catalog.metadata⟩ heap) (collectTables bound.from_) :=
    fun row hrow => (hlive row hrow).imp fun _ _ h => h.1
  apply (((prepareUpdate_computes hbind hstored).halts (P := Untouched catalog s₀)).mapErr DatabaseError.executor).bind_of
  intro entries hentries
  have hround : ∀ e ∈ entries, ∀ done,
      Halts (u16Max < pageSize + 3 + bound.width) (Made ∅ catalog heap s₀ done) (applyUpdate e)
        fun _ => Made ∅ catalog heap s₀ (done ++ [e.change]) := by
    intro e he
    obtain ⟨row, hrow, hold, hnew⟩ := hentries.encodes hcarries.encoded hfits hlive he
    apply halts_applyUpdate hold hnew
    intro hlong
    by_contra hshort
    exact hlong (fitsU16_of_updates hcarries hentries he hrow hold hnew (Nat.le_of_not_lt hshort))
  apply ((halts_changes PreparedUpdate.change hround).pre fun db hdb => Untouched.made hcarries hdb).bind
  exact fun _ _ _ => trivial

lemma halts_executeDelete {statement : DeleteStatement} {bound : BoundDelete}
    (hcarries : Carries catalog.metadata heap s₀)
    (hbind : (Binder.mk catalog.metadata).bindDelete statement = .ok bound)
    (hfit : ReadsFit catalog.metadata (bound.from_, bound.filter)) :
    Halts F (Untouched catalog s₀) (executeDelete bound) fun _ _ => True := by
  have hfits : Binder.DeleteFits catalog.metadata bound := Binder.bindDelete_fits hbind
  unfold executeDelete
  apply (halts_executeFromClause hcarries hfit).bind_of
  rintro rows ⟨hlive, -⟩
  apply halts_executor.bind_of
  intro executor hexecutor
  have hstored : ∀ row ∈ rows, row.IsStored (Executor.mk catalog.metadata).database
      (Executor.storedValues ⟨catalog.metadata⟩ heap) (collectTables bound.from_) :=
    fun row hrow => (hlive row hrow).imp fun _ _ h => h.1
  obtain ⟨entries, hrun, hentries⟩ := Executor.prepareDelete_eq (σ := Database σ) hbind hstored
  rw [hexecutor, hrun, Exec.mapErr_pure, Exec.pure_bind]
  have hround : ∀ e ∈ entries, ∀ done, Halts F (Made ∅ catalog heap s₀ done) (applyDelete e)
      fun _ => Made ∅ catalog heap s₀ (done ++ [e.change]) := by
    intro e he
    obtain ⟨⟨row, -, hold⟩, -⟩ := hentries.encodes hcarries.encoded hfits hlive he
    exact halts_applyDelete hold
  apply ((halts_changes PreparedDelete.change hround).pre fun db hdb => Untouched.made hcarries hdb).bind
  exact fun _ _ _ => trivial

/-! ### CREATE TABLE -/

omit [PageStore σ] [UnstableSort] in
lemma halts_buildTableMetadata {name : String} {columns : List (String × DataType)} :
    Halts (i32Max ≤ columns.length + 1) (fun _ => True) (Catalog.buildTableMetadata name columns)
      fun _ _ => True := by
  unfold Catalog.buildTableMetadata
  apply (total_gets _).halts.bind
  intro metadata
  split
  · exact halts_throw
  split
  · exact halts_throw
  split
  · next hmany => exact halts_panic hmany
  · exact ((total_liftExcept _).mapErr _).halts

omit [PageStore σ] [UnstableSort] in
lemma total_save : Total Catalog.save := by
  intro catalog
  cases hbytes : catalog.metadata.toBytes with
  | ok bytes =>
    rw [run_save_ok hbytes]
    exact Outcome.ends_ok
  | error e =>
    rw [run_save_err hbytes]
    exact Outcome.ends_err

lemma halts_createTable {bound : BoundCreateTable} :
    Halts (i32Max ≤ bound.columns.length + 1) (Untouched catalog s₀) (createTable bound) fun _ _ => True := by
  unfold createTable
  have hbuild : Halts (i32Max ≤ bound.columns.length + 1) (Untouched catalog s₀)
      (onCatalog (Catalog.buildTableMetadata bound.table (columnsOf bound))) fun _ _ => True := by
    apply Halts.zoom (halts_buildTableMetadata.imp _ (fun _ hs => hs) fun _ _ hs => hs)
      (fun _ _ => trivial) fun _ _ _ _ _ => trivial
    rw [columnsOf, List.length_map]
    exact id
  apply (hbuild.mapErr _).bind
  intro table
  apply Total.halts
  apply Total.bind ((((PageStore.total_createRelation _).mapErr _).zoom _ _).mapErr _)
  intro _
  apply Total.bind _ fun _ => total_pure
  apply Total.mapErr
  apply Total.zoom
  apply Total.bind ((total_query _).mapErr _)
  intro metadata
  exact (total_modify _).bind fun _ => total_save

/-! ### CREATE INDEX -/

section NewIndex

variable {index : IndexMetadata} (on : IndexedColumn catalog.metadata index)

lemma total_createIndexBtree {indexId : IndexId} {dataType : DataType} :
    Total (IndexManager.createIndexBtree indexId dataType : Exec IndexError σ PageId) := by
  unfold IndexManager.createIndexBtree
  split
  · exact total_throw
  · apply Total.bind ((PageStore.total_createRelation _).mapErr _)
    intro _
    exact ((BTree.total_create _ _).mapErr _).bind fun _ => total_pure

/-- An entry of the new tree. -/
lemma halts_insertEntry_new {v : Value} (id : RowId) (htype : v.HasType on.column.dataType) :
    Halts F on.tree.Reachable (IndexManager.insertEntry index v id : Exec IndexError σ Unit)
      fun _ => on.tree.Reachable := by
  intro s hs
  cases hk : valueToBtreeKey v with
  | none =>
    rw [IndexManager.insertEntry, hk]
    exact hs
  | some k =>
    rw [IndexManager.run_insertEntry htype hk hs.sound]
    have hinsert := BTree.halts_insert (F := F) k id s hs.sound
    cases hrun : (on.tree.insert k id).run s with
    | ok _ s' => exact hs.insert (.inl ⟨(), hrun⟩)
    | err e s' => trivial
    | panic =>
      rw [hrun] at hinsert
      exact hinsert
    | diverge =>
      rw [hrun] at hinsert
      exact hinsert

lemma halts_backfill : Halts F (Filled ∅ s₀ heap on 0)
    (IndexManager.backfill catalog index : Exec IndexError σ Unit) fun _ _ => True := by
  have hscan : Halts F (Filled ∅ s₀ heap on 0) (Engine.scanRows index.tableId : Exec TableError σ _)
      fun live s => (∀ e ∈ live, Executor.IsEncoded catalog.metadata index.tableId e.2) ∧ on.tree.Reachable s := by
    intro s hs
    obtain ⟨live, s', hrun, hpages, -, hlive⟩ := scanRows_ok hs.2.carries on.table_eq
    have hrun' : (Engine.scanRows index.tableId : Exec TableError σ _).run s = .ok live s' := hrun
    rw [hrun']
    exact ⟨fun e he => hs.2.carries.encoded _ _ _ ((hlive e).mp he), (hs.of_pages hpages).1.1⟩
  unfold IndexManager.backfill
  apply (hscan.mapErr IndexError.table).bind_of
  intro live hencoded
  have htable : catalog.indexTable index.tableId = .ok on.tableMeta := by
    rw [Catalog.indexTable, on.table_eq]
  rw [htable, Exec.liftExcept_ok, Exec.mapErr_pure, Exec.pure_bind, Binder.tableById_id on.table_eq,
    IndexManager.indexColumnPosition_eq on, Exec.liftExcept_ok, Exec.mapErr_pure, Exec.pure_bind,
    IndexManager.backfillEntries_eq hencoded, Exec.pure_bind]
  have hround : ∀ entry ∈ IndexManager.backfillEntries on live, Halts F on.tree.Reachable
      (IndexManager.insertEntry index entry.1 entry.2 : Exec IndexError σ Unit) fun _ => on.tree.Reachable := by
    intro entry hentry
    obtain ⟨e, he, rfl⟩ := List.mem_map.mp hentry
    obtain ⟨v, hv, htype⟩ := on.value_of_encoded (hencoded e he)
    rw [hv]
    exact halts_insertEntry_new on e.1 htype
  exact (halts_forM hround).imp id (fun _ hs => hs) fun _ _ _ => trivial

end NewIndex

lemma halts_createIndex {bound : BoundCreateIndex} (hnumbered : Numbered catalog.metadata)
    (hcarries : Carries catalog.metadata heap s₀) :
    Halts F (Untouched catalog s₀) (createIndex bound) fun _ _ => True := by
  unfold createIndex
  apply Halts.bind (Q := fun _ _ => True) _ fun _ => total_pure.halts
  apply Halts.mapErr
  unfold IndexManager.createIndex
  have hnext : Total (Catalog.nextIndexId bound.indexName) := by
    apply (total_gets _).bind
    exact fun _ => total_throw.ite (total_throw.ite total_pure)
  have hid : Halts F (HasStore catalog (CarriesOver ∅ s₀ catalog.metadata heap))
      (Exec.mapErr IndexError.catalog (onCatalog (Catalog.nextIndexId bound.indexName)))
      fun i db => i.id.toNat = catalog.metadata.indexes.length + 1 ∧
        HasStore catalog (CarriesOver ∅ s₀ catalog.metadata heap) db := by
    apply ((hnext.zoom _ _).mapErr _).halts.of_triple
    apply ((onCatalog_triple nextIndexId_triple).mapErr IndexError.catalog).imp (fun _ hdb => hdb) _
      fun _ _ => trivial
    rintro i db ⟨catalog', ⟨hi, rfl⟩, hdb⟩
    exact ⟨hi, hdb⟩
  apply (hid.pre (carriesOver_of_untouched hcarries)).bind_of
  intro i hi
  have hfresh : ∀ index ∈ catalog.metadata.indexes, index.id ≠ i := by
    rintro index hindex rfl
    have hle : index.id.id.toNat ≤ catalog.metadata.indexes.length := hnumbered index hindex
    omega
  apply halts_catalog.bind_of
  intro catalog' hcatalog
  rw [hcatalog]
  cases hdataType : catalog.indexColumnDataType bound.tableId bound.columnId with
  | error e => exact total_throw.halts
  | ok dataType =>
    rw [Exec.liftExcept_ok, Exec.mapErr_pure, Exec.pure_bind]
    have htree : Halts F (CarriesOver ∅ s₀ catalog.metadata heap)
        (IndexManager.createIndexBtree i dataType : Exec IndexError σ PageId) _ :=
      total_createIndexBtree.halts.of_triple (createIndexBtree_triple (Set.notMem_empty i) hfresh)
    apply (halts_onStorage htree).bind
    rintro root db ⟨hdb, ⟨keyType, hkeyType, hnew⟩, hs⟩
    obtain ⟨on, hon⟩ : ∃ on : IndexedColumn catalog.metadata ⟨i, bound.indexName, bound.tableId,
        bound.columnId, root⟩, on.keyType = keyType := IndexManager.indexedColumn_of hdataType hkeyType
    rw [← hon] at hnew
    apply (halts_onStorage (halts_backfill on)).bind _ db ⟨hdb, hnew, hs⟩
    intro _
    apply Total.halts
    apply Total.mapErr
    apply Total.zoom
    apply Total.bind ((total_query _).mapErr _)
    intro metadata
    exact (total_modify _).bind fun _ => total_save

/-! ### Statements -/

lemma halts_executeBound {statement : Statement} {bound : BoundStatement} (hnumbered : Numbered catalog.metadata)
    (hcarries : Carries catalog.metadata heap s₀)
    (hbind : (Binder.mk catalog.metadata).bind statement = .ok bound) :
    Halts bound.Oversized (Untouched catalog s₀) (executeBound bound) fun _ _ => True := by
  have hfit (p : BoundFromClause × Option BoundExpression) (hp : p ∈ bound.reads) :
      ReadsFit catalog.metadata p := BoundStatement.reads_fit hbind hp
  cases bound with
  | createTable bound => exact halts_createTable
  | createIndex bound => exact halts_createIndex hnumbered hcarries
  | insert bound =>
    obtain ⟨insert, hinsert⟩ := Binder.bind_insert hbind
    exact halts_executeInsert hcarries (Binder.bindInsert_fits hinsert)
  | select bound =>
    obtain ⟨select, hselect⟩ := Binder.bind_select hbind
    exact halts_executeSelect hcarries hselect (hfit _ rfl)
  | update bound =>
    obtain ⟨update, hupdate⟩ := Binder.bind_update hbind
    exact halts_executeUpdate hcarries hupdate (hfit _ rfl)
  | delete bound =>
    obtain ⟨delete, hdelete⟩ := Binder.bind_delete hbind
    exact halts_executeDelete hcarries hdelete (hfit _ rfl)

/-- No statement hangs, and one that panics is oversized. -/
lemma Reached.halts_execute (h : Reached db) (statement : Statement) :
    Halts (∃ bound, (Binder.mk db.catalog.metadata).bind statement = .ok bound ∧ bound.Oversized) (· = db)
      (execute statement) fun _ _ => True := by
  obtain ⟨hnumbered, heap, hcarries⟩ := h.intact
  rintro db' rfl
  have huntouched : Untouched db'.catalog db'.storage db' := ⟨rfl, rfl⟩
  unfold execute
  rw [Exec.run_bind, Exec.run_gets, Outcome.andThen_ok]
  cases hbind : (Binder.mk db'.catalog.metadata).bind statement with
  | error e => trivial
  | ok bound =>
    rw [Exec.liftExcept_ok, Exec.mapErr_pure, Exec.pure_bind]
    exact (halts_executeBound hnumbered hcarries hbind).imp (fun hover => ⟨bound, rfl, hover⟩) (fun _ hs => hs)
      (fun _ _ hs => hs) db' huntouched

end Statements

end Database

end RdbRs
