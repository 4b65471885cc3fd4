import RdbRs.Catalog.CatalogRuns
import RdbRs.Database.Fetching
import RdbRs.Database.LiveRows
import RdbRs.Database.MapEngine
import RdbRs.Executor.Soundness

/-!
# Runs of statements

A statement that returns `Ok` leaves the indexes in step with the tables, and a statement that fails on
indexes in step does not miss an entry.
-/

namespace RdbRs

def DatabaseError.IsEntryNotFound : DatabaseError → Prop
  | index e => e.IsEntryNotFound
  | _ => False

/-- The errors a statement may stop with when the indexes are in step. -/
def DatabaseError.Other (e : DatabaseError) : Prop := ¬ e.IsEntryNotFound

namespace Database

variable {σ : Type} {Shows : σ → Contents → Prop} {catalog : Catalog} {c : Contents}

/-- The storage shows contents that the indexes of the catalog agree with. -/
def InStep (Shows : σ → Contents → Prop) (db : Database σ) : Prop :=
  ∃ c, Shows db.storage c ∧ Agrees db.catalog.metadata c

lemma IsAt.inStep {db : Database σ} (h : IsAt Shows catalog c db) (hagrees : Agrees catalog.metadata c) :
    InStep Shows db := ⟨c, h.shows, by rwa [h.catalog]⟩

/-- What a statement that changes rows leaves: the same catalog, and contents it agrees with. -/
def Keeps (Shows : σ → Contents → Prop) (catalog : Catalog) (db : Database σ) : Prop :=
  ∃ c, IsAt Shows catalog c db ∧ Agrees catalog.metadata c

lemma Keeps.inStep {db : Database σ} (h : Keeps Shows catalog db) : InStep Shows db := by
  have ⟨c, hat, hagrees⟩ := h
  exact hat.inStep hagrees

lemma catalog_yields {ε : Type} {E : ε → Prop} :
    Exec.Yields (IsAt Shows catalog c) (Exec.gets Database.catalog)
      (fun catalog' db => catalog' = catalog ∧ IsAt Shows catalog c db) E :=
  Exec.yields_gets fun _ hdb => ⟨hdb.catalog, hdb⟩

/-- A call of the executor on typed rows changes nothing. -/
lemma executor_yields {α : Type} {x : Exec ExecutorError (Database σ) α} {P : Database σ → Prop}
    {V : α → Prop} (h : Exec.Computes ExecutorError.IsOfData x V) :
    Exec.Yields P (Exec.mapErr DatabaseError.executor x) (fun a db => V a ∧ P db) DatabaseError.Other :=
  h.yields.mapErr DatabaseError.executor DatabaseError.Other fun _ _ => not_false

/-- A call on a table that changes the contents when it returns `Ok`. -/
lemma table_yields {α : Type} {x : Exec TableError σ α} {V : α → Prop} {change : α → Contents}
    (h : ∀ s a s', Shows s c → x.run s = .ok a s' → V a ∧ Shows s' (change a)) :
    Exec.Yields (IsAt Shows catalog c) (Exec.mapErr DatabaseError.table (onStorage x))
      (fun a db => V a ∧ IsAt Shows catalog (change a) db) DatabaseError.Other := by
  have hx : Exec.Yields (Shows · c) x (fun a s => ∃ c', Shows s c' ∧ V a ∧ c' = change a)
      fun _ => True := by
    intro s hs
    cases hrun : x.run s with
    | ok a s' =>
      have ⟨ha, hs'⟩ := h s a s' hs hrun
      exact ⟨_, hs', ha, rfl⟩
    | err e s' => trivial
    | panic => trivial
    | diverge => trivial
  apply ((onStorage_yields hx).mapErr DatabaseError.table DatabaseError.Other fun _ _ => not_false).imp
    fun _ hdb => hdb
  intro a db hdb
  have ⟨c', hat, ha, heq⟩ := hdb
  exact ⟨ha, heq ▸ hat⟩

/-- A call of the index manager. -/
lemma index_yields {α : Type} {x : Exec IndexError σ α} {Q : Contents → Prop}
    (h : Exec.Yields (Shows · c) x (fun _ s => ∃ c', Shows s c' ∧ Q c') IndexError.Other) :
    Exec.Yields (IsAt Shows catalog c) (Exec.mapErr DatabaseError.index (onStorage x))
      (fun _ db => ∃ c', Q c' ∧ IsAt Shows catalog c' db) DatabaseError.Other := by
  apply ((onStorage_yields h).mapErr DatabaseError.index DatabaseError.Other fun _ he => he).imp
    fun _ hdb => hdb
  intro _ db hdb
  have ⟨c', hat, hQ⟩ := hdb
  exact ⟨c', hQ, hat⟩

variable [Engine σ]

/-! ### INSERT -/

lemma executeInsert_yields {bound : BoundInsert} (h : Engine.Lawful Shows)
    (hagrees : Agrees catalog.metadata c) (hfits : bound.Fits catalog.metadata) :
    Exec.Yields (IsAt Shows catalog c) (executeInsert bound) (fun _ => Keeps Shows catalog)
      DatabaseError.Other := by
  unfold executeInsert
  apply executor_succeeds.yields.bind_of
  intro executor hexecutor
  rw [hexecutor]
  apply (executor_yields (P := IsAt Shows catalog c) (Executor.encodeInsert_computes hfits)).bind_of
  intro row (hencodes : IndexManager.Encodes catalog.metadata bound.tableId bound.values row)
  have ⟨tableMeta, htable, _⟩ := hencodes
  have hinsert : ∀ s id s', Shows s c → (Engine.insertRow bound.tableId row).run s = .ok id s' →
      c.rows bound.tableId id = none ∧ Shows s' (c.withTable bound.tableId
        (Function.update (c.rows bound.tableId) id (some row))) :=
    fun s id s' hs hrun => h.tables.insertRow_ok hs (hagrees.tables _ _ htable) hrun
  apply (table_yields hinsert).bind_of
  intro id hnone
  apply catalog_yields.bind_of
  intro catalog' hcatalog
  rw [hcatalog]
  have hround := IndexManager.insertRow_yields h (c := c.withTable bound.tableId
    (Function.update (c.rows bound.tableId) id (some row))) hnone hencodes
    fun index hindex => (hagrees.tracks index hindex).congr fun _ _ => rfl
  apply (index_yields hround).bind
  intro _
  apply Exec.yields_exists
  intro c'
  apply Exec.yields_pure
  intro db hdb
  refine ⟨c', hdb.2, ?_⟩
  apply hagrees.change hdb.1.1 _ hdb.1.2
  apply hagrees.encoded_update
  intro row' hrow'
  cases hrow'
  exact hencodes.isEncoded

/-! ### UPDATE and DELETE -/

/-- A change of a row that is there. The indexes are changed before the heap. -/
def Changes (Shows : σ → Contents → Prop) (catalog : Catalog) (c : Contents) (key : TableId × RowId)
    (db : Database σ) : Prop :=
  ∃ c', (Agrees catalog.metadata c' ∧ ∀ t id, (t, id) ≠ key → c'.rows t id = c.rows t id) ∧
    IsAt Shows catalog c' db

omit [Engine σ] in
/-- A loop that changes different rows. -/
lemma forM_changes {α : Type} {f : α → Exec DatabaseError (Database σ) PUnit} {key : α → TableId × RowId}
    (Ready : α → Row → Prop) {l : List α} (hdistinct : (l.map key).Nodup)
    (hready : ∀ a ∈ l, ∃ row, c.rows (key a).1 (key a).2 = some row ∧ Ready a row)
    (hstep : ∀ a ∈ l, ∀ c row, Agrees catalog.metadata c → c.rows (key a).1 (key a).2 = some row →
      Ready a row → Exec.Yields (IsAt Shows catalog c) (f a) (fun _ => Changes Shows catalog c (key a))
        DatabaseError.Other) (hagrees : Agrees catalog.metadata c) :
    Exec.Yields (IsAt Shows catalog c) (l.forM f) (fun _ => Keeps Shows catalog) DatabaseError.Other := by
  induction l generalizing c with
  | nil => exact Exec.yields_pure fun db hdb => ⟨c, hdb, hagrees⟩
  | cons a l ih =>
    rw [List.map_cons, List.nodup_cons] at hdistinct
    have ⟨row, hrow, hready₁⟩ := hready a List.mem_cons_self
    rw [Exec.forM_cons]
    apply (hstep a List.mem_cons_self c row hagrees hrow hready₁).bind
    intro _
    apply Exec.yields_exists
    intro c' db hdb
    have ⟨hagrees', hothers⟩ := hdb.1
    apply ih hdistinct.2 _ (fun b hb => hstep b (List.mem_cons_of_mem a hb)) hagrees' db hdb.2
    intro b hb
    have ⟨row', hrow', hready'⟩ := hready b (List.mem_cons_of_mem a hb)
    refine ⟨row', ?_, hready'⟩
    rw [hothers, hrow']
    intro heq
    exact hdistinct.1 (heq ▸ List.mem_map_of_mem hb)

omit [Engine σ] in
/-- A change of the indexes of a table and then of one of its rows. -/
lemma change_yields {x : Exec IndexError σ Unit} {y : Exec TableError σ Unit} {t : TableId} {id : RowId}
    {value : Option Row} (hagrees : Agrees catalog.metadata c)
    (htable : ∃ tableMeta, catalog.metadata.tableById t = some tableMeta)
    (hvalue : ∀ row ∈ value, Executor.IsEncoded catalog.metadata t row)
    (hx : Exec.Yields (Shows · c) x (fun _ s => ∃ c', Shows s c' ∧ c'.heap = c.heap ∧
      AllTrack catalog.metadata c' (Function.update c.rows t (Function.update (c.rows t) id value)))
      IndexError.Other)
    (hy : ∀ c₁ s s', Shows s c₁ → c₁.heap t = some (c.rows t) → y.run s = .ok () s' →
      Shows s' (c₁.withTable t (Function.update (c.rows t) id value))) :
    Exec.Yields (IsAt Shows catalog c) (Exec.mapErr DatabaseError.index (onStorage x) >>= fun _ =>
      Exec.mapErr DatabaseError.table (onStorage y)) (fun _ => Changes Shows catalog c (t, id))
      DatabaseError.Other := by
  have ⟨tableMeta, hmeta⟩ := htable
  apply (index_yields hx).bind
  intro _
  apply Exec.yields_exists
  intro c₁ db hdb
  have ⟨hheap, htracks⟩ := hdb.1
  have hy₁ : ∀ s (a : Unit) s', Shows s c₁ → y.run s = .ok a s' →
      True ∧ Shows s' (c₁.withTable t (Function.update (c.rows t) id value)) :=
    fun s _ s' hs hrun => ⟨trivial, hy c₁ s s' hs (by rw [hheap, hagrees.tables t tableMeta hmeta]) hrun⟩
  apply (table_yields hy₁).imp (fun _ hdb => hdb) _ db hdb.2
  intro _ db' hdb'
  have hrows : (c₁.withTable t (Function.update (c.rows t) id value)).rows =
      Function.update c.rows t (Function.update (c.rows t) id value) := by
    rw [Contents.rows_withTable, Contents.rows_congr hheap]
  refine ⟨_, ⟨?_, ?_⟩, hdb'.2⟩
  · apply hagrees.change _ (hagrees.encoded_update hvalue)
    · exact fun index hindex => (htracks index hindex).congr fun _ _ => rfl
    · rw [Contents.withTable, hheap]
      rfl
  · intro t' id' hne
    rw [hrows]
    by_cases heq : t' = t
    · rw [heq, Function.update_self]
      apply Function.update_of_ne
      intro heq'
      exact hne (by rw [heq, heq'])
    · rw [Function.update_of_ne heq]

variable {row : Row}

lemma applyUpdate_yields {e : PreparedUpdate} (h : Engine.Lawful Shows) (hagrees : Agrees catalog.metadata c)
    (hrow : c.rows e.tableId e.rowId = some row)
    (hold : IndexManager.Encodes catalog.metadata e.tableId e.oldValues row)
    (hnew : IndexManager.Encodes catalog.metadata e.tableId e.newValues e.newRow) :
    Exec.Yields (IsAt Shows catalog c) (applyUpdate e) (fun _ => Changes Shows catalog c e.key)
      DatabaseError.Other := by
  have ⟨tableMeta, htable, _⟩ := hold
  unfold applyUpdate
  apply catalog_yields.bind_of
  intro catalog' hcatalog
  rw [hcatalog]
  apply change_yields hagrees ⟨tableMeta, htable⟩ _
    (IndexManager.updateRow_yields h hrow hold hnew hagrees.tracks)
  · exact fun c₁ s s' hs hheap hrun => (h.tables.updateRow_ok hs hheap hrun).2
  · intro row' hrow'
    cases hrow'
    exact hnew.isEncoded

lemma applyDelete_yields {e : PreparedDelete} (h : Engine.Lawful Shows) (hagrees : Agrees catalog.metadata c)
    (hrow : c.rows e.tableId e.rowId = some row)
    (hold : IndexManager.Encodes catalog.metadata e.tableId e.values row) :
    Exec.Yields (IsAt Shows catalog c) (applyDelete e) (fun _ => Changes Shows catalog c e.key)
      DatabaseError.Other := by
  have ⟨tableMeta, htable, _⟩ := hold
  unfold applyDelete
  apply catalog_yields.bind_of
  intro catalog' hcatalog
  rw [hcatalog]
  apply change_yields hagrees ⟨tableMeta, htable⟩ _
    (IndexManager.deleteRow_yields h hrow hold hagrees.tracks)
  · exact fun c₁ s s' hs hheap hrun => (h.tables.deleteRow_ok hs hheap hrun).2
  · intro row' hrow'
    cases hrow'

/-! ### Prepared rows -/

omit [Engine σ] in
lemma IsJoin.isStored {from_ : BoundFromClause} {filter : Option BoundExpression} {rows : List QueryRow}
    (h : IsJoin catalog.metadata c filter from_ rows) (hagrees : Agrees catalog.metadata c) :
    ∀ row ∈ rows, row.IsStored catalog.metadata (Executor.storedValues ⟨catalog.metadata⟩ c.rows)
      (collectTables from_) :=
  fun row hrow => (h.isLive hagrees.encoded row hrow).imp fun _ _ hlive => hlive.1

omit [Engine σ] in
lemma prepareUpdate_computes {statement : UpdateStatement} {bound : BoundUpdate} {rows : List QueryRow}
    {stored : TableId → RowId → List Value}
    (hbind : (Binder.mk catalog.metadata).bindUpdate statement = .ok bound)
    (hrows : ∀ row ∈ rows, row.IsStored catalog.metadata stored (collectTables bound.from_)) :
    Exec.Computes ExecutorError.IsOfData
      (Executor.prepareUpdate ⟨catalog.metadata⟩ rows bound : Exec ExecutorError (Database σ) _)
      (Executor.Updates ⟨catalog.metadata⟩ stored
        (Executor.hits (Executor.passing ⟨catalog.metadata⟩ bound.filter rows) bound.assignments)) := by
  have hstored : ∀ row ∈ rows, row.IsStored (Executor.mk catalog.metadata).database stored
      (collectTables bound.from_) := hrows
  cases Executor.prepareUpdate_cases (σ := Database σ) hbind hstored with
  | inl hlong =>
    rw [hlong.2]
    exact Exec.computes_throw rfl
  | inr hupdates =>
    have ⟨entries, hrun, hentries, _⟩ := hupdates
    rw [hrun]
    exact Exec.computes_pure hentries

lemma executeUpdate_yields {statement : UpdateStatement} {bound : BoundUpdate} (h : Engine.Lawful Shows)
    (hagrees : Agrees catalog.metadata c)
    (hbind : (Binder.mk catalog.metadata).bindUpdate statement = .ok bound) :
    Exec.Yields (IsAt Shows catalog c) (executeUpdate bound) (fun _ => Keeps Shows catalog)
      DatabaseError.Other := by
  have hfits : Binder.UpdateFits catalog.metadata bound := Binder.bindUpdate_fits hbind
  have hfrom : bound.from_.Fits catalog.metadata := Binder.bindUpdate_from hbind
  unfold executeUpdate
  apply (executeFromClause_succeeds h.reads hagrees hfrom hfits.scope hfits.filter).yields.bind_of
  intro rows hjoin
  apply executor_succeeds.yields.bind_of
  intro executor hexecutor
  rw [hexecutor]
  apply (executor_yields (P := IsAt Shows catalog c)
    (prepareUpdate_computes hbind (hjoin.isStored hagrees))).bind_of
  intro entries hentries
  apply Exec.Yields.bind (Q := fun _ => Keeps Shows catalog)
  · apply forM_changes (fun e row => IndexManager.Encodes catalog.metadata e.tableId e.oldValues row ∧
      IndexManager.Encodes catalog.metadata e.tableId e.newValues e.newRow) hentries.distinct _ _ hagrees
    · exact fun e he => hentries.encodes hagrees.encoded hfits (hjoin.isLive hagrees.encoded) he
    · exact fun e _ c row hagrees hrow hready => applyUpdate_yields h hagrees hrow hready.1 hready.2
  · intro _
    exact Exec.yields_pure fun _ hdb => hdb

lemma executeDelete_yields {statement : DeleteStatement} {bound : BoundDelete} (h : Engine.Lawful Shows)
    (hagrees : Agrees catalog.metadata c)
    (hbind : (Binder.mk catalog.metadata).bindDelete statement = .ok bound) :
    Exec.Yields (IsAt Shows catalog c) (executeDelete bound) (fun _ => Keeps Shows catalog)
      DatabaseError.Other := by
  have hfits : Binder.DeleteFits catalog.metadata bound := Binder.bindDelete_fits hbind
  have hfrom : bound.from_.Fits catalog.metadata := Binder.bindDelete_from hbind
  unfold executeDelete
  apply (executeFromClause_succeeds h.reads hagrees hfrom hfits.scope hfits.filter).yields.bind_of
  intro rows hjoin
  apply executor_succeeds.yields.bind_of
  intro executor hexecutor
  have hstored : ∀ row ∈ rows, row.IsStored (Executor.mk catalog.metadata).database
      (Executor.storedValues ⟨catalog.metadata⟩ c.rows) (collectTables bound.from_) :=
    hjoin.isStored hagrees
  have ⟨entries, hrun, hentries⟩ := Executor.prepareDelete_eq (σ := Database σ) hbind hstored
  rw [hexecutor, hrun, Exec.mapErr_pure, Exec.pure_bind]
  apply Exec.Yields.bind (Q := fun _ => Keeps Shows catalog)
  · apply forM_changes (fun e row => IndexManager.Encodes catalog.metadata e.tableId e.values row)
      hentries.distinct _ _ hagrees
    · exact fun e he => (hentries.encodes hagrees.encoded hfits (hjoin.isLive hagrees.encoded) he).1
    · exact fun e _ c row hagrees hrow hready => applyDelete_yields h hagrees hrow hready
  · intro _
    exact Exec.yields_pure fun _ hdb => hdb

/-! ### SELECT -/

lemma executeSelect_yields {statement : SelectStatement} {bound : BoundSelect} (h : Engine.Lawful Shows)
    (hagrees : Agrees catalog.metadata c)
    (hbind : (Binder.mk catalog.metadata).bindSelect statement = .ok bound) :
    Exec.Yields (IsAt Shows catalog c) (executeSelect bound) (fun _ => Keeps Shows catalog)
      DatabaseError.Other := by
  have hfits : Binder.SelectFits catalog.metadata bound := Binder.bindSelect_fits hbind
  have hfrom : bound.from_.Fits catalog.metadata := Binder.bindSelect_from hbind
  unfold executeSelect
  apply (executeFromClause_succeeds h.reads hagrees hfrom hfits.scope hfits.filter).yields.bind_of
  intro rows hjoin
  apply executor_succeeds.yields.bind_of
  intro executor hexecutor
  rw [hexecutor]
  have hrows : ∀ row ∈ rows, row.IsFrom catalog.metadata (collectTables bound.from_) :=
    fun row hrow => (hjoin.isStored hagrees row hrow).isFrom
  apply (executor_yields (P := IsAt Shows catalog c) (Executor.selectRows_sound hfits hrows)).bind_of
  intro results _
  exact Exec.yields_pure fun db hdb => ⟨c, hdb, hagrees⟩

/-! ### CREATE TABLE -/

section Catalog

variable {α : Type} {x : Exec CatalogError Catalog α}

omit [Engine σ] in
lemma onCatalog_yields {ε : Type} {x : Exec ε Catalog α} {Q : α → Catalog → Prop} {E : ε → Prop}
    (h : Exec.Yields (· = catalog) x Q E) : Exec.Yields (IsAt Shows catalog c) (onCatalog x)
      (fun a db => ∃ catalog', Q a catalog' ∧ IsAt Shows catalog' c db) E := by
  apply h.zoom fun _ hdb => hdb.catalog
  intro a catalog' db hdb hQ
  exact ⟨catalog', hQ, rfl, hdb.shows⟩

omit [Engine σ] in
/-- A call that reads the catalog. -/
lemma readCatalog_yields (h : Exec.Keeps (· = catalog) x) :
    Exec.Yields (IsAt Shows catalog c) (onCatalog x) (fun _ => IsAt Shows catalog c) fun _ => True := by
  apply (onCatalog_yields h.yields).imp fun _ hdb => hdb
  intro _ db hdb
  have ⟨catalog', heq, hat⟩ := hdb
  exact heq ▸ hat

lemma buildTableMetadata_keeps (name : String) (columns : List (String × DataType)) :
    Exec.Keeps (· = catalog) (Catalog.buildTableMetadata name columns) := by
  apply (Exec.keeps_gets _).bind
  intro metadata
  apply (Exec.keeps_throw).ite
  apply (Exec.keeps_throw).ite
  apply Exec.Keeps.ite Exec.triple_panic
  exact (Exec.keeps_liftExcept _).mapErr _

/-- New metadata are in memory also where they are not saved. -/
lemma saved_triple {x : Exec CatalogError Catalog Unit} {r : Except SchemaError DatabaseMetadata}
    (hrun : x.run catalog = match r with
      | .ok m => Catalog.save.run ⟨catalog.file, m⟩
      | .error e => .err (.schema e) catalog) :
    Exec.Triple (· = catalog) x (fun _ catalog' => r = .ok catalog'.metadata)
      fun catalog' => catalog' = catalog ∨ r = .ok catalog'.metadata := by
  rintro s rfl
  cases r with
  | error e =>
    rw [hrun]
    exact .inl rfl
  | ok m =>
    have hsave : x.run s = Catalog.save.run ⟨s.file, m⟩ := hrun
    cases hbytes : m.toBytes with
    | ok bytes =>
      rw [hsave, run_save_ok hbytes]
    | error e =>
      rw [hsave, run_save_err hbytes]
      exact .inr rfl

lemma addTable_yields {table : TableMetadata} : Exec.Yields (· = catalog) (Catalog.addTable table)
    (fun _ catalog' => catalog.metadata.addTable table = .ok catalog'.metadata) fun _ => True :=
  (saved_triple run_addTable).yields

lemma addIndex_yields {index : IndexMetadata} : Exec.Yields (· = catalog) (Catalog.addIndex index)
    (fun _ catalog' => catalog.metadata.addIndex index = .ok catalog'.metadata) fun _ => True :=
  (saved_triple run_addIndex).yields

end Catalog

lemma createTable_yields {bound : BoundCreateTable} (h : Engine.Lawful Shows)
    (hagrees : Agrees catalog.metadata c) :
    Exec.Yields (IsAt Shows catalog c) (createTable bound) (fun _ => InStep Shows) DatabaseError.Other := by
  unfold createTable
  apply ((readCatalog_yields (buildTableMetadata_keeps _ _)).mapErr DatabaseError.catalog
    DatabaseError.Other fun _ _ => not_false).bind
  intro table
  have hcreate : ∀ s (a : Unit) s', Shows s c → (Engine.createTable table.id).run s = .ok a s' →
      True ∧ Shows s' (c.withTable table.id ((c.heap table.id).getD fun _ => none)) :=
    fun s _ s' hs hrun => ⟨trivial, h.tables.createTable_ok hs hrun⟩
  apply (table_yields hcreate).bind_of
  intro _ _
  apply ((onCatalog_yields addTable_yields).mapErr DatabaseError.catalog DatabaseError.Other
    fun _ _ => not_false).bind
  intro _
  apply Exec.yields_exists
  intro catalog'
  apply Exec.yields_pure
  intro db hdb
  exact hdb.2.inStep (hagrees.addTable hdb.1)

/-! ### CREATE INDEX -/

lemma nextIndexId_keeps (name : String) : Exec.Keeps (· = catalog) (Catalog.nextIndexId name) := by
  apply (Exec.keeps_gets _).bind
  intro metadata
  apply (Exec.keeps_throw).ite
  exact (Exec.keeps_throw).ite Exec.keeps_pure

lemma createIndex_yields {bound : BoundCreateIndex} (h : Engine.Lawful Shows)
    (hagrees : Agrees catalog.metadata c) :
    Exec.Yields (IsAt Shows catalog c) (IndexManager.createIndex bound.indexName bound.tableId bound.columnId)
      (fun _ => InStep Shows) IndexError.Other := by
  unfold IndexManager.createIndex
  apply ((readCatalog_yields (nextIndexId_keeps _)).mapErr IndexError.catalog IndexError.Other
    fun _ _ => not_false).bind
  intro indexId
  apply catalog_yields.bind_of
  intro catalog₁ hcatalog
  rw [hcatalog]
  have hlift := Exec.yields_liftExcept (P := IsAt Shows catalog c) (E := fun _ => True)
    (y := catalog.indexColumnDataType bound.tableId bound.columnId) fun _ => trivial
  apply (hlift.mapErr IndexError.catalog IndexError.Other fun _ _ => not_false).bind_of
  intro dataType hdataType
  apply (onStorage_yields (IndexManager.createIndexBtree_yields h.trees)).bind
  intro root
  apply Exec.yields_exists
  intro c₁ db hdb
  have ⟨hat, keyType, hkeyType, heq⟩ := hdb
  let index : IndexMetadata := ⟨indexId, bound.indexName, bound.tableId, bound.columnId, root⟩
  have ⟨on, hon⟩ : ∃ on : IndexedColumn catalog.metadata index, on.keyType = keyType :=
    IndexManager.indexedColumn_of hdataType hkeyType
  have htree : BTree.open' indexId root keyType = on.tree := by
    rw [← hon]
    rfl
  rw [heq, htree] at hat
  have hheap : (c.withTree on.tree 0).heap index.tableId = some (c.rows index.tableId) :=
    hagrees.tables _ _ on.table_eq
  have hbackfill := IndexManager.backfill_yields (IndexManager.fills_withTree h c on)
    (IndexManager.scanRows_succeeds h.reads hheap) (hagrees.encoded index.tableId)
  have hfilled : Exec.Yields (Shows · (c.withTree on.tree 0)) (IndexManager.backfill catalog index)
      (fun _ s => ∃ c', Shows s c' ∧ ∃ m, c' = c.withTree on.tree m ∧
        EntriesOf on.key (c.rows index.tableId) m) IndexError.Other := by
    apply hbackfill.imp fun _ hs => hs
    intro _ s hs
    have ⟨m, hs, hentries⟩ := hs
    exact ⟨_, hs, m, rfl, hentries⟩
  apply (onStorage_yields hfilled).bind _ db hat
  intro _
  apply Exec.yields_exists
  intro c₂ db₁ hdb₁
  have ⟨hat₁, m, heq₁, hentries⟩ := hdb₁
  have hchanged := IndexManager.changed_withTree (c := c) hentries
  rw [← heq₁] at hchanged
  apply ((onCatalog_yields addIndex_yields).mapErr IndexError.catalog IndexError.Other
    fun _ _ => not_false).imp (fun _ hdb => hdb) _ db₁ hat₁
  intro _ db₂ hdb₂
  have ⟨catalog', hadd, hat₂⟩ := hdb₂
  exact hat₂.inStep (hagrees.addIndex hadd hchanged.heap hchanged.others hchanged.tracks)

/-! ### Statements -/

lemma executeBound_yields {statement : Statement} {bound : BoundStatement} (h : Engine.Lawful Shows)
    (hagrees : Agrees catalog.metadata c) (hbind : (Binder.mk catalog.metadata).bind statement = .ok bound) :
    Exec.Yields (IsAt Shows catalog c) (executeBound bound) (fun _ => InStep Shows) DatabaseError.Other := by
  have hkeeps {x : Exec DatabaseError (Database σ) ExecuteResult}
      (hx : Exec.Yields (IsAt Shows catalog c) x (fun _ => Keeps Shows catalog) DatabaseError.Other) :
      Exec.Yields (IsAt Shows catalog c) x (fun _ => InStep Shows) DatabaseError.Other :=
    hx.imp (fun _ hdb => hdb) fun _ _ hdb => hdb.inStep
  cases statement with
  | createTable statement =>
    have ⟨bound, _, heq⟩ := except_bind_eq_ok.mp hbind
    cases heq
    exact createTable_yields h hagrees
  | createIndex statement =>
    have ⟨bound, _, heq⟩ := except_bind_eq_ok.mp hbind
    cases heq
    apply ((createIndex_yields h hagrees).mapErr DatabaseError.index DatabaseError.Other fun _ he => he).bind
    exact fun _ => Exec.yields_pure fun _ hdb => hdb
  | select statement =>
    have ⟨bound, hselect, heq⟩ := except_bind_eq_ok.mp hbind
    cases heq
    exact hkeeps (executeSelect_yields h hagrees hselect)
  | insert statement =>
    have ⟨bound, hinsert, heq⟩ := except_bind_eq_ok.mp hbind
    cases heq
    exact hkeeps (executeInsert_yields h hagrees (Binder.bindInsert_fits hinsert))
  | update statement =>
    have ⟨bound, hupdate, heq⟩ := except_bind_eq_ok.mp hbind
    cases heq
    exact hkeeps (executeUpdate_yields h hagrees hupdate)
  | delete statement =>
    have ⟨bound, hdelete, heq⟩ := except_bind_eq_ok.mp hbind
    cases heq
    exact hkeeps (executeDelete_yields h hagrees hdelete)

/-- A statement on indexes in step leaves them in step, or fails without missing an entry. -/
lemma execute_yields (h : Engine.Lawful Shows) (statement : Statement) :
    Exec.Yields (InStep Shows) (execute statement) (fun _ => InStep Shows) DatabaseError.Other := by
  intro db hdb
  have ⟨c, hshows, hagrees⟩ := hdb
  have hexecute : Exec.Yields (IsAt Shows db.catalog c) (execute statement) (fun _ => InStep Shows)
      DatabaseError.Other := by
    unfold execute
    have hmetadata : Exec.Yields (IsAt Shows db.catalog c) (Exec.gets fun self : Database σ =>
        self.catalog.metadata) (fun m db' => m = db.catalog.metadata ∧ IsAt Shows db.catalog c db')
        DatabaseError.Other :=
      Exec.yields_gets fun db' hdb' => ⟨by rw [hdb'.catalog], hdb'⟩
    apply hmetadata.bind_of
    intro metadata hmetadata
    have hlift := Exec.yields_liftExcept (P := IsAt Shows db.catalog c) (E := fun _ => True)
      (y := (Binder.mk db.catalog.metadata).bind statement) fun _ => trivial
    rw [hmetadata]
    apply (hlift.mapErr DatabaseError.binder DatabaseError.Other fun _ _ => not_false).bind_of
    intro bound hbind
    exact executeBound_yields h hagrees hbind
  exact hexecute db ⟨rfl, hshows⟩

/-! ### Runs -/

/-- The databases that statements lead to from a new one, where each of them returns `Ok`. -/
inductive Run (Shows : σ → Contents → Prop) : Database σ → Prop
  | start {file : List UInt8} {name : String} {s : σ} : Shows s .empty →
      Run Shows ⟨⟨file, ⟨name, [], [], .empty⟩⟩, s⟩
  | step {statement : Statement} {result : ExecuteResult} {db db' : Database σ} : Run Shows db →
      (execute statement).run db = .ok result db' → Run Shows db'

omit [Engine σ] in
lemma agrees_empty {name : String} : Agrees ⟨name, [], [], .empty⟩ .empty where
  tables _ _ h := by cases h
  encoded _ _ _ h := by cases h
  tracks _ h := by cases h

lemma Run.inStep {db : Database σ} (h : Engine.Lawful Shows) (hrun : Run Shows db) : InStep Shows db := by
  induction hrun with
  | start hs => exact ⟨.empty, hs, agrees_empty⟩
  | step _ hstep ih => exact (execute_yields h _).of_ok ih hstep

/-- After any run of statements the entries of every index are the pairs of a key and a row id of the live
rows of its table whose value is not `NULL`, each of them once, and the next statement does not miss an
entry. -/
theorem run_inStep {db : Database σ} (h : Engine.Lawful Shows) (hrun : Run Shows db) :
    (∃ c, Shows db.storage c ∧ ∀ index ∈ db.catalog.metadata.indexes,
      ∃ (on : IndexedColumn db.catalog.metadata index) (m : Multiset (BTreeKey × RowId)),
        c.entries on.tree = some m ∧ m.Nodup ∧ ∀ k id, (k, id) ∈ m ↔ ∃ row v,
          c.rows index.tableId id = some row ∧ on.value row = some v ∧ valueToBtreeKey v = some k) ∧
    ∀ statement e db', (execute statement).run db = .err e db' → ¬ e.IsEntryNotFound := by
  have hin := hrun.inStep h
  constructor
  · have ⟨c, hshows, hagrees⟩ := hin
    refine ⟨c, hshows, fun index hindex => ?_⟩
    have ⟨on, m, hm, hentries⟩ := hagrees.tracks index hindex
    refine ⟨on, m, hm, hentries.nodup, fun k id => ?_⟩
    rw [hentries.mem_iff]
    simp only [IndexedColumn.key, Option.bind_eq_some_iff, exists_and_left]
  · intro statement e db' hstep
    exact (execute_yields h statement).of_err hin hstep

/-- Statements one after the other. -/
def executeAll (statements : List Statement) : Exec DatabaseError (Database σ) Unit :=
  statements.forM fun statement => execute statement >>= fun _ => pure ()

lemma executeAll_cons {statement : Statement} {statements : List Statement} {db db' : Database σ}
    (h : (executeAll (statement :: statements)).run db = .ok () db') : ∃ result db₁,
      (execute statement).run db = .ok result db₁ ∧ (executeAll statements).run db₁ = .ok () db' := by
  rw [executeAll, Exec.forM_cons, Exec.run_bind, Exec.run_bind] at h
  obtain ⟨_, db₁, hstep, hrest⟩ := Outcome.andThen_eq_ok.mp h
  obtain ⟨result, _, hstep, heq⟩ := Outcome.andThen_eq_ok.mp hstep
  cases heq
  exact ⟨result, db₁, hstep, hrest⟩

lemma Run.executeAll {statements : List Statement} {db db' : Database σ} (hrun : Run Shows db)
    (h : (executeAll statements).run db = .ok () db') : Run Shows db' := by
  induction statements generalizing db with
  | nil =>
    cases h
    exact hrun
  | cons statement statements ih =>
    obtain ⟨result, db₁, hstep, hrest⟩ := executeAll_cons h
    exact ih (hrun.step hstep) hrest

/-- A new database over an engine of maps. -/
def newDatabase : Database MapEngine := ⟨⟨[], ⟨"d", [], [], .empty⟩⟩, .empty⟩

/-- A table with two rows, two indexes of which one is filled when it is created, and a joined update. -/
def setup : List Statement :=
  [.createTable ⟨"t", [⟨"k", .int⟩, ⟨"n", .varchar⟩]⟩, .createIndex ⟨"onName", "t", "n"⟩,
    .insert ⟨"t", [.integer 1, .string "a"]⟩, .insert ⟨"t", [.null, .string "a"]⟩,
    .createIndex ⟨"onKey", "t", "k"⟩,
    .update ⟨.innerJoin (.table ⟨"t", some "x"⟩) ⟨⟨some "x", "n"⟩, ⟨some "y", "n"⟩⟩ (.table ⟨"t", some "y"⟩),
      [⟨⟨some "y", "k"⟩, .integer 2⟩],
      some (.comparison (.column ⟨some "x", "k"⟩) .equal (.literal (.integer 1)))⟩]

theorem run_inStep_setup : ∃ db : Database MapEngine, (executeAll setup).run newDatabase = .ok () db ∧
    db.catalog.metadata.indexes.length = 2 ∧
    (∃ c, MapEngine.Shows db.storage c ∧ ∀ index ∈ db.catalog.metadata.indexes,
      ∃ (on : IndexedColumn db.catalog.metadata index) (m : Multiset (BTreeKey × RowId)),
        c.entries on.tree = some m ∧ m.Nodup ∧ ∀ k id, (k, id) ∈ m ↔ ∃ row v,
          c.rows index.tableId id = some row ∧ on.value row = some v ∧ valueToBtreeKey v = some k) ∧
    ∀ statement e db', (execute statement).run db = .err e db' → ¬ e.IsEntryNotFound := by
  have hsetup : ∃ db, (executeAll setup).run newDatabase = .ok () db ∧
      db.catalog.metadata.indexes.length = 2 := ⟨_, rfl, rfl⟩
  have ⟨db, hrun, hlen⟩ := hsetup
  have hstart : Run MapEngine.Shows newDatabase := .start MapEngine.shows_empty
  exact ⟨db, hrun, hlen, run_inStep MapEngine.lawful (hstart.executeAll hrun)⟩

end Database

end RdbRs
