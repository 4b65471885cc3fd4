import RdbRs.Database.InStep
import RdbRs.Database.StoreReads
import RdbRs.Executor.Selections

/-!
# Statements on a page store

What a statement on rows leaves, when it succeeds and when it fails. The store carries the rows of the
catalog. The trees of the indexes the statement is not for are those from before it, and so are the keys
in their columns.
-/

namespace RdbRs

open Exec

/-- The errors of the index manager. -/
def DatabaseError.OfIndex : DatabaseError → Prop
  | index _ => True
  | _ => False

/-- The errors of the index manager and of the table manager. -/
def DatabaseError.OfStorage : DatabaseError → Prop
  | index _ => True
  | table _ => True
  | _ => False

/-- The change of a prepared update. -/
def PreparedUpdate.change (e : PreparedUpdate) : Change TableId RowId Row := (e.key, some e.newRow)

/-- The change of a prepared delete. -/
def PreparedDelete.change (e : PreparedDelete) : Change TableId RowId Row := (e.key, none)

namespace Database

section Statements

variable {σ : Type} [PageStore σ] [UnstableSort] {catalog : Catalog} {database : DatabaseMetadata}
  {heap heap₀ : TableId → RowId → Option Row} {K : Set IndexId} {s₀ : σ} {t : TableId} {id : RowId}
  {changes done : List (Change TableId RowId Row)} {db : Database σ}

/-- The store carries the rows after some changes, and the trees of `K` are those of `s₀`. -/
def Made (K : Set IndexId) (catalog : Catalog) (heap : TableId → RowId → Option Row) (s₀ : σ)
    (changes : List (Change TableId RowId Row)) (db : Database σ) : Prop :=
  HasStore catalog (CarriesOver K s₀ catalog.metadata (changed heap changes)) db

lemma Untouched.made (hcarries : Carries catalog.metadata heap s₀) (h : Untouched catalog s₀ db) :
    Made K catalog heap s₀ [] db :=
  ⟨h.1, hcarries.of_pages h.2, sameTrees_of_pages h.2⟩

omit [PageStore σ] [UnstableSort] in
/-- The errors of the calls on the storage, which leave what `E` says. -/
lemma storage_ends {ε α : Type} {P E : σ → Prop} {Q : α → σ → Prop} {x : Exec ε σ α}
    {F : DatabaseError → Database σ → Prop} (h : Triple P x Q E) (g : ε → DatabaseError)
    (hF : ∀ e db, HasStore catalog E db → F (g e) db) :
    Ends (HasStore catalog P) (Exec.mapErr g (onStorage x)) (fun a => HasStore catalog (Q a)) F :=
  ((onStorage_triple h).ends fun e db hdb => hF e db hdb).mapErr g fun _ _ hdb => hdb

omit [PageStore σ] [UnstableSort] in
/-- A call of the executor changes nothing. -/
lemma executor_call {α : Type} {P : Database σ → Prop} {x : Exec ExecutorError (Database σ) α}
    {E : ExecutorError → Prop} {V : α → Prop} (h : Computes E x V) :
    Triple P (Exec.mapErr DatabaseError.executor x) (fun a db => V a ∧ P db) P :=
  h.triple.mapErr DatabaseError.executor

/-- What the FROM clause of a statement reads: live rows, of which `V` holds. -/
def ReadsRows (catalog : Catalog) (heap : TableId → RowId → Option Row) (s₀ : σ) (from_ : BoundFromClause)
    (filter : Option BoundExpression) (V : List QueryRow → Prop) : Prop :=
  Triple (Untouched catalog s₀) (executeFromClause from_ filter)
    (fun rows db => ((∀ row ∈ rows, List.Forall₂ (Executor.IsLive catalog.metadata heap)
      (collectTables from_) row.tableRows) ∧ V rows) ∧ Untouched catalog s₀ db)
    (Untouched catalog s₀)

lemma readsRows_live {from_ : BoundFromClause} {filter : Option BoundExpression}
    (hcarries : Carries catalog.metadata heap s₀) (hfits : from_.Fits catalog.metadata)
    (hscope : Scope (collectTables from_)) :
    ReadsRows catalog heap s₀ from_ filter fun _ => True :=
  (executeFromClause_live hcarries hfits hscope).imp (fun _ hdb => hdb)
    (fun _ _ hdb => ⟨⟨hdb.1, trivial⟩, hdb.2⟩) fun _ hdb => hdb

/-! ### SELECT -/

/-- What a `SELECT` returns. -/
def Selected (catalog : Catalog) (s₀ : σ) (V : List QueryRow → Prop) (bound : BoundSelect)
    (result : ExecuteResult) (db : Database σ) : Prop :=
  ∃ rows results, V rows ∧ result = .rows results ∧ Executor.Answers ⟨catalog.metadata⟩ bound
    (Executor.passing ⟨catalog.metadata⟩ bound.filter rows) results ∧ Untouched catalog s₀ db

lemma executeSelect_triple {statement : SelectStatement} {bound : BoundSelect} {V : List QueryRow → Prop}
    (hbind : (Binder.mk catalog.metadata).bindSelect statement = .ok bound)
    (hreads : ReadsRows catalog heap s₀ bound.from_ bound.filter V) :
    Triple (Untouched catalog s₀) (executeSelect bound) (Selected catalog s₀ V bound)
      (Untouched catalog s₀) := by
  unfold executeSelect
  apply Triple.bind_of hreads
  rintro rows ⟨hlive, hV⟩
  apply executor_triple.bind_of
  intro executor hexecutor
  rw [hexecutor]
  have hrows : ∀ row ∈ rows, row.IsFrom catalog.metadata (collectTables bound.from_) :=
    fun row hrow => (hlive row hrow).imp fun _ _ h => h.1.1
  have hselect := Executor.selectRows_computes (σ := Database σ)
    (show (Binder.mk (Executor.mk catalog.metadata).database).bindSelect statement = .ok bound from hbind) hrows
  apply (executor_call (P := Untouched catalog s₀) hselect).bind_of
  intro results hresults db hdb
  exact ⟨rows, results, hV, rfl, hresults, hdb⟩

/-! ### INSERT -/

/-- A row has been stored, and the indexes of its table have gained its entry. -/
def Inserted (K : Set IndexId) (catalog : Catalog) (heap : TableId → RowId → Option Row) (s₀ : σ)
    (bound : BoundInsert) (db : Database σ) : Prop :=
  ∃ id row, heap bound.tableId id = none ∧
    IndexManager.Encodes catalog.metadata bound.tableId bound.values row ∧
    Made K catalog heap s₀ [((bound.tableId, id), some row)] db ∧
    IndexManager.AllGained catalog.metadata bound.tableId id row s₀ db.storage

/-- A row has been stored that an index of its table misses. -/
def Unindexed (K : Set IndexId) (catalog : Catalog) (heap : TableId → RowId → Option Row) (s₀ : σ)
    (bound : BoundInsert) (db : Database σ) : Prop :=
  ∃ id row, heap bound.tableId id = none ∧
    IndexManager.Encodes catalog.metadata bound.tableId bound.values row ∧
    Made K catalog heap s₀ [((bound.tableId, id), some row)] db ∧
    IndexManager.Gains catalog.metadata bound.tableId id row s₀ db.storage ∧
    IndexManager.Misses catalog.metadata bound.tableId row s₀ db.storage

/-- An insertion that fails in the heap leaves the rows as they were. One that fails in an index has
stored its row. -/
lemma executeInsert_ends {bound : BoundInsert} (hcarries : Carries catalog.metadata heap s₀)
    (hfits : bound.Fits catalog.metadata)
    (hK : ∀ index ∈ catalog.metadata.indexes, index.tableId = bound.tableId → index.id ∉ K) :
    Ends (Untouched catalog s₀) (executeInsert bound)
      (fun result db => result = .command 1 ∧ Inserted K catalog heap s₀ bound db)
      fun e db => ¬ e.OfIndex ∧ Made Set.univ catalog heap s₀ [] db ∨
        e.OfIndex ∧ Unindexed K catalog heap s₀ bound db := by
  unfold executeInsert
  apply executor_ends.bind_of
  intro executor hexecutor
  rw [hexecutor]
  have hencode : Computes ExecutorError.IsOfData
      (Executor.encodeInsert ⟨catalog.metadata⟩ bound : Exec ExecutorError (Database σ) Row)
      (IndexManager.Encodes catalog.metadata bound.tableId bound.values) :=
    Executor.encodeInsert_computes hfits
  apply ((hencode.triple.ends (P := Untouched catalog s₀) fun _ _ hdb => hdb).mapErr DatabaseError.executor
    fun _ db hdb => .inl ⟨not_false, Untouched.made hcarries hdb⟩).bind_of
  intro row hencodes
  apply ((storage_ends (TableManager.insertRow_triple hencodes.isEncoded) DatabaseError.table
    fun _ _ hdb => .inl ⟨not_false, hdb⟩).imp (fun db hdb => Untouched.made hcarries hdb)
    (fun _ _ hdb => hdb) fun _ _ hdb => hdb).bind
  rintro id db ⟨hcatalog, hnone, hs⟩
  apply catalog_ends.bind_of _ db ⟨hcatalog, hs⟩
  intro catalog' hcatalog'
  rw [hcatalog']
  apply ((onStorage_ends (IndexManager.insertRow_ends hencodes hK)).mapErr DatabaseError.index
    fun _ db hdb => .inr ⟨trivial, id, row, hnone, hencodes, ⟨hdb.1, hdb.2.1⟩, hdb.2.2⟩).bind
  exact fun _ db hdb => ⟨rfl, id, row, hnone, hencodes, ⟨hdb.1, hdb.2.1⟩, hdb.2.2⟩

/-! ### Loops of changes -/

/-- A change of the indexes of a table and then of one of its rows. -/
lemma change_ends {x : Exec IndexError σ Unit} {y : Exec TableError σ Unit} {change : Change TableId RowId Row}
    (hx : ∀ heap, Exec.Keeps (CarriesOver K s₀ catalog.metadata heap) x)
    (hy : ∀ heap, Triple (CarriesOver K s₀ catalog.metadata heap) y
      (fun _ => CarriesOver K s₀ catalog.metadata (setAt heap change.1.1 change.1.2 change.2))
      (CarriesOver K s₀ catalog.metadata heap)) (done : List (Change TableId RowId Row)) :
    Ends (Made K catalog heap s₀ done)
      (Exec.mapErr DatabaseError.index (onStorage x) >>= fun _ =>
        Exec.mapErr DatabaseError.table (onStorage y))
      (fun _ => Made K catalog heap s₀ (done ++ [change]))
      fun e db => e.OfStorage ∧ Made K catalog heap s₀ done db := by
  apply (storage_ends (hx _) DatabaseError.index fun _ _ hdb => ⟨trivial, hdb⟩).bind
  intro _
  unfold Made
  rw [changed_concat]
  exact storage_ends (hy _) DatabaseError.table fun _ _ hdb => ⟨trivial, hdb⟩

/-- A loop of changes makes them one after the other, up to the first that fails. -/
lemma changes_ends {α : Type} (change : α → Change TableId RowId Row)
    {f : α → Exec DatabaseError (Database σ) PUnit} {l : List α}
    (h : ∀ a ∈ l, ∀ done, Ends (Made K catalog heap s₀ done) (f a)
      (fun _ => Made K catalog heap s₀ (done ++ [change a]))
      fun e db => e.OfStorage ∧ Made K catalog heap s₀ done db) :
    Ends (Made K catalog heap s₀ []) (l.forM f) (fun _ => Made K catalog heap s₀ (l.map change))
      fun e db => e.OfStorage ∧ ∃ done, done <+: l ∧ Made K catalog heap s₀ (done.map change) db := by
  apply (ends_forM (f := f) (l := l)
    (F := fun e db => e.OfStorage ∧ ∃ done, done <+: l ∧ Made K catalog heap s₀ (done.map change) db)
    (I := fun rest db => ∃ done, done ++ rest = l ∧ Made K catalog heap s₀ (done.map change) db) _).imp
  · exact fun db hdb => ⟨[], rfl, hdb⟩
  · rintro _ db ⟨done, hdone, hdb⟩
    rw [List.append_nil] at hdone
    exact hdone ▸ hdb
  · exact fun _ _ hdb => hdb
  rintro a rest hsuffix db ⟨done, hdone, hdb⟩
  apply (h a (hsuffix.subset List.mem_cons_self) (done.map change)).imp (fun _ hdb => hdb) _ _ db hdb
  · intro _ db hdb
    refine ⟨done ++ [a], by rw [List.append_assoc]; exact hdone, ?_⟩
    rwa [List.map_append]
  · rintro e db ⟨he, hdb⟩
    exact ⟨he, done, ⟨a :: rest, hdone⟩, hdb⟩

lemma applyUpdate_ends {update : PreparedUpdate} {row : Row}
    (hold : IndexManager.Encodes catalog.metadata update.tableId update.oldValues row)
    (hnew : IndexManager.Encodes catalog.metadata update.tableId update.newValues update.newRow)
    (hK : ∀ index ∈ catalog.metadata.indexes, index.tableId = update.tableId → index.id ∈ K →
      ∀ on : IndexedColumn catalog.metadata index,
        update.newValues[on.position]? = update.oldValues[on.position]?)
    (done : List (Change TableId RowId Row)) :
    Ends (Made K catalog heap s₀ done) (applyUpdate update)
      (fun _ => Made K catalog heap s₀ (done ++ [update.change]))
      fun e db => e.OfStorage ∧ Made K catalog heap s₀ done db := by
  unfold applyUpdate
  apply catalog_ends.bind_of
  intro catalog' hcatalog
  rw [hcatalog]
  exact change_ends (fun _ => IndexManager.updateRow_keeps hold hnew hK)
    (fun _ => TableManager.updateRow_triple hnew.isEncoded) done

lemma applyDelete_ends {delete : PreparedDelete} {row : Row}
    (hold : IndexManager.Encodes catalog.metadata delete.tableId delete.values row)
    (hK : ∀ index ∈ catalog.metadata.indexes, index.tableId = delete.tableId → index.id ∉ K)
    (done : List (Change TableId RowId Row)) :
    Ends (Made K catalog heap s₀ done) (applyDelete delete)
      (fun _ => Made K catalog heap s₀ (done ++ [delete.change]))
      fun e db => e.OfStorage ∧ Made K catalog heap s₀ done db := by
  unfold applyDelete
  apply catalog_ends.bind_of
  intro catalog' hcatalog
  rw [hcatalog]
  exact change_ends (fun _ => IndexManager.deleteRow_keeps hold hK) (fun _ => TableManager.deleteRow_triple) done

/-! ### UPDATE -/

/-- A part of what an `UPDATE` has prepared has been done. -/
structure Updated (K : Set IndexId) (catalog : Catalog) (heap : TableId → RowId → Option Row) (s₀ : σ)
    (V : List QueryRow → Prop) (bound : BoundUpdate) (entries done : List PreparedUpdate) (db : Database σ) :
    Prop where
  prepared : ∃ rows, V rows ∧
    (∀ row ∈ rows, List.Forall₂ (Executor.IsLive catalog.metadata heap) (collectTables bound.from_)
      row.tableRows) ∧
    Executor.Updates ⟨catalog.metadata⟩ (Executor.storedValues ⟨catalog.metadata⟩ heap)
      (Executor.hits (Executor.passing ⟨catalog.metadata⟩ bound.filter rows) bound.assignments) entries
  part : done <+: entries
  made : Made K catalog heap s₀ (done.map PreparedUpdate.change) db

/-- An update spares the trees of the indexes on columns that it does not assign. -/
lemma executeUpdate_ends {statement : UpdateStatement} {bound : BoundUpdate} {V : List QueryRow → Prop}
    (hcarries : Carries catalog.metadata heap s₀)
    (hbind : (Binder.mk catalog.metadata).bindUpdate statement = .ok bound)
    (hreads : ReadsRows catalog heap s₀ bound.from_ bound.filter V)
    (hK : ∀ index ∈ catalog.metadata.indexes, index.id ∈ K → ∀ a ∈ bound.assignments,
      a.column.tableId = index.tableId → a.column.columnId ≠ index.columnId) :
    Ends (Untouched catalog s₀) (executeUpdate bound)
      (fun result db => ∃ entries, result = .command entries.length ∧
        Updated K catalog heap s₀ V bound entries entries db)
      fun e db => Untouched catalog s₀ db ∨
        e.OfStorage ∧ ∃ entries done, Updated K catalog heap s₀ V bound entries done db := by
  have hfits : Binder.UpdateFits catalog.metadata bound := Binder.bindUpdate_fits hbind
  unfold executeUpdate
  apply (Triple.ends hreads fun _ _ hdb => .inl hdb).bind_of
  rintro rows ⟨hlive, hV⟩
  apply executor_ends.bind_of
  intro executor hexecutor
  rw [hexecutor]
  have hstored : ∀ row ∈ rows, row.IsStored catalog.metadata
      (Executor.storedValues ⟨catalog.metadata⟩ heap) (collectTables bound.from_) :=
    fun row hrow => (hlive row hrow).imp fun _ _ h => h.1
  apply ((executor_call (P := Untouched catalog s₀) (prepareUpdate_computes hbind hstored)).ends
    fun _ _ hdb => .inl hdb).bind_of
  intro entries hentries
  have hprepared : ∃ rows, V rows ∧
      (∀ row ∈ rows, List.Forall₂ (Executor.IsLive catalog.metadata heap) (collectTables bound.from_)
        row.tableRows) ∧
      Executor.Updates ⟨catalog.metadata⟩ (Executor.storedValues ⟨catalog.metadata⟩ heap)
        (Executor.hits (Executor.passing ⟨catalog.metadata⟩ bound.filter rows) bound.assignments) entries :=
    ⟨rows, hV, hlive, hentries⟩
  have hround : ∀ e ∈ entries, ∀ done, Ends (Made K catalog heap s₀ done) (applyUpdate e)
      (fun _ => Made K catalog heap s₀ (done ++ [e.change]))
      fun e db => e.OfStorage ∧ Made K catalog heap s₀ done db := by
    intro e he
    obtain ⟨row, -, hold, hnew⟩ := hentries.encodes hcarries.encoded hfits hlive he
    apply applyUpdate_ends hold hnew
    intro index hindex ht hmem on
    exact hentries.unassigned he on ht (hK index hindex hmem)
  apply Ends.bind (Q := fun _ => Made K catalog heap s₀ (entries.map PreparedUpdate.change))
  · apply (changes_ends PreparedUpdate.change hround).imp (fun db hdb => Untouched.made hcarries hdb)
      fun _ _ hdb => hdb
    rintro e db ⟨he, done, hdone, hdb⟩
    exact .inr ⟨he, entries, done, hprepared, hdone, hdb⟩
  · exact fun _ db hdb => ⟨entries, rfl, hprepared, List.prefix_rfl, hdb⟩

/-! ### DELETE -/

/-- A part of what a `DELETE` has prepared has been done. -/
structure Deleted (K : Set IndexId) (catalog : Catalog) (heap : TableId → RowId → Option Row) (s₀ : σ)
    (V : List QueryRow → Prop) (bound : BoundDelete) (entries done : List PreparedDelete) (db : Database σ) :
    Prop where
  prepared : ∃ rows, V rows ∧
    (∀ row ∈ rows, List.Forall₂ (Executor.IsLive catalog.metadata heap) (collectTables bound.from_)
      row.tableRows) ∧
    Executor.Removes (Executor.storedValues ⟨catalog.metadata⟩ heap)
      (Executor.passing ⟨catalog.metadata⟩ bound.filter rows ×ˢ bound.targets) entries
  part : done <+: entries
  made : Made K catalog heap s₀ (done.map PreparedDelete.change) db

/-- A deletion spares the trees of the indexes of the tables that it does not delete from. -/
lemma executeDelete_ends {statement : DeleteStatement} {bound : BoundDelete} {V : List QueryRow → Prop}
    (hcarries : Carries catalog.metadata heap s₀)
    (hbind : (Binder.mk catalog.metadata).bindDelete statement = .ok bound)
    (hreads : ReadsRows catalog heap s₀ bound.from_ bound.filter V)
    (hK : ∀ index ∈ catalog.metadata.indexes, index.id ∈ K → ∀ table ∈ bound.targets,
      table.tableId ≠ index.tableId) :
    Ends (Untouched catalog s₀) (executeDelete bound)
      (fun result db => ∃ entries, result = .command entries.length ∧
        Deleted K catalog heap s₀ V bound entries entries db)
      fun e db => Untouched catalog s₀ db ∨
        e.OfStorage ∧ ∃ entries done, Deleted K catalog heap s₀ V bound entries done db := by
  have hfits : Binder.DeleteFits catalog.metadata bound := Binder.bindDelete_fits hbind
  unfold executeDelete
  apply (Triple.ends hreads fun _ _ hdb => .inl hdb).bind_of
  rintro rows ⟨hlive, hV⟩
  apply executor_ends.bind_of
  intro executor hexecutor
  have hstored : ∀ row ∈ rows, row.IsStored (Executor.mk catalog.metadata).database
      (Executor.storedValues ⟨catalog.metadata⟩ heap) (collectTables bound.from_) :=
    fun row hrow => (hlive row hrow).imp fun _ _ h => h.1
  obtain ⟨entries, hrun, hentries⟩ := Executor.prepareDelete_eq (σ := Database σ) hbind hstored
  rw [hexecutor, hrun, Exec.mapErr_pure, Exec.pure_bind]
  have hprepared : ∃ rows, V rows ∧
      (∀ row ∈ rows, List.Forall₂ (Executor.IsLive catalog.metadata heap) (collectTables bound.from_)
        row.tableRows) ∧
      Executor.Removes (Executor.storedValues ⟨catalog.metadata⟩ heap)
        (Executor.passing ⟨catalog.metadata⟩ bound.filter rows ×ˢ bound.targets) entries :=
    ⟨rows, hV, hlive, hentries⟩
  have hround : ∀ e ∈ entries, ∀ done, Ends (Made K catalog heap s₀ done) (applyDelete e)
      (fun _ => Made K catalog heap s₀ (done ++ [e.change]))
      fun e db => e.OfStorage ∧ Made K catalog heap s₀ done db := by
    intro e he
    obtain ⟨⟨row, -, hold⟩, table, htarget, hid⟩ := hentries.encodes hcarries.encoded hfits hlive he
    apply applyDelete_ends hold
    intro index hindex ht hmem
    exact hK index hindex hmem table htarget (hid.trans ht.symm)
  apply Ends.bind (Q := fun _ => Made K catalog heap s₀ (entries.map PreparedDelete.change))
  · apply (changes_ends PreparedDelete.change hround).imp (fun db hdb => Untouched.made hcarries hdb)
      fun _ _ hdb => hdb
    rintro e db ⟨he, done, hdone, hdb⟩
    exact .inr ⟨he, entries, done, hprepared, hdone, hdb⟩
  · exact fun _ db hdb => ⟨entries, rfl, hprepared, List.prefix_rfl, hdb⟩

end Statements

end Database

end RdbRs
