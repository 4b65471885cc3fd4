import RdbRs.Database.StoreExecute

/-!
# Spared indexes

A statement leaves the indexes it does not touch in step with their tables, whatever it returns. The
databases that statements lead to carry the rows of their catalog.
-/

namespace RdbRs

open Exec

/-- The row that is read under a row id. -/
def storedRow {σ : Type} [PageStore σ] (s : σ) (t : TableId) (id : RowId) : Option Row :=
  (((HeapTable.new t).get id).run s).value?

/-- What a store is that is opened on the files of another one: the pages of the heaps have the same rows, those
of the indexes the same bytes. -/
structure Resumes {σ : Type} [PageStore σ] (s s' : σ) : Prop where
  heap {t : TableId} {n : Nat} {rows : RowId → Option Row} :
    (HeapTable.new t).Shows n rows s → (HeapTable.new t).Shows n rows s'
  missing {t : TableId} : PageStore.pages s (.heap t) = none → PageStore.pages s' (.heap t) = none
  index (i : IndexId) : PageStore.pages s' (.index i) = PageStore.pages s (.index i)

/-- What a statement that stops with this error may have changed in part: an `INSERT` writes the heap before
the indexes, an `UPDATE` and a `DELETE` write the indexes before the heap. -/
def BoundStatement.Disturbs (statement : BoundStatement) (e : DatabaseError) (index : IndexMetadata) :
    Prop :=
  statement.Touches index ∧ match statement with
    | .insert _ => e.OfIndex
    | _ => e.OfStorage

section Leaves

variable {σ : Type} [PageStore σ] [UnstableSort] {database database' : DatabaseMetadata}
  {heap heap₀ : TableId → RowId → Option Row} {index : IndexMetadata} {K : Set IndexId} {s s₀ : σ}

/-- What a statement leaves that spares the indexes of `K`: a catalog that has grown, in which the indexes
that are new mirror their tables. -/
structure Leaves (K : Set IndexId) (database : DatabaseMetadata) (heap₀ : TableId → RowId → Option Row)
    (s₀ : σ) (db : Database σ) : Prop where
  extends_ : Extends database db.catalog.metadata
  numbered : Numbered db.catalog.metadata
  store : ∃ heap, CarriesOver K s₀ db.catalog.metadata heap db.storage ∧
    ∀ index ∈ db.catalog.metadata.indexes,
      index ∈ database.indexes ∧ (index.id ∈ K → ∀ (on : IndexedColumn db.catalog.metadata index) id,
        (heap index.tableId id).bind on.key = (heap₀ index.tableId id).bind on.key) ∨
      Mirrors db.catalog.metadata heap index db.storage

/-- A spared index mirrors its table as it did before. -/
lemma Mirrors.spared (h : Mirrors database heap₀ index s₀) (hext : Extends database database')
    (hcarries : CarriesOver K s₀ database' heap s) (hindex : index ∈ database'.indexes) (hK : index.id ∈ K)
    (hkeys : ∀ (on : IndexedColumn database' index) id,
      (heap index.tableId id).bind on.key = (heap₀ index.tableId id).bind on.key) :
    Mirrors database' heap index s := by
  obtain ⟨on, m, hfinds, hentries⟩ := h
  obtain ⟨on', hreach⟩ := hcarries.carries.tree index hindex
  obtain rfl := Subsingleton.elim on' (on.extend hext)
  have hback : (on.extend hext).tree.SearchesKeep s s₀ :=
    hreach.sound.searchesKeep (hcarries.trees index.id hK).symm
  refine ⟨on.extend hext, m, ?_, hentries.congr (hkeys (on.extend hext))⟩
  exact hfinds.keep fun j => (hback j).symm

/-- A store that resumes another one carries what it carried. -/
lemma Carries.resumes (h : Carries database heap s₀) (hresumes : Resumes s₀ s) : Carries database heap s := by
  constructor
  · intro t
    rcases h.file t with ⟨n, hshows⟩ | ⟨hnone, ht⟩
    · exact .inl ⟨n, hresumes.heap hshows⟩
    · exact .inr ⟨hresumes.missing hnone, ht⟩
  · exact h.encoded
  · intro index hindex
    obtain ⟨on, hreach⟩ := h.tree index hindex
    exact ⟨on, hreach.elsewhere (hresumes.index index.id)⟩

end Leaves

namespace Database

section Stores

variable {σ : Type} [PageStore σ] [UnstableSort] {catalog : Catalog} {database : DatabaseMetadata}
  {heap heap₀ : TableId → RowId → Option Row} {index : IndexMetadata} {K K' : Set IndexId} {s₀ : σ}
  {changes : List (Change TableId RowId Row)} {db db' : Database σ} {bound : BoundStatement}
  {e : DatabaseError} {V : List QueryRow → Prop} {result : ExecuteResult}

/-- The entries of the index, which are what its searches find, are the pairs of a key and a row id of these
rows, where the value is not `NULL`, each of them once. -/
def IndexHolds (db : Database σ) (index : IndexMetadata) (rows : RowId → Option Row) : Prop :=
  ∃ (on : IndexedColumn db.catalog.metadata index) (m : Multiset (BTreeKey × RowId)),
    on.tree.FindsEntries m db.storage ∧ m.Nodup ∧ ∀ k id, (k, id) ∈ m ↔ ∃ row v,
      rows id = some row ∧ on.value row = some v ∧ valueToBtreeKey v = some k

/-- The entries of the index are those of the rows of its table. -/
def IndexAgrees (db : Database σ) (index : IndexMetadata) : Prop :=
  db.IndexHolds index (storedRow db.storage index.tableId)

/-- The databases that statements lead to from a new one, whatever they return. Between two statements the
store may be opened again on its files. -/
inductive Reached : Database σ → Prop
  | start {file : List UInt8} {name : String} {s : σ} : (∀ r, PageStore.pages s r = none) →
      Reached ⟨⟨file, ⟨name, [], [], .empty⟩⟩, s⟩
  | step {statement : Statement} {db db' : Database σ} : Reached db →
      ((execute statement).run db).Returns db' → Reached db'
  | resumed {db : Database σ} {s : σ} : Reached db → Resumes db.storage s → Reached ⟨db.catalog, s⟩

/-- The store carries the rows of the catalog. -/
def Intact (db : Database σ) : Prop :=
  Numbered db.catalog.metadata ∧ ∃ heap, Carries db.catalog.metadata heap db.storage

/-! ### Agreement -/

omit [UnstableSort] in
lemma indexHolds_iff {rows : RowId → Option Row} : IndexHolds db index rows ↔
    ∃ (on : IndexedColumn db.catalog.metadata index) (m : Multiset (BTreeKey × RowId)),
      on.tree.FindsEntries m db.storage ∧ EntriesOf on.key rows m := by
  have hkeys (on : IndexedColumn db.catalog.metadata index) (k : BTreeKey) (id : RowId) :
      (∃ row v, rows id = some row ∧ on.value row = some v ∧ valueToBtreeKey v = some k) ↔
        ∃ row, rows id = some row ∧ on.key row = some k := by
    simp only [IndexedColumn.key, Option.bind_eq_some_iff, exists_and_left]
  constructor
  · rintro ⟨on, m, hfinds, hnodup, hmem⟩
    refine ⟨on, m, hfinds, hnodup, ?_⟩
    intro k id
    rw [hmem, hkeys]
  · rintro ⟨on, m, hfinds, hentries⟩
    refine ⟨on, m, hfinds, hentries.nodup, ?_⟩
    intro k id
    rw [hentries.mem_iff, hkeys]

/-- The rows of a table are those of its file. A table without a file has none. -/
lemma storedRow_eq {s : σ} (hcarries : Carries database heap s) (t : TableId) : storedRow s t = heap t := by
  cases hcarries.file t with
  | inl hshows =>
    obtain ⟨n, hshows⟩ := hshows
    exact funext hshows.get_value
  | inr hnone =>
    obtain ⟨hfile, ht⟩ := hnone
    rw [hcarries.rows_eq_none ht]
    funext id
    have hmissing : ((PageStore.pages s (.heap t)).bind fun ps => ps[id.pageId.index]?) = none := by
      rw [hfile, Option.bind_none]
    obtain ⟨e, s', hrun, -⟩ := PageStore.access_err ⟨.heap t, id.pageId⟩ (fun p => (p, none)) hmissing
    rw [storedRow, HeapTable.get, Exec.run_bind, HeapTable.fetchPage, Exec.run_mapErr, PageStore.fetchPage]
    exact congrArg (fun o : Outcome StorageError σ Page => (((o.mapErr TableError.storage).andThen _).value?))
      hrun

/-- An index agrees with its table when it mirrors the rows of the store. -/
lemma indexAgrees_iff (hcarries : Carries db.catalog.metadata heap db.storage) :
    IndexAgrees db index ↔ Mirrors db.catalog.metadata heap index db.storage := by
  rw [IndexAgrees, indexHolds_iff, Mirrors]
  constructor
  · rintro ⟨on, m, hfinds, hentries⟩
    rw [storedRow_eq hcarries] at hentries
    exact ⟨on, m, hfinds, hentries⟩
  · rintro ⟨on, m, hfinds, hentries⟩
    rw [← storedRow_eq hcarries] at hentries
    exact ⟨on, m, hfinds, hentries⟩

lemma agrees_of_leaves (h : Leaves K database heap s₀ db) (hindex : index ∈ db.catalog.metadata.indexes)
    (hold : index ∈ database.indexes → index.id ∈ K ∧ Mirrors database heap index s₀) :
    IndexAgrees db index := by
  obtain ⟨hext, -, heap', hs, hindexes⟩ := h
  rw [indexAgrees_iff hs.carries]
  rcases hindexes index hindex with ⟨hmem, hkeys⟩ | hnew
  · obtain ⟨hK, hmirrors⟩ := hold hmem
    exact hmirrors.spared hext hs hindex hK (hkeys hK)
  · exact hnew

lemma leaves_mono (h : Leaves K database heap s₀ db) (hK : K' ⊆ K) : Leaves K' database heap s₀ db := by
  obtain ⟨hext, hnumbered, heap', hs, hindexes⟩ := h
  refine ⟨hext, hnumbered, heap', ⟨hs.carries, fun i hi => hs.trees i (hK hi)⟩, ?_⟩
  intro index hindex
  exact (hindexes index hindex).imp_left fun hold => ⟨hold.1, fun hmem => hold.2 (hK hmem)⟩

lemma intact_of_leaves (h : Leaves K database heap s₀ db) : Intact db := by
  obtain ⟨-, hnumbered, heap', hs, -⟩ := h
  exact ⟨hnumbered, heap', hs.carries⟩

/-! ### Keys of changed rows -/

/-- The rows have the keys they have in `heap₀`, in the columns of the indexes of `K`. -/
def SameKeys (database : DatabaseMetadata) (K : Set IndexId) (heap₀ heap : TableId → RowId → Option Row) :
    Prop :=
  ∀ index ∈ database.indexes, index.id ∈ K → ∀ (on : IndexedColumn database index) (id : RowId),
    (heap index.tableId id).bind on.key = (heap₀ index.tableId id).bind on.key

/-- The change leaves the keys of the row as they are in `heap`, in the columns of the indexes of `K`. -/
def KeepsKeys (database : DatabaseMetadata) (K : Set IndexId) (heap : TableId → RowId → Option Row)
    (change : Change TableId RowId Row) : Prop :=
  ∀ index ∈ database.indexes, index.tableId = change.1.1 → index.id ∈ K →
    ∀ on : IndexedColumn database index, change.2.bind on.key = (heap change.1.1 change.1.2).bind on.key

omit [PageStore σ] [UnstableSort] in
lemma sameKeys_changed (h : ∀ change ∈ changes, KeepsKeys database K heap change) :
    SameKeys database K heap (changed heap changes) := by
  induction changes using List.reverseRecOn with
  | nil => exact fun _ _ _ _ _ => rfl
  | append_singleton changes change ih =>
    intro index hindex hK on id
    rw [changed_concat]
    by_cases hkey : (index.tableId, id) = change.1
    · obtain ⟨⟨t, id'⟩, value⟩ := change
      obtain ⟨ht, rfl⟩ := Prod.mk.inj hkey
      have hkeeps := h ((t, id), value) (List.mem_append_right _ List.mem_cons_self) index hindex ht hK on
      rw [ht, setAt_self]
      exact hkeeps
    · rw [setAt_of_ne hkey]
      exact ih (fun change hmem => h change (List.mem_append_left _ hmem)) index hindex hK on id

omit [PageStore σ] [UnstableSort] in
/-- A row of a table that `K` has no index of. -/
lemma keepsKeys_of_table {change : Change TableId RowId Row}
    (hK : ∀ index ∈ database.indexes, index.tableId = change.1.1 → index.id ∉ K) :
    KeepsKeys database K heap change :=
  fun index hindex ht hmem => absurd hmem (hK index hindex ht)

lemma Updated.sameKeys {V : List QueryRow → Prop} {bound : BoundUpdate} {entries done : List PreparedUpdate}
    (h : Updated K catalog heap s₀ V bound entries done db) (hencoded : Executor.HoldsEncoded catalog.metadata heap)
    (hfits : Binder.UpdateFits catalog.metadata bound)
    (hK : ∀ index ∈ catalog.metadata.indexes, index.id ∈ K → ∀ a ∈ bound.assignments,
      a.column.tableId = index.tableId → a.column.columnId ≠ index.columnId) :
    SameKeys catalog.metadata K heap (changed heap (done.map PreparedUpdate.change)) := by
  obtain ⟨rows, -, hlive, hentries⟩ := h.prepared
  apply sameKeys_changed
  intro change hchange index hindex ht hmem on
  obtain ⟨e, hdone, rfl⟩ := List.mem_map.mp hchange
  have he := h.part.subset hdone
  obtain ⟨row, hrow, hold, hnew⟩ := hentries.encodes hencoded hfits hlive he
  have hid : index.tableId = e.tableId := ht
  have hsame := hentries.unassigned he on hid (hK index hindex hmem)
  obtain ⟨v, hget, hv, -⟩ := IndexManager.Encodes.value_eq (hid ▸ hold) on
  obtain ⟨v', hget', hv', -⟩ := IndexManager.Encodes.value_eq (hid ▸ hnew) on
  rw [hget, hget', Option.some.injEq] at hsame
  have hbefore : heap e.change.1.1 e.change.1.2 = some row := hrow
  have hafter : e.change.2 = some e.newRow := rfl
  rw [hbefore, hafter, Option.bind_some, Option.bind_some, IndexedColumn.key_eq hv,
    IndexedColumn.key_eq hv', hsame]

lemma Deleted.sameKeys {V : List QueryRow → Prop} {bound : BoundDelete} {entries done : List PreparedDelete}
    (h : Deleted K catalog heap s₀ V bound entries done db) (hencoded : Executor.HoldsEncoded catalog.metadata heap)
    (hfits : Binder.DeleteFits catalog.metadata bound)
    (hK : ∀ index ∈ catalog.metadata.indexes, index.id ∈ K → ∀ table ∈ bound.targets,
      table.tableId ≠ index.tableId) :
    SameKeys catalog.metadata K heap (changed heap (done.map PreparedDelete.change)) := by
  obtain ⟨rows, -, hlive, hentries⟩ := h.prepared
  apply sameKeys_changed
  intro change hchange
  obtain ⟨e, hdone, rfl⟩ := List.mem_map.mp hchange
  obtain ⟨-, table, htarget, hid⟩ := hentries.encodes hencoded hfits hlive (h.part.subset hdone)
  apply keepsKeys_of_table
  intro index hindex ht hmem
  exact hK index hindex hmem table htarget (hid.trans ht.symm)

/-! ### What statements leave -/

lemma leaves_of_made (hnumbered : Numbered catalog.metadata) (h : Made K catalog heap s₀ changes db)
    (hkeys : SameKeys catalog.metadata K heap (changed heap changes)) :
    Leaves K catalog.metadata heap s₀ db := by
  obtain ⟨rfl, hs⟩ := h
  exact ⟨fun _ _ ht => ht, hnumbered, _, hs, fun index hindex => .inl ⟨hindex, hkeys index hindex⟩⟩

lemma leaves_of_untouched (hnumbered : Numbered catalog.metadata) (hcarries : Carries catalog.metadata heap s₀)
    (h : Untouched catalog s₀ db) : Leaves K catalog.metadata heap s₀ db :=
  leaves_of_made hnumbered (Untouched.made hcarries h) fun _ _ _ _ _ => rfl

lemma leaves_of_tableAdded {bound : BoundCreateTable} (hnumbered : Numbered catalog.metadata)
    (h : TableAdded catalog heap s₀ bound db) : Leaves Set.univ catalog.metadata heap s₀ db := by
  obtain ⟨table, -, hadd, hfile, hs⟩ := h
  obtain ⟨-, -, -, hindexes⟩ := DatabaseMetadata.addTable_eq_ok.mp hadd
  refine ⟨extends_addTable hadd, ?_, heap, ⟨hs.carries.addTable hadd hfile, hs.trees⟩, ?_⟩
  · intro index hindex
    rw [hindexes] at hindex ⊢
    exact hnumbered index hindex
  · intro index hindex
    rw [hindexes] at hindex
    exact .inl ⟨hindex, fun _ _ _ => rfl⟩

/-- An index that comes into the catalog mirrors its table. -/
lemma leaves_of_indexAdded {bound : BoundCreateIndex} (hnumbered : Numbered catalog.metadata)
    (h : IndexAdded K catalog heap s₀ bound db) : Leaves K catalog.metadata heap s₀ db := by
  obtain ⟨index, -, hid, hadd, on, m, hentries, hs⟩ := h
  obtain ⟨-, -, -, hindexes⟩ := DatabaseMetadata.addIndex_eq_ok.mp hadd
  have hext := extends_addIndex hadd
  refine ⟨hext, ?_, heap, ⟨hs.2.carries.addIndex hadd on hs.1.1, hs.2.trees⟩, ?_⟩
  · intro i hi
    rw [hindexes] at hi ⊢
    rw [List.length_append, List.length_singleton]
    cases List.mem_append.mp hi with
    | inl hold => exact (hnumbered i hold).trans (Nat.le_succ _)
    | inr hnew =>
      rw [List.mem_singleton.mp hnew, hid]
  · intro i hi
    rw [hindexes] at hi
    cases List.mem_append.mp hi with
    | inl hold => exact .inl ⟨hold, fun _ _ _ => rfl⟩
    | inr hnew =>
      obtain rfl := List.mem_singleton.mp hnew
      exact .inr ⟨on.extend hext, m, hs.1.2, hentries⟩

/-- A row that has been stored in a table none of whose indexes is in `K`. -/
lemma leaves_of_inserted {t : TableId} {id : RowId} {row : Row} (hnumbered : Numbered catalog.metadata)
    (hK : ∀ index ∈ catalog.metadata.indexes, index.tableId = t → index.id ∉ K)
    (h : Made K catalog heap s₀ [((t, id), some row)] db) : Leaves K catalog.metadata heap s₀ db := by
  apply leaves_of_made hnumbered h
  apply sameKeys_changed
  intro change hchange
  obtain rfl := List.mem_singleton.mp hchange
  exact keepsKeys_of_table hK

lemma leaves_of_done {statement : Statement} (hnumbered : Numbered catalog.metadata)
    (hcarries : Carries catalog.metadata heap s₀)
    (hbind : (Binder.mk catalog.metadata).bind statement = .ok bound)
    (h : Done (spared catalog.metadata bound) catalog heap s₀ V bound result db) :
    Leaves (spared catalog.metadata bound) catalog.metadata heap s₀ db := by
  cases bound with
  | createTable bound => exact leaves_mono (leaves_of_tableAdded hnumbered h.2) (Set.subset_univ _)
  | createIndex bound => exact leaves_of_indexAdded hnumbered h.2
  | insert bound =>
    obtain ⟨-, id, row, -, -, hmade, -⟩ := h
    apply leaves_of_inserted hnumbered _ hmade
    exact fun index hindex ht hmem => hmem.2 index hindex rfl ht
  | select bound =>
    obtain ⟨rows, results, -, -, -, hdb⟩ := h
    exact leaves_of_untouched hnumbered hcarries hdb
  | update bound =>
    obtain ⟨entries, -, hupdated⟩ := h
    obtain ⟨update, hupdate⟩ := Binder.bind_update hbind
    apply leaves_of_made hnumbered hupdated.made
    apply hupdated.sameKeys hcarries.encoded (Binder.bindUpdate_fits hupdate)
    exact fun index hindex hmem a ha ht hcolumn => hmem.2 index hindex rfl ⟨a, ha, ht, hcolumn⟩
  | delete bound =>
    obtain ⟨entries, -, hdeleted⟩ := h
    obtain ⟨delete, hdelete⟩ := Binder.bind_delete hbind
    apply leaves_of_made hnumbered hdeleted.made
    apply hdeleted.sameKeys hcarries.encoded (Binder.bindDelete_fits hdelete)
    exact fun index hindex hmem table htable ht => hmem.2 index hindex rfl ⟨table, htable, ht⟩

/-- The indexes that a statement that stops with this error does not disturb. -/
def undisturbed (database : DatabaseMetadata) (bound : BoundStatement) (e : DatabaseError) : Set IndexId :=
  {i | i ∈ givenIds database ∧ ∀ index ∈ database.indexes, index.id = i → ¬ bound.Disturbs e index}

lemma leaves_of_stopped {statement : Statement} (hnumbered : Numbered catalog.metadata)
    (hcarries : Carries catalog.metadata heap s₀)
    (hbind : (Binder.mk catalog.metadata).bind statement = .ok bound)
    (h : Stopped (spared catalog.metadata bound) catalog heap s₀ V bound e db) :
    Leaves (undisturbed catalog.metadata bound e) catalog.metadata heap s₀ db := by
  cases bound with
  | createTable bound =>
    rcases h with hmade | hadded
    · exact leaves_mono (leaves_of_made hnumbered hmade fun _ _ _ _ _ => rfl) (Set.subset_univ _)
    · exact leaves_mono (leaves_of_tableAdded hnumbered hadded) (Set.subset_univ _)
  | createIndex bound =>
    have hK : undisturbed catalog.metadata (.createIndex bound) e ⊆
        spared catalog.metadata (.createIndex bound) := fun i hi => ⟨hi.1, fun _ _ _ => not_false⟩
    rcases h with hmade | hadded
    · exact leaves_mono (leaves_of_made hnumbered hmade fun _ _ _ _ _ => rfl) hK
    · exact leaves_mono (leaves_of_indexAdded hnumbered hadded) hK
  | insert bound =>
    rcases h with ⟨-, hmade⟩ | ⟨he, id, row, -, -, hmade, -⟩
    · exact leaves_mono (leaves_of_made hnumbered hmade fun _ _ _ _ _ => rfl) (Set.subset_univ _)
    · have hleaves : Leaves (spared catalog.metadata (.insert bound)) catalog.metadata heap s₀ db := by
        apply leaves_of_inserted hnumbered _ hmade
        exact fun index hindex ht hmem => hmem.2 index hindex rfl ht
      apply leaves_mono hleaves
      exact fun i hi => ⟨hi.1, fun index hindex hid ht => hi.2 index hindex hid ⟨ht, he⟩⟩
  | select bound => exact leaves_of_untouched hnumbered hcarries h
  | update bound =>
    rcases h with hdb | ⟨he, entries, done, hupdated⟩
    · exact leaves_of_untouched hnumbered hcarries hdb
    · have hK : undisturbed catalog.metadata (.update bound) e ⊆ spared catalog.metadata (.update bound) :=
        fun i hi => ⟨hi.1, fun index hindex hid ht => hi.2 index hindex hid ⟨ht, he⟩⟩
      obtain ⟨update, hupdate⟩ := Binder.bind_update hbind
      apply leaves_mono (leaves_of_made hnumbered hupdated.made _) hK
      apply hupdated.sameKeys hcarries.encoded (Binder.bindUpdate_fits hupdate)
      exact fun index hindex hmem a ha ht hcolumn => hmem.2 index hindex rfl ⟨a, ha, ht, hcolumn⟩
  | delete bound =>
    rcases h with hdb | ⟨he, entries, done, hdeleted⟩
    · exact leaves_of_untouched hnumbered hcarries hdb
    · have hK : undisturbed catalog.metadata (.delete bound) e ⊆ spared catalog.metadata (.delete bound) :=
        fun i hi => ⟨hi.1, fun index hindex hid ht => hi.2 index hindex hid ⟨ht, he⟩⟩
      obtain ⟨delete, hdelete⟩ := Binder.bind_delete hbind
      apply leaves_mono (leaves_of_made hnumbered hdeleted.made _) hK
      apply hdeleted.sameKeys hcarries.encoded (Binder.bindDelete_fits hdelete)
      exact fun index hindex hmem table htable ht => hmem.2 index hindex rfl ⟨table, htable, ht⟩

/-! ### Runs -/

lemma Intact.returns {statement : Statement} (h : Intact db)
    (hreturns : ((execute statement).run db).Returns db') : Intact db' := by
  obtain ⟨hnumbered, heap, hcarries⟩ := h
  have hends := execute_ends statement hnumbered hcarries
    (fun bound hbind => reads_live hcarries hbind) db ⟨rfl, rfl⟩
  rcases hreturns with ⟨result, hrun⟩ | ⟨e, hrun⟩
  · rw [hrun] at hends
    obtain ⟨bound, hbind, hdone⟩ := hends
    exact intact_of_leaves (leaves_of_done hnumbered hcarries hbind hdone)
  · rw [hrun] at hends
    rcases hends with ⟨-, hdb⟩ | ⟨bound, hbind, hstopped⟩
    · exact intact_of_leaves (K := Set.univ) (leaves_of_untouched hnumbered hcarries hdb)
    · exact intact_of_leaves (leaves_of_stopped hnumbered hcarries hbind hstopped)

/-- Every database that is reached is intact. -/
lemma Reached.intact (h : Reached db) : Intact db := by
  induction h with
  | start hs =>
    refine ⟨by rintro index ⟨⟩, fun _ _ => none, ?_, by rintro t id row ⟨⟩, by rintro index ⟨⟩⟩
    exact fun t => .inr ⟨hs _, rfl⟩
  | step _ hreturns ih => exact ih.returns hreturns
  | resumed _ hresumes ih =>
    obtain ⟨hnumbered, heap, hcarries⟩ := ih
    exact ⟨hnumbered, heap, hcarries.resumes hresumes⟩

/-- An index agrees with its table in a store that resumes the one where it did. -/
lemma IndexAgrees.resumes {s : σ} (h : IndexAgrees db index) (hintact : Intact db)
    (hresumes : Resumes db.storage s) (hindex : index ∈ db.catalog.metadata.indexes) :
    IndexAgrees ⟨db.catalog, s⟩ index := by
  obtain ⟨-, heap, hcarries⟩ := hintact
  have hafter : Carries db.catalog.metadata heap s := hcarries.resumes hresumes
  obtain ⟨on, m, hfinds, hentries⟩ := (indexAgrees_iff hcarries).mp h
  obtain ⟨on', hreach⟩ := hcarries.tree index hindex
  obtain rfl := Subsingleton.elim on on'
  apply (indexAgrees_iff hafter).mpr
  exact ⟨on, m, hfinds.keep (hreach.sound.searchesKeep (hresumes.index index.id)), hentries⟩

/-- A failed statement spares the indexes that it does not disturb. -/
lemma Reached.spared {statement : Statement} (h : Reached db)
    (herr : (execute statement).run db = .err e db') (hindex : index ∈ db'.catalog.metadata.indexes)
    (hbefore : index ∈ db.catalog.metadata.indexes → IndexAgrees db index)
    (hspared : ∀ bound, (Binder.mk db.catalog.metadata).bind statement = .ok bound → ¬ bound.Disturbs e index) :
    IndexAgrees db' index := by
  obtain ⟨hnumbered, heap, hcarries⟩ := h.intact
  have hends := (execute_ends statement hnumbered hcarries
    fun bound hbind => reads_live hcarries hbind).of_err ⟨rfl, rfl⟩ herr
  have hmirrors (hold : index ∈ db.catalog.metadata.indexes) :
      Mirrors db.catalog.metadata heap index db.storage := (indexAgrees_iff hcarries).mp (hbefore hold)
  rcases hends with ⟨-, hdb⟩ | ⟨bound, hbind, hstopped⟩
  · exact agrees_of_leaves (leaves_of_untouched hnumbered hcarries hdb) hindex
      fun hold => ⟨Set.mem_univ _, hmirrors hold⟩
  · apply agrees_of_leaves (leaves_of_stopped hnumbered hcarries hbind hstopped) hindex
    refine fun hold => ⟨⟨hnumbered index hold, ?_⟩, hmirrors hold⟩
    intro index' hindex' hid
    rw [index_eq_of_id hold hindex' hid]
    exact hspared bound hbind

/-- An index that has gained the entry of a row that has been stored agrees with its table. -/
lemma mirrors_of_inserted {t : TableId} {id : RowId} {row : Row} (hnone : heap t id = none)
    (hmade : Made K db.catalog heap s₀ [((t, id), some row)] db') (ht : index.tableId = t)
    (hgained : IndexManager.AllGained db.catalog.metadata t id row s₀ db'.storage)
    (hindex : index ∈ db.catalog.metadata.indexes) (h : Mirrors db.catalog.metadata heap index s₀) :
    IndexAgrees db' index := by
  obtain ⟨hcatalog, hs⟩ := hmade
  rw [← hcatalog] at hs
  rw [indexAgrees_iff hs.carries, hcatalog]
  obtain ⟨on, m, hfinds, hentries⟩ := h
  have hrows : changed heap [((t, id), some row)] index.tableId =
      Function.update (heap index.tableId) id (some row) := by
    rw [ht]
    exact Function.update_self ..
  rw [← ht] at hnone
  unfold Mirrors
  rw [hrows]
  rcases hgained index hindex ht on with ⟨hkey, hkeep⟩ | ⟨k, hkey, hgain⟩
  · exact ⟨on, m, hfinds.keep hkeep, hentries.insert_none hnone hkey⟩
  · exact ⟨on, _, hfinds.insert hgain, hentries.insert hnone hkey⟩

/-- A statement that succeeds leaves in step the indexes that it takes no entry from. -/
lemma Reached.linked {statement : Statement} (h : Reached db)
    (hrun : (execute statement).run db = .ok result db') (hindex : index ∈ db'.catalog.metadata.indexes)
    (hbefore : index ∈ db.catalog.metadata.indexes → IndexAgrees db index)
    (hlinked : ∀ bound, (Binder.mk db.catalog.metadata).bind statement = .ok bound → ¬ bound.Unlinks index) :
    IndexAgrees db' index := by
  obtain ⟨hnumbered, heap, hcarries⟩ := h.intact
  obtain ⟨bound, hbind, hdone⟩ := (execute_ends statement hnumbered hcarries
    fun bound hbind => reads_live hcarries hbind).of_ok ⟨rfl, rfl⟩ hrun
  have hmirrors (hold : index ∈ db.catalog.metadata.indexes) :
      Mirrors db.catalog.metadata heap index db.storage := (indexAgrees_iff hcarries).mp (hbefore hold)
  by_cases htouches : bound.Touches index
  · by_cases hinsert : ∃ insert, bound = .insert insert
    · obtain ⟨insert, rfl⟩ := hinsert
      obtain ⟨-, id, row, hnone, -, hmade, hgained⟩ := hdone
      have hold : index ∈ db.catalog.metadata.indexes := hmade.1 ▸ hindex
      exact mirrors_of_inserted hnone hmade htouches hgained hold (hmirrors hold)
    · exact absurd ⟨htouches, fun insert heq => hinsert ⟨insert, heq⟩⟩ (hlinked bound hbind)
  · apply agrees_of_leaves (leaves_of_done hnumbered hcarries hbind hdone) hindex
    refine fun hold => ⟨⟨hnumbered index hold, ?_⟩, hmirrors hold⟩
    intro index' hindex' hid
    rwa [index_eq_of_id hold hindex' hid]

end Stores

end Database

end RdbRs
