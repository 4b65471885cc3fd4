import RdbRs.Database.CallsReturn
import RdbRs.Database.StoreExecute

/-!
# Reads return

A FROM clause that the binder has checked comes back, on a store that carries the rows of the catalog.
-/

namespace RdbRs

open Exec

namespace Database

variable {σ : Type} {catalog : Catalog} {P : σ → Prop} {F : Prop}

lemma halts_onStorage {ε α : Type} {x : Exec ε σ α} {Q : α → σ → Prop} (h : Halts F P x Q) :
    Halts F (HasStore catalog P) (onStorage x) fun a => HasStore catalog (Q a) :=
  h.zoom (fun _ hdb => hdb.2) fun _ _ _ hdb hs => ⟨hdb.1, hs⟩

lemma halts_executor : Halts F (HasStore catalog P) executor
    fun e db => e = ⟨catalog.metadata⟩ ∧ HasStore catalog P db :=
  fun _ hdb => ⟨congrArg (fun catalog => Executor.mk catalog.metadata) hdb.1, hdb⟩

lemma halts_catalog {ε : Type} :
    Halts F (HasStore catalog P) (Exec.gets Database.catalog : Exec ε (Database σ) Catalog)
      fun catalog' db => catalog' = catalog ∧ HasStore catalog P db :=
  fun _ hdb => ⟨hdb.1, hdb⟩

section Reads

variable [PageStore σ] [UnstableSort] {heap : TableId → RowId → Option Row} {s₀ : σ} {t : TableId}
  {table : BoundTable} {filter : Option BoundExpression} {from_ : BoundFromClause} {tables : List BoundTable}
  (hcarries : Carries catalog.metadata heap s₀)

include hcarries

lemma carriesOver_of_pagesAre (s : σ) (hs : PagesAre (PageStore.pages s₀) s) :
    CarriesOver ∅ s₀ catalog.metadata heap s := ⟨hcarries.of_pages hs, sameTrees_of_pages hs⟩

lemma halts_scanRows (t : TableId) : Halts F (PagesAre (PageStore.pages s₀))
    (TableManager.scanRows t : Exec TableError σ _)
    fun live s => (∀ e ∈ live, heap t e.1 = some e.2) ∧ PagesAre (PageStore.pages s₀) s :=
  (TableManager.halts_scanRows.pre (carriesOver_of_pagesAre hcarries)).of_triple (scanRows_live hcarries t)

lemma halts_getRows (t : TableId) (ids : List RowId) : Halts F (PagesAre (PageStore.pages s₀))
    (getRows t ids : Exec TableError σ _)
    fun live s => (∀ e ∈ live, heap t e.1 = some e.2) ∧ PagesAre (PageStore.pages s₀) s := by
  apply halts_foldlM (V := fun live : List (RowId × Row) => ∀ e ∈ live, heap t e.1 = some e.2) _ (by simp)
  intro live id _ hlive
  have hget := (TableManager.halts_getRow.pre (carriesOver_of_pagesAre hcarries)).of_triple (F := F)
    (getRow_live hcarries t id)
  apply hget.bind_of
  intro row hrow s hs
  refine ⟨?_, hs⟩
  intro e he
  cases List.mem_append.mp he with
  | inl hold => exact hlive e hold
  | inr hnew =>
    rw [List.mem_singleton.mp hnew]
    exact hrow

lemma halts_decode {live : List (RowId × Row)}
    (htable : ∃ tableMeta, catalog.metadata.tableById table.tableId = some tableMeta)
    (hlive : ∀ e ∈ live, heap table.tableId e.1 = some e.2) :
    Halts F (HasStore catalog P)
      (executor >>= fun executor => Exec.mapErr .executor (executor.decodeTableRows table live))
      fun _ _ => True := by
  apply halts_executor.bind_of
  intro executor hexecutor
  have hencoded (e : RowId × Row) (he : e ∈ live) := hcarries.encoded _ _ _ (hlive e he)
  rw [hexecutor, Executor.decodeTableRows_eq htable hencoded, Exec.mapErr_pure]
  exact fun _ _ => trivial

lemma halts_scanTableRows (htable : ∃ tableMeta, catalog.metadata.tableById table.tableId = some tableMeta) :
    Halts F (Untouched catalog s₀) (scanTableRows table : Exec DatabaseError (Database σ) _)
      fun _ _ => True := by
  apply ((halts_onStorage (halts_scanRows hcarries table.tableId)).mapErr _).bind
  intro live db hdb
  exact halts_decode (P := PagesAre (PageStore.pages s₀)) hcarries htable hdb.2.1 db ⟨hdb.1, hdb.2.2⟩

omit [UnstableSort] hcarries in
/-- The value of a comparison that the binder has checked is of the type of the column of the index. -/
lemma hasType_of_isIn {index : IndexMetadata} {column : BoundColumnReference} {value : Value} {dataType : DataType}
    (on : IndexedColumn catalog.metadata index) (hindex : index.tableId = table.tableId)
    (hcolumn : index.columnId = column.columnId) (htable : column.tableId = table.tableId)
    (hc : column.IsIn catalog.metadata tables dataType) (htype : value.HasType dataType) :
    value.HasType on.column.dataType := by
  obtain ⟨-, -, -, -, tableMeta, hmeta, columnMeta, hcolumnMeta, hdataType⟩ := hc
  rw [htable, ← hindex, on.table_eq] at hmeta
  cases hmeta
  obtain ⟨i, hi, hget⟩ := columnIndex_of_columnById hcolumnMeta
  rw [← hcolumn, on.position_eq] at hi
  cases hi
  rw [on.column_eq] at hget
  cases hget
  rwa [hdataType]

/-- The lookup of a comparison opens a tree of the type of its column. -/
lemma halts_searchIndexRowIds {column : BoundColumnReference} {value : Value} {dataType : DataType}
    (hscope : Scope tables) (hmem : table ∈ tables) (hinstance : column.instanceId = table.instanceId)
    (hc : column.IsIn catalog.metadata tables dataType) (htype : value.HasType dataType) :
    Halts F (PagesAre (PageStore.pages s₀))
      (IndexManager.searchIndexRowIds catalog.metadata.indexes table.tableId column.columnId value :
        Exec IndexError σ _)
      fun _ _ => True := by
  unfold IndexManager.searchIndexRowIds
  split
  · next index hfind =>
    have hpasses := List.find?_some hfind
    obtain ⟨ht, hcolumn⟩ := of_decide_eq_true hpasses
    have hindex := List.mem_of_find?_eq_some hfind
    obtain ⟨on, -⟩ := hcarries.tree index hindex
    have hcolumnType := hasType_of_isIn on ht hcolumn (isIn_table hscope hmem hinstance hc) hc htype
    apply ((IndexManager.halts_searchRowIds hindex on hcolumnType).pre (carriesOver_of_pagesAre hcarries)).bind
    exact fun _ => total_pure.halts
  · exact total_pure.halts

lemma halts_fetchTableRows (hfilter : ∀ f ∈ filter, f.Fits catalog.metadata tables) (hscope : Scope tables)
    (hmem : table ∈ tables)
    (htable : ∃ tableMeta, catalog.metadata.tableById table.tableId = some tableMeta) :
    Halts F (Untouched catalog s₀) (fetchTableRows filter table : Exec DatabaseError (Database σ) _)
      fun _ _ => True := by
  unfold fetchTableRows
  split
  · next column value hpredicate =>
    obtain ⟨hinstance, ⟨dataType, hc, htype⟩, -⟩ :=
      indexPredicateForTable_spec ⟨catalog.metadata⟩ hfilter hpredicate
    apply halts_catalog.bind_of
    intro catalog' hcatalog
    rw [hcatalog]
    have hsearch := (halts_searchIndexRowIds (F := F) hcarries hscope hmem hinstance hc htype).of_triple
      (IndexManager.searchIndexRowIds_reads _ _ _ _)
    apply ((halts_onStorage hsearch).mapErr DatabaseError.index).bind
    intro found
    cases found with
    | some ids =>
      simp only [getTableRows]
      apply ((halts_onStorage (halts_getRows hcarries table.tableId ids)).mapErr DatabaseError.table).bind
      intro live db hdb
      exact halts_decode (P := PagesAre (PageStore.pages s₀)) hcarries htable hdb.2.1 db ⟨hdb.1, hdb.2.2⟩
    | none => exact halts_scanTableRows hcarries htable
  · exact halts_scanTableRows hcarries htable

lemma halts_fromClause (hfits : from_.Fits catalog.metadata) (hscope : Scope (collectTables from_))
    (htables : ∀ table ∈ collectTables from_, table ∈ tables) (hscope' : Scope tables)
    (hfilter : ∀ f ∈ filter, f.Fits catalog.metadata tables) :
    Halts F (Untouched catalog s₀)
      (Executor.fromClause ⟨catalog.metadata⟩ DatabaseError.executor (fetchTableRows filter) from_ :
        Exec DatabaseError (Database σ) _)
      fun _ _ => True := by
  induction from_ with
  | table table =>
    rw [Executor.fromClause]
    have hmem := htables table (List.mem_singleton_self table)
    apply (halts_fetchTableRows hcarries hfilter hscope' hmem hfits).bind
    exact fun _ => total_pure.halts
  | innerJoin left on right ihl ihr =>
    obtain ⟨hfitsL, hfitsR, dataType, hleft, hright⟩ := hfits
    rw [Executor.fromClause]
    have hleftRows := (ihl hfitsL hscope.left fun table hmem =>
      htables table (List.mem_append_left _ hmem)).of_triple (fromClause_live hcarries hfitsL hscope.left)
    apply hleftRows.bind_of
    intro leftRows hl
    have hrightRows := (ihr hfitsR hscope.swap.left fun table hmem =>
      htables table (List.mem_append_right _ hmem)).of_triple (fromClause_live hcarries hfitsR hscope.swap.left)
    apply hrightRows.bind_of
    intro rightRows hr
    rw [Executor.hashJoin_joined hscope hleft hright
      (fun row hrow => (hl row hrow).imp fun _ _ h => h.1.1)
      (fun row hrow => (hr row hrow).imp fun _ _ h => h.1.1), Exec.mapErr_pure]
    exact fun _ _ => trivial

/-- The FROM clause of a bound statement. -/
lemma halts_executeFromClause {p : BoundFromClause × Option BoundExpression} (h : ReadsFit catalog.metadata p) :
    Halts F (Untouched catalog s₀) (executeFromClause p.1 p.2 : Exec DatabaseError (Database σ) _)
      fun rows db => ((∀ row ∈ rows, List.Forall₂ (Executor.IsLive catalog.metadata heap) (collectTables p.1)
        row.tableRows) ∧ True) ∧ Untouched catalog s₀ db := by
  apply Halts.of_triple _ (readsRows_live hcarries h.from_ h.scope)
  apply halts_executor.bind_of
  intro executor hexecutor
  rw [hexecutor]
  exact halts_fromClause hcarries h.from_ h.scope (fun _ hmem => hmem) h.scope h.filter

end Reads

end Database

end RdbRs
