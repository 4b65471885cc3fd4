import RdbRs.Database.LiveRows
import RdbRs.Database.StoreCalls

/-!
# Reads on a page store

What a FROM clause returns on a store that carries the rows of the catalog: joined rows of live rows,
whatever the indexes say. It leaves every page as it is.
-/

namespace RdbRs

open Exec

namespace Database

variable {σ : Type} {catalog : Catalog} {P : σ → Prop}

/-- A database with this catalog, of whose store `P` holds. -/
def HasStore (catalog : Catalog) (P : σ → Prop) (db : Database σ) : Prop :=
  db.catalog = catalog ∧ P db.storage

lemma onStorage_triple {ε α : Type} {x : Exec ε σ α} {Q : α → σ → Prop} {E : σ → Prop}
    (h : Triple P x Q E) : Triple (HasStore catalog P) (onStorage x) (fun a => HasStore catalog (Q a))
      (HasStore catalog E) :=
  h.zoom (fun _ hdb => hdb.2) (fun _ _ _ hdb hs => ⟨hdb.1, hs⟩) fun _ _ hdb hs => ⟨hdb.1, hs⟩

lemma onStorage_ends {ε α : Type} {x : Exec ε σ α} {Q : α → σ → Prop} {F : ε → σ → Prop}
    (h : Ends P x Q F) : Ends (HasStore catalog P) (onStorage x) (fun a => HasStore catalog (Q a))
      (fun e => HasStore catalog (F e)) :=
  h.zoom (fun _ hdb => hdb.2) (fun _ _ _ hdb hs => ⟨hdb.1, hs⟩) fun _ _ _ hdb hs => ⟨hdb.1, hs⟩

lemma executor_ends {F : DatabaseError → Database σ → Prop} : Ends (HasStore catalog P) executor
    (fun e db => e = ⟨catalog.metadata⟩ ∧ HasStore catalog P db) F := by
  intro db hdb
  exact ⟨congrArg (fun catalog => Executor.mk catalog.metadata) hdb.1, hdb⟩

lemma executor_triple {E : Database σ → Prop} : Triple (HasStore catalog P) executor
    (fun e db => e = ⟨catalog.metadata⟩ ∧ HasStore catalog P db) E :=
  (executor_ends (F := fun _ => E)).triple fun _ _ hdb => hdb

lemma catalog_ends {ε : Type} {F : ε → Database σ → Prop} :
    Ends (HasStore catalog P) (Exec.gets Database.catalog)
      (fun catalog' db => catalog' = catalog ∧ HasStore catalog P db) F :=
  fun _ hdb => ⟨hdb.1, hdb⟩

lemma catalog_triple {ε : Type} {E : Database σ → Prop} :
    Triple (HasStore catalog P) (Exec.gets Database.catalog : Exec ε (Database σ) Catalog)
      (fun catalog' db => catalog' = catalog ∧ HasStore catalog P db) E :=
  (catalog_ends (F := fun _ => E)).triple fun _ _ hdb => hdb

/-- A database with this catalog, whose store has the pages of `s₀`. -/
abbrev Untouched [PageStore σ] (catalog : Catalog) (s₀ : σ) : Database σ → Prop :=
  HasStore catalog (PagesAre (PageStore.pages s₀))

/-! ### Reading rows -/

section Reads

variable [PageStore σ] [UnstableSort] {heap : TableId → RowId → Option Row} {s₀ : σ} {t : TableId}
  {id : RowId} {table : BoundTable} {filter : Option BoundExpression} {from_ : BoundFromClause}

variable (hcarries : Carries catalog.metadata heap s₀)

include hcarries

lemma scanRows_live (t : TableId) : Triple (PagesAre (PageStore.pages s₀))
    (TableManager.scanRows t : Exec TableError σ _)
    (fun live s => (∀ e ∈ live, heap t e.1 = some e.2) ∧ PagesAre (PageStore.pages s₀) s)
    (PagesAre (PageStore.pages s₀)) := by
  apply TableManager.onTable_triple fun _ hs => hs
  intro hfile s hs
  have hreads := (HeapTable.new t).scan_reads hfile s hs
  rw [← show PageStore.pages s = PageStore.pages s₀ from hs] at hfile
  obtain ⟨n, hshows⟩ := (hcarries.of_pages hs).shows hfile
  obtain ⟨live, s', hrun, -, hmem, -⟩ := hshows.scan_ok
  rw [hrun] at hreads ⊢
  exact ⟨fun e he => (hmem _ _).mp he, hreads⟩

/-- A scan of a table of the catalog succeeds, and finds its rows. -/
lemma scanRows_ok {tableMeta : TableMetadata} (ht : catalog.metadata.tableById t = some tableMeta) :
    ∃ live s', (TableManager.scanRows t).run s₀ = .ok live s' ∧ PageStore.pages s' = PageStore.pages s₀ ∧
      live.Nodup ∧ ∀ e, e ∈ live ↔ heap t e.1 = some e.2 := by
  obtain ⟨n, hshows⟩ := hcarries.shows_of_table ht
  obtain ⟨live, s', hrun, hsorted, hmem, -⟩ := hshows.scan_ok
  obtain ⟨ps, hps, -⟩ := hshows
  have hopen : (TableManager.scanRows t : Exec TableError σ _).run s₀ = (HeapTable.new t).scan.run s₀ := by
    rw [TableManager.scanRows, Exec.run_bind, TableManager.run_getOrOpenTable hps, Outcome.andThen_ok]
  have hreads := TableManager.scanRows_reads t s₀ rfl
  rw [hopen, hrun] at hreads
  refine ⟨live, s', hopen.trans hrun, hreads, hsorted.imp ?_, fun e => hmem e.1 e.2⟩
  rintro a b hbefore rfl
  rcases hbefore with hlt | ⟨-, hlt⟩
  · exact Nat.lt_irrefl _ hlt
  · exact Nat.lt_irrefl _ hlt

lemma getRow_live (t : TableId) (id : RowId) : Triple (PagesAre (PageStore.pages s₀))
    (TableManager.getRow t id : Exec TableError σ Row)
    (fun row s => heap t id = some row ∧ PagesAre (PageStore.pages s₀) s)
    (PagesAre (PageStore.pages s₀)) := by
  apply TableManager.onTable_triple fun _ hs => hs
  intro hfile s hs
  have hreads := (HeapTable.new t).get_reads id s hs
  rw [← show PageStore.pages s = PageStore.pages s₀ from hs] at hfile
  obtain ⟨n, hshows⟩ := (hcarries.of_pages hs).shows hfile
  obtain ⟨s', -, -, hget⟩ := hshows.get_eq id
  cases hrow : heap t id with
  | some row =>
    simp only [hrow] at hget
    rw [hget] at hreads ⊢
    exact ⟨rfl, hreads⟩
  | none =>
    simp only [hrow] at hget
    obtain ⟨e, hget⟩ := hget
    rw [hget] at hreads ⊢
    exact hreads

lemma getRows_live (t : TableId) (ids : List RowId) : Triple (PagesAre (PageStore.pages s₀))
    (getRows t ids : Exec TableError σ _)
    (fun live s => (∀ e ∈ live, heap t e.1 = some e.2) ∧ PagesAre (PageStore.pages s₀) s)
    (PagesAre (PageStore.pages s₀)) := by
  apply triple_foldlM (V := fun live : List (RowId × Row) => ∀ e ∈ live, heap t e.1 = some e.2) _ (by simp)
  intro live id _ hlive
  apply (getRow_live hcarries t id).bind_of
  intro row hrow s hs
  refine ⟨?_, hs⟩
  intro e he
  cases List.mem_append.mp he with
  | inl hold => exact hlive e hold
  | inr hnew =>
    rw [List.mem_singleton.mp hnew]
    exact hrow

/-- Live rows are decoded. -/
lemma decode_live {live : List (RowId × Row)}
    (htable : ∃ tableMeta, catalog.metadata.tableById table.tableId = some tableMeta)
    (hlive : ∀ e ∈ live, heap table.tableId e.1 = some e.2) {E : Database σ → Prop} :
    Triple (HasStore catalog P)
      (executor >>= fun executor => Exec.mapErr .executor (executor.decodeTableRows table live))
      (fun tableRows db => (∀ tableRow ∈ tableRows, Executor.IsLive catalog.metadata heap table tableRow) ∧
        HasStore catalog P db) E := by
  apply executor_triple.bind_of
  intro executor hexecutor
  have hencoded (e : RowId × Row) (he : e ∈ live) := hcarries.encoded _ _ _ (hlive e he)
  rw [hexecutor, Executor.decodeTableRows_eq htable hencoded, Exec.mapErr_pure]
  intro db hdb
  exact ⟨Executor.shownRows_live hcarries.encoded hlive, hdb⟩

lemma scanTableRows_live (htable : ∃ tableMeta, catalog.metadata.tableById table.tableId = some tableMeta) :
    Triple (Untouched catalog s₀)
      (scanTableRows table : Exec DatabaseError (Database σ) _)
      (fun tableRows db => (∀ tableRow ∈ tableRows, Executor.IsLive catalog.metadata heap table tableRow) ∧
        Untouched catalog s₀ db)
      (Untouched catalog s₀) := by
  apply ((onStorage_triple (scanRows_live hcarries table.tableId)).mapErr _).bind
  intro live db hdb
  exact decode_live hcarries htable hdb.2.1 db ⟨hdb.1, hdb.2.2⟩

/-- What a fetch returns is live, whatever the index it uses says. -/
lemma fetchTableRows_live (htable : ∃ tableMeta, catalog.metadata.tableById table.tableId = some tableMeta) :
    Triple (Untouched catalog s₀)
      (fetchTableRows filter table : Exec DatabaseError (Database σ) _)
      (fun tableRows db => (∀ tableRow ∈ tableRows, Executor.IsLive catalog.metadata heap table tableRow) ∧
        Untouched catalog s₀ db)
      (Untouched catalog s₀) := by
  unfold fetchTableRows
  split
  · next column value _ =>
    apply catalog_triple.bind_of
    intro catalog' hcatalog
    rw [hcatalog]
    apply ((onStorage_triple (IndexManager.searchIndexRowIds_reads _ _ _ _)).mapErr _).bind
    intro found
    cases found with
    | some ids =>
      simp only [getTableRows]
      apply ((onStorage_triple (getRows_live hcarries table.tableId ids)).mapErr _).bind
      intro live db hdb
      exact decode_live hcarries htable hdb.2.1 db ⟨hdb.1, hdb.2.2⟩
    | none => exact scanTableRows_live hcarries htable
  · exact scanTableRows_live hcarries htable

/-- A table that is read without a filter is scanned. -/
lemma executeFromClause_table {tableMeta : TableMetadata}
    (ht : catalog.metadata.tableById table.tableId = some tableMeta) :
    ∃ (live : List (RowId × Row)) (s' : σ), live.Nodup ∧
      (∀ e, e ∈ live ↔ heap table.tableId e.1 = some e.2) ∧ PageStore.pages s' = PageStore.pages s₀ ∧
      (executeFromClause (.table table) none).run ⟨catalog, s₀⟩ =
        .ok (live.map fun e => ⟨[⟨e.1, table.instanceId, Executor.decoded e.2 tableMeta.columns⟩]⟩)
          ⟨catalog, s'⟩ := by
  obtain ⟨live, s', hrun, hpages, hnodup, hmem⟩ := scanRows_ok hcarries ht
  refine ⟨live, s', hnodup, hmem, hpages, ?_⟩
  have hscan : (Engine.scanRows table.tableId : Exec TableError σ _).run s₀ = .ok live s' := hrun
  have hdecode : (Executor.decodeTableRows ⟨catalog.metadata⟩ table live :
      Exec ExecutorError (Database σ) _) = _ :=
    Executor.decodeTableRows_eq ⟨tableMeta, ht⟩ fun e he => hcarries.encoded _ _ _ ((hmem e).mp he)
  simp only [executeFromClause, executor, Executor.fromClause, fetchTableRows, indexPredicateForTable,
    Option.bind_none, scanTableRows, onStorage, Exec.run_bind, Exec.run_gets, Outcome.andThen_ok,
    Exec.run_mapErr, Exec.run_zoom, hscan, Outcome.mapState_ok, Outcome.mapErr_ok, hdecode, Exec.run_pure,
    Executor.shownRows, ht, List.map_map]
  rfl

/-- A FROM clause returns joined rows of live rows. -/
lemma fromClause_live (hfits : from_.Fits catalog.metadata) (hscope : Scope (collectTables from_)) :
    Triple (Untouched catalog s₀)
      (Executor.fromClause ⟨catalog.metadata⟩ DatabaseError.executor (fetchTableRows filter) from_ :
        Exec DatabaseError (Database σ) _)
      (fun rows db => (∀ row ∈ rows, List.Forall₂ (Executor.IsLive catalog.metadata heap) (collectTables from_)
        row.tableRows) ∧ Untouched catalog s₀ db)
      (Untouched catalog s₀) := by
  induction from_ with
  | table table =>
    rw [Executor.fromClause]
    apply (fetchTableRows_live hcarries hfits).bind_of
    intro tableRows hlive db hdb
    refine ⟨?_, hdb⟩
    intro row hrow
    obtain ⟨tableRow, hmem, rfl⟩ := List.mem_map.mp hrow
    exact .cons (hlive tableRow hmem) .nil
  | innerJoin left on right ihl ihr =>
    obtain ⟨hfitsL, hfitsR, dataType, hleft, hright⟩ := hfits
    rw [Executor.fromClause]
    apply (ihl hfitsL hscope.left).bind_of
    intro leftRows hl
    apply (ihr hfitsR hscope.swap.left).bind_of
    intro rightRows hr
    rw [Executor.hashJoin_joined hscope hleft hright
      (fun row hrow => (hl row hrow).imp fun _ _ h => h.1.1)
      (fun row hrow => (hr row hrow).imp fun _ _ h => h.1.1), Exec.mapErr_pure]
    intro db hdb
    refine ⟨?_, hdb⟩
    intro row hrow
    obtain ⟨leftRow, hleftRow, rightRow, hrightRow, -, rfl⟩ := Executor.mem_joined.mp hrow
    exact List.rel_append (hl leftRow hleftRow) (hr rightRow hrightRow)

lemma executeFromClause_live (hfits : from_.Fits catalog.metadata) (hscope : Scope (collectTables from_)) :
    Triple (Untouched catalog s₀)
      (executeFromClause from_ filter : Exec DatabaseError (Database σ) _)
      (fun rows db => (∀ row ∈ rows, List.Forall₂ (Executor.IsLive catalog.metadata heap) (collectTables from_)
        row.tableRows) ∧ Untouched catalog s₀ db)
      (Untouched catalog s₀) := by
  apply executor_triple.bind_of
  intro executor hexecutor
  rw [hexecutor]
  exact fromClause_live hcarries hfits hscope

end Reads

end Database

end RdbRs
