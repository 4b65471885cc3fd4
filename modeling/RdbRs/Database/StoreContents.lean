import RdbRs.Database.IndexPath
import RdbRs.Database.SparedIndexes

/-!
# The contents of a page store

A page store that carries the rows of a catalog keeps the laws of reading, of the trees that mirror their
tables. What a FROM clause reads from it when the indexes of its tables agree.
-/

namespace RdbRs

open Exec

section Contents

variable {σ : Type} [PageStore σ] [UnstableSort] {database : DatabaseMetadata} {catalog : Catalog}
  {heap : TableId → RowId → Option Row} {index : IndexMetadata} {s s₀ : σ} {ts : Set TableId}

/-- The tree is that of an index of the catalog that mirrors its table with these entries. -/
def MirrorsBy (database : DatabaseMetadata) (heap : TableId → RowId → Option Row) (s : σ) (tree : BTree)
    (m : Multiset (BTreeKey × RowId)) : Prop :=
  ∃ index ∈ database.indexes, ∃ on : IndexedColumn database index, on.tree = tree ∧
    on.tree.FindsEntries m s ∧ EntriesOf on.key (heap index.tableId) m

open Classical in
/-- The rows of the tables of the catalog, and the entries of the trees that mirror them. -/
noncomputable def storeContents (database : DatabaseMetadata) (heap : TableId → RowId → Option Row) (s : σ) :
    Contents where
  heap t := if (database.tableById t).isSome then some (heap t) else none
  entries tree := if h : ∃ m, MirrorsBy database heap s tree m then some h.choose else none

/-- A store with the same pages, and its contents. -/
def StoreShows (database : DatabaseMetadata) (heap : TableId → RowId → Option Row) (s₀ s : σ)
    (c : Contents) : Prop :=
  PagesAre (PageStore.pages s₀) s ∧ c = storeContents database heap s₀

omit [UnstableSort] in
lemma storeContents_heap {t : TableId} {tableMeta : TableMetadata} (ht : database.tableById t = some tableMeta) :
    (storeContents database heap s).heap t = some (heap t) := by
  rw [storeContents]
  simp only [ht, Option.isSome_some, if_true]

lemma storeContents_rows (hcarries : Carries database heap s) : (storeContents database heap s).rows = heap := by
  funext t
  cases ht : database.tableById t with
  | some tableMeta => exact Contents.rows_eq (storeContents_heap ht)
  | none =>
    rw [hcarries.rows_eq_none ht, Contents.rows, storeContents]
    simp [ht]

omit [UnstableSort] in
lemma storeContents_entries {tree : BTree} {m : Multiset (BTreeKey × RowId)}
    (h : (storeContents database heap s).entries tree = some m) : MirrorsBy database heap s tree m := by
  rw [storeContents] at h
  simp only at h
  split at h
  · next hex =>
    cases h
    exact hex.choose_spec
  · cases h

omit [UnstableSort] in
/-- An index that mirrors its table is tracked. -/
lemma storeContents_tracks (hindex : index ∈ database.indexes) (h : Mirrors database heap index s) :
    Tracks database (storeContents database heap s) index (heap index.tableId) := by
  obtain ⟨on, m, hfinds, hentries⟩ := h
  have hex : ∃ m, MirrorsBy database heap s on.tree m := ⟨m, index, hindex, on, rfl, hfinds, hentries⟩
  refine ⟨on, hex.choose, ?_, ?_⟩
  · rw [storeContents]
    simp only [dif_pos hex]
  · obtain ⟨index', hindex', on', htree, -, hentries'⟩ := hex.choose_spec
    have hid : index'.id = index.id :=
      RelationId.index.inj (show on'.tree.relationId = on.tree.relationId by rw [htree])
    obtain rfl := index_eq_of_id hindex hindex' hid
    obtain rfl := Subsingleton.elim on on'
    exact hentries'

/-! ### Laws -/

/-- A live row is read by its id. -/
lemma store_getRow_ok {t : TableId} {id : RowId} {row : Row} (hcarries : Carries catalog.metadata heap s)
    (hrow : heap t id = some row) : ∃ s', (TableManager.getRow t id).run s = .ok row s' ∧
      PagesAre (PageStore.pages s) s' := by
  obtain ⟨tableMeta, -, ht, -⟩ := hcarries.encoded t id row hrow
  obtain ⟨n, hshows⟩ := hcarries.shows_of_table ht
  obtain ⟨s', -, -, hget⟩ := hshows.get_eq id
  obtain ⟨ps, hps, -⟩ := hshows
  simp only [hrow] at hget
  have hrun : (TableManager.getRow t id : Exec TableError σ Row).run s = .ok row s' := by
    rw [TableManager.getRow, Exec.run_bind, TableManager.run_getOrOpenTable hps, Outcome.andThen_ok, hget]
  have hlive := Database.getRow_live hcarries t id s rfl
  rw [hrun] at hlive
  exact ⟨s', hrun, hlive.2⟩

omit [UnstableSort] in
lemma store_search_ok {tree : BTree} {m : Multiset (BTreeKey × RowId)} {k : BTreeKey}
    (hfinds : tree.FindsEntries m s) (hk : k.keyType = tree.keyType) :
    ∃ ids s', (tree.search k).run s = .ok ids s' ∧ PagesAre (PageStore.pages s) s' ∧
      (ids : Multiset RowId) = (m.filter fun e => e.1 = k).map Prod.snd := by
  have hrows := hfinds k hk
  have hreads := tree.search_reads k s rfl
  rw [BTree.searchRows] at hrows
  cases hrun : (tree.search k).run s with
  | ok ids s' =>
    rw [hrun] at hrows hreads
    exact ⟨ids, s', rfl, hreads, Option.some.inj hrows⟩
  | _ =>
    rw [hrun] at hrows
    cases hrows

lemma store_reads (hcarries : Carries catalog.metadata heap s₀) :
    ReadLaws (StoreShows catalog.metadata heap s₀) where
  scanRows_ok {s c t rows} := by
    rintro ⟨hs, rfl⟩ hheap
    cases ht : catalog.metadata.tableById t with
    | none =>
      rw [storeContents] at hheap
      simp [ht] at hheap
    | some tableMeta =>
      rw [storeContents_heap ht] at hheap
      cases hheap
      obtain ⟨live, s', hrun, hpages, hnodup, hmem⟩ := Database.scanRows_ok (hcarries.of_pages hs) ht
      exact ⟨live, s', hrun, ⟨hpages.trans hs, rfl⟩, hnodup, fun id row => hmem (id, row)⟩
  getRow_ok {s c t rows id row} := by
    rintro ⟨hs, rfl⟩ hheap hrow
    have hlive : heap t id = some row := by
      rw [← storeContents_rows hcarries, Contents.rows_eq hheap, hrow]
    obtain ⟨s', hrun, hpages⟩ := store_getRow_ok (hcarries.of_pages hs) hlive
    exact ⟨s', hrun, hpages.trans hs, rfl⟩
  registerRelation_ok {s c i tree m} := by
    rintro ⟨hs, rfl⟩ hentries hid
    obtain ⟨index, hindex, on, rfl, -, -⟩ := storeContents_entries hentries
    obtain ⟨on', hreach⟩ := (hcarries.of_pages hs).tree index hindex
    obtain rfl := Subsingleton.elim on on'
    obtain ⟨n, seq, ⟨ps, hps, -⟩, -⟩ := hreach.sound
    rw [hid] at hps
    exact ⟨s, run_registerRelation hps, hs, rfl⟩
  search_ok {s c tree m k} := by
    rintro ⟨hs, rfl⟩ hentries hk
    obtain ⟨index, hindex, on, rfl, hfinds, -⟩ := storeContents_entries hentries
    obtain ⟨on', hreach⟩ := hcarries.tree index hindex
    obtain rfl := Subsingleton.elim on on'
    have hsame : PageStore.pages s on.tree.relationId = PageStore.pages s₀ on.tree.relationId := by
      rw [show PageStore.pages s = PageStore.pages s₀ from hs]
    obtain ⟨ids, s', hrun, hpages, hids⟩ := store_search_ok (hfinds.keep (hreach.sound.searchesKeep hsame)) hk
    exact ⟨ids, s', hrun, ⟨hpages.trans hs, rfl⟩, hids⟩

/-- The indexes on some tables agree, so that these tables can be read through them. -/
lemma store_readable (hcarries : Carries database heap s)
    (hagree : ∀ index ∈ database.indexes, index.tableId ∈ ts → Mirrors database heap index s) :
    Readable database (storeContents database heap s) ts := by
  have hrows := storeContents_rows hcarries
  refine ⟨?_, ?_, ?_⟩
  · intro t tableMeta ht
    rw [hrows]
    exact storeContents_heap ht
  · rw [hrows]
    exact hcarries.encoded
  · intro index hindex hmem
    rw [hrows]
    exact storeContents_tracks hindex (hagree index hindex hmem)

/-- A statement whose tables have indexes that agree reads joined rows of what their fetches return. -/
lemma readsRows_joins {p : BoundFromClause × Option BoundExpression}
    (hcarries : Carries catalog.metadata heap s₀) (hfits : ReadsFit catalog.metadata p)
    (hagree : ∀ table ∈ collectTables p.1, ∀ index ∈ catalog.metadata.indexes,
      index.tableId = table.tableId → Mirrors catalog.metadata heap index s₀) :
    Database.ReadsRows catalog heap s₀ p.1 p.2
      (Database.IsJoin catalog.metadata (storeContents catalog.metadata heap s₀) p.2 p.1) := by
  have hrows := storeContents_rows hcarries
  have hreads : Readable catalog.metadata (storeContents catalog.metadata heap s₀)
      {t | ∃ table ∈ collectTables p.1, table.tableId = t} := by
    apply store_readable hcarries
    rintro index hindex ⟨table, hmem, ht⟩
    exact hagree table hmem index hindex ht.symm
  have hsucceeds := Database.executeFromClause_reads (store_reads hcarries) hreads
    (fun table hmem => ⟨table, hmem, rfl⟩) hfits.from_ hfits.scope hfits.filter
  rintro db ⟨hcatalog, hs⟩
  obtain ⟨rows, db', hrun, hjoin, hat⟩ := hsucceeds db ⟨hcatalog, hs, rfl⟩
  rw [hrun]
  refine ⟨⟨?_, hjoin⟩, hat.catalog, hat.shows.1⟩
  have hlive := hjoin.isLive hreads.encoded
  rwa [hrows] at hlive

end Contents

end RdbRs
