import RdbRs.Database.IndexSpec
import RdbRs.Database.StoreEngine
import RdbRs.Index.TreeSearches
import RdbRs.Lib.Changes

/-!
# What a page store carries

The heap files hold rows that were encoded for their tables, and the tree of every index is one that its
calls lead to. The calls of the table manager and of the index manager keep it so, also when they fail.
-/

namespace RdbRs

open Exec

/-! ### Carries -/

section Stores

variable {σ : Type} [PageStore σ] [UnstableSort] {database : DatabaseMetadata}
  {heap : TableId → RowId → Option Row} {index : IndexMetadata} {K : Set IndexId} {s s' s₀ : σ}
  {t : TableId} {id : RowId} {row : Row}

/-- The files of the tables hold the rows of the heap, and the trees of the indexes can be reached. -/
structure Carries (database : DatabaseMetadata) (heap : TableId → RowId → Option Row) (s : σ) : Prop where
  file (t : TableId) : (∃ n, (HeapTable.new t).Shows n (heap t) s) ∨
    PageStore.pages s (.heap t) = none ∧ database.tableById t = none
  encoded : Executor.HoldsEncoded database heap
  tree : ∀ index ∈ database.indexes, ∃ on : IndexedColumn database index, on.tree.Reachable s

/-- The files of the indexes of `K` are the same. -/
def SameTrees (K : Set IndexId) (s s' : σ) : Prop :=
  ∀ i ∈ K, PageStore.pages s' (.index i) = PageStore.pages s (.index i)

omit [UnstableSort] in
lemma sameTrees_of_pages (h : PageStore.pages s' = PageStore.pages s) : SameTrees K s s' := by
  intro i _
  rw [h]

omit [UnstableSort] in
lemma SameTrees.trans {s'' : σ} (h : SameTrees K s s') (h' : SameTrees K s' s'') : SameTrees K s s'' :=
  fun i hi => (h' i hi).trans (h i hi)

omit [UnstableSort] in
lemma HeapTable.Spares.sameTrees (h : (HeapTable.new t).Spares s s') : SameTrees K s s' := by
  intro i _
  apply h
  rintro ⟨⟩

/-- The store carries the heap, and the trees of `K` are those of `s₀`. -/
structure CarriesOver (K : Set IndexId) (s₀ : σ) (database : DatabaseMetadata)
    (heap : TableId → RowId → Option Row) (s : σ) : Prop where
  carries : Carries database heap s
  trees : SameTrees K s₀ s

namespace Carries

/-- A table with a file has its rows there. -/
lemma shows (h : Carries database heap s) (hfile : (PageStore.pages s (.heap t)).isSome) :
    ∃ n, (HeapTable.new t).Shows n (heap t) s := by
  cases h.file t with
  | inl hshows => exact hshows
  | inr hnone =>
    rw [hnone.1] at hfile
    cases hfile

/-- A table of the catalog has a file. -/
lemma shows_of_table (h : Carries database heap s) {tableMeta : TableMetadata}
    (ht : database.tableById t = some tableMeta) : ∃ n, (HeapTable.new t).Shows n (heap t) s := by
  cases h.file t with
  | inl hshows => exact hshows
  | inr hnone =>
    rw [hnone.2] at ht
    cases ht

/-- A table without a place in the catalog has no rows. -/
lemma rows_eq_none (h : Carries database heap s) (ht : database.tableById t = none) :
    heap t = fun _ => none := by
  funext id
  apply Option.eq_none_iff_forall_ne_some.mpr
  intro row hrow
  obtain ⟨tableMeta, _, htable, _⟩ := h.encoded t id row hrow
  rw [ht] at htable
  cases htable

lemma of_pages (h : Carries database heap s) (hpages : PageStore.pages s' = PageStore.pages s) :
    Carries database heap s' := by
  constructor
  · intro t
    cases h.file t with
    | inl hshows =>
      obtain ⟨n, hshows⟩ := hshows
      exact .inl ⟨n, hshows.of_eq hpages⟩
    | inr hnone => exact .inr (by rwa [hpages])
  · exact h.encoded
  · intro index hindex
    obtain ⟨on, hreach⟩ := h.tree index hindex
    exact ⟨on, hreach.elsewhere (by rw [hpages])⟩

/-- The rows of one table change. -/
lemma changeRows {rows' : RowId → Option Row} {n : Nat} (h : Carries database heap s)
    (hshows : (HeapTable.new t).Shows n rows' s') (hspares : (HeapTable.new t).Spares s s')
    (hencoded : ∀ id row, rows' id = some row → Executor.IsEncoded database t row) :
    Carries database (Function.update heap t rows') s' := by
  constructor
  · intro t'
    by_cases heq : t' = t
    · rw [heq, Function.update_self]
      exact .inl ⟨n, hshows⟩
    · have hsame : PageStore.pages s' (.heap t') = PageStore.pages s (.heap t') :=
        hspares _ fun hrel => heq (RelationId.heap.inj hrel)
      rw [Function.update_of_ne heq, hsame]
      apply (h.file t').imp_left
      rintro ⟨m, ps, hps, hrest⟩
      exact ⟨m, ps, hsame.trans hps, hrest⟩
  · intro t' id row hrow
    by_cases heq : t' = t
    · rw [heq, Function.update_self] at hrow
      rw [heq]
      exact hencoded id row hrow
    · rw [Function.update_of_ne heq] at hrow
      exact h.encoded t' id row hrow
  · intro index hindex
    obtain ⟨on, hreach⟩ := h.tree index hindex
    refine ⟨on, hreach.elsewhere (hspares _ ?_)⟩
    intro hrel
    cases hrel

/-- The pages of one index change. -/
lemma changeIndex {i : IndexId} (h : Carries database heap s)
    (hframe : ElsewhereAt (.index i) (PageStore.pages s) s')
    (htree : ∀ index ∈ database.indexes, index.id = i →
      ∃ on : IndexedColumn database index, on.tree.Reachable s') : Carries database heap s' := by
  constructor
  · intro t
    have hsame : PageStore.pages s' (.heap t) = PageStore.pages s (.heap t) := by
      apply hframe
      intro hrel
      cases hrel
    rw [hsame]
    apply (h.file t).imp_left
    rintro ⟨n, ps, hps, hrest⟩
    exact ⟨n, ps, hsame.trans hps, hrest⟩
  · exact h.encoded
  · intro index hindex
    by_cases heq : index.id = i
    · exact htree index hindex heq
    · obtain ⟨on, hreach⟩ := h.tree index hindex
      refine ⟨on, hreach.elsewhere (hframe _ ?_)⟩
      intro hrel
      exact heq (RelationId.index.inj hrel)

/-- A heap call leaves the rows it speaks of, or the rows as they were. -/
lemma of_keepsRows {α : Type} {x : Exec TableError σ α} {after : α → (RowId → Option Row) → Prop}
    (h : Carries database heap s) (hx : (HeapTable.new t).KeepsRows s (heap t) after (x.run s))
    (hencoded : ∀ a rows', after a rows' → ∀ id row, rows' id = some row →
      Executor.IsEncoded database t row) :
    Triple (· = s) x
      (fun a s' => ∃ rows', after a rows' ∧ CarriesOver K s database (Function.update heap t rows') s')
      (CarriesOver K s database heap) := by
  intro s₁ hs₁
  rw [hs₁]
  cases hrun : x.run s with
  | ok a s' =>
    rw [hrun] at hx
    obtain ⟨n, rows', ha, hshows, hspares⟩ := hx
    exact ⟨rows', ha, h.changeRows hshows hspares (hencoded a rows' ha), hspares.sameTrees⟩
  | err e s' =>
    rw [hrun] at hx
    obtain ⟨n, hshows, hspares⟩ := hx
    have h' := h.changeRows hshows hspares (h.encoded t)
    rw [Function.update_eq_self] at h'
    exact ⟨h', hspares.sameTrees⟩
  | panic => trivial
  | diverge => trivial

lemma encoded_update (h : Carries database heap s) {value : Option Row}
    (hvalue : ∀ row ∈ value, Executor.IsEncoded database t row) :
    ∀ id' row, Function.update (heap t) id value id' = some row → Executor.IsEncoded database t row := by
  intro id' row hrow
  by_cases heq : id' = id
  · rw [heq, Function.update_self] at hrow
    exact hvalue row hrow
  · rw [Function.update_of_ne heq] at hrow
    exact h.encoded _ _ _ hrow

end Carries

lemma CarriesOver.of_pages (h : CarriesOver K s₀ database heap s)
    (hpages : PageStore.pages s' = PageStore.pages s) : CarriesOver K s₀ database heap s' :=
  ⟨h.carries.of_pages hpages, h.trees.trans (sameTrees_of_pages hpages)⟩

/-- The tree of an index of `K` is searched as before. -/
lemma CarriesOver.searchesKeep (h : CarriesOver K s₀ database heap s) (hindex : index ∈ database.indexes)
    (hK : index.id ∈ K) (on : IndexedColumn database index) : on.tree.SearchesKeep s₀ s := by
  obtain ⟨on', hreach⟩ := h.carries.tree index hindex
  obtain rfl := Subsingleton.elim on on'
  have hback : on.tree.SearchesKeep s s₀ := hreach.sound.searchesKeep (h.trees _ hK).symm
  exact fun j => (hback j).symm

/-- Reads keep what the store carries. -/
lemma keeps_of_reads {ε α : Type} {x : Exec ε σ α} (hx : ∀ {contents}, Keeps (PagesAre contents) x) :
    Keeps (CarriesOver K s₀ database heap) x := by
  intro s hs
  have hrun := hx s rfl
  revert hrun
  cases x.run s with
  | ok a s' => exact fun hpages => hs.of_pages hpages
  | err e s' => exact fun hpages => hs.of_pages hpages
  | panic => exact fun _ => trivial
  | diverge => exact fun _ => trivial

/-! ### Calls on tables -/

namespace TableManager

/-- A call on a heap table through the table manager. -/
lemma onTable_carries {α : Type} {call : HeapTable → Exec TableError σ α}
    {after : α → (RowId → Option Row) → Prop}
    (hcall : ∀ s n, (HeapTable.new t).Shows n (heap t) s →
      (HeapTable.new t).KeepsRows s (heap t) after ((call (HeapTable.new t)).run s))
    (hencoded : ∀ (s : σ), Carries database heap s → ∀ a rows', after a rows' → ∀ id row,
      rows' id = some row → Executor.IsEncoded database t row) :
    Triple (CarriesOver K s₀ database heap) (getOrOpenTable t >>= call)
      (fun a s => ∃ rows', after a rows' ∧ CarriesOver K s₀ database (Function.update heap t rows') s)
      (CarriesOver K s₀ database heap) := by
  intro s hs
  have hopen : Triple (PagesAre (PageStore.pages s)) (getOrOpenTable t >>= call)
      (fun a s => ∃ rows', after a rows' ∧ CarriesOver K s₀ database (Function.update heap t rows') s)
      (CarriesOver K s₀ database heap) := by
    apply onTable_triple fun s' hs' => hs.of_pages hs'
    intro hfile s' hs'
    obtain ⟨hcarries, hsame⟩ := hs.of_pages hs'
    rw [← show PageStore.pages s' = PageStore.pages s from hs'] at hfile
    obtain ⟨n, hshows⟩ := hcarries.shows hfile
    apply (hcarries.of_keepsRows (K := K) (hcall s' n hshows) (hencoded s' hcarries)).imp (fun _ hs => hs)
      _ _ s' rfl
    · rintro a s'' ⟨rows', ha, hcarries', hsame'⟩
      exact ⟨rows', ha, hcarries', hsame.trans hsame'⟩
    · rintro s'' ⟨hcarries', hsame'⟩
      exact ⟨hcarries', hsame.trans hsame'⟩
  exact hopen s rfl

lemma insertRow_triple (hrow : Executor.IsEncoded database t row) :
    Triple (CarriesOver K s₀ database heap) (insertRow t row : Exec TableError σ RowId)
      (fun id s => heap t id = none ∧ CarriesOver K s₀ database (setAt heap t id (some row)) s)
      (CarriesOver K s₀ database heap) := by
  apply (onTable_carries (fun _ _ hshows => hshows.insert_keepsRows row) _).imp (fun _ hs => hs) _
    fun _ hs => hs
  · rintro s hs id rows' ⟨-, rfl⟩
    apply hs.encoded_update
    rintro row' ⟨⟩
    exact hrow
  · rintro id s ⟨rows', ⟨hnone, rfl⟩, hs⟩
    exact ⟨hnone, hs⟩

/-- A change of the row in a slot. -/
lemma changeRow_triple {call : HeapTable → Exec TableError σ Unit} {pageCall : PageM Unit}
    {value : Option Row} (hpage : ChangesRow pageCall id.slotId value)
    (hcall : call (HeapTable.new t) = (HeapTable.new t).changeRow id.pageId pageCall)
    (hvalue : ∀ row ∈ value, Executor.IsEncoded database t row) :
    Triple (CarriesOver K s₀ database heap) (getOrOpenTable t >>= call)
      (fun _ => CarriesOver K s₀ database (setAt heap t id value)) (CarriesOver K s₀ database heap) := by
  have hkeeps : ∀ (s : σ) n, (HeapTable.new t).Shows n (heap t) s →
      (HeapTable.new t).KeepsRows s (heap t)
        (fun _ rows' => heap t id ≠ none ∧ rows' = Function.update (heap t) id value)
        ((call (HeapTable.new t)).run s) := by
    intro s n hshows
    rw [hcall]
    exact hshows.changeRow_keepsRows hpage
  apply (onTable_carries hkeeps _).imp (fun _ hs => hs) _ fun _ hs => hs
  · rintro s hs _ rows' ⟨-, rfl⟩
    exact hs.encoded_update hvalue
  · rintro _ s ⟨rows', ⟨-, rfl⟩, hs⟩
    exact hs

lemma updateRow_triple (hrow : Executor.IsEncoded database t row) :
    Triple (CarriesOver K s₀ database heap) (updateRow t id row : Exec TableError σ Unit)
      (fun _ => CarriesOver K s₀ database (setAt heap t id (some row)))
      (CarriesOver K s₀ database heap) := by
  apply changeRow_triple (updateRow_changesRow id.slotId row) rfl
  rintro row' ⟨⟩
  exact hrow

lemma deleteRow_triple :
    Triple (CarriesOver K s₀ database heap) (deleteRow t id : Exec TableError σ Unit)
      (fun _ => CarriesOver K s₀ database (setAt heap t id none)) (CarriesOver K s₀ database heap) := by
  apply changeRow_triple (deleteRow_changesRow id.slotId) rfl
  rintro row' ⟨⟩

end TableManager

/-! ### Calls on trees -/

omit [UnstableSort] in
lemma index_eq_of_id (hindex : index ∈ database.indexes) {index' : IndexMetadata}
    (hindex' : index' ∈ database.indexes) (h : index'.id = index.id) : index' = index :=
  List.inj_on_of_nodup_map database.consistent.indexIds hindex' hindex h

/-- A call that changes the pages of one index, to those of a tree that can be reached. -/
lemma onIndex_keeps {ε α : Type} {x : Exec ε σ α} {i : IndexId} (hK : i ∉ K)
    (hframe : ∀ contents, Keeps (ElsewhereAt (.index i) contents) x)
    (htree : ∀ s s', Carries database heap s → (x.run s).Returns s' → ∀ index ∈ database.indexes,
      index.id = i → ∃ on : IndexedColumn database index, on.tree.Reachable s') :
    Keeps (CarriesOver K s₀ database heap) x := by
  intro s hs
  have hcarries : ∀ s', (x.run s).Returns s' → CarriesOver K s₀ database heap s' := by
    intro s' hreturns
    have helsewhere := (hframe (PageStore.pages s)).of_returns (fun _ _ => rfl) hreturns
    refine ⟨hs.carries.changeIndex helsewhere (htree s s' hs.carries hreturns), hs.trees.trans ?_⟩
    intro j hj
    apply helsewhere
    intro hrel
    exact hK (RelationId.index.inj hrel ▸ hj)
  cases hrun : x.run s with
  | ok a s' => exact hcarries s' (.inl ⟨a, hrun⟩)
  | err e s' => exact hcarries s' (.inr ⟨e, hrun⟩)
  | panic => trivial
  | diverge => trivial

/-- A call on the tree of an index. -/
lemma onTree_keeps {α : Type} {x : Exec BTreeError σ α} (hindex : index ∈ database.indexes)
    (hK : index.id ∉ K) (on : IndexedColumn database index)
    (hframe : ∀ contents, Keeps (ElsewhereAt on.tree.relationId contents) x)
    (hreach : ∀ s s', on.tree.Reachable s → (x.run s).Returns s' → on.tree.Reachable s') :
    Keeps (CarriesOver K s₀ database heap) x := by
  apply onIndex_keeps hK hframe
  intro s s' hs hreturns index' hindex' hid
  obtain rfl := index_eq_of_id hindex hindex' hid
  obtain ⟨on', hreach'⟩ := hs.tree _ hindex'
  obtain rfl := Subsingleton.elim on' on
  exact ⟨on', hreach s s' hreach' hreturns⟩

namespace IndexManager

variable {catalog : Catalog} {v : Value}

/-- The tree that is opened for a value of the column is the tree of the index. -/
lemma openIndexBtree_triple {P : σ → Prop} {on : IndexedColumn database index} {k : BTreeKey}
    (htype : v.HasType on.column.dataType) (hk : valueToBtreeKey v = some k)
    (hregister : Keeps P (PageStore.registerRelation (.index index.id) : Exec StorageError σ Unit)) :
    Triple P (openIndexBtree index.id index.rootPageId k.keyType) (fun tree s => tree = on.tree ∧ P s) P := by
  apply (Triple.mapErr hregister _).bind
  intro _ s hs
  exact ⟨IndexedColumn.tree_eq htype hk, hs⟩

lemma insertEntry_keeps (id : RowId) (hindex : index ∈ database.indexes) (hK : index.id ∉ K)
    (on : IndexedColumn database index) (htype : v.HasType on.column.dataType) :
    Keeps (CarriesOver K s₀ database heap) (insertEntry index v id : Exec IndexError σ Unit) := by
  unfold insertEntry
  split
  · next k hk =>
    apply (openIndexBtree_triple htype hk (keeps_of_reads (keeps_registerRelation _))).bind_of
    rintro tree rfl
    apply Keeps.mapErr
    apply onTree_keeps hindex hK on
    · exact fun contents => (on.tree.elsewhereRules contents).insert k id
    · exact fun s s' hreach hreturns => hreach.insert hreturns
  · exact keeps_pure

/-- The tree of the index is searched as before for a value without a key, and gains the entry of another
one. -/
def Gained (on : IndexedColumn database index) (id : RowId) (key : Option BTreeKey) (s₀ s : σ) : Prop :=
  key = none ∧ on.tree.SearchesKeep s₀ s ∨ ∃ k, key = some k ∧ on.tree.SearchesGain k id s₀ s

/-- The tree of the index gains the entry of the value. It is searched as before when the insertion fails. -/
lemma insertEntry_ends (id : RowId) (on : IndexedColumn database index)
    (htype : v.HasType on.column.dataType) (hreach : on.tree.Reachable s) : Ends (PagesAre (PageStore.pages s))
      (insertEntry index v id : Exec IndexError σ Unit)
      (fun _ s' => Gained on id (valueToBtreeKey v) s s')
      fun _ s' => ∃ k, valueToBtreeKey v = some k ∧ on.tree.SearchesKeep s s' := by
  have hkeep : ∀ s', PagesAre (PageStore.pages s) s' → on.tree.SearchesKeep s s' :=
    fun s' hs' => hreach.sound.searchesKeep (by rw [show PageStore.pages s' = _ from hs'])
  unfold insertEntry
  split
  · next k hk =>
    have hopen : Ends (PagesAre (PageStore.pages s)) (openIndexBtree index.id index.rootPageId k.keyType :
        Exec IndexError σ BTree) (fun tree s' => tree = on.tree ∧ PagesAre (PageStore.pages s) s')
        fun _ s' => ∃ k, valueToBtreeKey v = some k ∧ on.tree.SearchesKeep s s' :=
      (openIndexBtree_triple htype hk (keeps_registerRelation _)).ends fun _ s' hs' =>
        ⟨k, hk, hkeep s' hs'⟩
    apply hopen.bind_of
    rintro tree rfl s₁ hs₁
    have hreach₁ : on.tree.Reachable s₁ :=
      hreach.elsewhere (by rw [show PageStore.pages s₁ = _ from hs₁])
    rw [Exec.run_mapErr]
    cases hrun : (Engine.insert on.tree k id).run s₁ with
    | ok a s' => exact .inr ⟨k, hk, (hkeep s₁ hs₁).gain (hreach₁.searchesGain hrun)⟩
    | err e s' => exact ⟨k, hk, (hkeep s₁ hs₁).trans (hreach₁.searchesKeep hrun)⟩
    | panic => trivial
    | diverge => trivial
  · next hnone => exact fun s' hs' => .inl ⟨hnone, hkeep s' hs'⟩

section Opened

variable {on : IndexedColumn database index} {k : BTreeKey} (htype : v.HasType on.column.dataType)
  (hk : valueToBtreeKey v = some k) (hsound : on.tree.Sound s)

include htype hk hsound

lemma run_openIndexBtree :
    (openIndexBtree index.id index.rootPageId k.keyType : Exec IndexError σ BTree).run s = .ok on.tree s := by
  obtain ⟨n, seq, ⟨ps, hps, -⟩, -⟩ := hsound
  rw [← IndexedColumn.tree_eq htype hk, openIndexBtree, Exec.run_bind, Exec.run_mapErr]
  exact congrArg (fun o => (Outcome.mapErr IndexError.storage o).andThen _) (run_registerRelation hps)

lemma run_insertEntry : (insertEntry index v id : Exec IndexError σ Unit).run s =
    ((on.tree.insert k id).run s).mapErr .btree := by
  simp only [insertEntry, hk, Exec.run_bind, run_openIndexBtree htype hk hsound, Outcome.andThen_ok,
    Exec.run_mapErr]
  rfl

lemma run_deleteEntry : (deleteEntry index v id : Exec IndexError σ Unit).run s =
    (((on.tree.delete k id).run s).mapErr .btree).andThen fun deleted s' =>
      if deleted then .ok () s' else .err (.entryNotFound index.id id) s' := by
  simp only [deleteEntry, hk, Exec.run_bind, run_openIndexBtree htype hk hsound, Outcome.andThen_ok,
    Exec.run_mapErr]
  congr 1
  funext deleted s'
  cases deleted <;> rfl

/-- A key that is too long for a leaf gets no entry. -/
lemma insertEntry_longKey (id : RowId) (hlong : pageSize < k.toBytes.length + 26) :
    ∃ e s', (on.tree.insert k id).run s = .err e s' ∧
      (insertEntry index v id : Exec IndexError σ Unit).run s = .err (.btree e) s' := by
  obtain ⟨e, s', hrun⟩ := hsound.insert_longKey (r := id) (keyType_of_hasType htype hk on.keyType_eq) hlong
  refine ⟨e, s', hrun, ?_⟩
  rw [run_insertEntry htype hk hsound, hrun]
  rfl

end Opened

lemma deleteEntry_keeps (id : RowId) (hindex : index ∈ database.indexes) (hK : index.id ∉ K)
    (on : IndexedColumn database index) (htype : v.HasType on.column.dataType) :
    Keeps (CarriesOver K s₀ database heap) (deleteEntry index v id : Exec IndexError σ Unit) := by
  unfold deleteEntry
  split
  · next k hk =>
    apply (openIndexBtree_triple htype hk (keeps_of_reads (keeps_registerRelation _))).bind_of
    rintro tree rfl
    have hdelete : Keeps (CarriesOver K s₀ database heap)
        (Engine.delete on.tree k id : Exec BTreeError σ Bool) := by
      apply onTree_keeps hindex hK on
      · exact fun contents => (on.tree.elsewhereRules contents).delete k id
      · exact fun s s' hreach hreturns => hreach.delete hreturns
    apply Keeps.bind (hdelete.mapErr _)
    intro deleted
    exact keeps_pure.ite keeps_throw
  · exact keeps_pure

/-! ### Trees of one leaf -/

section OneLeaf

variable {on : IndexedColumn database index} {k : BTreeKey} {es : List LeafEntry} {next : Option PageId}
  (hindex : index ∈ database.indexes) (hK : index.id ∉ K) (htype : v.HasType on.column.dataType)
  (hk : valueToBtreeKey v = some k) (hs : CarriesOver K s₀ database heap s)
  (hroot : on.tree.nodesAt s on.tree.rootPageId = .leaf ⟨es, next⟩)

include hindex hK htype hk hs hroot

lemma deleteEntry_root (hmem : ⟨k, id⟩ ∈ es) : ∃ s',
    (deleteEntry index v id : Exec IndexError σ Unit).run s = .ok () s' ∧ CarriesOver K s₀ database heap s' ∧
      on.tree.nodesAt s' on.tree.rootPageId = .leaf ⟨es.erase ⟨k, id⟩, none⟩ := by
  obtain ⟨on', hreach⟩ := hs.carries.tree index hindex
  obtain rfl := Subsingleton.elim on on'
  obtain ⟨s', hdelete, hnodes⟩ :=
    hreach.sound.delete_root (keyType_of_hasType htype hk on.keyType_eq) hroot hmem
  have hentry : (deleteEntry index v id : Exec IndexError σ Unit).run s = .ok () s' := by
    rw [run_deleteEntry htype hk hreach.sound, hdelete]
    rfl
  have hs' := deleteEntry_keeps id hindex hK on htype s hs
  rw [hentry] at hs'
  exact ⟨s', hentry, hs', hnodes⟩

lemma deleteEntry_root_absent (hmem : ⟨k, id⟩ ∉ es) : ∃ s',
    (deleteEntry index v id : Exec IndexError σ Unit).run s = .err (.entryNotFound index.id id) s' ∧
      CarriesOver K s₀ database heap s' := by
  obtain ⟨on', hreach⟩ := hs.carries.tree index hindex
  obtain rfl := Subsingleton.elim on on'
  obtain ⟨s', hdelete⟩ :=
    hreach.sound.delete_root_absent (keyType_of_hasType htype hk on.keyType_eq) hroot hmem
  have hentry : (deleteEntry index v id : Exec IndexError σ Unit).run s =
      .err (.entryNotFound index.id id) s' := by
    rw [run_deleteEntry htype hk hreach.sound, hdelete]
    rfl
  have hs' := deleteEntry_keeps id hindex hK on htype s hs
  rw [hentry] at hs'
  exact ⟨s', hentry, hs'⟩

/-- An entry is lost when the one that is to take its place has a key that is too long for a leaf. -/
lemma replaceEntry_longKey {v' : Value} {k' : BTreeKey} (hmem : ⟨k, id⟩ ∈ es)
    (htype' : v'.HasType on.column.dataType) (hk' : valueToBtreeKey v' = some k')
    (hlong : pageSize < k'.toBytes.length + 26) : ∃ e s',
      (deleteEntry index v id >>= fun _ => insertEntry index v' id : Exec IndexError σ Unit).run s = .err e s' ∧
        CarriesOver K s₀ database heap s' ∧
        on.tree.nodesAt s' on.tree.rootPageId = .leaf ⟨es.erase ⟨k, id⟩, none⟩ := by
  obtain ⟨s₁, hentry, hs₁, hnodes⟩ := deleteEntry_root hindex hK htype hk hs hroot hmem
  obtain ⟨on', hreach⟩ := hs₁.carries.tree index hindex
  obtain rfl := Subsingleton.elim on on'
  obtain ⟨e, s', hinsert, hentry'⟩ := insertEntry_longKey htype' hk' hreach.sound id hlong
  have hs' := insertEntry_keeps id hindex hK on htype' s₁ hs₁
  rw [hentry'] at hs'
  refine ⟨.btree e, s', ?_, hs', ?_⟩
  · rw [Exec.run_bind, hentry, Outcome.andThen_ok, hentry']
  · rw [hreach.sound.nodesAt_of_err hinsert, hnodes]

end OneLeaf

section Rounds

variable {row' : Row} {values newValues : List Value} {tableMeta : TableMetadata}

/-- A round of an insertion inserts the value of the row. -/
lemma insertIndex_eq (id : RowId) (on : IndexedColumn catalog.metadata index)
    (hencodes : Encodes catalog.metadata index.tableId values row) :
    ∃ v, on.value row = some v ∧ v.HasType on.column.dataType ∧
      (insertIndex catalog index.tableId id values index : Exec IndexError σ Unit) =
        insertEntry index v id := by
  obtain ⟨v, hget, hv, htype⟩ := hencodes.value_eq on
  refine ⟨v, hv, htype, ?_⟩
  rw [insertIndex, indexColumnPosition_eq on, Exec.liftExcept_ok, Exec.mapErr_pure, Exec.pure_bind,
    Exec.index_eq hget, Exec.pure_bind]

lemma deleteIndex_keeps (hindex : index ∈ catalog.metadata.indexes) (hK : index.id ∉ K)
    (on : IndexedColumn catalog.metadata index)
    (hencodes : Encodes catalog.metadata index.tableId values row) :
    Keeps (CarriesOver K s₀ catalog.metadata heap)
      (deleteIndex catalog index.tableId id values index : Exec IndexError σ Unit) := by
  obtain ⟨v, hget, -, htype⟩ := hencodes.value_eq on
  rw [deleteIndex, indexColumnPosition_eq on, Exec.liftExcept_ok, Exec.mapErr_pure, Exec.pure_bind,
    Exec.index_eq hget, Exec.pure_bind]
  exact deleteEntry_keeps id hindex hK on htype

/-- A round of an update leaves a tree of `K` alone, where the value stays. -/
lemma updateIndex_keeps (hindex : index ∈ catalog.metadata.indexes)
    (on : IndexedColumn catalog.metadata index)
    (hK : index.id ∈ K → newValues[on.position]? = values[on.position]?)
    (hold : Encodes catalog.metadata index.tableId values row)
    (hnew : Encodes catalog.metadata index.tableId newValues row') :
    Keeps (CarriesOver K s₀ catalog.metadata heap)
      (updateIndex catalog index.tableId id values newValues index : Exec IndexError σ Unit) := by
  obtain ⟨v, hget, -, htype⟩ := hold.value_eq on
  obtain ⟨v', hget', -, htype'⟩ := hnew.value_eq on
  rw [updateIndex, indexColumnPosition_eq on, Exec.liftExcept_ok, Exec.mapErr_pure, Exec.pure_bind,
    Exec.index_eq hget, Exec.pure_bind, Exec.index_eq hget', Exec.pure_bind]
  by_cases hne : v ≠ v'
  · rw [if_pos hne]
    have hspared : index.id ∉ K := by
      intro hid
      have hsame := hK hid
      rw [hget, hget'] at hsame
      exact hne (Option.some.inj hsame).symm
    apply Keeps.bind (deleteEntry_keeps id hindex hspared on htype)
    intro _
    exact insertEntry_keeps id hindex hspared on htype'
  · rw [if_neg hne]
    exact keeps_pure

omit [PageStore σ] [UnstableSort] in
/-- The rounds for the indexes of a table. -/
lemma indexes_eq {f : IndexMetadata → Exec IndexError σ PUnit}
    (htable : catalog.metadata.tableById t = some tableMeta) :
    (Exec.mapErr .catalog (Exec.liftExcept (catalog.indexTable t)) >>= fun table =>
      (indexesOf catalog table).forM f) = (indexesOf catalog tableMeta).forM f := by
  have hindexTable : catalog.indexTable t = .ok tableMeta := by rw [Catalog.indexTable, htable]
  rw [hindexTable, Exec.liftExcept_ok, Exec.mapErr_pure, Exec.pure_bind]

omit [UnstableSort] in
lemma mem_indexesOf (htable : catalog.metadata.tableById t = some tableMeta) :
    index ∈ indexesOf catalog tableMeta ↔ index ∈ catalog.metadata.indexes ∧ index.tableId = t := by
  rw [indexesOf, List.mem_filter, Binder.tableById_id htable, decide_eq_true_iff]

/-- A round may rely on the column of its index. -/
lemma indexes_keeps {f : IndexMetadata → Exec IndexError σ PUnit}
    (htable : catalog.metadata.tableById t = some tableMeta)
    (hround : ∀ index ∈ catalog.metadata.indexes, index.tableId = t →
      ∀ _ : IndexedColumn catalog.metadata index, Keeps (CarriesOver K s₀ catalog.metadata heap) (f index)) :
    Keeps (CarriesOver K s₀ catalog.metadata heap) ((indexesOf catalog tableMeta).forM f) := by
  apply keeps_forM
  intro index hmem s hs
  obtain ⟨hindex, hid⟩ := (mem_indexesOf htable).mp hmem
  obtain ⟨on, -⟩ := hs.carries.tree index hindex
  exact hround index hindex hid on s hs

/-- Each index of the table has gained the entry of the row. -/
def AllGained (database : DatabaseMetadata) (t : TableId) (id : RowId) (row : Row) (s₀ s : σ) : Prop :=
  ∀ index ∈ database.indexes, index.tableId = t → ∀ on : IndexedColumn database index,
    Gained on id (on.key row) s₀ s

/-- Each index of the table is searched as before, or has gained the entry of the row. -/
def Gains (database : DatabaseMetadata) (t : TableId) (id : RowId) (row : Row) (s₀ s : σ) : Prop :=
  ∀ index ∈ database.indexes, index.tableId = t → ∀ on : IndexedColumn database index,
    on.tree.SearchesKeep s₀ s ∨ Gained on id (on.key row) s₀ s

/-- An index of the table has not gained the entry of the row. -/
def Misses (database : DatabaseMetadata) (t : TableId) (row : Row) (s₀ s : σ) : Prop :=
  ∃ index ∈ database.indexes, index.tableId = t ∧ ∃ (on : IndexedColumn database index) (k : BTreeKey),
    k.keyType = on.keyType ∧ on.key row = some k ∧ on.tree.SearchesKeep s₀ s

omit [UnstableSort] in
lemma Gained.keep {on : IndexedColumn database index} {key : Option BTreeKey} (h : Gained on id key s₀ s)
    (hkeep : on.tree.SearchesKeep s s') : Gained on id key s₀ s' := by
  rcases h with ⟨hnone, hsame⟩ | ⟨k, hk, hgain⟩
  · exact .inl ⟨hnone, hsame.trans hkeep⟩
  · exact .inr ⟨k, hk, hgain.keep hkeep⟩

omit [UnstableSort] in
lemma Gained.after {on : IndexedColumn database index} {key : Option BTreeKey} (h : Gained on id key s s')
    (hkeep : on.tree.SearchesKeep s₀ s) : Gained on id key s₀ s' := by
  rcases h with ⟨hnone, hsame⟩ | ⟨k, hk, hgain⟩
  · exact .inl ⟨hnone, hkeep.trans hsame⟩
  · exact .inr ⟨k, hk, hkeep.gain hgain⟩

/-- The trees of `K`, and of the indexes whose rounds are still to come. -/
def withPending (K : Set IndexId) (l : List IndexMetadata) : Set IndexId :=
  K ∪ {i | i ∈ l.map fun index => index.id}

/-- The indexes of the table whose rounds are done have gained the entry of the row. -/
def GainedBut (l : List IndexMetadata) (database : DatabaseMetadata) (t : TableId) (id : RowId) (row : Row)
    (s₀ s : σ) : Prop :=
  ∀ index ∈ database.indexes, index.tableId = t → index ∉ l → ∀ on : IndexedColumn database index,
    Gained on id (on.key row) s₀ s

/-- A round changes one index. -/
lemma GainedBut.round {rest : List IndexMetadata} (h : GainedBut (index :: rest) database t id row s₀ s)
    (hcarries : CarriesOver {i | i ≠ index.id} s database heap s') (hindex : index ∈ database.indexes)
    (hround : ∀ on : IndexedColumn database index, Gained on id (on.key row) s₀ s') :
    GainedBut rest database t id row s₀ s' := by
  intro index' hindex' ht hrest on
  by_cases hid : index'.id = index.id
  · obtain rfl := index_eq_of_id hindex hindex' hid
    exact hround on
  · apply (h index' hindex' ht _ on).keep (hcarries.searchesKeep hindex' hid on)
    rw [List.mem_cons, not_or]
    exact ⟨fun heq => hid (by rw [heq]), hrest⟩

/-- The indexes whose rounds are still to come are searched as before. -/
lemma GainedBut.gains {l : List IndexMetadata} (h : GainedBut l database t id row s₀ s)
    (hcarries : CarriesOver (withPending K l) s₀ database heap s) : Gains database t id row s₀ s := by
  intro index hindex ht on
  by_cases hmem : index ∈ l
  · exact .inl (hcarries.searchesKeep hindex (.inr (List.mem_map_of_mem hmem)) on)
  · exact .inr (h index hindex ht hmem on)

/-- An insertion into the indexes of a table adds the entry of the row to all of them. One that stops with
an error has missed an entry. -/
lemma insertRow_ends (hencodes : Encodes catalog.metadata t values row)
    (hK : ∀ index ∈ catalog.metadata.indexes, index.tableId = t → index.id ∉ K) :
    Ends (CarriesOver Set.univ s₀ catalog.metadata heap)
      (insertRow catalog t id values : Exec IndexError σ Unit)
      (fun _ s => CarriesOver K s₀ catalog.metadata heap s ∧ AllGained catalog.metadata t id row s₀ s)
      fun _ s => CarriesOver K s₀ catalog.metadata heap s ∧ Gains catalog.metadata t id row s₀ s ∧
        Misses catalog.metadata t row s₀ s := by
  obtain ⟨tableMeta, htable⟩ := hencodes.table
  have hnodup : ((indexesOf catalog tableMeta).map fun index => index.id).Nodup :=
    catalog.metadata.consistent.indexIds.sublist (List.filter_sublist.map _)
  rw [insertRow, indexes_eq htable]
  apply (ends_forM (f := insertIndex catalog t id values) (l := indexesOf catalog tableMeta)
    (F := fun _ s => CarriesOver K s₀ catalog.metadata heap s ∧ Gains catalog.metadata t id row s₀ s ∧
      Misses catalog.metadata t row s₀ s)
    (I := fun l s => CarriesOver (withPending K l) s₀ catalog.metadata heap s ∧
      GainedBut l catalog.metadata t id row s₀ s) _).imp
  · intro s hs
    refine ⟨⟨hs.carries, fun i _ => hs.trees i (Set.mem_univ i)⟩, ?_⟩
    intro index hindex ht hdone
    exact absurd ((mem_indexesOf htable).mpr ⟨hindex, ht⟩) hdone
  · rintro _ s ⟨hs, hgained⟩
    exact ⟨⟨hs.carries, fun i hi => hs.trees i (.inl hi)⟩,
      fun index hindex ht => hgained index hindex ht List.not_mem_nil⟩
  · exact fun _ _ hs => hs
  intro index rest hsuffix s hs
  obtain ⟨hs, hgained⟩ := hs
  obtain ⟨hindex, rfl⟩ := (mem_indexesOf htable).mp (hsuffix.subset List.mem_cons_self)
  obtain ⟨on, hreach⟩ := hs.carries.tree index hindex
  obtain ⟨v, hv, htype, heq⟩ := insertIndex_eq (σ := σ) id on hencodes
  have hlater : index.id ∉ withPending K rest := by
    rintro (hid | hid)
    · exact hK index hindex rfl hid
    · exact (List.nodup_cons.mp (hnodup.sublist (hsuffix.sublist.map _))).1 hid
  have hrest : CarriesOver (withPending K rest) s₀ catalog.metadata heap s := by
    refine ⟨hs.carries, fun i hi => hs.trees i (hi.imp_right fun hi => ?_)⟩
    exact List.mem_cons_of_mem _ hi
  have hstart : on.tree.SearchesKeep s₀ s := hs.searchesKeep hindex (.inr List.mem_cons_self) on
  have hkeeps := insertEntry_keeps id hindex hlater on htype s hrest
  have hself : index.id ∉ {i | i ≠ index.id} := not_not.mpr rfl
  have hwhole : CarriesOver {i | i ≠ index.id} s catalog.metadata heap s := ⟨hs.carries, fun _ _ => rfl⟩
  have hothers := insertEntry_keeps id hindex hself on htype s hwhole
  have hends := insertEntry_ends id on htype hreach s rfl
  have hkey : on.key row = valueToBtreeKey v := IndexedColumn.key_eq hv
  rw [heq]
  cases hrun : (insertEntry index v id : Exec IndexError σ Unit).run s with
  | ok a s' =>
    rw [hrun] at hkeeps hothers hends
    refine ⟨hkeeps, hgained.round hothers hindex fun on' => ?_⟩
    obtain rfl := Subsingleton.elim on on'
    rw [hkey]
    exact hends.after hstart
  | err e s' =>
    rw [hrun] at hkeeps hothers hends
    obtain ⟨k, hk, hkeep⟩ := hends
    have hsame : on.tree.SearchesKeep s₀ s' := hstart.trans hkeep
    refine ⟨⟨hkeeps.carries, fun i hi => hkeeps.trees i (.inl hi)⟩, ?_, index, hindex, rfl, on, k,
      keyType_of_hasType htype hk on.keyType_eq, hkey.trans hk, hsame⟩
    intro index' hindex' ht on'
    by_cases hid : index'.id = index.id
    · obtain rfl := index_eq_of_id hindex hindex' hid
      obtain rfl := Subsingleton.elim on on'
      exact .inl hsame
    · have hkeep' := hothers.searchesKeep hindex' hid on'
      apply (hgained.gains hs index' hindex' ht on').imp
      · exact fun hkeep => hkeep.trans hkeep'
      · exact fun hgain => hgain.keep hkeep'
  | panic => trivial
  | diverge => trivial

lemma deleteRow_keeps (hencodes : Encodes catalog.metadata t values row)
    (hK : ∀ index ∈ catalog.metadata.indexes, index.tableId = t → index.id ∉ K) :
    Keeps (CarriesOver K s₀ catalog.metadata heap)
      (deleteRow catalog t id values : Exec IndexError σ Unit) := by
  obtain ⟨tableMeta, htable⟩ := hencodes.table
  rw [deleteRow, indexes_eq htable]
  apply indexes_keeps htable
  rintro index hindex rfl on
  exact deleteIndex_keeps hindex (hK index hindex rfl) on hencodes

lemma updateRow_keeps (hold : Encodes catalog.metadata t values row)
    (hnew : Encodes catalog.metadata t newValues row')
    (hK : ∀ index ∈ catalog.metadata.indexes, index.tableId = t → index.id ∈ K →
      ∀ on : IndexedColumn catalog.metadata index, newValues[on.position]? = values[on.position]?) :
    Keeps (CarriesOver K s₀ catalog.metadata heap)
      (updateRow catalog t id values newValues : Exec IndexError σ Unit) := by
  obtain ⟨tableMeta, htable⟩ := hold.table
  rw [updateRow, indexes_eq htable]
  apply indexes_keeps htable
  rintro index hindex rfl on
  exact updateIndex_keeps hindex on (fun hid => hK index hindex rfl hid on) hold hnew

end Rounds

end IndexManager

end Stores

end RdbRs
