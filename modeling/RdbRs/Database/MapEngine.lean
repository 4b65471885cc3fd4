import RdbRs.Database.Engine

/-!
# An engine of maps

Tables are maps from row ids to rows, trees are lists of pairs. The engine shows that the laws of an
engine can be met.
-/

namespace RdbRs

/-- A map from row ids to rows and the ids it has. -/
structure MapTable where
  row : RowId → Option Row
  ids : List RowId
  nodup : ids.Nodup
  mem_ids : ∀ id, id ∈ ids ↔ (row id).isSome

namespace MapTable

variable {table : MapTable} {id : RowId} {r : Row}

def empty : MapTable := ⟨fun _ => none, [], List.nodup_nil, by simp⟩

/-- The first id of the first page that is not used. -/
def freeId (table : MapTable) : Option RowId :=
  ((List.range (table.ids.length + 1)).map RowId.ofSlot).find? fun id => (table.row id).isNone

def insert (table : MapTable) (id : RowId) (r : Row) (h : table.row id = none) : MapTable where
  row := Function.update table.row id (some r)
  ids := id :: table.ids
  nodup := by
    rw [List.nodup_cons, table.mem_ids, h]
    exact ⟨by simp, table.nodup⟩
  mem_ids i := by
    rw [List.mem_cons, table.mem_ids]
    by_cases heq : i = id
    · simp [heq]
    · simp [heq]

def replace (table : MapTable) (id : RowId) (r : Row) (h : (table.row id).isSome) : MapTable where
  row := Function.update table.row id (some r)
  ids := table.ids
  nodup := table.nodup
  mem_ids i := by
    rw [table.mem_ids]
    by_cases heq : i = id
    · simp [heq, h]
    · rw [Function.update_of_ne heq]

def erase (table : MapTable) (id : RowId) : MapTable where
  row := Function.update table.row id none
  ids := table.ids.erase id
  nodup := table.nodup.erase id
  mem_ids i := by
    rw [table.nodup.mem_erase_iff, table.mem_ids]
    by_cases heq : i = id
    · simp [heq]
    · simp [heq]

def scan (table : MapTable) : List (RowId × Row) :=
  table.ids.filterMap fun id => (table.row id).map fun r => (id, r)

lemma mem_scan : (id, r) ∈ table.scan ↔ table.row id = some r := by
  rw [scan, List.mem_filterMap]
  constructor
  · intro ⟨i, _, heq⟩
    rw [Option.map_eq_some_iff] at heq
    have ⟨r', hr', hpair⟩ := heq
    cases hpair
    exact hr'
  · intro h
    refine ⟨id, (table.mem_ids id).mpr (by rw [h]; rfl), ?_⟩
    rw [h]
    rfl

lemma nodup_scan : table.scan.Nodup := by
  apply table.nodup.filterMap
  intro i i' e he he'
  rw [Option.mem_def, Option.map_eq_some_iff] at he he'
  have ⟨_, _, hpair⟩ := he
  have ⟨_, _, hpair'⟩ := he'
  rw [← hpair] at hpair'
  exact (congrArg Prod.fst hpair').symm

end MapTable

structure MapEngine where
  tables : TableId → Option MapTable
  trees : BTree → Option (List (BTreeKey × RowId))

namespace MapEngine

def empty : MapEngine := ⟨fun _ => none, fun _ => none⟩

/-- The error for a file that does not exist. -/
def notRegistered (relationId : RelationId) : StorageError :=
  .relationFileManager (.relationNotRegistered relationId)

def getTable (t : TableId) : Exec TableError MapEngine MapTable :=
  Exec.query fun s =>
    match s.tables t with
    | some table => .ok table
    | none => .error (.storage (notRegistered (.heap t)))

def setTable {ε : Type} (t : TableId) (table : MapTable) : Exec ε MapEngine Unit :=
  Exec.modify fun s => { s with tables := Function.update s.tables t (some table) }

def getTree (tree : BTree) : Exec BTreeError MapEngine (List (BTreeKey × RowId)) :=
  Exec.query fun s =>
    match s.trees tree with
    | some entries => .ok entries
    | none => .error (.storage (notRegistered tree.relationId))

def setTree {ε : Type} (tree : BTree) (entries : List (BTreeKey × RowId)) : Exec ε MapEngine Unit :=
  Exec.modify fun s => { s with trees := Function.update s.trees tree (some entries) }

instance : Engine MapEngine where
  createTable t := do
    let tables ← Exec.gets MapEngine.tables
    setTable t ((tables t).getD .empty)
  insertRow t row := do
    let table ← getTable t
    match table.freeId with
    | none => Exec.throw (.page .storageFull)
    | some id =>
      if h : table.row id = none then do
        setTable t (table.insert id row h)
        pure id
      else Exec.throw (.page .storageFull)
  updateRow t id row := do
    let table ← getTable t
    if h : (table.row id).isSome then setTable t (table.replace id row h)
    else Exec.throw (.page .slotNotFound)
  deleteRow t id := do
    let table ← getTable t
    if (table.row id).isSome then setTable t (table.erase id)
    else Exec.throw (.page .slotNotFound)
  scanRows t := do
    let table ← getTable t
    pure table.scan
  getRow t id := do
    let table ← getTable t
    match table.row id with
    | some row => pure row
    | none => Exec.throw (.page .slotNotFound)
  createRelation _ := pure ()
  registerRelation _ := pure ()
  createTree i keyType := do
    let tree := BTree.open' i (PageId.new 0) keyType
    setTree tree []
    pure tree
  insert tree key id := do
    let entries ← getTree tree
    setTree tree ((key, id) :: entries)
  delete tree key id := do
    let entries ← getTree tree
    setTree tree (entries.eraseP fun e => e = (key, id))
    pure (decide ((key, id) ∈ entries))
  search tree key := do
    let entries ← getTree tree
    pure ((entries.filter fun e => e.1 = key).map Prod.snd)

/-- The contents as they stand. -/
def Shows (s : MapEngine) (c : Contents) : Prop :=
  c = ⟨fun t => (s.tables t).map MapTable.row, fun tree => (s.trees tree).map Multiset.ofList⟩

variable {s s' : MapEngine} {c : Contents} {t : TableId} {tree : BTree} {rows : RowId → Option Row}
  {m : Multiset (BTreeKey × RowId)}

lemma shows_empty : Shows empty .empty := rfl

lemma Shows.exists_table (h : Shows s c) (hheap : c.heap t = some rows) :
    ∃ table, s.tables t = some table ∧ table.row = rows := by
  rw [h] at hheap
  exact Option.map_eq_some_iff.mp hheap

lemma Shows.exists_tree (h : Shows s c) (hentries : c.entries tree = some m) :
    ∃ entries : List (BTreeKey × RowId), s.trees tree = some entries ∧ (entries : Multiset _) = m := by
  rw [h] at hentries
  exact Option.map_eq_some_iff.mp hentries

lemma Shows.setTable {table : MapTable} (h : Shows s c) :
    Shows { s with tables := Function.update s.tables t (some table) } (c.withTable t table.row) := by
  rw [Shows, h, Contents.withTable]
  congr 1
  funext t'
  by_cases heq : t' = t
  · simp [heq]
  · simp [heq]

lemma Shows.setTree {entries : List (BTreeKey × RowId)} (h : Shows s c) :
    Shows { s with trees := Function.update s.trees tree (some entries) } (c.withTree tree entries) := by
  rw [Shows, h, Contents.withTree]
  congr 1
  funext tree'
  by_cases heq : tree' = tree
  · simp [heq]
  · simp [heq]

/-! ### Laws -/

lemma run_getTable {table : MapTable} (h : s.tables t = some table) : (getTable t).run s = .ok table s := by
  rw [getTable, Exec.run_query, h]

lemma run_getTree {entries : List (BTreeKey × RowId)} (h : s.trees tree = some entries) :
    (getTree tree).run s = .ok entries s := by
  rw [getTree, Exec.run_query, h]

lemma reads : ReadLaws Shows where
  scanRows_ok h hheap := by
    have ⟨table, htable, hrows⟩ := h.exists_table hheap
    refine ⟨table.scan, _, ?_, h, table.nodup_scan, ?_⟩
    · rw [Engine.scanRows, instEngine]
      simp only [Exec.run_bind, run_getTable htable, Outcome.andThen_ok, Exec.run_pure]
    · intro id row
      rw [MapTable.mem_scan, hrows]
  getRow_ok h hheap hrow := by
    have ⟨table, htable, hrows⟩ := h.exists_table hheap
    refine ⟨_, ?_, h⟩
    rw [Engine.getRow, instEngine]
    simp only [Exec.run_bind, run_getTable htable, Outcome.andThen_ok, hrows, hrow, Exec.run_pure]
  registerRelation_ok h _ _ := ⟨_, rfl, h⟩
  search_ok {_ _ _ _ k} h hentries _ := by
    have ⟨entries, htree, heq⟩ := h.exists_tree hentries
    refine ⟨(entries.filter fun e => e.1 = k).map Prod.snd, _, ?_, h, ?_⟩
    · rw [Engine.search, instEngine]
      simp only [Exec.run_bind, run_getTree htree, Outcome.andThen_ok, Exec.run_pure]
    · rw [← heq, Multiset.filter_coe, Multiset.map_coe]

lemma tableLaws : TableLaws Shows where
  createTable_ok {s _ c t} h hrun := by
    cases hrun
    have hrows : ((s.tables t).getD .empty).row = (c.heap t).getD fun _ => none := by
      rw [h]
      simp only
      cases s.tables t <;> rfl
    rw [← hrows]
    exact h.setTable
  insertRow_ok h hheap hrun := by
    have ⟨table, htable, hrows⟩ := h.exists_table hheap
    rw [Engine.insertRow, instEngine] at hrun
    simp only [Exec.run_bind, run_getTable htable, Outcome.andThen_ok] at hrun
    split at hrun
    · cases hrun
    · split at hrun
      · next hnone =>
        cases hrun
        rw [← hrows]
        exact ⟨hnone, h.setTable⟩
      · cases hrun
  updateRow_ok h hheap hrun := by
    have ⟨table, htable, hrows⟩ := h.exists_table hheap
    rw [Engine.updateRow, instEngine] at hrun
    simp only [Exec.run_bind, run_getTable htable, Outcome.andThen_ok] at hrun
    split at hrun
    · next hsome =>
      cases hrun
      rw [← hrows]
      exact ⟨Option.isSome_iff_ne_none.mp hsome, h.setTable⟩
    · cases hrun
  deleteRow_ok h hheap hrun := by
    have ⟨table, htable, hrows⟩ := h.exists_table hheap
    rw [Engine.deleteRow, instEngine] at hrun
    simp only [Exec.run_bind, run_getTable htable, Outcome.andThen_ok] at hrun
    split at hrun
    · next hsome =>
      cases hrun
      rw [← hrows]
      exact ⟨Option.isSome_iff_ne_none.mp hsome, h.setTable⟩
    · cases hrun

lemma treeLaws : TreeLaws Shows where
  createRelation_ok h hrun := by
    cases hrun
    exact h
  createTree_ok h hrun := by
    cases hrun
    exact ⟨rfl, rfl, h.setTree⟩
  insert_ok h hentries hrun := by
    have ⟨entries, htree, heq⟩ := h.exists_tree hentries
    rw [Engine.insert, instEngine] at hrun
    simp only [Exec.run_bind, run_getTree htree, Outcome.andThen_ok] at hrun
    cases hrun
    rw [← heq, Multiset.cons_coe]
    exact h.setTree
  delete_ok {_ _ _ _ _ k id _} h hentries hrun := by
    have ⟨entries, htree, heq⟩ := h.exists_tree hentries
    have herase : (entries : Multiset (BTreeKey × RowId)).erase (k, id) =
        ↑(entries.eraseP fun e => e = (k, id)) := by
      rw [Multiset.coe_erase]
      exact congrArg _ (@List.erase_eq_eraseP' _ instBEqOfDecidableEq _ _)
    rw [Engine.delete, instEngine] at hrun
    simp only [Exec.run_bind, run_getTree htree, Outcome.andThen_ok] at hrun
    cases hrun
    rw [← heq, herase, Multiset.mem_coe, decide_eq_true_iff]
    exact ⟨Iff.rfl, h.setTree⟩

lemma lawful : Engine.Lawful Shows := ⟨reads, tableLaws, treeLaws⟩

end MapEngine

end RdbRs
