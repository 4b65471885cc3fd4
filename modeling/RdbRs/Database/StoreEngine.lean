import RdbRs.Database.Execute
import RdbRs.Index.TreeFrame
import RdbRs.Table.HeapTableSpec

/-!
# The engine of a page store

The table manager and the B+trees over any page store. The relations that have a file are registered.
Reads change no page.
-/

namespace RdbRs

open Exec

/-- `register_relation`, which fails for a relation without a file. -/
def PageStore.registerRelation {σ : Type} [PageStore σ] (relationId : RelationId) :
    Exec StorageError σ Unit :=
  Exec.query fun s =>
    if (PageStore.pages s relationId).isSome then .ok () else .error (.relationFileManager .io)

lemma run_registerRelation {σ : Type} [PageStore σ] {relationId : RelationId} {ps : List Page} {s : σ}
    (h : PageStore.pages s relationId = some ps) :
    (PageStore.registerRelation relationId : Exec StorageError σ Unit).run s = .ok () s := by
  rw [PageStore.registerRelation, run_query, h]
  rfl

/-! ### Tables -/

namespace TableManager

variable {σ : Type} [PageStore σ]

def getOrOpenTable (tableId : TableId) : Exec TableError σ HeapTable := do
  Exec.mapErr .storage (PageStore.registerRelation (.heap tableId))
  pure (HeapTable.new tableId)

def createTable (tableId : TableId) : Exec TableError σ Unit :=
  Exec.mapErr .storage (PageStore.createRelation (.heap tableId))

lemma run_getOrOpenTable {tableId : TableId} {ps : List Page} {s : σ}
    (h : PageStore.pages s (.heap tableId) = some ps) :
    (getOrOpenTable tableId : Exec TableError σ HeapTable).run s = .ok (HeapTable.new tableId) s := by
  rw [getOrOpenTable, Exec.run_bind, Exec.run_mapErr, run_registerRelation h]
  rfl

def insertRow (tableId : TableId) (row : Row) : Exec TableError σ RowId := do
  let heapTable ← getOrOpenTable tableId
  heapTable.insert row

def updateRow (tableId : TableId) (rowId : RowId) (row : Row) : Exec TableError σ Unit := do
  let heapTable ← getOrOpenTable tableId
  heapTable.update rowId row

def deleteRow (tableId : TableId) (rowId : RowId) : Exec TableError σ Unit := do
  let heapTable ← getOrOpenTable tableId
  heapTable.delete rowId

def scanRows (tableId : TableId) : Exec TableError σ (List (RowId × Row)) := do
  let heapTable ← getOrOpenTable tableId
  heapTable.scan

/-- A round of the loop of `get_rows`. -/
def getRow (tableId : TableId) (rowId : RowId) : Exec TableError σ Row := do
  let heapTable ← getOrOpenTable tableId
  heapTable.get rowId

end TableManager

instance storeEngine {σ : Type} [PageStore σ] [UnstableSort] : Engine σ where
  createTable := TableManager.createTable
  insertRow := TableManager.insertRow
  updateRow := TableManager.updateRow
  deleteRow := TableManager.deleteRow
  scanRows := TableManager.scanRows
  getRow := TableManager.getRow
  createRelation indexId := PageStore.createRelation (.index indexId)
  registerRelation indexId := PageStore.registerRelation (.index indexId)
  createTree := BTree.create
  insert tree := tree.insert
  delete tree := tree.delete
  search := BTree.search

/-! ### Reads -/

section Reads

variable {σ : Type} [PageStore σ] {contents : RelationId → Option (List Page)}

/-- The pages of the store. -/
def PagesAre (contents : RelationId → Option (List Page)) (s : σ) : Prop := PageStore.pages s = contents

/-- A relation that is registered has a file. -/
lemma registerRelation_triple (relationId : RelationId) :
    Triple (PagesAre contents) (PageStore.registerRelation relationId : Exec StorageError σ Unit)
      (fun _ s => (contents relationId).isSome ∧ PagesAre contents s) (PagesAre contents) := by
  intro s hs
  rw [PageStore.registerRelation, run_query, show PageStore.pages s = contents from hs]
  by_cases hsome : (contents relationId).isSome
  · rw [if_pos hsome]
    exact ⟨hsome, hs⟩
  · rw [if_neg hsome]
    exact hs

lemma keeps_registerRelation (relationId : RelationId) :
    Keeps (PagesAre contents) (PageStore.registerRelation relationId : Exec StorageError σ Unit) :=
  (registerRelation_triple relationId).imp (fun _ hs => hs) (fun _ _ hs => hs.2) fun _ hs => hs

namespace HeapTable

variable (table : HeapTable)

lemma fetchPage_reads (pageId : PageId) :
    Keeps (PagesAre contents) (table.fetchPage pageId : Exec TableError σ Page) :=
  (PageStore.keeps_fetchPage _).mapErr _

lemma get_reads (rowId : RowId) : Keeps (PagesAre contents) (table.get rowId : Exec TableError σ Row) := by
  apply Keeps.bind (fetchPage_reads table rowId.pageId)
  intro page
  exact keeps_liftExcept _

lemma scanLoop_reads (remaining i : Nat) (scans : List (RowId × Row)) :
    Keeps (PagesAre contents) (table.scanLoop i remaining scans : Exec TableError σ _) := by
  induction remaining generalizing i scans with
  | zero => exact keeps_pure
  | succ remaining ih =>
    apply Keeps.bind (fetchPage_reads table (PageId.new i))
    intro page
    apply Keeps.bind (keeps_liftExcept _)
    intro rows
    exact ih _ _

/-- A scan of a table that has a file. -/
lemma scan_reads (h : (contents table.relationId).isSome) :
    Keeps (PagesAre contents) (table.scan : Exec TableError σ _) := by
  obtain ⟨ps, hps⟩ := Option.isSome_iff_exists.mp h
  have hcount : Keeps (PagesAre contents) (table.pageCount : Exec TableError σ Nat) := by
    apply Triple.mapErr
    intro s hs
    rw [PagesAre] at hs
    obtain ⟨s', hrun, hpages⟩ := PageStore.count_ok (hs ▸ hps : PageStore.pages s table.relationId = some ps)
    rw [hrun]
    exact hpages.trans hs
  apply Keeps.bind hcount
  intro count
  apply Keeps.ite
  · exact keeps_pure
  · exact scanLoop_reads table count 0 []

end HeapTable

namespace TableManager

lemma getOrOpenTable_triple (tableId : TableId) :
    Triple (PagesAre contents) (getOrOpenTable tableId : Exec TableError σ HeapTable)
      (fun table s => (table = HeapTable.new tableId ∧ (contents (.heap tableId)).isSome) ∧
        PagesAre contents s) (PagesAre contents) := by
  apply ((registerRelation_triple _).mapErr _).bind
  intro _ s hs
  exact ⟨⟨rfl, hs.1⟩, hs.2⟩

/-- A call on a table that has a file. -/
lemma onTable_triple {α : Type} {tableId : TableId} {call : HeapTable → Exec TableError σ α}
    {Q : α → σ → Prop} {E : σ → Prop} (hmissing : ∀ s, PagesAre contents s → E s)
    (h : (contents (.heap tableId)).isSome → Triple (PagesAre contents) (call (HeapTable.new tableId)) Q E) :
    Triple (PagesAre contents) (getOrOpenTable tableId >>= call) Q E := by
  apply ((getOrOpenTable_triple tableId).imp (fun _ hs => hs) (fun _ _ hs => hs) hmissing).bind
  intro table s hs
  rw [hs.1.1]
  exact h hs.1.2 s hs.2

lemma scanRows_reads (tableId : TableId) :
    Keeps (PagesAre contents) (scanRows tableId : Exec TableError σ _) :=
  onTable_triple (fun _ hs => hs) (HeapTable.scan_reads _)

end TableManager

lemma BTree.search_reads (tree : BTree) (key : BTreeKey) :
    Keeps (PagesAre contents) (tree.search key : Exec BTreeError σ (List RowId)) :=
  keeps_search (fun _ => (PageStore.keeps_fetchPage _).mapErr _) key

lemma IndexManager.searchIndexRowIds_reads [UnstableSort] (indexes : List IndexMetadata) (tableId : TableId)
    (columnId : ColumnId) (value : Value) : Keeps (PagesAre contents)
      (searchIndexRowIds indexes tableId columnId value : Exec IndexError σ _) := by
  unfold searchIndexRowIds searchRowIds
  split
  · apply Keeps.bind _ fun _ => keeps_pure
    split
    · apply Keeps.bind
      · apply Keeps.bind ((keeps_registerRelation _).mapErr _)
        exact fun _ => keeps_pure
      intro tree
      exact (tree.search_reads _).mapErr _
    · exact keeps_pure
  · exact keeps_pure

end Reads

end RdbRs
