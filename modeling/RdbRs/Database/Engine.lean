import Mathlib.Data.Multiset.Filter
import RdbRs.Index.BTree
import RdbRs.Table.HeapTable

/-!
# The engine below the database

What the database calls of its heap tables and its B+trees, and what the calls promise where a table
is a map from row ids to rows and a tree is a multiset of pairs of a key and a row id.
-/

namespace RdbRs

/-- The calls of the table manager, of the storage manager on index files and of the B+tree. -/
class Engine (σ : Type) where
  createTable (tableId : TableId) : Exec TableError σ Unit
  insertRow (tableId : TableId) (row : Row) : Exec TableError σ RowId
  updateRow (tableId : TableId) (rowId : RowId) (row : Row) : Exec TableError σ Unit
  deleteRow (tableId : TableId) (rowId : RowId) : Exec TableError σ Unit
  scanRows (tableId : TableId) : Exec TableError σ (List (RowId × Row))
  getRow (tableId : TableId) (rowId : RowId) : Exec TableError σ Row
  createRelation (indexId : IndexId) : Exec StorageError σ Unit
  registerRelation (indexId : IndexId) : Exec StorageError σ Unit
  createTree (indexId : IndexId) (keyType : BTreeKeyType) : Exec BTreeError σ BTree
  insert (tree : BTree) (key : BTreeKey) (rowId : RowId) : Exec BTreeError σ Unit
  delete (tree : BTree) (key : BTreeKey) (rowId : RowId) : Exec BTreeError σ Bool
  search (tree : BTree) (key : BTreeKey) : Exec BTreeError σ (List RowId)

/-- The rows of the tables and the entries of the trees. -/
structure Contents where
  heap : TableId → Option (RowId → Option Row)
  entries : BTree → Option (Multiset (BTreeKey × RowId))

namespace Contents

def empty : Contents := ⟨fun _ => none, fun _ => none⟩

def withTable (c : Contents) (tableId : TableId) (rows : RowId → Option Row) : Contents :=
  { c with heap := Function.update c.heap tableId (some rows) }

def withTree (c : Contents) (tree : BTree) (entries : Multiset (BTreeKey × RowId)) : Contents :=
  { c with entries := Function.update c.entries tree (some entries) }

variable {c : Contents} {tableId tableId' : TableId} {rows : RowId → Option Row} {tree tree' : BTree}
  {m : Multiset (BTreeKey × RowId)}

@[simp] lemma heap_withTable_self : (c.withTable tableId rows).heap tableId = some rows :=
  Function.update_self ..

lemma heap_withTable_of_ne (h : tableId' ≠ tableId) :
    (c.withTable tableId rows).heap tableId' = c.heap tableId' := Function.update_of_ne h ..

@[simp] lemma entries_withTable : (c.withTable tableId rows).entries = c.entries := rfl

@[simp] lemma entries_withTree_self : (c.withTree tree m).entries tree = some m :=
  Function.update_self ..

lemma entries_withTree_of_ne (h : tree' ≠ tree) :
    (c.withTree tree m).entries tree' = c.entries tree' := Function.update_of_ne h ..

@[simp] lemma heap_withTree : (c.withTree tree m).heap = c.heap := rfl

end Contents

section Laws

variable {σ : Type} [Engine σ]

open Engine

/-- What is read is what is stored: the live rows of a table, a row by its id, and the row ids of the
pairs of a tree with a key. -/
structure ReadLaws (Shows : σ → Contents → Prop) : Prop where
  scanRows_ok {s : σ} {c : Contents} {t : TableId} {rows : RowId → Option Row} : Shows s c →
    c.heap t = some rows → ∃ live s', (scanRows t).run s = .ok live s' ∧ Shows s' c ∧ live.Nodup ∧
      ∀ id row, (id, row) ∈ live ↔ rows id = some row
  getRow_ok {s : σ} {c : Contents} {t : TableId} {rows : RowId → Option Row} {id : RowId} {row : Row} :
    Shows s c → c.heap t = some rows → rows id = some row →
    ∃ s', (getRow t id).run s = .ok row s' ∧ Shows s' c
  registerRelation_ok {s : σ} {c : Contents} {i : IndexId} {tree : BTree}
    {m : Multiset (BTreeKey × RowId)} : Shows s c → c.entries tree = some m →
    tree.relationId = .index i → ∃ s', (registerRelation i).run s = .ok () s' ∧ Shows s' c
  search_ok {s : σ} {c : Contents} {tree : BTree} {m : Multiset (BTreeKey × RowId)} {k : BTreeKey} :
    Shows s c → c.entries tree = some m → k.keyType = tree.keyType →
    ∃ ids s', (search tree k).run s = .ok ids s' ∧ Shows s' c ∧
      (ids : Multiset RowId) = (m.filter fun e => e.1 = k).map Prod.snd

/-- Tables are maps: a change that succeeds changes one row. -/
structure TableLaws (Shows : σ → Contents → Prop) : Prop where
  createTable_ok {s s' : σ} {c : Contents} {t : TableId} : Shows s c →
    (createTable t).run s = .ok () s' → Shows s' (c.withTable t ((c.heap t).getD fun _ => none))
  insertRow_ok {s s' : σ} {c : Contents} {t : TableId} {rows : RowId → Option Row} {row : Row}
    {id : RowId} : Shows s c → c.heap t = some rows → (insertRow t row).run s = .ok id s' →
    rows id = none ∧ Shows s' (c.withTable t (Function.update rows id (some row)))
  updateRow_ok {s s' : σ} {c : Contents} {t : TableId} {rows : RowId → Option Row} {row : Row}
    {id : RowId} : Shows s c → c.heap t = some rows → (updateRow t id row).run s = .ok () s' →
    rows id ≠ none ∧ Shows s' (c.withTable t (Function.update rows id (some row)))
  deleteRow_ok {s s' : σ} {c : Contents} {t : TableId} {rows : RowId → Option Row} {id : RowId} :
    Shows s c → c.heap t = some rows → (deleteRow t id).run s = .ok () s' →
    rows id ≠ none ∧ Shows s' (c.withTable t (Function.update rows id none))

/-- Trees are multisets: an insertion adds one pair, and a deletion removes one and reports whether it
was there. -/
structure TreeLaws (Shows : σ → Contents → Prop) : Prop where
  createRelation_ok {s s' : σ} {c : Contents} {i : IndexId} : Shows s c →
    (createRelation i).run s = .ok () s' → Shows s' c
  createTree_ok {s s' : σ} {c : Contents} {i : IndexId} {keyType : BTreeKeyType} {tree : BTree} :
    Shows s c → (createTree i keyType).run s = .ok tree s' →
    tree.relationId = .index i ∧ tree.keyType = keyType ∧ Shows s' (c.withTree tree 0)
  insert_ok {s s' : σ} {c : Contents} {tree : BTree} {m : Multiset (BTreeKey × RowId)} {k : BTreeKey}
    {id : RowId} : Shows s c → c.entries tree = some m → (insert tree k id).run s = .ok () s' →
    Shows s' (c.withTree tree ((k, id) ::ₘ m))
  delete_ok {s s' : σ} {c : Contents} {tree : BTree} {m : Multiset (BTreeKey × RowId)} {k : BTreeKey}
    {id : RowId} {found : Bool} : Shows s c → c.entries tree = some m →
    (delete tree k id).run s = .ok found s' →
    (found = true ↔ (k, id) ∈ m) ∧ Shows s' (c.withTree tree (m.erase (k, id)))

/-- What the database relies on. -/
structure Engine.Lawful (Shows : σ → Contents → Prop) : Prop where
  reads : ReadLaws Shows
  tables : TableLaws Shows
  trees : TreeLaws Shows

end Laws

end RdbRs
