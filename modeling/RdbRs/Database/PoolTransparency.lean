import RdbRs.Database.EngineCoupling
import RdbRs.Database.StoreEngine
import RdbRs.Index.TreeSamePages
import RdbRs.Table.HeapSamePages

/-!
# The pool does not show

Two databases with one catalog, whose managers show the same pages, return the same from every statement. What the
pools hold, how many frames they have and which pages have been written back makes no difference.
-/

namespace RdbRs

open Exec ReliableManager

lemma matches_registerRelation (r : RelationId) : Matches SamePages
    (PageStore.registerRelation r : Exec StorageError ReliableManager Unit) (PageStore.registerRelation r) := by
  apply matches_query
  intro s t hst
  rw [show PageStore.pages s = PageStore.pages t from hst]

lemma matches_onTable {α : Type} {tableId : TableId} {call : HeapTable → Exec TableError ReliableManager α}
    (h : ∀ table, Matches SamePages (call table) (call table)) : Matches SamePages
      (TableManager.getOrOpenTable tableId >>= call) (TableManager.getOrOpenTable tableId >>= call) := by
  apply Matches.bind _ h
  apply Matches.bind ((matches_registerRelation _).mapErr _)
  exact fun _ => matches_pure _

/-- Every call of the engine returns the same over the same pages. -/
lemma samePages_engines [UnstableSort] : EnginesMatch SamePages where
  createTable _ := (matches_createRelation _).mapErr _
  insertRow _ row := matches_onTable fun table => table.matches_insert row
  updateRow _ _ _ := matches_onTable fun table => table.matches_changeRow _ _
  deleteRow _ _ := matches_onTable fun table => table.matches_changeRow _ _
  scanRows _ := matches_onTable fun table => table.matches_scan
  getRow _ rowId := matches_onTable fun table => table.matches_get rowId
  createRelation _ := matches_createRelation _
  registerRelation _ := matches_registerRelation _
  createTree i keyType := BTree.matches_create i keyType
  insert i root keyType key rowId := (BTree.open' i root keyType).matches_insert key rowId
  delete i root keyType key rowId := (BTree.open' i root keyType).matches_delete key rowId
  search i root keyType key := (BTree.open' i root keyType).matches_search key

end RdbRs
