import RdbRs.Storage.SamePages
import RdbRs.Table.HeapTable

/-!
# Heap tables over the same pages

Every call on a table returns the same from two managers that show the same pages, so that rows go to the same
places.
-/

namespace RdbRs

open Exec ReliableManager

namespace HeapTable

variable (table : HeapTable)

lemma matches_flushPage (pageId : PageId) : Couples (Held (table.pageKey pageId)) SamePages SamePages
    (table.flushPage pageId : Exec TableError ReliableManager Unit) (table.flushPage pageId) :=
  (ReliableManager.matches_flushPage _).mapErr _

lemma matches_onPage {α : Type} (pageId : PageId) (call : PageM α) :
    Couples SamePages (Held (table.pageKey pageId)) SamePages
      (table.onPage pageId call : Exec TableError ReliableManager _) (table.onPage pageId call) :=
  (matches_withPageMut _ call).mapErr _

lemma matches_fetchPage (pageId : PageId) : Matches SamePages
    (table.fetchPage pageId : Exec TableError ReliableManager Page) (table.fetchPage pageId) :=
  (ReliableManager.matches_fetchPage _).mapErr _

lemma matches_pageCount :
    Matches SamePages (table.pageCount : Exec TableError ReliableManager Nat) table.pageCount :=
  (ReliableManager.matches_pageCount _).mapErr _

lemma matches_changeRow (pageId : PageId) (call : PageM Unit) : Matches SamePages
    (table.changeRow pageId call : Exec TableError ReliableManager Unit) (table.changeRow pageId call) := by
  apply Couples.bind (table.matches_onPage pageId call)
  intro o
  cases o with
  | ok a q => exact table.matches_flushPage pageId
  | err e q => exact (matches_throw _).pre fun _ _ hst => hst.samePages
  | panic => exact couples_panic
  | diverge => exact couples_diverge

lemma matches_insertLoop (row : Row) (remaining i : Nat) : Matches SamePages
    (table.insertLoop row i remaining : Exec TableError ReliableManager _) (table.insertLoop row i remaining) := by
  induction remaining generalizing i with
  | zero => exact matches_pure _
  | succ remaining ih =>
    apply Couples.bind (table.matches_onPage (PageId.new i) (Page.insertRow row))
    intro o
    cases o with
    | ok slotId q =>
      apply Couples.bind (table.matches_flushPage (PageId.new i))
      exact fun _ => matches_pure _
    | err e q =>
      apply Couples.pre _ fun _ _ hst => Held.samePages hst
      cases e with
      | storageFull => exact ih (i + 1)
      | _ => exact matches_throw _
    | panic => exact couples_panic
    | diverge => exact couples_diverge

lemma matches_insertNewPage (row : Row) : Matches SamePages
    (table.insertNewPage row : Exec TableError ReliableManager RowId) (table.insertNewPage row) := by
  apply Matches.bind ((ReliableManager.matches_allocatePage _).mapErr _)
  intro pageId
  apply Couples.bind (table.matches_onPage pageId (Page.insertRow row))
  intro o
  cases o with
  | ok slotId q =>
    apply Couples.bind (table.matches_flushPage pageId)
    exact fun _ => matches_pure _
  | err e q => exact (matches_throw _).pre fun _ _ hst => hst.samePages
  | panic => exact couples_panic
  | diverge => exact couples_diverge

lemma matches_insert (row : Row) : Matches SamePages
    (table.insert row : Exec TableError ReliableManager RowId) (table.insert row) := by
  apply Matches.bind table.matches_pageCount
  intro count
  apply Matches.bind (table.matches_insertLoop row count 0)
  intro found
  cases found with
  | some rowId => exact matches_pure _
  | none => exact table.matches_insertNewPage row

lemma matches_get (rowId : RowId) : Matches SamePages
    (table.get rowId : Exec TableError ReliableManager Row) (table.get rowId) := by
  apply Matches.bind (table.matches_fetchPage rowId.pageId)
  exact fun page => matches_liftExcept _

lemma matches_scanLoop (remaining i : Nat) (scans : List (RowId × Row)) : Matches SamePages
    (table.scanLoop i remaining scans : Exec TableError ReliableManager _) (table.scanLoop i remaining scans) := by
  induction remaining generalizing i scans with
  | zero => exact matches_pure _
  | succ remaining ih =>
    apply Matches.bind (table.matches_fetchPage (PageId.new i))
    intro page
    apply Matches.bind (matches_liftExcept _)
    intro rows
    exact ih _ _

lemma matches_scan :
    Matches SamePages (table.scan : Exec TableError ReliableManager _) table.scan := by
  apply Matches.bind table.matches_pageCount
  intro count
  exact (matches_pure _).ite (table.matches_scanLoop count 0 [])

end HeapTable

end RdbRs
