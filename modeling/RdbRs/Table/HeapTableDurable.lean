import RdbRs.Storage.Durability
import RdbRs.Table.HeapTableSpec

/-!
# Heap tables are durable

Every call on a table flushes the page whose rows it changes. The other pages it may have written
have the same rows as before.
-/

namespace RdbRs

open Exec ReliableManager

lemma ChangesRow.honest {call : PageM Unit} {slotId : SlotId} {stored : Option Row}
    (h : ChangesRow call slotId stored) (t : TableId) (pageId : PageId) :
    Honest ⟨.heap t, pageId⟩ (fun _ => true) call := by
  constructor
  · intro p q _ hp hrun
    have ⟨m, hm, _⟩ := alike_heap.mp hp
    exact ⟨_, h.ok hm hrun, h.ok hm hrun⟩
  · intro p q _ _ _ hchanged
    cases hchanged
  · intro p q e hp hrun
    have ⟨m, hm, _⟩ := alike_heap.mp hp
    exact ⟨m, hm, h.err hm hrun⟩

lemma honest_insertRow (t : TableId) (pageId : PageId) (row : Row) :
    Honest ⟨.heap t, pageId⟩ (fun _ => true) (Page.insertRow row) := by
  constructor
  · intro p q s hp hrun
    have ⟨m, hm, _⟩ := alike_heap.mp hp
    have ⟨_, hq⟩ := hm.insertRow_ok hrun
    exact ⟨_, hq, hq⟩
  · intro p q _ _ _ hchanged
    cases hchanged
  · intro p q e hp hrun
    have ⟨m, hm, _⟩ := alike_heap.mp hp
    exact ⟨m, hm, hm.insertRow_err hrun⟩

namespace HeapTable

section Keeps

variable (t : TableId)

lemma triple_onPage {α : Type} {pageId : PageId} {call : PageM α}
    (h : Honest ⟨.heap t, pageId⟩ (fun _ => true) call) :
    Triple Settled ((new t).onPage pageId call) (Left ⟨.heap t, pageId⟩ fun _ => true) Settled :=
  (triple_withPageMut h).mapErr _

lemma triple_flush (pageId : PageId) :
    Triple (Pending ⟨.heap t, pageId⟩) ((new t).flushPage pageId : Exec TableError ReliableManager Unit)
      (fun _ => Settled) Settled :=
  (triple_flushPage _).mapErr _

lemma keeps_changeRow {call : PageM Unit} {slotId : SlotId} {stored : Option Row}
    (h : ChangesRow call slotId stored) (pageId : PageId) :
    Keeps Settled ((new t).changeRow pageId call) := by
  apply Triple.bind (triple_onPage t (h.honest t pageId))
  intro o
  cases o with
  | ok a q => exact triple_flush t pageId
  | err e q => exact keeps_throw
  | panic => exact triple_panic
  | diverge => exact triple_diverge

lemma keeps_update (rowId : RowId) (row : Row) : Keeps Settled ((new t).update rowId row) :=
  keeps_changeRow t (updateRow_changesRow rowId.slotId row) rowId.pageId

lemma keeps_delete (rowId : RowId) : Keeps Settled ((new t).delete rowId) :=
  keeps_changeRow t (deleteRow_changesRow rowId.slotId) rowId.pageId

lemma keeps_insertLoop (row : Row) (remaining i : Nat) :
    Keeps Settled ((new t).insertLoop row i remaining) := by
  induction remaining generalizing i with
  | zero => exact keeps_pure
  | succ remaining ih =>
    apply Triple.bind (triple_onPage t (honest_insertRow t (PageId.new i) row))
    intro o
    cases o with
    | ok slotId q =>
      apply Triple.bind (triple_flush t (PageId.new i))
      intro _
      exact keeps_pure
    | err e q =>
      cases e with
      | storageFull => exact ih (i + 1)
      | _ => exact keeps_throw
    | panic => exact triple_panic
    | diverge => exact triple_diverge

lemma keeps_insertNewPage (row : Row) : Keeps Settled ((new t).insertNewPage row) := by
  apply Triple.bind ((keeps_allocatePage _).mapErr _)
  intro pageId
  apply Triple.bind (triple_onPage t (honest_insertRow t pageId row))
  intro o
  cases o with
  | ok slotId q =>
    apply Triple.bind (triple_flush t pageId)
    intro _
    exact keeps_pure
  | err e q => exact keeps_throw
  | panic => exact triple_panic
  | diverge => exact triple_diverge

lemma keeps_insert (row : Row) : Keeps Settled ((new t).insert row) := by
  apply Keeps.bind ((keeps_pageCount _).mapErr _)
  intro count
  apply Keeps.bind (keeps_insertLoop t row count 0)
  intro found
  cases found with
  | some rowId => exact keeps_pure
  | none => exact keeps_insertNewPage t row

lemma keeps_get (rowId : RowId) : Keeps Settled ((new t).get rowId) := by
  apply Keeps.bind ((keeps_fetchPage _).mapErr _)
  intro page
  exact keeps_liftExcept _

lemma keeps_scanLoop (remaining i : Nat) (scans : List (RowId × Row)) :
    Keeps Settled ((new t).scanLoop i remaining scans) := by
  induction remaining generalizing i scans with
  | zero => exact keeps_pure
  | succ remaining ih =>
    apply Keeps.bind ((keeps_fetchPage _).mapErr _)
    intro page
    apply Keeps.bind (keeps_liftExcept _)
    intro rows
    exact ih _ _

lemma keeps_scan : Keeps Settled (new t).scan := by
  apply Keeps.bind ((keeps_pageCount _).mapErr _)
  intro count
  exact keeps_pure.ite (keeps_scanLoop t count 0 [])

end Keeps

section Agree

variable (t : TableId)

lemma agree_get (rowId : RowId) : Agree Mirrors Eq ((new t).get rowId) ((new t).get rowId) := by
  apply Agree.bind ((agree_fetchPage ⟨.heap t, rowId.pageId⟩).mapErr _)
  intro p q hpq
  have ⟨m, hp, hq⟩ := alike_heap.mp hpq
  rw [hp.readRow_congr hq]
  exact agree_liftExcept _

lemma agree_scanLoop (remaining i : Nat) (scans : List (RowId × Row)) :
    Agree Mirrors Eq ((new t).scanLoop i remaining scans) ((new t).scanLoop i remaining scans) := by
  induction remaining generalizing i scans with
  | zero => exact agree_pure rfl
  | succ remaining ih =>
    apply Agree.bind ((agree_fetchPage ⟨.heap t, PageId.new i⟩).mapErr _)
    intro p q hpq
    have ⟨m, hp, hq⟩ := alike_heap.mp hpq
    rw [hp.scanRows_congr hq]
    apply Agree.bind (agree_liftExcept _)
    intro rows rows' hrows
    subst hrows
    exact ih _ _

lemma agree_scan : Agree Mirrors Eq (new t).scan (new t).scan := by
  apply Agree.bind ((agree_pageCount _).mapErr _)
  intro count count' hcount
  subst hcount
  split
  · exact agree_pure rfl
  · exact agree_scanLoop t count 0 []

end Agree

end HeapTable

end RdbRs
