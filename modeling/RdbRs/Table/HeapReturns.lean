import RdbRs.Storage.StoreReturns
import RdbRs.Table.HeapTableSpec

/-!
# Calls on a heap table return

Every call on a table that holds rows returns `Ok` or `Err`, but for an update with a row whose allocation does not
fit sixteen bits.
-/

namespace RdbRs

open Exec

/-! ### Pages -/

section Pages

variable {p : Page} {m : SlotId → Option Row}

lemma PageRun.insertRow_ends (h : PageRun p m) (row : Row) : ((Page.insertRow row).run p).Ends := by
  obtain ⟨L, hL, -⟩ := h.holds
  by_cases hlen : rowAllocationSize row.data.length ≤ 8180
  · rcases h.insertRow_short hlen with ⟨s, q, hrun⟩ | ⟨q, hrun⟩
    · rw [hrun]
      exact Outcome.ends_ok
    · rw [hrun]
      exact Outcome.ends_err
  · rw [hL.insertRow_tooLarge (Nat.not_le.mp hlen)]
    exact Outcome.ends_err

lemma PageRun.deleteRow_ends (h : PageRun p m) (s : SlotId) : ((Page.deleteRow s).run p).Ends := by
  obtain ⟨L, hL, rfl⟩ := h.holds
  cases hrow : lookup L.rows s with
  | some old =>
    obtain ⟨o, hs⟩ := slot_of_lookup hrow
    obtain ⟨q, L', hrun, -⟩ := hL.deleteRow_eq hs
    rw [hrun]
    exact Outcome.ends_ok
  | none =>
    rw [Page.deleteRow, run_bind, run_query, h.readSlot_eq hrow]
    exact Outcome.ends_err

/-- The row fits sixteen bits, so that no length is truncated. -/
def FitsU16 (row : Row) : Prop := rowAllocationSize row.data.length ≤ u16Max

lemma PageRun.updateRow_ends (h : PageRun p m) (s : SlotId) {row : Row} (hrow : FitsU16 row) :
    ((Page.updateRow s row).run p).Ends := by
  obtain ⟨L, hL, rfl⟩ := h.holds
  cases hold : lookup L.rows s with
  | some old =>
    obtain ⟨o, hs⟩ := slot_of_lookup hold
    rcases hL.updateRow_cases row hs with
      ⟨htruncated, -⟩ | ⟨-, ⟨-, q, hrun, -⟩ | ⟨-, q, L', hrun, -⟩⟩
    · exact absurd htruncated (not_truncated_of_le hrow)
    · rw [hrun]
      exact Outcome.ends_ok
    · rw [hrun]
      exact Outcome.ends_err
  | none =>
    rw [Page.updateRow, run_bind, run_query, h.readSlot_eq hold]
    exact Outcome.ends_err

lemma PageRun.updateRow_ne_diverge (h : PageRun p m) (s : SlotId) (row : Row) :
    (Page.updateRow s row).run p ≠ .diverge := by
  obtain ⟨L, hL, -⟩ := h.holds
  intro hrun
  have hkeeps := hL.updateRow_keepsPage s row
  rw [hrun] at hkeeps
  exact hkeeps

end Pages

/-! ### Tables -/

namespace HeapTable

section Calls

variable {σ : Type} [PageStore σ] {F : Prop} {table : HeapTable} {n : Nat} {rows : RowId → Option Row}

lemma halts_flushPage (pageId : PageId) : Halts F (fun s => PageStore.Cached s (table.pageKey pageId))
    (table.flushPage pageId : Exec TableError σ Unit) fun _ _ => True :=
  (PageStore.halts_flushPage _).mapErr _

/-- A change of a row returns, if the call on its page does. -/
lemma halts_changeRow {pageId : PageId} {call : PageM Unit} (hpanic : ∀ p m, PageRun p m → call.run p = .panic → F)
    (hdiverge : ∀ p m, PageRun p m → call.run p ≠ .diverge) :
    Halts F (table.Shows n rows) (table.changeRow pageId call : Exec TableError σ Unit) fun _ _ => True := by
  intro s hs
  unfold changeRow
  rw [run_bind]
  rcases Nat.lt_or_ge pageId.index n with hlt | hge
  · obtain ⟨page, s', hrun, hpage, hcached, -⟩ := hs.onPage_ok hlt call
    rw [hrun, Outcome.andThen_ok]
    cases hcall : call.run page with
    | ok a q => exact halts_flushPage pageId s' hcached
    | err e q => trivial
    | panic => exact hpanic page _ hpage hcall
    | diverge => exact hdiverge page _ hpage hcall
  · obtain ⟨e, s', hrun, -⟩ := hs.onPage_err hge call
    rw [hrun]
    trivial

lemma halts_update (rowId : RowId) (row : Row) (hrow : ¬ FitsU16 row → F) :
    Halts F (table.Shows n rows) (table.update rowId row : Exec TableError σ Unit) fun _ _ => True := by
  apply halts_changeRow
  · intro p m hp hpanic
    apply hrow
    intro hfits
    have hends := hp.updateRow_ends rowId.slotId hfits
    rw [hpanic] at hends
    exact Outcome.not_ends_panic hends
  · exact fun p m hp => hp.updateRow_ne_diverge rowId.slotId row

lemma halts_delete (rowId : RowId) :
    Halts F (table.Shows n rows) (table.delete rowId : Exec TableError σ Unit) fun _ _ => True := by
  apply halts_changeRow
  · intro p m hp hpanic
    have hends := hp.deleteRow_ends rowId.slotId
    rw [hpanic] at hends
    exact absurd hends Outcome.not_ends_panic
  · intro p m hp hdiverge
    have hends := hp.deleteRow_ends rowId.slotId
    rw [hdiverge] at hends
    exact Outcome.not_ends_diverge hends

/-- The loop over the pages of the table. -/
lemma halts_insertLoop (row : Row) (remaining i : Nat) (hi : i + remaining = n) :
    Halts F (table.Shows n rows) (table.insertLoop row i remaining : Exec TableError σ _)
      fun _ s => ∃ rows', table.Shows n rows' s := by
  induction remaining generalizing i with
  | zero => exact fun s hs => ⟨rows, hs⟩
  | succ remaining ih =>
    intro s hs
    have hle := hs.le
    have hindex : (PageId.new i).index = i := PageId.index_new (by omega)
    have hlt : (PageId.new i).index < n := by omega
    obtain ⟨page, s', hrun, hpage, hcached, hok, herr⟩ := hs.onPage_ok hlt (Page.insertRow row)
    rw [insertLoop, run_bind, hrun, Outcome.andThen_ok]
    obtain ⟨q, ⟨slotId, hc⟩ | ⟨e, hc⟩⟩ := hpage.insertRow_ends row
    · obtain ⟨hspares, hon⟩ := hok slotId q hc
      obtain ⟨s'', hflush, hshows, -⟩ := hon.flushed hspares hcached (hpage.insertRow_ok hc).2
      simp only [hc, run_bind, hflush, Outcome.andThen_ok]
      exact ⟨_, hshows⟩
    · obtain ⟨-, hon⟩ := herr e q hc
      have hshows : table.Shows n rows s' := hon.shows' (hpage.insertRow_err hc) fun _ _ => rfl
      rw [hc]
      cases e with
      | storageFull => exact ih (i + 1) (by omega) s' hshows
      | _ => trivial

lemma halts_insertNewPage (row : Row) :
    Halts F (table.Shows n rows) (table.insertNewPage row : Exec TableError σ RowId) fun _ _ => True := by
  intro s hs
  unfold insertNewPage
  rw [run_bind]
  rcases hs.addPage_cases with ⟨s', hadd, hn, hshows, -⟩ | ⟨e, s', hadd, -⟩
  · have hlt : (PageId.new n).index < n + 1 := by
      rw [PageId.index_new hn]
      exact Nat.lt_succ_self n
    obtain ⟨page, s'', hrun, hpage, hcached, -⟩ := hshows.onPage_ok hlt (Page.insertRow row)
    rw [hadd, Outcome.andThen_ok, run_bind, hrun, Outcome.andThen_ok]
    obtain ⟨q, ⟨slotId, hc⟩ | ⟨e, hc⟩⟩ := hpage.insertRow_ends row
    · rw [hc]
      exact (halts_flushPage _).bind (fun _ => total_pure.halts) s'' hcached
    · rw [hc]
      trivial
  · rw [hadd]
    trivial

lemma halts_insert (row : Row) :
    Halts F (table.Shows n rows) (table.insert row : Exec TableError σ RowId) fun _ _ => True := by
  intro s hs
  obtain ⟨s', hcount, hshows, -⟩ := hs.pageCount_ok
  rw [insert, run_bind, hcount, Outcome.andThen_ok]
  apply (halts_insertLoop row n 0 (Nat.zero_add n)).bind _ s' hshows
  intro found
  cases found with
  | some rowId => exact total_pure.halts
  | none =>
    rintro s'' ⟨rows', hshows'⟩
    exact halts_insertNewPage row s'' hshows'

end Calls

end HeapTable

end RdbRs
