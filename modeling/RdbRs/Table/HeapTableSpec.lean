import RdbRs.Storage.SlottedPageSpace
import RdbRs.Table.HeapTable

/-!
# What heap tables do

The pages of a table hold a map from row ids to rows. Each call is described by what it does to this
map.
-/

namespace RdbRs

section PageRuns

variable {p q : Page} {m : SlotId → Option Row} {s : SlotId} {row : Row} {e : PageError}

lemma PageRun.insertRow_ok (h : PageRun p m) (hrun : (Page.insertRow row).run p = .ok s q) :
    m s = none ∧ PageRun q (Function.update m s (some row)) := by
  have hcall : (PageCall.insertRow row).exec.run p = .ok (some s) q := by
    rw [PageCall.exec, Exec.run_bind, hrun]
    rfl
  have hq := PageRun.ok h hcall
  rw [after_some] at hq
  exact ⟨h.insertRow_free hrun, hq⟩

lemma PageRun.insertRow_err (h : PageRun p m) (hrun : (Page.insertRow row).run p = .err e q) :
    PageRun q m := by
  have hcall : (PageCall.insertRow row).exec.run p = .err e q := by
    rw [PageCall.exec, Exec.run_bind, hrun, Outcome.andThen_err]
  exact PageRun.err h hcall

lemma readSlot_of_readRow (h : p.readRow s = .error .slotNotFound) :
    p.readSlot s = .error .slotNotFound := by
  unfold Page.readRow at h
  cases hslot : p.readSlot s with
  | error e =>
    rw [hslot, except_bind_error] at h
    rwa [Except.error.injEq] at h ⊢
  | ok slot =>
    rw [hslot, except_bind_ok] at h
    simp only at h
    split at h <;> cases h

/-- A call that starts with `read_slot` fails on a slot without a row. -/
lemma PageRun.readSlot_eq (h : PageRun p m) (hs : m s = none) : p.readSlot s = .error .slotNotFound := by
  apply readSlot_of_readRow
  rw [h.readRow_eq, hs]

/-- A change of the row in a slot: what it stores if it returns `Ok`. -/
structure ChangesRow (call : PageM Unit) (s : SlotId) (stored : Option Row) : Prop where
  live {p q : Page} {m : SlotId → Option Row} : PageRun p m → call.run p = .ok () q → m s ≠ none
  ok {p q : Page} {m : SlotId → Option Row} : PageRun p m → call.run p = .ok () q →
    PageRun q (Function.update m s stored)
  err {p q : Page} {m : SlotId → Option Row} {e : PageError} : PageRun p m → call.run p = .err e q →
    PageRun q m

lemma updateRow_changesRow (s : SlotId) (row : Row) :
    ChangesRow (Page.updateRow s row) s (some row) := by
  constructor
  · intro p q m h hrun hs
    rw [Page.updateRow, Exec.run_bind, Exec.run_query, h.readSlot_eq hs] at hrun
    cases hrun
  · intro p q m h hrun
    have hcall : (PageCall.updateRow s row).exec.run p = .ok (some s) q := by
      rw [PageCall.exec, Exec.run_bind, hrun]
      rfl
    have hq := PageRun.ok h hcall
    rwa [after_some] at hq
  · intro p q m e h hrun
    have hcall : (PageCall.updateRow s row).exec.run p = .err e q := by
      rw [PageCall.exec, Exec.run_bind, hrun, Outcome.andThen_err]
    exact PageRun.err h hcall

lemma deleteRow_changesRow (s : SlotId) : ChangesRow (Page.deleteRow s) s none := by
  constructor
  · intro p q m h hrun hs
    rw [Page.deleteRow, Exec.run_bind, Exec.run_query, h.readSlot_eq hs] at hrun
    cases hrun
  · intro p q m h hrun
    have hcall : (PageCall.deleteRow s).exec.run p = .ok (some s) q := by
      rw [PageCall.exec, Exec.run_bind, hrun]
      rfl
    have hq := PageRun.ok h hcall
    rwa [after_some] at hq
  · intro p q m e h hrun
    have hcall : (PageCall.deleteRow s).exec.run p = .err e q := by
      rw [PageCall.exec, Exec.run_bind, hrun, Outcome.andThen_err]
    exact PageRun.err h hcall

end PageRuns

/-- The pages of a table hold these rows. -/
structure HeapPages (ps : List Page) (rows : RowId → Option Row) : Prop where
  page {i : Nat} {p : Page} : ps[i]? = some p → PageRun p fun s => rows ⟨PageId.new i, s⟩
  absent {id : RowId} : ps.length ≤ id.pageId.index → rows id = none

section HeapPages

variable {ps : List Page} {rows rows' : RowId → Option Row} {p q : Page} {id : RowId} {pageId : PageId}

lemma heapPages_nil : HeapPages [] fun _ => none := ⟨fun h => by simp at h, fun _ => rfl⟩

lemma PageId.new_index (p : PageId) : PageId.new p.index = p :=
  PageId.index_injective (PageId.index_new p.index_lt)

lemma HeapPages.pageRun (h : HeapPages ps rows) (hp : ps[pageId.index]? = some p) :
    PageRun p fun s => rows ⟨pageId, s⟩ := by
  have hrun := h.page hp
  rwa [PageId.new_index] at hrun

/-- One page is replaced. -/
lemma HeapPages.set (h : HeapPages ps rows) (hlen : ps.length ≤ 2 ^ 64)
    (hlt : pageId.index < ps.length) (hq : PageRun q fun s => rows' ⟨pageId, s⟩)
    (hother : ∀ id : RowId, id.pageId ≠ pageId → rows' id = rows id) :
    HeapPages (ps.set pageId.index q) rows' := by
  constructor
  · intro i p hp
    by_cases hi : pageId.index = i
    · subst hi
      rw [List.getElem?_set_self hlt] at hp
      rw [← Option.some.inj hp, PageId.new_index]
      exact hq
    · rw [List.getElem?_set_ne hi] at hp
      have hi' : i < 2 ^ 64 := (List.getElem?_eq_some_iff.mp hp).1.trans_le hlen
      have hne : PageId.new i ≠ pageId := by
        intro heq
        rw [← heq, PageId.index_new hi'] at hi
        exact hi rfl
      have hsame : (fun s => rows' ⟨PageId.new i, s⟩) = fun s => rows ⟨PageId.new i, s⟩ := by
        funext s
        exact hother _ hne
      rw [hsame]
      exact h.page hp
  · intro id hid
    rw [List.length_set] at hid
    have hne : id.pageId ≠ pageId := by
      intro heq
      rw [heq] at hid
      omega
    rw [hother id hne, h.absent hid]

/-- A page without rows is appended. -/
lemma HeapPages.append (h : HeapPages ps rows) (hlen : ps.length < 2 ^ 64) :
    HeapPages (ps ++ [Page.new]) rows := by
  constructor
  · intro i p hp
    rcases Nat.lt_or_ge i ps.length with hi | hi
    · rw [List.getElem?_append_left hi] at hp
      exact h.page hp
    · rw [List.getElem?_append_right hi, List.getElem?_singleton] at hp
      split at hp
      · obtain rfl : i = ps.length := by omega
        have hnone : (fun s => rows ⟨PageId.new ps.length, s⟩) = fun _ => none := by
          funext s
          apply h.absent
          rw [PageId.index_new hlen]
        rw [hnone, ← Option.some.inj hp]
        exact .new
      · cases hp
  · intro id hid
    rw [List.length_append] at hid
    exact h.absent (by omega)

end HeapPages

namespace HeapTable

section Calls

variable {σ : Type} [PageStore σ] {table : HeapTable} {s s' s'' : σ} {n : Nat}
  {rows rows' : RowId → Option Row} {pageId : PageId} {id : RowId} {row : Row} {stored : Option Row}

/-- The table has `n` pages that hold the rows. -/
def Shows (table : HeapTable) (n : Nat) (rows : RowId → Option Row) (s : σ) : Prop :=
  ∃ ps, PageStore.pages s table.relationId = some ps ∧ ps.length = n ∧ HeapPages ps rows

/-- The relations of the other tables and of the indexes are as before. -/
def Spares (table : HeapTable) (s s' : σ) : Prop :=
  ∀ r, r ≠ table.relationId → PageStore.pages s' r = PageStore.pages s r

lemma spares_refl (s : σ) : table.Spares s s := fun _ _ => rfl

lemma Spares.trans (h : table.Spares s s') (h' : table.Spares s' s'') : table.Spares s s'' :=
  fun r hr => (h' r hr).trans (h r hr)

lemma spares_of_eq (h : PageStore.pages s' = PageStore.pages s) : table.Spares s s' := by
  intro r _
  rw [h]

lemma spares_of_update {ps : List Page}
    (h : PageStore.pages s' = Function.update (PageStore.pages s) table.relationId (some ps)) :
    table.Spares s s' := by
  intro r hr
  rw [h, Function.update_of_ne hr]

lemma Shows.of_eq (h : table.Shows n rows s) (heq : PageStore.pages s' = PageStore.pages s) :
    table.Shows n rows s' := by
  rwa [Shows, heq]

lemma Shows.le (h : table.Shows n rows s) : n ≤ 2 ^ 64 := by
  have ⟨ps, hps, hn, _⟩ := h
  rw [← hn]
  exact (PageStore.length_le hps).trans PageStore.maxPages_le

lemma Shows.pageCount_ok (h : table.Shows n rows s) : ∃ s', table.pageCount.run s = .ok n s' ∧
    table.Shows n rows s' ∧ table.Spares s s' := by
  have ⟨ps, hps, hn, _⟩ := h
  have ⟨s', hrun, hpages⟩ := PageStore.count_ok hps
  refine ⟨s', ?_, h.of_eq hpages, spares_of_eq hpages⟩
  rw [pageCount, Exec.run_mapErr, hrun, Outcome.mapErr_ok, hn]

lemma Shows.fetchPage_ok (h : table.Shows n rows s) (hp : pageId.index < n) : ∃ page s',
    (table.fetchPage pageId).run s = .ok page s' ∧ (PageRun page fun s => rows ⟨pageId, s⟩) ∧
    table.Shows n rows s' ∧ table.Spares s s' := by
  have ⟨ps, hps, hn, hheap⟩ := h
  subst hn
  have hpage := List.getElem?_eq_getElem hp
  have ⟨s', hrun, _, hpages⟩ := PageStore.access_ok (table.pageKey pageId)
    (fun p : Page => (p, (none : Option Page))) hps hpage
  have hset : ps.set pageId.index ps[pageId.index] = ps := List.set_getElem_self ..
  have hsame : PageStore.pages s' = PageStore.pages s := by
    rw [hpages]
    show Function.update (PageStore.pages s) table.relationId (some (ps.set pageId.index ps[pageId.index])) = _
    rw [hset, ← hps, Function.update_eq_self]
  refine ⟨ps[pageId.index], s', ?_, hheap.pageRun hpage, h.of_eq hsame, spares_of_eq hsame⟩
  rw [fetchPage, Exec.run_mapErr, PageStore.fetchPage, hrun, Outcome.mapErr_ok]

lemma Shows.bind_eq_none (h : table.Shows n rows s) (hp : n ≤ pageId.index) :
    ((PageStore.pages s table.relationId).bind fun ps => ps[pageId.index]?) = none := by
  have ⟨ps, hps, hn, _⟩ := h
  subst hn
  rw [hps, Option.bind_some, List.getElem?_eq_none hp]

lemma Shows.fetchPage_err (h : table.Shows n rows s) (hp : n ≤ pageId.index) : ∃ e s',
    (table.fetchPage pageId).run s = .err e s' ∧ table.Shows n rows s' ∧ table.Spares s s' := by
  have ⟨e, s', hrun, hpages⟩ := PageStore.access_err (table.pageKey pageId)
    (fun p : Page => (p, (none : Option Page))) (h.bind_eq_none hp)
  refine ⟨.storage e, s', ?_, h.of_eq hpages, spares_of_eq hpages⟩
  rw [fetchPage, Exec.run_mapErr, PageStore.fetchPage, hrun, Outcome.mapErr_err]

lemma Shows.flushPage_ok (h : table.Shows n rows s) (hc : PageStore.Cached s (table.pageKey pageId)) :
    ∃ s', (table.flushPage pageId).run s = .ok () s' ∧ table.Shows n rows s' ∧ table.Spares s s' := by
  have ⟨s', hrun, hpages⟩ := PageStore.flush_ok hc
  refine ⟨s', ?_, h.of_eq hpages, spares_of_eq hpages⟩
  rw [flushPage, Exec.run_mapErr, hrun, Outcome.mapErr_ok]

/-- What a call on a page may leave. -/
structure OnPage (table : HeapTable) (s s' : σ) (n : Nat) (rows : RowId → Option Row) (pageId : PageId)
    (q : Page) : Prop where
  shows' {rows' : RowId → Option Row} : PageRun q (fun s => rows' ⟨pageId, s⟩) →
    (∀ id : RowId, id.pageId ≠ pageId → rows' id = rows id) → table.Shows n rows' s'

lemma Shows.onPage_ok {α : Type} (h : table.Shows n rows s) (hp : pageId.index < n) (call : PageM α) :
    ∃ page s', (table.onPage pageId call).run s = .ok (call.run page) s' ∧
      (PageRun page fun s => rows ⟨pageId, s⟩) ∧ PageStore.Cached s' (table.pageKey pageId) ∧
      (∀ a q, call.run page = .ok a q → table.Spares s s' ∧ table.OnPage s s' n rows pageId q) ∧
      ∀ e q, call.run page = .err e q → table.Spares s s' ∧ table.OnPage s s' n rows pageId q := by
  have hle := h.le
  have ⟨ps, hps, hn, hheap⟩ := h
  subst hn
  have hpage := List.getElem?_eq_getElem hp
  have ⟨s', hrun, hcached, hok, herr⟩ :=
    PageStore.withPageMut_ok (s := s) (table.pageKey pageId) call hps hpage
  have hset (q : Page) (hpages : PageStore.pages s' = Function.update (PageStore.pages s)
      table.relationId (some (ps.set pageId.index q))) :
      table.Spares s s' ∧ table.OnPage s s' ps.length rows pageId q := by
    refine ⟨spares_of_update hpages, ⟨?_⟩⟩
    intro rows' hq hother
    refine ⟨ps.set pageId.index q, ?_, List.length_set, hheap.set hle hp hq hother⟩
    rw [hpages, Function.update_self]
  refine ⟨ps[pageId.index], s', ?_, hheap.pageRun hpage, hcached, ?_, ?_⟩
  · rw [onPage, Exec.run_mapErr, hrun, Outcome.mapErr_ok]
  · intro a q hcall
    exact hset q (hok a q hcall)
  · intro e q hcall
    exact hset q (herr e q hcall)

lemma Shows.onPage_err {α : Type} (h : table.Shows n rows s) (hp : n ≤ pageId.index) (call : PageM α) :
    ∃ e s', (table.onPage pageId call).run s = .err e s' ∧ table.Shows n rows s' ∧ table.Spares s s' := by
  have ⟨e, s', hrun, hpages⟩ :=
    PageStore.withPageMut_err (s := s) (table.pageKey pageId) call (h.bind_eq_none hp)
  refine ⟨.storage e, s', ?_, h.of_eq hpages, spares_of_eq hpages⟩
  rw [onPage, Exec.run_mapErr, hrun, Outcome.mapErr_err]

lemma Shows.addPage_cases (h : table.Shows n rows s) :
    (∃ s', table.addPage.run s = .ok (PageId.new n) s' ∧ n < 2 ^ 64 ∧ table.Shows (n + 1) rows s' ∧
      table.Spares s s') ∨
    ∃ e s', table.addPage.run s = .err e s' ∧ table.Shows n rows s' ∧ table.Spares s s' := by
  have ⟨ps, hps, hn, hheap⟩ := h
  subst hn
  rcases Nat.lt_or_ge ps.length (PageStore.maxPages σ) with hlt | hge
  · have ⟨s', hrun, hpages⟩ := PageStore.allocate_ok hps hlt
    have hlt' : ps.length < 2 ^ 64 := hlt.trans_le PageStore.maxPages_le
    refine .inl ⟨s', ?_, hlt', ⟨ps ++ [Page.new], ?_, ?_, hheap.append hlt'⟩, spares_of_update hpages⟩
    · rw [addPage, Exec.run_mapErr, hrun, Outcome.mapErr_ok]
    · rw [hpages, Function.update_self]
    · rw [List.length_append, List.length_singleton]
  · have ⟨e, s', hrun, hpages⟩ := PageStore.allocate_err (s := s) (r := table.relationId) (by
      intro ps' hps'
      obtain rfl := Option.some.inj (hps.symm.trans hps')
      exact Nat.le_antisymm (PageStore.length_le hps) hge)
    refine .inr ⟨.storage e, s', ?_, h.of_eq hpages, spares_of_eq hpages⟩
    rw [addPage, Exec.run_mapErr, hrun, Outcome.mapErr_err]

/-- How a call on a table may end: `Err` leaves the rows as they were. -/
def KeepsRows {α : Type} (table : HeapTable) (s : σ) (rows : RowId → Option Row)
    (after : α → (RowId → Option Row) → Prop) : Outcome TableError σ α → Prop
  | .ok a s' => ∃ n rows', after a rows' ∧ table.Shows n rows' s' ∧ table.Spares s s'
  | .err _ s' => ∃ n, table.Shows n rows s' ∧ table.Spares s s'
  | _ => True

lemma KeepsRows.of_spares {α : Type} {after : α → (RowId → Option Row) → Prop}
    {o : Outcome TableError σ α} (h : table.Spares s s') (ho : table.KeepsRows s' rows after o) :
    table.KeepsRows s rows after o := by
  cases o with
  | ok a s'' =>
    have ⟨n, rows', ha, hshows, hspares⟩ := ho
    exact ⟨n, rows', ha, hshows, h.trans hspares⟩
  | err e s'' =>
    have ⟨n, hshows, hspares⟩ := ho
    exact ⟨n, hshows, h.trans hspares⟩
  | panic => trivial
  | diverge => trivial

/-- A row in its slot, page by page. -/
lemma row_update_at {slotId : SlotId} :
    (fun s => Function.update rows ⟨pageId, slotId⟩ stored ⟨pageId, s⟩) =
      Function.update (fun s => rows ⟨pageId, s⟩) slotId stored := by
  funext s
  by_cases hs : s = slotId
  · rw [hs, Function.update_self, Function.update_self]
  · rw [Function.update_of_ne hs, Function.update_of_ne]
    intro heq
    exact hs (congrArg RowId.slotId heq)

lemma row_update_off {s : SlotId} (id : RowId) (hid : id.pageId ≠ pageId) :
    Function.update rows ⟨pageId, s⟩ stored id = rows id := by
  rw [Function.update_of_ne]
  intro heq
  exact hid (congrArg RowId.pageId heq)

/-- A row has been put into a slot of a page that is then flushed. -/
lemma OnPage.flushed {s₁ : σ} {q : Page} {slotId : SlotId} (h : table.OnPage s s₁ n rows pageId q)
    (hspares : table.Spares s s₁) (hc : PageStore.Cached s₁ (table.pageKey pageId))
    (hq : PageRun q (Function.update (fun s => rows ⟨pageId, s⟩) slotId stored)) :
    ∃ s', (table.flushPage pageId).run s₁ = .ok () s' ∧
      table.Shows n (Function.update rows ⟨pageId, slotId⟩ stored) s' ∧ table.Spares s s' := by
  have hshows : table.Shows n (Function.update rows ⟨pageId, slotId⟩ stored) s₁ := by
    apply h.shows'
    · rwa [row_update_at]
    · exact row_update_off
  have ⟨s', hrun, hshows', hspares'⟩ := hshows.flushPage_ok hc
  exact ⟨s', hrun, hshows', hspares.trans hspares'⟩

lemma Shows.changeRow_keepsRows {call : PageM Unit} (h : table.Shows n rows s)
    (hcall : ChangesRow call id.slotId stored) : table.KeepsRows s rows
      (fun _ rows' => rows id ≠ none ∧ rows' = Function.update rows id stored)
      ((table.changeRow id.pageId call).run s) := by
  unfold changeRow
  rw [Exec.run_bind]
  rcases Nat.lt_or_ge id.pageId.index n with hlt | hge
  · have ⟨page, s₁, hrun, hpage, hcached, hok, herr⟩ := h.onPage_ok hlt call
    rw [hrun, Outcome.andThen_ok]
    cases hc : call.run page with
    | ok a q =>
      have ⟨hspares, hon⟩ := hok a q hc
      have ⟨s', hflush, hshows, hspares'⟩ := hon.flushed hspares hcached (hcall.ok hpage hc)
      show table.KeepsRows s rows _ ((table.flushPage id.pageId).run s₁)
      rw [hflush]
      exact ⟨n, _, ⟨hcall.live hpage hc, rfl⟩, hshows, hspares'⟩
    | err e q =>
      have ⟨hspares, hon⟩ := herr e q hc
      exact ⟨n, hon.shows' (hcall.err hpage hc) fun _ _ => rfl, hspares⟩
    | panic => trivial
    | diverge => trivial
  · have ⟨e, s', hrun, hshows, hspares⟩ := h.onPage_err hge call
    rw [hrun, Outcome.andThen_err]
    exact ⟨n, hshows, hspares⟩

/-- What `insert` leaves when it returns an id. -/
def Inserts (rows : RowId → Option Row) (row : Row) (id : RowId) (rows' : RowId → Option Row) : Prop :=
  rows id = none ∧ rows' = Function.update rows id (some row)

/-- The pages that the loop passes over may have been compacted, which no row shows. -/
lemma Shows.insertLoop_keepsRows (row : Row) (remaining i : Nat) {s : σ} (h : table.Shows n rows s)
    (hi : i + remaining = n) : table.KeepsRows s rows (fun found rows' => match found with
        | some id => Inserts rows row id rows'
        | none => rows' = rows)
      ((table.insertLoop row i remaining).run s) := by
  induction remaining generalizing i s with
  | zero => exact ⟨n, rows, rfl, h, spares_refl s⟩
  | succ remaining ih =>
    have hindex : (PageId.new i).index = i := PageId.index_new (by have := h.le; omega)
    have hlt : (PageId.new i).index < n := by omega
    have ⟨page, s₁, hrun, hpage, hcached, hok, herr⟩ := h.onPage_ok hlt (Page.insertRow row)
    rw [insertLoop, Exec.run_bind, hrun, Outcome.andThen_ok]
    cases hc : (Page.insertRow row).run page with
    | ok slotId q =>
      have ⟨hspares, hon⟩ := hok slotId q hc
      have ⟨hfree, hq⟩ := hpage.insertRow_ok hc
      have ⟨s', hflush, hshows, hspares'⟩ := hon.flushed hspares hcached hq
      simp only [Exec.run_bind, hflush, Outcome.andThen_ok]
      exact ⟨n, _, ⟨hfree, rfl⟩, hshows, hspares'⟩
    | err e q =>
      have ⟨hspares, hon⟩ := herr e q hc
      have hshows : table.Shows n rows s₁ := hon.shows' (hpage.insertRow_err hc) fun _ _ => rfl
      by_cases he : e = .storageFull
      · subst he
        exact (ih (i + 1) hshows (by omega)).of_spares hspares
      · have hthrow : table.KeepsRows s rows (fun found rows' => match found with
            | some id => Inserts rows row id rows'
            | none => rows' = rows) (.err (.page e) s₁) := ⟨n, hshows, hspares⟩
        cases e <;> first | exact hthrow | exact absurd rfl he
    | panic => trivial
    | diverge => trivial

lemma Shows.insertNewPage_keepsRows (row : Row) (h : table.Shows n rows s) :
    table.KeepsRows s rows (Inserts rows row) ((table.insertNewPage row).run s) := by
  unfold insertNewPage
  rw [Exec.run_bind]
  rcases h.addPage_cases with ⟨s₁, hadd, hn, hshows, hspares⟩ | ⟨e, s₁, hadd, hshows, hspares⟩
  · have hlt : (PageId.new n).index < n + 1 := by
      rw [PageId.index_new hn]
      exact Nat.lt_succ_self n
    have ⟨page, s₂, hrun, hpage, hcached, hok, herr⟩ := hshows.onPage_ok hlt (Page.insertRow row)
    simp only [hadd, Outcome.andThen_ok, Exec.run_bind, hrun]
    cases hc : (Page.insertRow row).run page with
    | ok slotId q =>
      have ⟨hspares', hon⟩ := hok slotId q hc
      have ⟨hfree, hq⟩ := hpage.insertRow_ok hc
      have ⟨s', hflush, hshows', hspares''⟩ := hon.flushed hspares' hcached hq
      simp only [Exec.run_bind, hflush, Outcome.andThen_ok]
      exact ⟨n + 1, _, ⟨hfree, rfl⟩, hshows', hspares.trans hspares''⟩
    | err e q =>
      have ⟨hspares', hon⟩ := herr e q hc
      exact ⟨n + 1, hon.shows' (hpage.insertRow_err hc) fun _ _ => rfl, hspares.trans hspares'⟩
    | panic => trivial
    | diverge => trivial
  · rw [hadd, Outcome.andThen_err]
    exact ⟨n, hshows, hspares⟩

lemma Shows.insert_keepsRows (row : Row) (h : table.Shows n rows s) :
    table.KeepsRows s rows (Inserts rows row) ((table.insert row).run s) := by
  have ⟨s₁, hcount, hshows, hspares⟩ := h.pageCount_ok
  rw [insert, Exec.run_bind, hcount, Outcome.andThen_ok, Exec.run_bind]
  apply KeepsRows.of_spares hspares
  have hloop := hshows.insertLoop_keepsRows row n 0 (Nat.zero_add n)
  cases hrun : (table.insertLoop row 0 n).run s₁ with
  | ok found s₂ =>
    rw [hrun] at hloop
    have ⟨n', rows', hfound, hshows', hspares'⟩ := hloop
    cases found with
    | some id => exact ⟨n', rows', hfound, hshows', hspares'⟩
    | none =>
      have hsame : rows' = rows := hfound
      subst hsame
      exact (hshows'.insertNewPage_keepsRows row).of_spares hspares'
  | err e s₂ =>
    rw [hrun] at hloop
    exact hloop
  | panic => trivial
  | diverge => trivial

/-- A page that has been added takes every row of at most 8180 bytes. -/
lemma Shows.insertNewPage_ok (h : table.Shows n rows s) (hn : n < PageStore.maxPages σ)
    (hrow : rowAllocationSize row.data.length ≤ 8180) :
    ∃ id s', (table.insertNewPage row).run s = .ok id s' := by
  obtain ⟨ps, hps, rfl, -⟩ := h
  have hindex : (PageId.new ps.length).index = ps.length :=
    PageId.index_new (hn.trans_le PageStore.maxPages_le)
  obtain ⟨s₁, hadd, hpages⟩ := PageStore.allocate_ok hps hn
  obtain ⟨slotId, q, hinsert⟩ := insertRow_new hrow
  obtain ⟨s₂, hguard, hcached, -⟩ := PageStore.withPageMut_ok (s := s₁) (p := Page.new)
    (table.pageKey (PageId.new ps.length)) (Page.insertRow row)
    (by rw [hpages]; exact Function.update_self ..) (by simp [pageKey, hindex])
  obtain ⟨s₃, hflush, -⟩ := PageStore.flush_ok hcached
  refine ⟨⟨PageId.new ps.length, slotId⟩, s₃, ?_⟩
  simp only [insertNewPage, addPage, onPage, flushPage, Exec.run_bind, Exec.run_mapErr, hadd, hguard, hinsert,
    hflush, Outcome.mapErr_ok, Outcome.andThen_ok]
  rfl

/-- The loop stops at a page that takes the row, or finds all of them full. -/
lemma Shows.insertLoop_ok (remaining i : Nat) {s : σ} (h : table.Shows n rows s) (hi : i + remaining = n)
    (hrow : rowAllocationSize row.data.length ≤ 8180) :
    ∃ found s', (table.insertLoop row i remaining).run s = .ok found s' ∧ ∃ rows', table.Shows n rows' s' := by
  induction remaining generalizing i s with
  | zero => exact ⟨none, s, rfl, rows, h⟩
  | succ remaining ih =>
    have hindex : (PageId.new i).index = i := PageId.index_new (by have := h.le; omega)
    have hlt : (PageId.new i).index < n := by omega
    obtain ⟨page, s₁, hrun, hpage, hcached, hok, herr⟩ := h.onPage_ok hlt (Page.insertRow row)
    rw [insertLoop, Exec.run_bind, hrun, Outcome.andThen_ok]
    rcases hpage.insertRow_short hrow with ⟨slotId, q, hc⟩ | ⟨q, hc⟩
    · obtain ⟨hspares, hon⟩ := hok slotId q hc
      obtain ⟨s', hflush, hshows, -⟩ := hon.flushed hspares hcached (hpage.insertRow_ok hc).2
      simp only [hc, Exec.run_bind, hflush, Outcome.andThen_ok]
      exact ⟨_, s', rfl, _, hshows⟩
    · have hshows : table.Shows n rows s₁ := (herr .storageFull q hc).2.shows' (hpage.insertRow_err hc) fun _ _ => rfl
      rw [hc]
      exact ih (i + 1) hshows (by omega)

/-- A table takes every row of at most 8180 bytes while its file can grow. -/
lemma Shows.insert_ok (h : table.Shows n rows s) (hn : n < PageStore.maxPages σ)
    (hrow : rowAllocationSize row.data.length ≤ 8180) :
    ∃ id s', (table.insert row).run s = .ok id s' := by
  obtain ⟨s₁, hcount, hshows, -⟩ := h.pageCount_ok
  obtain ⟨found, s₂, hloop, rows', hshows'⟩ := hshows.insertLoop_ok n 0 (Nat.zero_add n) hrow
  rw [insert, Exec.run_bind, hcount, Outcome.andThen_ok, Exec.run_bind, hloop, Outcome.andThen_ok]
  cases found with
  | some id => exact ⟨id, s₂, rfl⟩
  | none => exact hshows'.insertNewPage_ok hn hrow

lemma Shows.get_eq (id : RowId) (h : table.Shows n rows s) : ∃ s', table.Shows n rows s' ∧
    table.Spares s s' ∧ match rows id with
      | some row => (table.get id).run s = .ok row s'
      | none => ∃ e, (table.get id).run s = .err e s' := by
  unfold get
  rw [Exec.run_bind]
  rcases Nat.lt_or_ge id.pageId.index n with hlt | hge
  · have ⟨page, s', hrun, hpage, hshows, hspares⟩ := h.fetchPage_ok hlt
    refine ⟨s', hshows, hspares, ?_⟩
    rw [hrun, Outcome.andThen_ok, hpage.readRow_eq]
    cases rows id with
    | some row => rfl
    | none => exact ⟨_, rfl⟩
  · have ⟨e, s', hrun, hshows, hspares⟩ := h.fetchPage_err hge
    have ⟨ps, _, hn, hheap⟩ := h
    subst hn
    refine ⟨s', hshows, hspares, ?_⟩
    rw [hheap.absent hge, hrun, Outcome.andThen_err]
    exact ⟨e, rfl⟩

lemma Shows.get_value (h : table.Shows n rows s) (id : RowId) : ((table.get id).run s).value? = rows id := by
  obtain ⟨s', -, -, hget⟩ := h.get_eq id
  cases hrow : rows id with
  | some row =>
    rw [hrow] at hget
    rw [hget]
    rfl
  | none =>
    rw [hrow] at hget
    obtain ⟨e, hget⟩ := hget
    rw [hget]
    rfl

end Calls

/-! ### Scans -/

section Scan

variable {σ : Type} [PageStore σ] {table : HeapTable} {s s' : σ} {n : Nat} {rows : RowId → Option Row}

/-- The order of the pages, and of the slots on one page. -/
def Before (a b : RowId × Row) : Prop :=
  a.1.pageId.index < b.1.pageId.index ∨
    a.1.pageId = b.1.pageId ∧ a.1.slotId.index < b.1.slotId.index

/-- The rows of the pages before the `i`-th one. -/
structure Scanned (rows : RowId → Option Row) (i : Nat) (scans : List (RowId × Row)) : Prop where
  ordered : scans.Pairwise Before
  mem_iff (id : RowId) (row : Row) :
    (id, row) ∈ scans ↔ id.pageId.index < i ∧ rows id = some row

lemma Scanned.page {i : Nat} {scans : List (RowId × Row)} {live : List (SlotId × Row)}
    (h : Scanned rows i scans) (hi : i < 2 ^ 64)
    (hordered : live.Pairwise fun x y => x.1.index < y.1.index)
    (hmem : ∀ s row, (s, row) ∈ live ↔ rows ⟨PageId.new i, s⟩ = some row) :
    Scanned rows (i + 1)
      (scans ++ live.map fun (slotId, row) => (⟨PageId.new i, slotId⟩, row)) := by
  have hindex : (PageId.new i).index = i := PageId.index_new hi
  constructor
  · rw [List.pairwise_append, List.pairwise_map]
    refine ⟨h.ordered, hordered.imp fun hxy => .inr ⟨rfl, hxy⟩, ?_⟩
    intro a ha b hb
    have ⟨x, _, hx⟩ := List.mem_map.mp hb
    left
    rw [← hx]
    show a.1.pageId.index < (PageId.new i).index
    rw [hindex]
    exact ((h.mem_iff a.1 a.2).mp ha).1
  · intro id row
    rw [List.mem_append, h.mem_iff, List.mem_map]
    constructor
    · rintro (⟨hlt, hrow⟩ | ⟨x, hx, heq⟩)
      · exact ⟨by omega, hrow⟩
      · obtain ⟨rfl, rfl⟩ := Prod.mk.inj heq
        refine ⟨?_, (hmem _ _).mp hx⟩
        show (PageId.new i).index < i + 1
        omega
    · rintro ⟨hlt, hrow⟩
      rcases Nat.lt_or_ge id.pageId.index i with hold | hnew
      · exact .inl ⟨hold, hrow⟩
      · have hpage : PageId.new i = id.pageId := by
          apply PageId.index_injective
          omega
        refine .inr ⟨(id.slotId, row), ?_, ?_⟩
        · rw [hmem, hpage]
          exact hrow
        · rw [hpage]

lemma Shows.scanLoop_ok (remaining i : Nat) {s : σ} {scans : List (RowId × Row)}
    (h : table.Shows n rows s) (hi : i + remaining = n) (hscans : Scanned rows i scans) :
    ∃ live s', (table.scanLoop i remaining scans).run s = .ok live s' ∧ Scanned rows n live ∧
      table.Shows n rows s' ∧ table.Spares s s' := by
  induction remaining generalizing i s scans with
  | zero =>
    obtain rfl : i = n := hi
    exact ⟨scans, s, rfl, hscans, h, spares_refl s⟩
  | succ remaining ih =>
    have hlt : i < 2 ^ 64 := by
      have := h.le
      omega
    have hindex : (PageId.new i).index = i := PageId.index_new hlt
    have hpageLt : (PageId.new i).index < n := by omega
    have ⟨page, s₁, hrun, hpage, hshows, hspares⟩ := h.fetchPage_ok hpageLt
    have ⟨live, hlive, hordered, hmem⟩ := hpage.scanRows_eq
    have ⟨all, s', hrest, hall, hshows', hspares'⟩ :=
      ih (i + 1) hshows (by omega) (hscans.page hlt hordered hmem)
    refine ⟨all, s', ?_, hall, hshows', hspares.trans hspares'⟩
    rw [scanLoop, Exec.run_bind, hrun, Outcome.andThen_ok, Exec.run_bind, hlive]
    exact hrest

lemma Shows.scan_ok (h : table.Shows n rows s) : ∃ live s', table.scan.run s = .ok live s' ∧
    live.Pairwise Before ∧ (∀ id row, (id, row) ∈ live ↔ rows id = some row) ∧
    table.Shows n rows s' ∧ table.Spares s s' := by
  have ⟨s₁, hcount, hshows, hspares⟩ := h.pageCount_ok
  have hstart : Scanned rows 0 [] := ⟨List.Pairwise.nil, fun id row => by simp⟩
  have hpresent {id : RowId} {row : Row} (hrow : rows id = some row) : id.pageId.index < n := by
    have ⟨ps, _, hn, hheap⟩ := h
    by_contra hge
    rw [hheap.absent (by omega)] at hrow
    cases hrow
  have hrun : table.scan.run s = (table.scanLoop 0 n []).run s₁ := by
    rw [scan, Exec.run_bind, hcount, Outcome.andThen_ok]
    split
    · rename_i hzero
      rw [hzero]
      rfl
    · rfl
  have ⟨live, s', hloop, hlive, hshows', hspares'⟩ :=
    hshows.scanLoop_ok n 0 (Nat.zero_add n) hstart
  refine ⟨live, s', hrun.trans hloop, hlive.ordered, ?_, hshows', hspares.trans hspares'⟩
  intro id row
  rw [hlive.mem_iff]
  exact ⟨And.right, fun hrow => ⟨hpresent hrow, hrow⟩⟩

end Scan

end HeapTable

end RdbRs
