import RdbRs.Storage.StorageManagerSpec

/-!
# Runs of the storage manager

A run is any sequence of calls, each of which may fail. Beside the manager it keeps the bytes that
were last written to each page: those of the file the manager was opened on, until a guard writes
others.
-/

namespace RdbRs

open WriteBack

/-- The pages of the files. -/
def FileStore.contents (data : FileStore) (key : PageKey) : Option Page :=
  (data.files key.relationId).bind fun pages => pages[key.pageId.index]?

namespace StorageManager

/-- `fetch_page`, with the bytes that the guard shows. The caller may then write others through it. -/
def fetchAndUse (key : PageKey) (write : Page → Option Page) : Exec StorageError StorageManager Page :=
  access key fun page => (page, write page)

/-- The managers of runs with the bytes last written to each page. -/
inductive Run : StorageManager → (PageKey → Option Page) → Prop where
  | start {capacity : Nat} (data : FileStore) (faults : Nat → Bool) : 0 < capacity →
      Run (withCapacity data faults capacity) data.contents
  | fetched {s s' : StorageManager} {last : PageKey → Option Page} {key : PageKey}
      {write : Page → Option Page} {page : Page} : Run s last →
      (fetchAndUse key write).run s = .ok page s' → Run s' (written last key (write page))
  | notFetched {s s' : StorageManager} {last : PageKey → Option Page} {key : PageKey}
      {write : Page → Option Page} {e : StorageError} : Run s last →
      (fetchAndUse key write).run s = .err e s' → Run s' last
  | flushed {s s' : StorageManager} {last : PageKey → Option Page} {key : PageKey} : Run s last →
      ((flushPage key).run s).Returns s' → Run s' last
  | allocated {s s' : StorageManager} {last : PageKey → Option Page} {r : RelationId}
      {pageId : PageId} : Run s last → (allocatePage r).run s = .ok pageId s' →
      Run s' (Function.update last ⟨r, pageId⟩ (some Page.new))
  | notAllocated {s s' : StorageManager} {last : PageKey → Option Page} {r : RelationId}
      {e : StorageError} : Run s last → (allocatePage r).run s = .err e s' → Run s' last
  | counted {s s' : StorageManager} {last : PageKey → Option Page} {r : RelationId} : Run s last →
      ((pageCount r).run s).Returns s' → Run s' last
  | created {s s' : StorageManager} {last : PageKey → Option Page} {r : RelationId} : Run s last →
      ((createRelation r).run s).Returns s' → Run s' last
  | registered {s s' : StorageManager} {last : PageKey → Option Page} {r : RelationId} : Run s last →
      ((registerRelation r).run s).Returns s' → Run s' last

/-- The manager shows the bytes last written to each page, in whichever way it keeps them. -/
structure Transparent (s : StorageManager) (last : PageKey → Option Page) : Prop where
  shown_eq : s.view.shown = last
  fetched {key : PageKey} {write : Page → Option Page} {page : Page} {s' : StorageManager} :
    (fetchAndUse key write).run s = .ok page s' → last key = some page
  flushed {key : PageKey} {s' : StorageManager} : (flushPage key).run s = .ok () s' →
    last key ≠ none ∧ s'.relationFileManager.data.contents key = last key
  allocated {r : RelationId} {pageId : PageId} {s' : StorageManager} :
    (allocatePage r).run s = .ok pageId s' → last ⟨r, pageId⟩ = none
  counted {r : RelationId} {count : Nat} {s' : StorageManager} : (pageCount r).run s = .ok count s' →
    ∃ pages, s'.relationFileManager.data.files r = some pages ∧ pages.length = count
  fetch_returns (key : PageKey) (write : Page → Option Page) : ∃ s', ((fetchAndUse key write).run s).Returns s'
  flush_returns (key : PageKey) : ∃ s', ((flushPage key).run s).Returns s'
  allocate_returns (r : RelationId) : ∃ s', ((allocatePage r).run s).Returns s'
  count_returns (r : RelationId) : ∃ s', ((pageCount r).run s).Returns s'

section Calls

variable {s s' : StorageManager} {last : PageKey → Option Page} {key : PageKey} {r : RelationId}
  {write : Page → Option Page} {page : Page} {pageId : PageId} {count : Nat} {e : StorageError}

lemma Quiet.shown_eq (h : s.Valid) (hq : Quiet s s') : s'.view.shown = s.view.shown :=
  (h.toSound.same hq.moves).shown_eq

lemma fetchAndUse_ok (h : s.Valid) (hrun : (fetchAndUse key write).run s = .ok page s') :
    s.view.shown key = some page ∧ Accessed s s' key (write page) := by
  rcases access_cases h key fun page => (page, write page) with ⟨page', s₁, hrun', hshown, hs₁⟩ |
    ⟨e, s₁, hrun', _⟩
  · have heq := hrun'.symm.trans hrun
    simp only [Outcome.ok.injEq] at heq
    obtain ⟨rfl, rfl⟩ := heq
    exact ⟨hshown, hs₁⟩
  · cases hrun'.symm.trans hrun

lemma fetchAndUse_err (h : s.Valid) (hrun : (fetchAndUse key write).run s = .err e s') : Quiet s s' := by
  rcases access_cases h key fun page => (page, write page) with ⟨page', s₁, hrun', _⟩ |
    ⟨e, s₁, hrun', hquiet, _⟩
  · cases hrun'.symm.trans hrun
  · cases hrun'.symm.trans hrun
    exact hquiet

lemma flushPage_returns (h : s.Valid) (hrun : ((flushPage key).run s).Returns s') : Quiet s s' := by
  rcases flushPage_cases h key with ⟨_, hrun'⟩ | ⟨s₁, page, hrun', hquiet, _⟩ | ⟨e, s₁, hrun', hquiet, _⟩
  all_goals
    rw [hrun'] at hrun
    rcases hrun with ⟨_, heq⟩ | ⟨_, heq⟩ <;> cases heq
  · exact .refl h
  · exact hquiet
  · exact hquiet

lemma flushPage_ok (h : s.Valid) (hrun : (flushPage key).run s = .ok () s') :
    s.view.shown key ≠ none ∧ s'.view.stored key = s.view.shown key := by
  rcases flushPage_cases h key with ⟨_, hrun'⟩ | ⟨s₁, page, hrun', hquiet, hclean⟩ | ⟨e, s₁, hrun', _⟩
  · cases hrun'.symm.trans hrun
  · cases hrun'.symm.trans hrun
    rw [hquiet.valid.coherent.clean hclean, ← hquiet.shown_eq h, shown_of_cached hclean]
    exact ⟨Option.some_ne_none _, rfl⟩
  · cases hrun'.symm.trans hrun

lemma allocatePage_ok (h : s.Valid) (hrun : (allocatePage r).run s = .ok pageId s') :
    ∃ pages, pageId = PageId.new pages.length ∧ Allocated s s' r pages := by
  rcases allocatePage_cases h r with ⟨pages, s₁, hrun', hs₁⟩ | ⟨e, s₁, hrun', _⟩
  · cases hrun'.symm.trans hrun
    exact ⟨pages, rfl, hs₁⟩
  · cases hrun'.symm.trans hrun

lemma allocatePage_err (h : s.Valid) (hrun : (allocatePage r).run s = .err e s') : Quiet s s' := by
  rcases allocatePage_cases h r with ⟨pages, s₁, hrun', _⟩ | ⟨e, s₁, hrun', hquiet, _⟩
  · cases hrun'.symm.trans hrun
  · cases hrun'.symm.trans hrun
    exact hquiet

/-- A new page has no bytes before. -/
lemma Allocated.shown_eq_none {pages : List Page} (h : s.Valid) (ha : Allocated s s' r pages) :
    s.view.shown ⟨r, PageId.new pages.length⟩ = none := by
  rw [h.coherent.shown_eq_none]
  exact stored_eq_none_of_length ha.file_eq (Nat.le_refl _) (ha.length_lt.trans (by decide))

lemma pageCount_returns (h : s.Valid) (hrun : ((pageCount r).run s).Returns s') :
    s'.Valid ∧ s'.view.shown = s.view.shown := by
  rcases pageCount_cases h r with ⟨pages, s₁, hrun', hvalid, hview, _⟩ | ⟨e, s₁, hrun', hquiet, _⟩
  all_goals
    rw [hrun'] at hrun
    rcases hrun with ⟨_, heq⟩ | ⟨_, heq⟩ <;> cases heq
  · exact ⟨hvalid, by rw [hview]⟩
  · exact ⟨hquiet.valid, hquiet.shown_eq h⟩

lemma pageCount_ok (h : s.Valid) (hrun : (pageCount r).run s = .ok count s') :
    ∃ pages, s'.relationFileManager.data.files r = some pages ∧ pages.length = count := by
  rcases pageCount_cases h r with ⟨pages, s₁, hrun', _, _, hfiles, hfile⟩ | ⟨e, s₁, hrun', _⟩
  · cases hrun'.symm.trans hrun
    exact ⟨pages, by rw [hfiles.data_eq, hfile], rfl⟩
  · cases hrun'.symm.trans hrun

lemma Registered.keeps (h : Registered s s' r) : s'.Valid ∧ s'.view.shown = s.view.shown :=
  ⟨h.valid, by rw [h.view_eq]⟩

lemma createRelation_returns (h : s.Valid) (hrun : ((createRelation r).run s).Returns s') :
    s'.Valid ∧ s'.view.shown = s.view.shown := by
  rcases createRelation_cases h r with ⟨s₁, hrun', hs₁⟩ | ⟨e, s₁, hrun', hquiet, _⟩
  all_goals
    rw [hrun'] at hrun
    rcases hrun with ⟨_, heq⟩ | ⟨_, heq⟩ <;> cases heq
  · exact hs₁.keeps
  · exact ⟨hquiet.valid, hquiet.shown_eq h⟩

lemma registerRelation_returns (h : s.Valid) (hrun : ((registerRelation r).run s).Returns s') :
    s'.Valid ∧ s'.view.shown = s.view.shown := by
  rcases registerRelation_cases h r with ⟨s₁, hrun', hs₁⟩ | ⟨e, s₁, hrun', hquiet⟩
  all_goals
    rw [hrun'] at hrun
    rcases hrun with ⟨_, heq⟩ | ⟨_, heq⟩ <;> cases heq
  · exact hs₁.keeps
  · exact ⟨hquiet.valid, hquiet.shown_eq h⟩

end Calls

section Runs

variable {s : StorageManager} {last : PageKey → Option Page}

/-- The invariant holds and the pages show what was last written, whatever calls have been made. -/
lemma Run.valid (h : Run s last) : s.Valid ∧ s.view.shown = last := by
  induction h with
  | start data faults hcapacity =>
    exact ⟨valid_withCapacity data faults hcapacity, shown_withCapacity data faults _⟩
  | fetched _ hrun ih =>
    have ⟨_, hs'⟩ := fetchAndUse_ok ih.1 hrun
    exact ⟨hs'.valid, by rw [hs'.shown_eq, ih.2]⟩
  | notFetched _ hrun ih =>
    have hquiet := fetchAndUse_err ih.1 hrun
    exact ⟨hquiet.valid, (hquiet.shown_eq ih.1).trans ih.2⟩
  | flushed _ hrun ih =>
    have hquiet := flushPage_returns ih.1 hrun
    exact ⟨hquiet.valid, (hquiet.shown_eq ih.1).trans ih.2⟩
  | allocated _ hrun ih =>
    have ⟨pages, hid, hs'⟩ := allocatePage_ok ih.1 hrun
    exact ⟨hs'.valid, by rw [hs'.shown_eq, ih.2, hid]⟩
  | notAllocated _ hrun ih =>
    have hquiet := allocatePage_err ih.1 hrun
    exact ⟨hquiet.valid, (hquiet.shown_eq ih.1).trans ih.2⟩
  | counted _ hrun ih =>
    have ⟨hvalid, hshown⟩ := pageCount_returns ih.1 hrun
    exact ⟨hvalid, hshown.trans ih.2⟩
  | created _ hrun ih =>
    have ⟨hvalid, hshown⟩ := createRelation_returns ih.1 hrun
    exact ⟨hvalid, hshown.trans ih.2⟩
  | registered _ hrun ih =>
    have ⟨hvalid, hshown⟩ := registerRelation_returns ih.1 hrun
    exact ⟨hvalid, hshown.trans ih.2⟩

/-- The buffer pool cannot be told from the files it stands for, in every order of calls and
whichever of the calls on the files fail. -/
theorem run_transparent (h : Run s last) : Transparent s last := by
  have ⟨hvalid, hshown⟩ := h.valid
  constructor
  · exact hshown
  · intro key write page s' hrun
    rw [← hshown]
    exact (fetchAndUse_ok hvalid hrun).1
  · intro key s' hrun
    rw [← hshown]
    exact flushPage_ok hvalid hrun
  · intro r pageId s' hrun
    have ⟨pages, hid, hs'⟩ := allocatePage_ok hvalid hrun
    rw [← hshown, hid]
    exact hs'.shown_eq_none hvalid
  · intro r count s' hrun
    exact pageCount_ok hvalid hrun
  · intro key write
    rcases access_cases hvalid key fun page => (page, write page) with ⟨page, s', hrun, _⟩ |
      ⟨e, s', hrun, _⟩
    · exact ⟨s', .inl ⟨page, hrun⟩⟩
    · exact ⟨s', .inr ⟨e, hrun⟩⟩
  · intro key
    rcases flushPage_cases hvalid key with ⟨_, hrun⟩ | ⟨s', _, hrun, _⟩ | ⟨e, s', hrun, _⟩
    · exact ⟨s, .inr ⟨_, hrun⟩⟩
    · exact ⟨s', .inl ⟨_, hrun⟩⟩
    · exact ⟨s', .inr ⟨e, hrun⟩⟩
  · intro r
    rcases allocatePage_cases hvalid r with ⟨pages, s', hrun, _⟩ | ⟨e, s', hrun, _⟩
    · exact ⟨s', .inl ⟨_, hrun⟩⟩
    · exact ⟨s', .inr ⟨e, hrun⟩⟩
  · intro r
    rcases pageCount_cases hvalid r with ⟨pages, s', hrun, _⟩ | ⟨e, s', hrun, _⟩
    · exact ⟨s', .inl ⟨_, hrun⟩⟩
    · exact ⟨s', .inr ⟨e, hrun⟩⟩

/-- A heap file of two pages and an index file of one page. -/
def twoFiles : FileStore :=
  (FileStore.empty.put (.heap ⟨1⟩) [Page.newRaw, Page.new] (by decide)).put (.index ⟨1⟩) [Page.newRaw]
    (by decide)

/-- One frame for all pages, and the second call on the files fails. -/
theorem run_transparent_oneFrame : ∃ s last, Transparent s last ∧
    last ⟨.heap ⟨1⟩, PageId.new 0⟩ = some Page.new := by
  have hstart : Run (withCapacity twoFiles (fun n => n = 1) 1) twoFiles.contents :=
    .start twoFiles _ Nat.one_pos
  have hheap := @Run.registered _ _ _ (.heap ⟨1⟩) hstart (.inl ⟨(), rfl⟩)
  have hindex := @Run.registered _ _ _ (.index ⟨1⟩) hheap (.inr ⟨_, rfl⟩)
  have hwrite := @Run.fetched _ _ _ ⟨.heap ⟨1⟩, PageId.new 0⟩ (fun _ => some Page.new) Page.newRaw
    hindex rfl
  have hevict := @Run.fetched _ _ _ ⟨.heap ⟨1⟩, PageId.new 1⟩ (fun _ => none) Page.new hwrite rfl
  exact ⟨_, _, run_transparent hevict, rfl⟩

end Runs

end StorageManager

end RdbRs
