import RdbRs.Lib.WriteBack
import RdbRs.Storage.Clock
import RdbRs.Storage.StorageManager

/-!
# What the storage manager does

The manager is a write-back cache over the pages of the files. Each call moves pages between the
two, and on top of that does to one page what it says.
-/

namespace RdbRs

open WriteBack

namespace RelationFileManager

/-- The pages in the files. -/
def stored (m : RelationFileManager) (key : PageKey) : Option Page :=
  (m.data.files key.relationId).bind fun pages => pages[key.pageId.index]?

def Reliable (m : RelationFileManager) : Prop := ∀ n, m.faults n = false

/-- The error of a read of a page that is not there. -/
def missing (m : RelationFileManager) (key : PageKey) : RelationFileManagerError :=
  if m.registeredRelations key.relationId then
    match m.data.files key.relationId with
    | none => .io
    | some _ => .pager (if maxFilePages ≤ key.pageId.index then .pageOffsetOverflow key.pageId else .io)
  else .relationNotRegistered key.relationId

/-- A call has failed or only read. -/
structure SameFiles (m m' : RelationFileManager) : Prop where
  data_eq : m'.data = m.data
  registered_eq : m'.registeredRelations = m.registeredRelations
  reliable : m.Reliable → m'.Reliable

section Calls

variable {m : RelationFileManager} {r : RelationId} {key : PageKey} {page : Page} {pages : List Page}

lemma sameFiles_refl (m : RelationFileManager) : SameFiles m m := ⟨rfl, rfl, id⟩

lemma sameFiles_next (m : RelationFileManager) : SameFiles m m.next :=
  ⟨rfl, rfl, fun h n => h (n + 1)⟩

lemma stored_put (h : pages.length ≤ maxFilePages) : (m.putPages r pages h).stored key =
    if key.relationId = r then pages[key.pageId.index]? else m.stored key := by
  show (Function.update m.data.files r (some pages) key.relationId).bind _ = _
  by_cases heq : key.relationId = r
  · rw [heq, if_pos rfl, Function.update_self, Option.bind_some]
  · rw [if_neg heq, Function.update_of_ne heq, stored]

lemma openRelationFile_cases (m : RelationFileManager) (r : RelationId) :
    (∃ pages, (openRelationFile r).run m = .ok pages m.next ∧ m.registeredRelations r = true ∧
      m.data.files r = some pages) ∨
    ∃ e m', (openRelationFile r).run m = .err e m' ∧ SameFiles m m' ∧
      (m.Reliable → (m.registeredRelations r = false ∨ m.data.files r = none) ∧
        ∀ pageId, e = m.missing ⟨r, pageId⟩) := by
  unfold openRelationFile missing
  cases hr : m.registeredRelations r with
  | false =>
    exact .inr ⟨.relationNotRegistered r, m, by simp [hr], sameFiles_refl m,
      fun _ => ⟨.inl rfl, fun _ => by simp [hr]⟩⟩
  | true =>
    cases hfile : m.data.files r with
    | none =>
      exact .inr ⟨.io, m.next, by simp [hr, hfile], sameFiles_next m,
        fun _ => ⟨.inr rfl, fun _ => by simp [hr, hfile]⟩⟩
    | some pages =>
      cases hfault : m.faults 0 with
      | false => exact .inl ⟨pages, by simp [hr, hfile, hfault], rfl, rfl⟩
      | true =>
        refine .inr ⟨.io, m.next, by simp [hr, hfile, hfault], sameFiles_next m, fun h => ?_⟩
        rw [h 0] at hfault
        cases hfault

lemma readPage_cases (m : RelationFileManager) (key : PageKey) :
    (∃ page, (readPage key).run m = .ok page m.next ∧ m.registeredRelations key.relationId = true ∧
      m.stored key = some page) ∨
    ∃ e m', (readPage key).run m = .err e m' ∧ SameFiles m m' ∧
      (m.Reliable → (m.registeredRelations key.relationId = false ∨ m.stored key = none) ∧
        e = m.missing key) := by
  rcases openRelationFile_cases m key.relationId with ⟨pages, hrun, hr, hfile⟩ | ⟨e, m', hrun, hm', hrel⟩
  · have hstored : m.stored key = pages[key.pageId.index]? := by rw [stored, hfile, Option.bind_some]
    unfold readPage readFilePage
    rw [Exec.run_bind, hrun, Outcome.andThen_ok, Exec.run_liftExcept, hstored]
    by_cases hmax : maxFilePages ≤ key.pageId.index
    · have hnone : pages[key.pageId.index]? = none :=
        List.getElem?_eq_none ((m.data.bounded _ _ hfile).trans hmax)
      have hmissing : m.missing key = .pager (.pageOffsetOverflow key.pageId) := by
        simp only [missing, hr, if_true, hfile, hmax]
      rw [if_pos hmax, hnone]
      exact .inr ⟨_, _, rfl, sameFiles_next m, fun _ => ⟨.inr rfl, hmissing.symm⟩⟩
    · have hmissing : m.missing key = .pager .io := by
        simp only [missing, hr, if_true, hfile, hmax, if_false]
      rw [if_neg hmax]
      cases hpage : pages[key.pageId.index]? with
      | none => exact .inr ⟨_, _, rfl, sameFiles_next m, fun _ => ⟨.inr rfl, hmissing.symm⟩⟩
      | some page => exact .inl ⟨page, rfl, hr, rfl⟩
  · refine .inr ⟨e, m', ?_, hm', ?_⟩
    · rw [readPage, Exec.run_bind, hrun, Outcome.andThen_err]
    · intro hreliable
      refine ⟨(hrel hreliable).1.imp_right ?_, (hrel hreliable).2 key.pageId⟩
      intro hnone
      rw [stored, hnone, Option.bind_none]

/-- The file of `key` after its page has been written. -/
structure Wrote (m m' : RelationFileManager) (key : PageKey) (page : Page) : Prop where
  stored_eq : m'.stored = Function.update m.stored key (some page)
  lengths (r : RelationId) : (m'.data.files r).map List.length = (m.data.files r).map List.length
  registered_eq : m'.registeredRelations = m.registeredRelations
  reliable : m.Reliable → m'.Reliable

lemma getElem?_set_index {pages : List Page} {p q : PageId} (hq : q.index < pages.length) :
    (pages.set q.index page)[p.index]? = if p = q then some page else pages[p.index]? := by
  by_cases heq : p = q
  · rw [heq, if_pos rfl, List.getElem?_set_self hq]
  · rw [if_neg heq, List.getElem?_set_ne]
    intro hindex
    exact heq (PageId.index_injective hindex).symm

lemma writePage_cases (m : RelationFileManager) (key : PageKey) (page : Page) :
    (∃ m', (writePage key page).run m = .ok () m' ∧ Wrote m m' key page) ∨
    ∃ e m', (writePage key page).run m = .err e m' ∧ SameFiles m m' ∧
      (m.Reliable → m.registeredRelations key.relationId = false ∨ m.stored key = none) := by
  rcases openRelationFile_cases m key.relationId with ⟨pages, hrun, hr, hfile⟩ | ⟨e, m', hrun, hm', hrel⟩
  · have hstored : m.stored key = pages[key.pageId.index]? := by rw [stored, hfile, Option.bind_some]
    unfold writePage
    rw [Exec.run_bind, hrun, Outcome.andThen_ok]
    by_cases hlen : pages.length ≤ key.pageId.index
    · rw [if_pos hlen]
      refine .inr ⟨_, _, rfl, sameFiles_next m, fun _ => .inr ?_⟩
      rw [hstored, List.getElem?_eq_none hlen]
    · have hbound : (pages.set key.pageId.index page).length ≤ maxFilePages := by
        rw [List.length_set]
        exact m.data.bounded _ _ hfile
      rw [if_neg hlen]
      refine .inl ⟨m.next.putPages key.relationId _ hbound, by simp only [hbound, dite_true], ?_, ?_,
        rfl, fun h n => h (n + 1)⟩
      · funext key'
        rw [stored_put]
        by_cases hrel : key'.relationId = key.relationId
        · rw [if_pos hrel, getElem?_set_index (Nat.lt_of_not_le hlen), Function.update_apply]
          have hiff : key'.pageId = key.pageId ↔ key' = key := by
            constructor
            · intro hid
              obtain ⟨r', id'⟩ := key'
              obtain ⟨r, id⟩ := key
              simp only at hrel hid
              rw [hrel, hid]
            · exact congrArg PageKey.pageId
          simp only [hiff]
          congr 1
          rw [stored, hrel, hfile, Option.bind_some]
        · have hne : key' ≠ key := fun heq => hrel (congrArg PageKey.relationId heq)
          rw [if_neg hrel, Function.update_of_ne hne]
          rfl
      · intro r
        show (Function.update m.data.files _ _ r).map _ = _
        by_cases hrel : r = key.relationId
        · rw [hrel, Function.update_self, hfile, Option.map_some, Option.map_some, List.length_set]
        · rw [Function.update_of_ne hrel]
  · refine .inr ⟨e, m', ?_, hm', ?_⟩
    · rw [writePage, Exec.run_bind, hrun, Outcome.andThen_err]
    · intro hreliable
      apply (hrel hreliable).1.imp_right
      intro hnone
      rw [stored, hnone, Option.bind_none]

lemma allocatePage_cases (m : RelationFileManager) (r : RelationId) :
    (∃ pages h, (allocatePage r).run m = .ok (PageId.new pages.length)
        (m.next.putPages r (pages ++ [Page.new]) h) ∧ m.registeredRelations r = true ∧
      m.data.files r = some pages) ∨
    ∃ e m', (allocatePage r).run m = .err e m' ∧ SameFiles m m' ∧
      (m.Reliable → ∀ pages, m.registeredRelations r = true → m.data.files r = some pages →
        pages.length = maxFilePages) := by
  rcases openRelationFile_cases m r with ⟨pages, hrun, hr, hfile⟩ | ⟨e, m', hrun, hm', hrel⟩
  · unfold allocatePage
    rw [Exec.run_bind, hrun, Outcome.andThen_ok]
    by_cases h : (pages ++ [Page.new]).length ≤ maxFilePages
    · exact .inl ⟨pages, h, by simp only [h, dite_true], hr, hfile⟩
    · refine .inr ⟨_, _, by simp only [h, dite_false]; rfl, sameFiles_next m, ?_⟩
      intro _ pages' _ hfile'
      obtain rfl := Option.some.inj (hfile.symm.trans hfile')
      have hbound := m.data.bounded _ _ hfile
      rw [List.length_append, List.length_singleton] at h
      omega
  · refine .inr ⟨e, m', ?_, hm', ?_⟩
    · rw [allocatePage, Exec.run_bind, hrun, Outcome.andThen_err]
    · intro hreliable pages hr hfile
      rcases (hrel hreliable).1 with hnot | hnone
      · rw [hr] at hnot
        cases hnot
      · rw [hfile] at hnone
        cases hnone

lemma pageCount_cases (m : RelationFileManager) (r : RelationId) :
    (∃ pages, (pageCount r).run m = .ok pages.length m.next ∧ m.data.files r = some pages) ∨
    ∃ e m', (pageCount r).run m = .err e m' ∧ SameFiles m m' ∧
      (m.Reliable → (m.registeredRelations r = false ∨ m.data.files r = none) ∧
        ∀ pageId, e = m.missing ⟨r, pageId⟩) := by
  rcases openRelationFile_cases m r with ⟨pages, hrun, hr, hfile⟩ | ⟨e, m', hrun, hm', hrel⟩
  · exact .inl ⟨pages, by rw [pageCount, Exec.run_bind, hrun]; rfl, hfile⟩
  · exact .inr ⟨e, m', by rw [pageCount, Exec.run_bind, hrun]; rfl, hm',
      fun hreliable => ⟨(hrel hreliable).1, (hrel hreliable).2⟩⟩

end Calls

end RelationFileManager

namespace StorageManager

/-- The pages in the pool over the pages in the files. -/
def view (s : StorageManager) : WriteBack PageKey Page :=
  ⟨s.bufferPool.cached, s.relationFileManager.stored⟩

/-- What holds of the pages and the cached page counts, also while a guard is alive. -/
structure Sound (s : StorageManager) : Prop where
  coherent : s.view.Coherent
  counted {r : RelationId} {count : Nat} : s.pageCounts r = some count →
    ∃ pages, s.relationFileManager.data.files r = some pages ∧ pages.length = count
  registered {key : PageKey} {c : Page × Bool} : s.bufferPool.cached key = some c →
    s.relationFileManager.registeredRelations key.relationId = true

/-- The invariant between two calls. -/
structure Valid (s : StorageManager) : Prop extends Sound s where
  idle : s.bufferPool.Idle

/-- No file has grown and no relation has been registered. -/
structure Kept (s s' : StorageManager) : Prop where
  lengths (r : RelationId) : (s'.relationFileManager.data.files r).map List.length =
    (s.relationFileManager.data.files r).map List.length
  registered_eq : s'.relationFileManager.registeredRelations = s.relationFileManager.registeredRelations
  counts_eq : s'.pageCounts = s.pageCounts
  reliable : s.relationFileManager.Reliable → s'.relationFileManager.Reliable

/-- A call after which every page shows what it showed before. -/
structure Quiet (s s' : StorageManager) : Prop extends Kept s s' where
  valid : s'.Valid
  moves : Moves s.view s'.view
  uncached {key : PageKey} : s.view.cached key = none → s'.view.cached key = none

section Calls

variable {s s' s'' : StorageManager} {key : PageKey} {c : Page × Bool}

lemma Kept.refl (s : StorageManager) : Kept s s := ⟨fun _ => rfl, rfl, rfl, id⟩

lemma Kept.trans (h : Kept s s') (h' : Kept s' s'') : Kept s s'' where
  lengths r := (h'.lengths r).trans (h.lengths r)
  registered_eq := h'.registered_eq.trans h.registered_eq
  counts_eq := h'.counts_eq.trans h.counts_eq
  reliable hr := h'.reliable (h.reliable hr)

lemma Kept.missing_eq (h : Kept s s') (key : PageKey) :
    s'.relationFileManager.missing key = s.relationFileManager.missing key := by
  have hlen := h.lengths key.relationId
  unfold RelationFileManager.missing
  rw [h.registered_eq]
  cases hfile : s.relationFileManager.data.files key.relationId with
  | none =>
    rw [hfile, Option.map_none, Option.map_eq_none_iff] at hlen
    rw [hlen]
  | some pages =>
    rw [hfile, Option.map_some, Option.map_eq_some_iff] at hlen
    have ⟨pages', hfile', _⟩ := hlen
    rw [hfile']

lemma Quiet.refl (h : s.Valid) : Quiet s s := ⟨.refl s, h, .refl, id⟩

lemma Quiet.trans (h : Quiet s s') (h' : Quiet s' s'') : Quiet s s'' where
  toKept := h.toKept.trans h'.toKept
  valid := h'.valid
  moves := h.moves.trans h'.moves
  uncached hnone := h'.uncached (h.uncached hnone)

lemma Sound.same (h : s.Sound) (hm : Moves s.view s'.view) : Same s.view s'.view :=
  hm.same h.coherent

/-- Only the coherence and the registration of newly cached pages need work. -/
lemma Sound.of_kept (h : s.Sound) (hk : Kept s s') (hcoherent : s'.view.Coherent)
    (hcached : ∀ key c, s'.bufferPool.cached key = some c → s.bufferPool.cached key ≠ none ∨
      s.relationFileManager.registeredRelations key.relationId = true) : s'.Sound := by
  refine ⟨hcoherent, ?_, ?_⟩
  · intro r count hcount
    rw [hk.counts_eq] at hcount
    have ⟨pages, hfile, hlen⟩ := h.counted hcount
    have hmap := hk.lengths r
    rw [hfile, Option.map_some, Option.map_eq_some_iff] at hmap
    have ⟨pages', hfile', hlen'⟩ := hmap
    exact ⟨pages', hfile', hlen'.trans hlen⟩
  · intro key c hc
    rw [hk.registered_eq]
    rcases hcached key c hc with hold | hnew
    · have ⟨c', hc'⟩ := Option.ne_none_iff_exists'.mp hold
      exact h.registered hc'
    · exact hnew

/-- The cached pages are in files that can be written. -/
lemma Sound.writable (h : s.Sound) (hc : s.bufferPool.cached key = some c) :
    ¬(s.relationFileManager.registeredRelations key.relationId = false ∨
      s.relationFileManager.stored key = none) := by
  rintro (hnot | hnone)
  · rw [h.registered hc] at hnot
    cases hnot
  · exact h.coherent.covered (w := s.view) hc hnone

lemma pool_ok {α : Type} {call : Exec BufferPoolError BufferPool α} {a : α} {p : BufferPool}
    (h : call.run s.bufferPool = .ok a p) : (pool call).run s = .ok a { s with bufferPool := p } := by
  rw [pool, Exec.run_zoom, Exec.run_mapErr, h, Outcome.mapErr_ok, Outcome.mapState_ok]

lemma pool_query {α : Type} {f : BufferPool → Except BufferPoolError α} {a : α}
    (h : f s.bufferPool = .ok a) : (pool (Exec.query f)).run s = .ok a s := by
  apply pool_ok
  rw [Exec.run_query, h]

lemma file_ok {α : Type} {call : Exec RelationFileManagerError RelationFileManager α} {a : α}
    {m : RelationFileManager} (h : call.run s.relationFileManager = .ok a m) :
    (file call).run s = .ok a { s with relationFileManager := m } := by
  rw [file, Exec.run_zoom, Exec.run_mapErr, h, Outcome.mapErr_ok, Outcome.mapState_ok]

lemma file_err {α : Type} {call : Exec RelationFileManagerError RelationFileManager α}
    {e : RelationFileManagerError} {m : RelationFileManager}
    (h : call.run s.relationFileManager = .err e m) :
    (file call).run s = .err (.relationFileManager e) { s with relationFileManager := m } := by
  rw [file, Exec.run_zoom, Exec.run_mapErr, h, Outcome.mapErr_err, Outcome.mapState_err]

/-- A call on the files has failed, and the pool has only been read. -/
lemma Valid.quiet_of_same (h : s.Valid) {p : BufferPool} {m : RelationFileManager} (hp : p.Idle)
    (hcached : p.cached = s.bufferPool.cached) (hm : s.relationFileManager.SameFiles m) :
    Quiet s { s with bufferPool := p, relationFileManager := m } := by
  have hview : StorageManager.view { s with bufferPool := p, relationFileManager := m } = s.view := by
    unfold view RelationFileManager.stored
    rw [hcached, hm.data_eq]
  have hkept : Kept s { s with bufferPool := p, relationFileManager := m } :=
    ⟨fun r => by rw [hm.data_eq], hm.registered_eq, rfl, hm.reliable⟩
  refine ⟨hkept, ⟨h.toSound.of_kept hkept ?_ ?_, hp⟩, ?_, ?_⟩
  · rw [hview]
    exact h.coherent
  · intro key c hc
    left
    rw [← hcached]
    simp [hc]
  · rw [hview]
    exact .refl
  · intro key hnone
    rwa [hview]

/-- A page has been written to its file and its frame marked clean. -/
lemma Valid.quiet_of_wrote (h : s.Valid) {p : BufferPool} {m : RelationFileManager} {page : Page}
    {dirty : Bool} (hc : s.view.cached key = some (page, dirty)) (hp : p.Idle)
    (hcached : p.cached = Function.update s.bufferPool.cached key (some (page, false)))
    (hm : s.relationFileManager.Wrote m key page) :
    Quiet s { s with bufferPool := p, relationFileManager := m } := by
  have hview : StorageManager.view { s with bufferPool := p, relationFileManager := m } =
      (s.view.store key page).cache key (some (page, false)) := by
    unfold view
    rw [hcached, hm.stored_eq]
    rfl
  have hkept : Kept s { s with bufferPool := p, relationFileManager := m } :=
    ⟨hm.lengths, hm.registered_eq, rfl, hm.reliable⟩
  have hmoves : Moves s.view
      (StorageManager.view { s with bufferPool := p, relationFileManager := m }) := by
    rw [hview]
    exact Moves.refl.writeBack hc
  have hold (key' : PageKey) : p.cached key' ≠ none → s.bufferPool.cached key' ≠ none := by
    rw [hcached]
    by_cases heq : key' = key
    · subst heq
      intro _ hnone
      cases hnone.symm.trans hc
    · rw [Function.update_of_ne heq]
      exact id
  refine ⟨hkept, ⟨h.toSound.of_kept hkept (h.toSound.same hmoves).coherent ?_, hp⟩, hmoves, ?_⟩
  · intro key' c hc'
    exact .inl (hold key' (by simp [hc']))
  · intro key' hnone
    by_contra hsome
    exact hold key' hsome hnone

lemma flushPage_cases (h : s.Valid) (key : PageKey) :
    (s.view.cached key = none ∧ (flushPage key).run s = .err (.bufferPool .pageNotCached) s) ∨
    (∃ s' page, (flushPage key).run s = .ok () s' ∧ Quiet s s' ∧
      s'.view.cached key = some (page, false)) ∨
    ∃ e s', (flushPage key).run s = .err e s' ∧ Quiet s s' ∧ s.view.cached key ≠ none ∧
      ¬s.relationFileManager.Reliable := by
  cases hc : s.bufferPool.cached key with
  | none =>
    refine .inl ⟨hc, ?_⟩
    rw [flushPage, Exec.run_bind, pool, Exec.run_zoom, Exec.run_mapErr, Exec.run_query,
      h.idle.isDirty_eq_error hc]
    rfl
  | some c =>
    obtain ⟨page, dirty⟩ := c
    rw [flushPage, Exec.run_bind, pool_query (h.idle.isDirty_eq hc), Outcome.andThen_ok]
    cases dirty with
    | false => exact .inr (.inl ⟨s, page, rfl, .refl h, hc⟩)
    | true =>
      have ⟨guard, f, p, hfetch, hheld, hkey, hframe, hcached⟩ := BufferPool.fetchCachedPage_ok h.idle hc
      have hpage : f.page = page := congrArg Prod.fst hframe
      have ⟨p', huse, hidle, hcached'⟩ := BufferPool.useGuard_ok hheld fun _ => ((), none)
      have hsame : p'.cached = s.bufferPool.cached := hcached'.trans hcached
      rw [if_pos rfl, Exec.run_bind, pool_ok hfetch, Outcome.andThen_ok, Exec.run_bind,
        pool_query (BufferPool.getFrame_eq hheld.frame_eq), Outcome.andThen_ok, Exec.run_bind,
        Exec.run_attempt, hpage]
      rcases s.relationFileManager.writePage_cases key page with ⟨m, hwrite, hm⟩ | ⟨e, m, hwrite, hm, hrel⟩
      · have hkept : p'.cached key = some (page, true) := by rw [hsame, hc]
        have ⟨p'', hclean, hidle'', hcached''⟩ := BufferPool.cleanFrame_ok hidle hkept
        rw [hsame] at hcached''
        refine .inr (.inl ⟨{ s with bufferPool := p'', relationFileManager := m }, page, ?_,
          h.quiet_of_wrote hc hidle'' hcached'' hm, ?_⟩)
        · rw [file_ok (s := { s with bufferPool := p }) hwrite, Outcome.attempt_ok, Outcome.andThen_ok,
            Exec.run_bind, pool_ok (s := { s with bufferPool := p, relationFileManager := m }) huse,
            Outcome.andThen_ok, Exec.run_bind, Exec.run_liftExcept, Outcome.andThen_ok,
            pool_ok (s := { s with bufferPool := p', relationFileManager := m }) hclean]
        · show p''.cached key = _
          rw [hcached'', Function.update_self]
      · refine .inr (.inr ⟨.relationFileManager e, { s with bufferPool := p', relationFileManager := m },
          ?_, h.quiet_of_same hidle hsame hm, ?_, ?_⟩)
        · rw [file_err (s := { s with bufferPool := p }) hwrite, Outcome.attempt_err, Outcome.andThen_ok,
            Exec.run_bind, pool_ok (s := { s with bufferPool := p, relationFileManager := m }) huse,
            Outcome.andThen_ok, Exec.run_bind, Exec.run_liftExcept, Outcome.andThen_err]
        · simp [view, hc]
        · intro hreliable
          exact h.toSound.writable hc (hrel hreliable)

lemma evictOne_cases (h : s.Valid) (hfull : s.bufferPool.isFull = true) :
    (∃ s', evictOne.run s = .ok () s' ∧ Quiet s s' ∧ s'.bufferPool.isFull = false) ∨
    ∃ e s', evictOne.run s = .err e s' ∧ Quiet s s' ∧ ¬s.relationFileManager.Reliable := by
  have ⟨victim, p, hselect, hsame, hvictim, hfound⟩ := BufferPool.selectClockVictim_ok h.idle
  have hquiet : Quiet s { s with bufferPool := p } :=
    h.quiet_of_same hsame.idle hsame.cached_eq (RelationFileManager.sameFiles_refl _)
  rw [evictOne, Exec.run_bind, pool_ok hselect, Outcome.andThen_ok]
  cases victim with
  | none => exact absurd rfl (hfound hfull)
  | some key =>
    have ⟨c, hc⟩ := hvictim key rfl
    have hc' : p.cached key = some c := by rw [hsame.cached_eq, hc]
    rcases flushPage_cases hquiet.valid key with ⟨hnone, _⟩ | ⟨s', page, hflush, hs', hclean⟩ |
      ⟨e, s', hflush, hs', _, hreliable⟩
    · cases hnone.symm.trans hc'
    · have ⟨p', hremove, hidle, hroom, hcached⟩ := BufferPool.removePage_ok hs'.valid.idle hclean
      have hview : StorageManager.view { s' with bufferPool := p' } = s'.view.cache key none := by
        unfold view
        rw [hcached]
        rfl
      have hmoves : Moves s'.view (StorageManager.view { s' with bufferPool := p' }) := by
        rw [hview]
        exact Moves.refl.drop hclean
      have hold (key' : PageKey) : p'.cached key' ≠ none → s'.bufferPool.cached key' ≠ none := by
        rw [hcached]
        by_cases heq : key' = key
        · rw [heq, Function.update_self]
          exact fun hne => absurd rfl hne
        · rw [Function.update_of_ne heq]
          exact id
      have hkept : Kept s' { s' with bufferPool := p' } := ⟨fun _ => rfl, rfl, rfl, id⟩
      have hdrop : Quiet s' { s' with bufferPool := p' } := by
        refine ⟨hkept, ⟨hs'.valid.toSound.of_kept hkept ?_ ?_, hidle⟩, hmoves, ?_⟩
        · exact (hs'.valid.toSound.same hmoves).coherent
        · intro key' c hc'
          exact .inl (hold key' (by simp [hc']))
        · intro key' hnone
          by_contra hsome
          exact hold key' hsome hnone
      refine .inl ⟨{ s' with bufferPool := p' }, ?_, (hquiet.trans hs').trans hdrop, hroom⟩
      simp only [Exec.run_bind, hflush, Outcome.andThen_ok]
      exact pool_ok hremove
    · refine .inr ⟨e, s', ?_, hquiet.trans hs', fun hr => hreliable (hquiet.reliable hr)⟩
      simp only [Exec.run_bind, hflush, Outcome.andThen_err]

/-- Room for one more page is made before it is read. -/
lemma makeRoom_cases (h : s.Valid) : (∃ s', (if s.bufferPool.isFull then evictOne else pure ()).run s =
      .ok () s' ∧ Quiet s s' ∧ s'.bufferPool.isFull = false) ∨
    ∃ e s', (if s.bufferPool.isFull then evictOne else pure ()).run s = .err e s' ∧ Quiet s s' ∧
      ¬s.relationFileManager.Reliable := by
  cases hfull : s.bufferPool.isFull with
  | true => exact evictOne_cases h hfull
  | false => exact .inl ⟨s, rfl, .refl h, hfull⟩

/-- While the guard of a fetched page is alive. -/
structure Fetched (s s' : StorageManager) (key : PageKey) (guard : FrameId) (f : BufferFrame) : Prop
    extends Kept s s' where
  held : s'.bufferPool.Held guard f
  pageKey_eq : f.pageKey = key
  sound : s'.Sound
  moves : Moves s.view s'.view

lemma Fetched.cached {guard : FrameId} {f : BufferFrame} (h : Fetched s s' key guard f) : s'.view.cached key = some (f.page, f.isDirty) := by
  rw [← h.pageKey_eq]
  exact h.held.cached_eq h.held.frame_eq

lemma fetchPage_cases (h : s.Valid) (key : PageKey) :
    (∃ guard f s', (fetchPage key).run s = .ok guard s' ∧ Fetched s s' key guard f) ∨
    ∃ e s', (fetchPage key).run s = .err e s' ∧ Quiet s s' ∧ (s.relationFileManager.Reliable →
      (s.relationFileManager.registeredRelations key.relationId = false ∨ s.view.stored key = none) ∧
        e = .relationFileManager (s.relationFileManager.missing key)) := by
  rw [fetchPage, Exec.run_bind, Exec.run_gets, Outcome.andThen_ok, h.idle.containsPage_eq]
  cases hc : s.bufferPool.cached key with
  | some c =>
    have ⟨guard, f, p, hfetch, hheld, hkey, _, hcached⟩ := BufferPool.fetchCachedPage_ok h.idle hc
    have hview : StorageManager.view { s with bufferPool := p } = s.view := by
      unfold view
      rw [hcached]
    have hkept : Kept s { s with bufferPool := p } := ⟨fun _ => rfl, rfl, rfl, id⟩
    refine .inl ⟨guard, f, { s with bufferPool := p }, pool_ok hfetch, hkept, hheld, hkey,
      h.toSound.of_kept hkept ?_ ?_, ?_⟩
    · rw [hview]
      exact h.coherent
    · intro key' c' hc'
      exact .inl (by rw [← hcached, hc']; exact Option.some_ne_none _)
    · rw [hview]
      exact .refl
  | none =>
    have hread (s : StorageManager) (full : Bool) : ((do
        if full then evictOne else pure ()
        let page ← file (RelationFileManager.readPage key)
        pool (BufferPool.insertPage key page)) : Exec StorageError StorageManager FrameId).run s =
        ((if full then evictOne else pure ()).run s).andThen fun _ s => (do
          let page ← file (RelationFileManager.readPage key)
          pool (BufferPool.insertPage key page)).run s := by
      cases full <;> rfl
    rw [Option.isSome_none, if_neg Bool.false_ne_true, Exec.run_bind, Exec.run_gets, Outcome.andThen_ok,
      hread]
    rcases makeRoom_cases h with ⟨s₁, hroom, hquiet, hfull⟩ | ⟨e, s₁, hroom, hquiet, hreliable⟩
    · rw [hroom, Outcome.andThen_ok, Exec.run_bind]
      rcases s₁.relationFileManager.readPage_cases key with ⟨page, hread, hreg, hstored⟩ |
        ⟨e, m, hread, hm, hrel⟩
      · have hnone : s₁.bufferPool.cached key = none := hquiet.uncached hc
        have ⟨guard, f, p, hinsert, hheld, hkey, _, hcached⟩ :=
          BufferPool.insertPage_ok hquiet.valid.idle hnone hfull page
        let s₂ : StorageManager :=
          { s₁ with bufferPool := p, relationFileManager := s₁.relationFileManager.next }
        have hview : s₂.view = s₁.view.cache key (some (page, false)) := by
          show WriteBack.mk p.cached _ = _
          rw [hcached]
          rfl
        have hkept : Kept s₁ s₂ :=
          ⟨fun _ => rfl, rfl, rfl, (RelationFileManager.sameFiles_next _).reliable⟩
        have hmoves : Moves s₁.view s₂.view := by
          rw [hview]
          exact Moves.refl.load hnone hstored
        refine .inl ⟨guard, f, s₂, ?_, hquiet.toKept.trans hkept, hheld, hkey,
          hquiet.valid.toSound.of_kept hkept (hquiet.valid.toSound.same hmoves).coherent ?_,
          hquiet.moves.trans hmoves⟩
        · rw [file_ok hread, Outcome.andThen_ok]
          exact pool_ok (s := { s₁ with relationFileManager := s₁.relationFileManager.next }) hinsert
        · intro key' c hc'
          rw [show s₂.bufferPool.cached = _ from hcached] at hc'
          by_cases heq : key' = key
          · subst heq
            exact .inr hreg
          · rw [Function.update_of_ne heq] at hc'
            exact .inl (by simp [hc'])
      · refine .inr ⟨.relationFileManager e, { s₁ with relationFileManager := m }, ?_,
          hquiet.trans (hquiet.valid.quiet_of_same hquiet.valid.idle rfl hm), ?_⟩
        · rw [file_err hread, Outcome.andThen_err]
        · intro hreliable
          have ⟨hwhy, he⟩ := hrel (hquiet.reliable hreliable)
          refine ⟨?_, by rw [he, hquiet.missing_eq]⟩
          rcases hwhy with hnot | hnone
          · rw [hquiet.registered_eq] at hnot
            exact .inl hnot
          · exact .inr (((h.toSound.same hquiet.moves).stored_eq_none h.coherent).mp hnone)
    · refine .inr ⟨e, s₁, ?_, hquiet, fun hr => absurd hr hreliable⟩
      rw [hroom, Outcome.andThen_err]

/-- What the pages show after a use of a guard. -/
def written (shown : PageKey → Option Page) (key : PageKey) : Option Page → PageKey → Option Page
  | some page => Function.update shown key (some page)
  | none => shown

/-- A call that has shown a page and may have changed it. -/
structure Accessed (s s' : StorageManager) (key : PageKey) (change : Option Page) : Prop
    extends Kept s s' where
  valid : s'.Valid
  cached : s'.view.cached key ≠ none
  shown_eq : s'.view.shown = written s.view.shown key change
  stored_or (k : PageKey) : s'.view.stored k = s.view.stored k ∨ s'.view.stored k = s.view.shown k

lemma access_cases {α : Type} (h : s.Valid) (key : PageKey) (body : Page → α × Option Page) :
    (∃ page s', (access key body).run s = .ok (body page).1 s' ∧ s.view.shown key = some page ∧
      Accessed s s' key (body page).2) ∨
    ∃ e s', (access key body).run s = .err e s' ∧ Quiet s s' ∧ (s.relationFileManager.Reliable →
      (s.relationFileManager.registeredRelations key.relationId = false ∨ s.view.stored key = none) ∧
        e = .relationFileManager (s.relationFileManager.missing key)) := by
  rw [access, Exec.run_bind]
  rcases fetchPage_cases h key with ⟨guard, f, s₁, hfetch, hs₁⟩ | ⟨e, s₁, hfetch, hquiet, hrel⟩
  · have ⟨p, huse, hidle, hcached⟩ := BufferPool.useGuard_ok hs₁.held body
    have hsame := h.toSound.same hs₁.moves
    have hkept : Kept s₁ { s₁ with bufferPool := p } := ⟨fun _ => rfl, rfl, rfl, id⟩
    rw [hs₁.pageKey_eq] at hcached
    have hshown : s.view.shown key = some f.page := by
      rw [← hsame.shown_eq, shown_of_cached hs₁.cached]
    -- the pages of the cache are those of the moment the guard was taken, but for a change of this one
    have ⟨hcoherent, hcached', hshown', hold⟩ :
        (StorageManager.view { s₁ with bufferPool := p }).Coherent ∧ p.cached key ≠ none ∧
        (StorageManager.view { s₁ with bufferPool := p }).shown =
          written s₁.view.shown key (body f.page).2 ∧
        ∀ key', p.cached key' ≠ none → s₁.bufferPool.cached key' ≠ none := by
      have hkey : s₁.bufferPool.cached key = some (f.page, f.isDirty) := hs₁.cached
      cases hbody : (body f.page).2 with
      | none =>
        rw [hbody] at hcached
        have hview : StorageManager.view { s₁ with bufferPool := p } = s₁.view := by
          unfold view
          rw [hcached]
          rfl
        have heq : p.cached = s₁.bufferPool.cached := hcached
        rw [hview, heq, hkey]
        exact ⟨hsame.coherent, Option.some_ne_none _, rfl, fun _ hc => hc⟩
      | some q =>
        rw [hbody] at hcached
        have hview : StorageManager.view { s₁ with bufferPool := p } =
            s₁.view.cache key (some (q, true)) := by
          unfold view
          rw [hcached]
          rfl
        have heq : p.cached = Function.update s₁.bufferPool.cached key (some (q, true)) := hcached
        rw [hview, heq, Function.update_self]
        refine ⟨cache_coherent hsame.coherent (by simp) ?_, Option.some_ne_none _, shown_cache_changed, ?_⟩
        · intro _
          exact hsame.coherent.covered (w := s₁.view) hkey
        · intro key' hc
          by_cases hkey' : key' = key
          · rw [hkey', hkey]
            exact Option.some_ne_none _
          · rwa [Function.update_of_ne hkey'] at hc
    refine .inl ⟨f.page, { s₁ with bufferPool := p }, ?_, hshown, hs₁.toKept.trans hkept,
      ⟨hs₁.sound.of_kept hkept hcoherent ?_, hidle⟩, hcached', ?_, hsame.stored_or⟩
    · rw [hfetch, Outcome.andThen_ok]
      exact pool_ok huse
    · intro key' c hc
      exact .inl (hold key' (by simp [hc]))
    · rw [hshown', hsame.shown_eq]
  · refine .inr ⟨e, s₁, ?_, hquiet, hrel⟩
    rw [hfetch, Outcome.andThen_err]

/-- A relation has got a new page at its end. -/
structure Allocated (s s' : StorageManager) (r : RelationId) (pages : List Page) : Prop where
  valid : s'.Valid
  length_lt : pages.length < maxFilePages
  file_eq : s.relationFileManager.data.files r = some pages
  lengths (r' : RelationId) : (s'.relationFileManager.data.files r').map List.length =
    if r' = r then some (pages.length + 1) else (s.relationFileManager.data.files r').map List.length
  registered_eq : s'.relationFileManager.registeredRelations = s.relationFileManager.registeredRelations
  reliable : s.relationFileManager.Reliable → s'.relationFileManager.Reliable
  stored_eq : s'.view.stored =
    Function.update s.view.stored ⟨r, PageId.new pages.length⟩ (some Page.new)
  shown_eq : s'.view.shown = Function.update s.view.shown ⟨r, PageId.new pages.length⟩ (some Page.new)

lemma stored_eq_none_of_length {r : RelationId} {pages : List Page} {n : Nat}
    (hfile : s.relationFileManager.data.files r = some pages) (hn : pages.length ≤ n)
    (hlt : n < 2 ^ 64) : s.view.stored ⟨r, PageId.new n⟩ = none := by
  show (s.relationFileManager.data.files r).bind _ = none
  rw [hfile, Option.bind_some, PageId.index_new hlt, List.getElem?_eq_none hn]

lemma allocatePage_cases (h : s.Valid) (r : RelationId) :
    (∃ pages s', (allocatePage r).run s = .ok (PageId.new pages.length) s' ∧ Allocated s s' r pages) ∨
    ∃ e s', (allocatePage r).run s = .err e s' ∧ Quiet s s' ∧ (s.relationFileManager.Reliable →
      ∀ pages, s.relationFileManager.registeredRelations r = true →
        s.relationFileManager.data.files r = some pages → pages.length = maxFilePages) := by
  rw [allocatePage, Exec.run_bind]
  rcases s.relationFileManager.allocatePage_cases r with ⟨pages, hbound, hrun, hreg, hfile⟩ |
    ⟨e, m, hrun, hm, hrel⟩
  · have hlt : pages.length < maxFilePages := Nat.lt_of_succ_le (by simpa using hbound)
    have hlt' : pages.length < 2 ^ 64 := hlt.trans (by decide)
    have hnone := stored_eq_none_of_length hfile (Nat.le_refl _) hlt'
    rw [file_ok hrun, Outcome.andThen_ok, Exec.run_bind, Exec.run_modify, Outcome.andThen_ok]
    have hstored : (s.relationFileManager.next.putPages r (pages ++ [Page.new]) hbound).stored =
        Function.update s.view.stored ⟨r, PageId.new pages.length⟩ (some Page.new) := by
      funext key
      rw [RelationFileManager.stored_put, Function.update_apply]
      by_cases hkey : key.relationId = r
      · rw [if_pos hkey]
        by_cases hid : key.pageId = PageId.new pages.length
        · have heq : key = ⟨r, PageId.new pages.length⟩ := by rw [← hkey, ← hid]
          rw [if_pos heq, hid, PageId.index_new hlt', List.getElem?_append_right (Nat.le_refl _),
            Nat.sub_self, List.getElem?_cons_zero]
        · have hne : key ≠ ⟨r, PageId.new pages.length⟩ := fun heq => hid (congrArg PageKey.pageId heq)
          have hold : s.view.stored key = pages[key.pageId.index]? := by
            show (s.relationFileManager.data.files key.relationId).bind _ = _
            rw [hkey, hfile, Option.bind_some]
          rw [if_neg hne, hold]
          have hindex : key.pageId.index ≠ pages.length := by
            intro hindex
            apply hid
            apply PageId.index_injective
            rw [hindex, PageId.index_new hlt']
          rcases Nat.lt_or_ge key.pageId.index pages.length with hin | hout
          · rw [List.getElem?_append_left hin]
          · rw [List.getElem?_eq_none hout, List.getElem?_eq_none]
            rw [List.length_append, List.length_singleton]
            omega
      · have hne : key ≠ ⟨r, PageId.new pages.length⟩ :=
          fun heq => hkey (congrArg PageKey.relationId heq)
        rw [if_neg hkey, if_neg hne]
        rfl
    refine .inl ⟨pages, _, rfl, ⟨⟨?_, ?_, ?_⟩, ?_⟩, hlt, hfile, ?_, rfl, fun hr n => hr (n + 1), hstored, ?_⟩
    · show (WriteBack.mk s.view.cached _).Coherent
      rw [hstored]
      apply store_coherent (w := s.view) h.coherent
      intro u hu
      exact absurd hnone (h.coherent.covered hu)
    · intro r' count hcount
      show ∃ pages', Function.update s.relationFileManager.data.files r _ r' = some pages' ∧ _
      simp only [Function.update_apply] at hcount ⊢
      split at hcount
      · rename_i heq
        subst heq
        rw [Option.map_eq_some_iff] at hcount
        have ⟨old, hold, heq⟩ := hcount
        have ⟨pages', hfile', hlen⟩ := h.counted hold
        obtain rfl := Option.some.inj (hfile.symm.trans hfile')
        refine ⟨_, if_pos rfl, ?_⟩
        rw [List.length_append, List.length_singleton, hlen, heq]
      · rename_i heq
        rw [if_neg heq]
        exact h.counted hcount
    · exact h.registered
    · exact h.idle
    · intro r'
      show (Function.update s.relationFileManager.data.files r _ r').map _ = _
      rw [Function.update_apply]
      split
      · rw [Option.map_some, List.length_append, List.length_singleton]
      · rfl
    · show (WriteBack.mk s.view.cached _).shown = _
      rw [hstored]
      exact shown_store_new h.coherent hnone
  · rw [file_err hrun, Outcome.andThen_err]
    exact .inr ⟨_, _, rfl, h.quiet_of_same h.idle rfl hm, hrel⟩

lemma pageCount_cases (h : s.Valid) (r : RelationId) :
    (∃ pages s', (pageCount r).run s = .ok pages.length s' ∧ s'.Valid ∧ s'.view = s.view ∧
      s.relationFileManager.SameFiles s'.relationFileManager ∧
      s.relationFileManager.data.files r = some pages) ∨
    ∃ e s', (pageCount r).run s = .err e s' ∧ Quiet s s' ∧ (s.relationFileManager.Reliable →
      (s.relationFileManager.registeredRelations r = false ∨ s.relationFileManager.data.files r = none) ∧
        ∀ pageId, e = .relationFileManager (s.relationFileManager.missing ⟨r, pageId⟩)) := by
  rw [pageCount, Exec.run_bind, Exec.run_gets, Outcome.andThen_ok]
  cases hcount : s.pageCounts r with
  | some count =>
    have ⟨pages, hfile, hlen⟩ := h.counted hcount
    subst hlen
    exact .inl ⟨pages, s, rfl, h, rfl, RelationFileManager.sameFiles_refl _, hfile⟩
  | none =>
    rcases s.relationFileManager.pageCount_cases r with ⟨pages, hrun, hfile⟩ | ⟨e, m, hrun, hm, hrel⟩
    · refine .inl ⟨pages, { s with
        relationFileManager := s.relationFileManager.next
        pageCounts := Function.update s.pageCounts r (some pages.length) }, ?_,
        ⟨⟨h.coherent, ?_, h.registered⟩, h.idle⟩, rfl, RelationFileManager.sameFiles_next _, hfile⟩
      · rw [Exec.run_bind, file_ok hrun]
        rfl
      · intro r' count hcount'
        simp only [Function.update_apply] at hcount'
        split at hcount'
        · rename_i heq
          rw [heq]
          exact ⟨pages, hfile, Option.some.inj hcount'⟩
        · exact h.counted hcount'
    · refine .inr ⟨.relationFileManager e, { s with relationFileManager := m }, ?_,
        h.quiet_of_same h.idle rfl hm, ?_⟩
      · rw [Exec.run_bind, file_err hrun, Outcome.andThen_err]
      · intro hreliable
        exact ⟨(hrel hreliable).1, fun pageId => congrArg _ ((hrel hreliable).2 pageId)⟩

/-- A relation has been registered, and its file made if there was none. -/
structure Registered (s s' : StorageManager) (r : RelationId) : Prop where
  valid : s'.Valid
  view_eq : s'.view = s.view
  lengths (r' : RelationId) : (s'.relationFileManager.data.files r').map List.length =
    if r' = r then some (((s.relationFileManager.data.files r).map List.length).getD 0)
    else (s.relationFileManager.data.files r').map List.length
  registered_eq : s'.relationFileManager.registeredRelations =
    Function.update s.relationFileManager.registeredRelations r true
  reliable : s.relationFileManager.Reliable → s'.relationFileManager.Reliable

lemma Valid.registered_of (h : s.Valid) {r : RelationId} {pages : List Page}
    (hfile : s.relationFileManager.data.files r = some pages) :
    Registered s { s with relationFileManager := s.relationFileManager.next.register r } r := by
  refine ⟨⟨⟨h.coherent, h.counted, ?_⟩, h.idle⟩, rfl, ?_, rfl, fun hr n => hr (n + 1)⟩
  · intro key c hc
    show Function.update s.relationFileManager.registeredRelations r true _ = true
    rw [Function.update_apply, h.registered hc, ite_self]
  · intro r'
    split
    · rename_i heq
      subst heq
      show (s.relationFileManager.data.files r').map List.length = _
      rw [hfile, Option.map_some, Option.getD_some]
    · rfl

lemma registerRelation_cases (h : s.Valid) (r : RelationId) :
    (∃ s', (registerRelation r).run s = .ok () s' ∧ Registered s s' r) ∨
    ∃ e s', (registerRelation r).run s = .err e s' ∧ Quiet s s' := by
  unfold registerRelation
  cases hfile : s.relationFileManager.data.files r with
  | none =>
    refine .inr ⟨_, _, file_err (e := .io) (m := s.relationFileManager.next) ?_,
      h.quiet_of_same h.idle rfl (RelationFileManager.sameFiles_next _)⟩
    simp only [RelationFileManager.registerRelation, hfile]
  | some pages =>
    cases hfault : s.relationFileManager.faults 0 with
    | true =>
      refine .inr ⟨_, _, file_err (e := .io) (m := s.relationFileManager.next) ?_,
        h.quiet_of_same h.idle rfl (RelationFileManager.sameFiles_next _)⟩
      simp only [RelationFileManager.registerRelation, hfile, hfault]
    | false =>
      refine .inl ⟨_, file_ok (m := s.relationFileManager.next.register r) ?_, h.registered_of hfile⟩
      simp only [RelationFileManager.registerRelation, hfile, hfault]

lemma createRelation_cases (h : s.Valid) (r : RelationId) :
    (∃ s', (createRelation r).run s = .ok () s' ∧ Registered s s' r) ∨
    ∃ e s', (createRelation r).run s = .err e s' ∧ Quiet s s' ∧ ¬s.relationFileManager.Reliable := by
  unfold createRelation
  cases hfault : s.relationFileManager.faults 0 with
  | true =>
    refine .inr ⟨_, _, file_err (e := .io) (m := s.relationFileManager.next) ?_,
      h.quiet_of_same h.idle rfl (RelationFileManager.sameFiles_next _), ?_⟩
    · simp only [RelationFileManager.createRelation, hfault]
    · intro hr
      rw [hr 0] at hfault
      cases hfault
  | false =>
    left
    cases hfile : s.relationFileManager.data.files r with
    | some pages =>
      refine ⟨_, file_ok (m := s.relationFileManager.next.register r) ?_, h.registered_of hfile⟩
      simp only [RelationFileManager.createRelation, hfile, hfault]
    | none =>
      let m : RelationFileManager :=
        { s.relationFileManager.next.register r with data := s.relationFileManager.data.put r [] (Nat.zero_le _) }
      have hfiles (r' : RelationId) : m.data.files r' =
          if r' = r then some [] else s.relationFileManager.data.files r' :=
        Function.update_apply ..
      have hview : StorageManager.view { s with relationFileManager := m } = s.view := by
        unfold view
        congr 1
        funext key
        unfold RelationFileManager.stored
        rw [hfiles]
        split
        · rename_i heq
          rw [heq, hfile]
          rfl
        · rfl
      refine ⟨_, file_ok (m := m) ?_, ⟨⟨?_, ?_, ?_⟩, h.idle⟩, hview, ?_, rfl, fun hr n => hr (n + 1)⟩
      · simp only [RelationFileManager.createRelation, hfile, hfault, m]
      · rw [hview]
        exact h.coherent
      · intro r' count hcount
        show ∃ pages, m.data.files r' = some pages ∧ _
        have ⟨pages, hpages, hlen⟩ := h.counted hcount
        rw [hfiles, if_neg]
        · exact ⟨pages, hpages, hlen⟩
        · intro heq
          rw [heq, hfile] at hpages
          cases hpages
      · intro key c hc
        show Function.update s.relationFileManager.registeredRelations r true _ = true
        rw [Function.update_apply, h.registered hc, ite_self]
      · intro r'
        show (m.data.files r').map List.length = _
        rw [hfiles, hfile]
        split <;> rfl

lemma valid_withCapacity (data : FileStore) (faults : Nat → Bool) {capacity : Nat} (h : 0 < capacity) :
    (withCapacity data faults capacity).Valid := by
  refine ⟨⟨⟨?_, ?_⟩, ?_, ?_⟩, BufferPool.idle_new h⟩
  · intro k v hc
    cases hc
  · intro k c hc
    cases hc
  · intro r count hcount
    cases hcount
  · intro key c hc
    cases hc

lemma shown_withCapacity (data : FileStore) (faults : Nat → Bool) (capacity : Nat) :
    (withCapacity data faults capacity).view.shown = (RelationFileManager.new data faults).stored := rfl

end Calls

end StorageManager

end RdbRs
