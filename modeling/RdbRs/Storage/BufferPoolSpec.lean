import RdbRs.Storage.BufferPool

/-!
# What the buffer pool does

The pool as a partial map from page keys to pages and dirty bits. `Idle` is its invariant between
two calls, `Held` the one while a guard is alive.
-/

namespace RdbRs

namespace BufferPool

/-- The cached pages with their dirty bits. -/
def cached (p : BufferPool) (key : PageKey) : Option (Page × Bool) :=
  ((p.pageTable.get key).bind p.frame?).map fun f => (f.page, f.isDirty)

/-- The page table and the frames agree. -/
structure Wf (p : BufferPool) : Prop where
  capacity : 0 < p.frames.length
  hand_lt : p.handIndex < p.frames.length
  framed {key : PageKey} {id : FrameId} : p.pageTable.get key = some id →
    ∃ f, p.frame? id = some f ∧ f.pageKey = key
  tabled {id : FrameId} {f : BufferFrame} : p.frame? id = some f →
    p.pageTable.get f.pageKey = some id

/-- No guard is alive. -/
structure Idle (p : BufferPool) : Prop extends Wf p where
  unpinned {id : FrameId} {f : BufferFrame} : p.frame? id = some f → f.pinCount = 0

/-- One guard is alive. -/
structure Held (p : BufferPool) (guard : FrameId) (f : BufferFrame) : Prop extends Wf p where
  frame_eq : p.frame? guard = some f
  pinned : f.pinCount = 1
  unpinned {id : FrameId} {f' : BufferFrame} : id ≠ guard → p.frame? id = some f' → f'.pinCount = 0

section Frames

variable {p : BufferPool} {id id' : FrameId} {f f' : BufferFrame} {key : PageKey} {c : Page × Bool}

lemma frame?_eq_some : p.frame? id = some f ↔ p.frames[id.id]? = some (some f) := by
  unfold frame?
  rw [Option.join_eq_some_iff]

lemma lt_of_frame? (h : p.frame? id = some f) : id.id < p.frames.length :=
  (List.getElem?_eq_some_iff.mp (frame?_eq_some.mp h)).1

lemma frame?_setFrame_self (h : id.id < p.frames.length) : (p.setFrame id f).frame? id = some f := by
  rw [frame?_eq_some, setFrame, List.getElem?_set_self h]

lemma frameId_eq {index : Nat} (h : index = id.id) : (⟨index⟩ : FrameId) = id := by
  rw [h]

lemma frame?_setFrame_of_ne (h : id' ≠ id) : (p.setFrame id f).frame? id' = p.frame? id' := by
  have hne : id.id ≠ id'.id := fun heq => h (frameId_eq heq).symm
  rw [frame?, frame?, setFrame, List.getElem?_set_ne hne]

@[simp] lemma pageTable_setFrame : (p.setFrame id f).pageTable = p.pageTable := rfl

@[simp] lemma handIndex_setFrame : (p.setFrame id f).handIndex = p.handIndex := rfl

@[simp] lemma length_frames_setFrame : (p.setFrame id f).frames.length = p.frames.length :=
  List.length_set

/-- A cached page is on a frame of the pool. -/
lemma Wf.exists_frame (h : p.Wf) (hc : p.cached key = some c) : ∃ id f, p.pageTable.get key = some id ∧
    p.frame? id = some f ∧ f.pageKey = key ∧ (f.page, f.isDirty) = c := by
  unfold cached at hc
  cases hid : p.pageTable.get key with
  | none =>
    rw [hid] at hc
    cases hc
  | some id =>
    have ⟨f, hf, hkey⟩ := h.framed hid
    rw [hid, Option.bind_some, hf, Option.map_some, Option.some.injEq] at hc
    exact ⟨id, f, rfl, hf, hkey, hc⟩

lemma Wf.cached_eq (h : p.Wf) (hf : p.frame? id = some f) :
    p.cached f.pageKey = some (f.page, f.isDirty) := by
  rw [cached, h.tabled hf, Option.bind_some, hf, Option.map_some]

lemma Wf.cached_eq_none (h : p.Wf) : p.cached key = none ↔ p.pageTable.get key = none := by
  constructor
  · intro hc
    cases hid : p.pageTable.get key with
    | none => rfl
    | some id =>
      have ⟨f, hf, hkey⟩ := h.framed hid
      rw [← hkey, h.cached_eq hf] at hc
      cases hc
  · intro hid
    rw [cached, hid, Option.bind_none, Option.map_none]

lemma Wf.containsPage_eq (h : p.Wf) : p.containsPage key = (p.cached key).isSome := by
  unfold containsPage
  cases hc : p.cached key with
  | none => rw [h.cached_eq_none.mp hc, Option.isSome_none, Option.isSome_none]
  | some c =>
    have ⟨id, _, hid, _⟩ := h.exists_frame hc
    rw [hid, Option.isSome_some, Option.isSome_some]

/-- A frame may be replaced by another one for the same page. -/
lemma Wf.setFrame (h : p.Wf) (hf : p.frame? id = some f) (hkey : f'.pageKey = f.pageKey) :
    (p.setFrame id f').Wf := by
  have hlt := lt_of_frame? hf
  refine ⟨by simpa using h.capacity, by simpa using h.hand_lt, ?_, ?_⟩
  · intro key id' hid'
    rw [pageTable_setFrame] at hid'
    have ⟨g, hg, hgkey⟩ := h.framed hid'
    by_cases hne : id' = id
    · subst hne
      refine ⟨f', frame?_setFrame_self hlt, ?_⟩
      rw [hg] at hf
      rw [hkey, ← Option.some.inj hf, hgkey]
    · exact ⟨g, by rwa [frame?_setFrame_of_ne hne], hgkey⟩
  · intro id' g hg
    rw [pageTable_setFrame]
    by_cases hne : id' = id
    · subst hne
      rw [frame?_setFrame_self hlt] at hg
      rw [← Option.some.inj hg, hkey, h.tabled hf]
    · rw [frame?_setFrame_of_ne hne] at hg
      exact h.tabled hg

lemma Wf.cached_setFrame (h : p.Wf) (hf : p.frame? id = some f) (hkey : f'.pageKey = f.pageKey) :
    (p.setFrame id f').cached = Function.update p.cached f.pageKey (some (f'.page, f'.isDirty)) := by
  have h' := h.setFrame hf hkey
  funext key
  by_cases hne : key = f.pageKey
  · subst hne
    rw [Function.update_self, ← hkey]
    exact h'.cached_eq (frame?_setFrame_self (lt_of_frame? hf))
  · rw [Function.update_of_ne hne]
    unfold cached
    rw [pageTable_setFrame]
    cases hid : p.pageTable.get key with
    | none => rfl
    | some id' =>
      have ⟨g, hg, hgkey⟩ := h.framed hid
      have hid' : id' ≠ id := by
        intro heq
        rw [heq, hf] at hg
        rw [← Option.some.inj hg] at hgkey
        exact hne hgkey.symm
      rw [Option.bind_some, Option.bind_some, frame?_setFrame_of_ne hid']

/-- A change of the pins and the reference bit is not seen. -/
lemma Wf.cached_setFrame_same (h : p.Wf) (hf : p.frame? id = some f) (hkey : f'.pageKey = f.pageKey)
    (hpage : f'.page = f.page) (hdirty : f'.isDirty = f.isDirty) :
    (p.setFrame id f').cached = p.cached := by
  rw [h.cached_setFrame hf hkey, hpage, hdirty, ← h.cached_eq hf, Function.update_eq_self]

end Frames

/-! ### Guards -/

section Guards

variable {p : BufferPool} {id guard : FrameId} {f : BufferFrame} {key : PageKey} {c : Page × Bool}

lemma fetchCachedPage_ok (h : p.Idle) (hc : p.cached key = some c) : ∃ guard f p',
    (fetchCachedPage key).run p = .ok guard p' ∧ p'.Held guard f ∧ f.pageKey = key ∧
      (f.page, f.isDirty) = c ∧ p'.cached = p.cached := by
  have ⟨id, f, hid, hf, hkey, heq⟩ := h.exists_frame hc
  have hlt := lt_of_frame? hf
  refine ⟨id, f.pin, p.setFrame id f.pin, ?_, ⟨h.setFrame hf rfl, ?_, ?_, ?_⟩, hkey, heq, ?_⟩
  · simp only [fetchCachedPage, hid, hf]
  · exact frame?_setFrame_self hlt
  · show f.pinCount + 1 = 1
    rw [h.unpinned hf]
  · intro id' f' hne hf'
    rw [frame?_setFrame_of_ne hne] at hf'
    exact h.unpinned hf'
  · exact h.cached_setFrame_same hf rfl rfl rfl

/-- What a use of a guard leaves in the cache. -/
def written (cached : PageKey → Option (Page × Bool)) (key : PageKey) :
    Option Page → PageKey → Option (Page × Bool)
  | some page => Function.update cached key (some (page, true))
  | none => cached

lemma useGuard_ok {α : Type} (h : p.Held guard f) (body : Page → α × Option Page) :
    ∃ p', (useGuard guard body).run p = .ok (body f.page).1 p' ∧ p'.Idle ∧
      p'.cached = written p.cached f.pageKey (body f.page).2 := by
  have hlt := lt_of_frame? h.frame_eq
  have hdrop (g : BufferFrame) (hg : g.pinCount = 1) : g.dropGuard = { g with pinCount := 0 } := by
    simp [BufferFrame.dropGuard, BufferFrame.unpin, hg]
  have hidle (g : BufferFrame) (hkey : g.pageKey = f.pageKey) (hpin : g.pinCount = 1) :
      (p.setFrame guard g.dropGuard).Idle := by
    rw [hdrop g hpin]
    refine ⟨h.setFrame h.frame_eq hkey, ?_⟩
    intro id f' hf'
    by_cases hne : id = guard
    · subst hne
      rw [frame?_setFrame_self hlt] at hf'
      rw [← Option.some.inj hf']
    · rw [frame?_setFrame_of_ne hne] at hf'
      exact h.unpinned hne hf'
  cases hbody : (body f.page).2 with
  | none =>
    refine ⟨p.setFrame guard f.dropGuard, ?_, hidle f rfl h.pinned, ?_⟩
    · simp only [useGuard, h.frame_eq, hbody]
    · rw [hdrop f h.pinned]
      exact h.cached_setFrame_same h.frame_eq rfl rfl rfl
  | some page =>
    refine ⟨p.setFrame guard (f.pageMut page).dropGuard, ?_, hidle _ rfl h.pinned, ?_⟩
    · simp only [useGuard, h.frame_eq, hbody]
    · rw [hdrop (f.pageMut page) h.pinned]
      exact h.cached_setFrame h.frame_eq rfl

end Guards

/-! ### The other calls -/

section Calls

variable {p : BufferPool} {id : FrameId} {f : BufferFrame} {key : PageKey} {page : Page}
  {c : Page × Bool} {dirty : Bool} {n : Nat}

lemma idle_new {capacity : Nat} (h : 0 < capacity) : (new capacity).Idle := by
  have hframe (id : FrameId) (f : BufferFrame) : (new capacity).frame? id ≠ some f := by
    rw [Ne, frame?_eq_some, new, List.getElem?_replicate]
    split <;> simp
  refine ⟨⟨by simpa [new] using h, by simpa [new] using h, ?_, ?_⟩, ?_⟩
  · intro key id hid
    cases hid
  · intro id f hf
    exact absurd hf (hframe id f)
  · intro id f hf
    exact absurd hf (hframe id f)

lemma Wf.getFrameId_eq (h : p.Wf) (hf : p.frame? id = some f) : p.getFrameId f.pageKey = .ok id := by
  rw [getFrameId, h.tabled hf]

lemma Wf.pageKey_eq (h : p.Wf) (hid : p.getFrameId key = .ok id) (hf : p.frame? id = some f) :
    f.pageKey = key := by
  unfold getFrameId at hid
  cases hget : p.pageTable.get key with
  | none =>
    rw [hget] at hid
    cases hid
  | some id' =>
    rw [hget] at hid
    cases hid
    have ⟨g, hg, hkey⟩ := h.framed hget
    rw [hf] at hg
    cases hg
    exact hkey

lemma getFrame_eq (hf : p.frame? id = some f) : p.getFrame id = .ok f := by
  rw [getFrame, hf]

lemma getFrame_eq_ok : p.getFrame id = .ok f ↔ p.frame? id = some f := by
  unfold getFrame
  cases p.frame? id <;> simp

lemma Wf.isDirty_eq (h : p.Wf) (hc : p.cached key = some c) : p.isDirty key = .ok c.2 := by
  have ⟨id, f, _, hf, hkey, heq⟩ := h.exists_frame hc
  subst hkey heq
  rw [isDirty, h.getFrameId_eq hf, except_bind_ok, getFrame_eq hf, except_bind_ok]
  rfl

lemma Wf.isDirty_eq_error (h : p.Wf) (hc : p.cached key = none) :
    p.isDirty key = .error .pageNotCached := by
  rw [isDirty, getFrameId, h.cached_eq_none.mp hc, except_bind_error]

lemma cleanFrame_ok (h : p.Idle) (hc : p.cached key = some c) : ∃ p',
    (cleanFrame key).run p = .ok () p' ∧ p'.Idle ∧
      p'.cached = Function.update p.cached key (some (c.1, false)) := by
  have ⟨id, f, hid, hf, hkey, heq⟩ := h.exists_frame hc
  subst hkey heq
  refine ⟨p.setFrame id f.markClean, ?_, ⟨h.setFrame hf rfl, ?_⟩, h.cached_setFrame hf rfl⟩
  · simp only [cleanFrame, h.getFrameId_eq hf, getFrame_eq hf]
  · intro id' f' hf'
    by_cases hne : id' = id
    · subst hne
      rw [frame?_setFrame_self (lt_of_frame? hf)] at hf'
      rw [← Option.some.inj hf']
      show f.pinCount = 0
      exact h.unpinned hf
    · rw [frame?_setFrame_of_ne hne] at hf'
      exact h.unpinned hf'

/-- The pool after an empty slot has been filled. -/
def filled (p : BufferPool) (index : Nat) (f : BufferFrame) : BufferPool :=
  { p with
    frames := p.frames.set index (some f)
    pageTable := ⟨Function.update p.pageTable.table f.pageKey (some ⟨index⟩)⟩ }

lemma filled_frame?_self {index : Nat} (h : index < p.frames.length) :
    (p.filled index f).frame? ⟨index⟩ = some f := by
  rw [frame?_eq_some, filled, List.getElem?_set_self h]

lemma filled_frame?_of_ne {index : Nat} (h : id ≠ ⟨index⟩) :
    (p.filled index f).frame? id = p.frame? id :=
  @frame?_setFrame_of_ne p ⟨index⟩ id f h

lemma Wf.filled (h : p.Wf) {index : Nat} (hindex : p.frames[index]? = some none)
    (hc : p.cached f.pageKey = none) : (p.filled index f).Wf ∧
      (p.filled index f).cached = Function.update p.cached f.pageKey (some (f.page, f.isDirty)) := by
  have hlt := (List.getElem?_eq_some_iff.mp hindex).1
  have htable := h.cached_eq_none.mp hc
  have hempty : p.frame? ⟨index⟩ = none := by rw [frame?, hindex]; rfl
  have hget (key : PageKey) : (p.filled index f).pageTable.get key =
      if key = f.pageKey then some ⟨index⟩ else p.pageTable.get key := by
    simp [BufferPool.filled, PageTable.get, Function.update_apply]
  have hold {key : PageKey} {id : FrameId} (hid : p.pageTable.get key = some id) : id ≠ ⟨index⟩ := by
    intro heq
    have ⟨g, hg, _⟩ := h.framed hid
    rw [heq, hempty] at hg
    cases hg
  refine ⟨⟨?_, ?_, ?_, ?_⟩, ?_⟩
  · simpa [BufferPool.filled] using h.capacity
  · simpa [BufferPool.filled] using h.hand_lt
  · intro key id hid
    rw [hget] at hid
    split at hid
    · rename_i heq
      obtain rfl := Option.some.inj hid
      exact ⟨f, filled_frame?_self hlt, heq.symm⟩
    · have ⟨g, hg, hkey⟩ := h.framed hid
      exact ⟨g, by rwa [filled_frame?_of_ne (hold hid)], hkey⟩
  · intro id g hg
    rw [hget]
    by_cases hid : id = ⟨index⟩
    · subst hid
      rw [filled_frame?_self hlt] at hg
      rw [← Option.some.inj hg, if_pos rfl]
    · rw [filled_frame?_of_ne hid] at hg
      have hne : g.pageKey ≠ f.pageKey := by
        intro heq
        rw [← heq, h.tabled hg] at htable
        cases htable
      rw [if_neg hne, h.tabled hg]
  · funext key
    unfold cached
    rw [hget]
    by_cases hkey : key = f.pageKey
    · subst hkey
      rw [if_pos rfl, Function.update_self, Option.bind_some, filled_frame?_self hlt, Option.map_some]
    · rw [if_neg hkey, Function.update_of_ne hkey]
      cases hid : p.pageTable.get key with
      | none => rfl
      | some id => rw [Option.bind_some, Option.bind_some, filled_frame?_of_ne (hold hid)]

lemma getElem?_of_findIdx? {index : Nat} (h : p.frames.findIdx? Option.isNone = some index) :
    p.frames[index]? = some none := by
  have ⟨hlt, hnone, _⟩ := List.findIdx?_eq_some_iff_getElem.mp h
  rw [List.getElem?_eq_getElem hlt]
  simpa using hnone

lemma insertPage_ok (h : p.Idle) (hc : p.cached key = none) (hfull : p.isFull = false) (page : Page) :
    ∃ guard f p', (insertPage key page).run p = .ok guard p' ∧ p'.Held guard f ∧ f.pageKey = key ∧
      f.page = page ∧ p'.cached = Function.update p.cached key (some (page, false)) := by
  have ⟨index, hindex⟩ : ∃ index, p.frames.findIdx? Option.isNone = some index := by
    cases hfind : p.frames.findIdx? Option.isNone with
    | some index => exact ⟨index, rfl⟩
    | none =>
      rw [List.findIdx?_eq_none_iff] at hfind
      rw [isFull, List.all_eq_false] at hfull
      have ⟨slot, hslot, hnone⟩ := hfull
      have := hfind slot hslot
      cases slot <;> simp at hnone this
  have hslot := getElem?_of_findIdx? hindex
  have hlt := (List.getElem?_eq_some_iff.mp hslot).1
  have ⟨hwf, hcached⟩ := h.toWf.filled (f := .new key page) hslot hc
  have htable : p.pageTable.table key = none := h.cached_eq_none.mp hc
  refine ⟨⟨index⟩, .new key page, p.filled index (.new key page), ?_,
    ⟨hwf, filled_frame?_self hlt, rfl, ?_⟩, rfl, rfl, hcached⟩
  · have hinsert : (insertFrame (.new key page)).run p =
        .ok ⟨index⟩ (p.filled index (.new key page)) := by
      simp only [insertFrame, hindex, PageTable.insert, BufferFrame.new, htable, Option.isSome_none,
        Bool.false_eq_true, if_false, filled]
    rw [insertPage, Exec.run_bind, hinsert, Outcome.andThen_ok, Exec.run_bind, Exec.run_query,
      getFrame_eq (filled_frame?_self hlt)]
    rfl
  · intro id g hne hg
    rw [filled_frame?_of_ne hne] at hg
    exact h.unpinned hg

/-- The pool after a frame has been given up. -/
def emptied (p : BufferPool) (id : FrameId) (key : PageKey) : BufferPool :=
  { p with frames := p.frames.set id.id none, pageTable := p.pageTable.remove key }

lemma emptied_frame? (hlt : id.id < p.frames.length) (id' : FrameId) :
    (p.emptied id key).frame? id' = if id' = id then none else p.frame? id' := by
  by_cases hne : id' = id
  · subst hne
    rw [if_pos rfl, frame?, emptied, List.getElem?_set_self hlt]
    rfl
  · rw [if_neg hne]
    have hne' : id.id ≠ id'.id := fun heq => hne (frameId_eq heq).symm
    rw [frame?, frame?, emptied, List.getElem?_set_ne hne']

lemma Wf.emptied (h : p.Wf) (hf : p.frame? id = some f) : (p.emptied id f.pageKey).Wf ∧
    (p.emptied id f.pageKey).cached = Function.update p.cached f.pageKey none := by
  have hframe := @emptied_frame? p id f.pageKey (lt_of_frame? hf)
  have hid := h.tabled hf
  have hget (key : PageKey) : (p.emptied id f.pageKey).pageTable.get key =
      if key = f.pageKey then none else p.pageTable.get key := by
    simp [BufferPool.emptied, PageTable.remove, PageTable.get, Function.update_apply]
  -- the other pages are on other frames
  have hother {key : PageKey} {id' : FrameId} (hid' : p.pageTable.get key = some id')
      (hkey : key ≠ f.pageKey) : id' ≠ id := by
    intro heq
    have ⟨g, hg, hgkey⟩ := h.framed hid'
    rw [heq, hf] at hg
    rw [← Option.some.inj hg] at hgkey
    exact hkey hgkey.symm
  refine ⟨⟨?_, ?_, ?_, ?_⟩, ?_⟩
  · simpa [BufferPool.emptied] using h.capacity
  · simpa [BufferPool.emptied] using h.hand_lt
  · intro key id' hid'
    rw [hget] at hid'
    split at hid'
    · cases hid'
    · rename_i hkey
      have ⟨g, hg, hgkey⟩ := h.framed hid'
      exact ⟨g, by rw [hframe, if_neg (hother hid' hkey), hg], hgkey⟩
  · intro id' g hg
    rw [hframe] at hg
    split at hg
    · cases hg
    · rename_i hne
      rw [hget, if_neg]
      · exact h.tabled hg
      · intro hkey
        have htable := h.tabled hg
        rw [hkey, hid] at htable
        exact hne (Option.some.inj htable).symm
  · funext key
    unfold cached
    rw [hget]
    by_cases hkey : key = f.pageKey
    · subst hkey
      rw [if_pos rfl, Function.update_self, Option.bind_none, Option.map_none]
    · rw [if_neg hkey, Function.update_of_ne hkey]
      cases hid' : p.pageTable.get key with
      | none => rfl
      | some id' =>
        rw [Option.bind_some, Option.bind_some, hframe, if_neg (hother hid' hkey)]

lemma removePage_ok (h : p.Idle) (hc : p.cached key = some (page, false)) : ∃ p',
    (removePage key).run p = .ok () p' ∧ p'.Idle ∧ p'.isFull = false ∧
      p'.cached = Function.update p.cached key none := by
  have ⟨id, f, _, hf, hkey, heq⟩ := h.exists_frame hc
  subst hkey
  have hdirty : f.isDirty = false := (Prod.mk.inj heq).2
  have hlt := lt_of_frame? hf
  have ⟨hwf, hcached⟩ := h.toWf.emptied hf
  refine ⟨p.emptied id f.pageKey, ?_, ⟨hwf, ?_⟩, ?_, hcached⟩
  · simp only [removePage, Exec.run_bind, Exec.run_query, h.getFrameId_eq hf, Outcome.andThen_ok,
      getFrame_eq hf, h.unpinned hf, hdirty]
    rfl
  · intro id' g hg
    rw [emptied_frame? hlt] at hg
    split at hg
    · cases hg
    · exact h.unpinned hg
  · rw [isFull, List.all_eq_false]
    exact ⟨none, List.mem_set hlt none, by simp⟩

end Calls

end BufferPool

end RdbRs
