import RdbRs.Storage.StorageRuns

/-!
# The storage manager as a page store

A manager whose calls on the files succeed is a page store, whatever the capacity of its pool.
-/

namespace RdbRs

open WriteBack

namespace StorageManager

/-- The pages of a relation, given how many it has and what they show. -/
def pagesOf (lengths : RelationId → Option Nat) (shown : PageKey → Option Page) (r : RelationId) :
    Option (List Page) :=
  (lengths r).map fun n => (List.range n).map fun i => (shown ⟨r, PageId.new i⟩).getD Page.new

/-- The numbers of pages in the files. -/
def lengths (s : StorageManager) (r : RelationId) : Option Nat :=
  (s.relationFileManager.data.files r).map List.length

def pages (s : StorageManager) : RelationId → Option (List Page) := pagesOf s.lengths s.view.shown

/-- The calls on the files succeed, and the relations with a file are the registered ones. -/
structure Reliable (s : StorageManager) : Prop extends Valid s where
  faultless : s.relationFileManager.Reliable
  registered_eq (r : RelationId) :
    s.relationFileManager.registeredRelations r = (s.relationFileManager.data.files r).isSome

section PagesOf

variable {lengths lengths' : RelationId → Option Nat} {shown shown' : PageKey → Option Page}
  {r : RelationId} {key : PageKey} {ps : List Page} {p : Page} {i n : Nat}

lemma pagesOf_eq_some (h : pagesOf lengths shown r = some ps) : lengths r = some ps.length := by
  rw [pagesOf, Option.map_eq_some_iff] at h
  have ⟨n, hn, hps⟩ := h
  rw [hn, ← hps, List.length_map, List.length_range]

lemma getElem?_pagesOf (h : pagesOf lengths shown r = some ps) :
    ps[i]? = if i < ps.length then some ((shown ⟨r, PageId.new i⟩).getD Page.new) else none := by
  have hlen := pagesOf_eq_some h
  rw [pagesOf, hlen, Option.map_some, Option.some.injEq] at h
  split
  · rename_i hi
    rw [← h, List.getElem?_map, List.getElem?_range hi, Option.map_some]
  · rename_i hi
    exact List.getElem?_eq_none (Nat.le_of_not_lt hi)

lemma pagesOf_congr (hlen : lengths' r = lengths r)
    (hshown : ∀ i, shown' ⟨r, PageId.new i⟩ = shown ⟨r, PageId.new i⟩) :
    pagesOf lengths' shown' r = pagesOf lengths shown r := by
  simp only [pagesOf, hlen, hshown]

lemma new_eq_iff (hi : i < 2 ^ 64) {p : PageId} : PageId.new i = p ↔ i = p.index := by
  constructor
  · intro h
    rw [← h, PageId.index_new hi]
  · intro h
    apply PageId.index_injective
    rw [PageId.index_new hi, h]

/-- Two lists of pages are equal if they show the same pages. -/
lemma pagesOf_eq_of (hlen : lengths r = some ps.length)
    (hshown : ∀ i, i < ps.length → shown ⟨r, PageId.new i⟩ = ps[i]?) :
    pagesOf lengths shown r = some ps := by
  rw [pagesOf, hlen, Option.map_some, Option.some.injEq]
  apply List.ext_getElem?
  intro i
  rcases Nat.lt_or_ge i ps.length with hi | hi
  · rw [List.getElem?_map, List.getElem?_range hi, Option.map_some, hshown i hi,
      List.getElem?_eq_getElem hi, Option.getD_some]
  · rw [List.getElem?_eq_none hi, List.getElem?_eq_none (by simpa using hi)]

lemma pagesOf_update (h : pagesOf lengths shown key.relationId = some ps) (hlen : ps.length ≤ 2 ^ 64) :
    pagesOf lengths (Function.update shown key (some p)) =
      Function.update (pagesOf lengths shown) key.relationId (some (ps.set key.pageId.index p)) := by
  funext r
  by_cases hr : r = key.relationId
  · subst hr
    rw [Function.update_self]
    have hn := pagesOf_eq_some h
    rw [pagesOf, hn, Option.map_some, Option.some.injEq]
    apply List.ext_getElem?
    intro i
    rcases Nat.lt_or_ge i ps.length with hi | hi
    · have hget := getElem?_pagesOf (i := i) h
      rw [if_pos hi] at hget
      rw [List.getElem?_map, List.getElem?_range hi, Option.map_some, Function.update_apply,
        List.getElem?_set]
      have hiff : (PageKey.mk key.relationId (PageId.new i) = key) ↔ key.pageId.index = i := by
        rw [eq_comm (a := key.pageId.index), ← new_eq_iff (Nat.lt_of_lt_of_le hi hlen)]
        constructor
        · intro heq
          rw [← heq]
        · intro heq
          rw [heq]
      by_cases hkey : key.pageId.index = i
      · rw [if_pos (hiff.mpr hkey), if_pos hkey, hkey, if_pos hi, Option.getD_some]
      · rw [if_neg (fun heq => hkey (hiff.mp heq)), if_neg hkey, hget]
    · rw [List.getElem?_eq_none (by simpa using hi), List.getElem?_eq_none (by simpa using hi)]
  · rw [Function.update_of_ne hr]
    apply pagesOf_congr rfl
    intro i
    rw [Function.update_of_ne]
    intro heq
    exact hr (congrArg PageKey.relationId heq)

lemma pagesOf_append (h : pagesOf lengths shown r = some ps) (hlen : ps.length < 2 ^ 64)
    (hlengths : ∀ r', lengths' r' = if r' = r then some (ps.length + 1) else lengths r') :
    pagesOf lengths' (Function.update shown ⟨r, PageId.new ps.length⟩ (some p)) =
      Function.update (pagesOf lengths shown) r (some (ps ++ [p])) := by
  funext r'
  by_cases hr : r' = r
  · subst hr
    rw [Function.update_self]
    have hn : lengths' r' = some (ps.length + 1) := by rw [hlengths, if_pos rfl]
    rw [pagesOf, hn, Option.map_some, Option.some.injEq, List.range_succ, List.map_append,
      List.map_singleton, Function.update_self, Option.getD_some]
    congr 1
    apply List.ext_getElem?
    intro i
    rw [getElem?_pagesOf h, List.getElem?_map]
    split
    · rename_i hi
      have hne : PageKey.mk r' (PageId.new i) ≠ ⟨r', PageId.new ps.length⟩ := by
        intro heq
        exact PageId.new_ne (hi.trans hlen) hlen (Nat.ne_of_lt hi) (congrArg PageKey.pageId heq)
      rw [List.getElem?_range hi, Option.map_some, Function.update_of_ne hne]
    · rename_i hi
      rw [List.getElem?_eq_none (by simpa using hi), Option.map_none]
  · rw [Function.update_of_ne hr]
    apply pagesOf_congr
    · rw [hlengths, if_neg hr]
    · intro i
      rw [Function.update_of_ne]
      intro heq
      exact hr (congrArg PageKey.relationId heq)

end PagesOf

section Calls

variable {s s' : StorageManager} {r : RelationId} {key : PageKey} {ps : List Page} {page : Page}

lemma length_le_of_pages (h : s.pages r = some ps) : ps.length ≤ maxFilePages := by
  have hlen := pagesOf_eq_some h
  rw [lengths, Option.map_eq_some_iff] at hlen
  have ⟨file, hfile, heq⟩ := hlen
  rw [← heq]
  exact s.relationFileManager.data.bounded _ _ hfile

/-- The lists of pages hold what the manager shows. -/
lemma Valid.shown_eq_pages (h : s.Valid) (key : PageKey) :
    s.view.shown key = (s.pages key.relationId).bind fun ps => ps[key.pageId.index]? := by
  have hnone := h.coherent.shown_eq_none (k := key)
  have hstored : s.view.stored key =
      (s.relationFileManager.data.files key.relationId).bind fun ps => ps[key.pageId.index]? := rfl
  cases hps : s.pages key.relationId with
  | none =>
    rw [Option.bind_none, hnone, hstored]
    rw [pages, pagesOf, Option.map_eq_none_iff, lengths, Option.map_eq_none_iff] at hps
    rw [hps, Option.bind_none]
  | some ps =>
    have hget := getElem?_pagesOf (i := key.pageId.index) hps
    have hlen := pagesOf_eq_some hps
    rw [lengths, Option.map_eq_some_iff] at hlen
    have ⟨file, hfile, heq⟩ := hlen
    have hkey : PageKey.mk key.relationId (PageId.new key.pageId.index) = key := by
      rw [(new_eq_iff key.pageId.index_lt).mpr rfl]
    rw [Option.bind_some, hget, hkey, ← heq]
    split
    · rename_i hi
      cases hshown : s.view.shown key with
      | some page => rfl
      | none =>
        rw [hnone, hstored, hfile, Option.bind_some, List.getElem?_eq_getElem hi] at hshown
        cases hshown
    · rename_i hi
      rw [hnone, hstored, hfile, Option.bind_some, List.getElem?_eq_none (Nat.le_of_not_lt hi)]

lemma Kept.lengths_eq (h : Kept s s') : s'.lengths = s.lengths := funext h.lengths

lemma Kept.isSome_files (h : Kept s s') (r : RelationId) :
    (s'.relationFileManager.data.files r).isSome = (s.relationFileManager.data.files r).isSome := by
  rw [← Option.isSome_map (f := List.length), h.lengths r, Option.isSome_map]

lemma Reliable.of_kept (h : s.Reliable) (hk : Kept s s') (hvalid : s'.Valid) : s'.Reliable := by
  refine ⟨hvalid, hk.reliable h.faultless, ?_⟩
  intro r
  rw [hk.registered_eq, h.registered_eq, hk.isSome_files]

lemma Quiet.pages_eq (h : s.Valid) (hq : Quiet s s') : s'.pages = s.pages := by
  rw [pages, hq.lengths_eq, hq.shown_eq h, pages]

/-- The pages that are shown can be read and written. -/
lemma Reliable.writable (h : s.Reliable) (hshown : s.view.shown key = some page) :
    ¬(s.relationFileManager.registeredRelations key.relationId = false ∨ s.view.stored key = none) := by
  have hstored : s.view.stored key ≠ none := by
    rw [Ne, ← h.coherent.shown_eq_none, hshown]
    exact Option.some_ne_none _
  rintro (hnot | hnone)
  · rw [h.registered_eq, Option.isSome_eq_false_iff, Option.isNone_iff_eq_none] at hnot
    apply hstored
    show (s.relationFileManager.data.files key.relationId).bind _ = none
    rw [hnot, Option.bind_none]
  · exact hstored hnone

lemma Accessed.pages_eq {change : Option Page} (ha : Accessed s s' key change)
    (hps : s.pages key.relationId = some ps) (hpage : ps[key.pageId.index]? = some page) :
    s'.pages = Function.update s.pages key.relationId
      (some (ps.set key.pageId.index (change.getD page))) := by
  rw [pages, ha.lengths_eq, ha.shown_eq]
  cases change with
  | some q =>
    exact pagesOf_update hps ((length_le_of_pages hps).trans (by decide))
  | none =>
    have ⟨hlt, heq⟩ := List.getElem?_eq_some_iff.mp hpage
    subst heq
    rw [Option.getD_none, List.set_getElem_self, ← hps, Function.update_eq_self]
    rfl

lemma Allocated.reliable_of {pages : List Page} (h : s.Reliable) (ha : Allocated s s' r pages) :
    s'.Reliable := by
  refine ⟨ha.valid, ha.reliable h.faultless, ?_⟩
  intro r'
  rw [ha.registered_eq, h.registered_eq, ← Option.isSome_map (f := List.length),
    ← Option.isSome_map (f := List.length) (x := s'.relationFileManager.data.files r'), ha.lengths]
  split
  · rename_i heq
    rw [heq, ha.file_eq]
    rfl
  · rfl

lemma Registered.reliable_of (h : s.Reliable) (hr : Registered s s' r) : s'.Reliable := by
  refine ⟨hr.valid, hr.reliable h.faultless, ?_⟩
  intro r'
  rw [hr.registered_eq, Function.update_apply, h.registered_eq,
    ← Option.isSome_map (f := List.length) (x := s'.relationFileManager.data.files r'), hr.lengths]
  split
  · rfl
  · rw [Option.isSome_map]

lemma Registered.pages_eq (hr : Registered s s' r) :
    s'.pages = Function.update s.pages r (some ((s.pages r).getD [])) := by
  funext r'
  rw [pages, hr.view_eq]
  by_cases heq : r' = r
  · subst heq
    rw [Function.update_self]
    have hlen : s'.lengths r' = some ((s.lengths r').getD 0) := by
      unfold StorageManager.lengths
      rw [hr.lengths, if_pos rfl]
    cases hold : s.lengths r' with
    | none =>
      rw [hold, Option.getD_none] at hlen
      rw [pages, pagesOf, pagesOf, hlen, hold]
      rfl
    | some n =>
      rw [hold, Option.getD_some] at hlen
      rw [pages, pagesOf, pagesOf, hlen, hold]
      rfl
  · rw [Function.update_of_ne heq]
    apply pagesOf_congr _ fun _ => rfl
    unfold StorageManager.lengths
    rw [hr.lengths, if_neg heq]

end Calls

section Preserved

variable {s s' : StorageManager} {r : RelationId} {key : PageKey}

lemma access_reliable {α : Type} (key : PageKey) (body : Page → α × Option Page) (s s' : StorageManager)
    (h : s.Reliable) (hrun : ((access key body).run s).Returns s') : s'.Reliable := by
  rcases access_cases h.toValid key body with ⟨page, s₁, hrun', _, hs₁⟩ | ⟨e, s₁, hrun', hquiet, _⟩
  all_goals
    rw [hrun'] at hrun
    rcases hrun with ⟨_, heq⟩ | ⟨_, heq⟩ <;> cases heq
  · exact h.of_kept hs₁.toKept hs₁.valid
  · exact h.of_kept hquiet.toKept hquiet.valid

lemma flushPage_reliable (key : PageKey) (s s' : StorageManager) (h : s.Reliable)
    (hrun : ((flushPage key).run s).Returns s') : s'.Reliable := by
  have hquiet := flushPage_returns h.toValid hrun
  exact h.of_kept hquiet.toKept hquiet.valid

lemma allocatePage_reliable (r : RelationId) (s s' : StorageManager) (h : s.Reliable)
    (hrun : ((allocatePage r).run s).Returns s') : s'.Reliable := by
  rcases hrun with ⟨pageId, heq⟩ | ⟨e, heq⟩
  · have ⟨pages, _, hs'⟩ := allocatePage_ok h.toValid heq
    exact hs'.reliable_of h
  · have hquiet := allocatePage_err h.toValid heq
    exact h.of_kept hquiet.toKept hquiet.valid

lemma createRelation_reliable (r : RelationId) (s s' : StorageManager) (h : s.Reliable)
    (hrun : ((createRelation r).run s).Returns s') : s'.Reliable := by
  rcases createRelation_cases h.toValid r with ⟨s₁, hrun', hs₁⟩ | ⟨e, s₁, _, _, hnot⟩
  · rw [hrun'] at hrun
    rcases hrun with ⟨_, heq⟩ | ⟨_, heq⟩ <;> cases heq
    exact hs₁.reliable_of h
  · exact absurd h.faultless hnot

lemma pageCount_reliable (r : RelationId) (s s' : StorageManager) (h : s.Reliable)
    (hrun : ((pageCount r).run s).Returns s') : s'.Reliable := by
  rcases pageCount_cases h.toValid r with ⟨pages, s₁, hrun', hvalid, _, hfiles, _⟩ |
    ⟨e, s₁, hrun', hquiet, _⟩
  all_goals
    rw [hrun'] at hrun
    rcases hrun with ⟨_, heq⟩ | ⟨_, heq⟩ <;> cases heq
  · refine ⟨hvalid, hfiles.reliable h.faultless, ?_⟩
    intro r
    rw [hfiles.registered_eq, hfiles.data_eq, h.registered_eq]
  · exact h.of_kept hquiet.toKept hquiet.valid

end Preserved

end StorageManager

/-- A storage manager whose calls on the files succeed. -/
abbrev ReliableManager : Type := {s : StorageManager // s.Reliable}

namespace ReliableManager

open StorageManager

/-- A manager on the files, with their relations registered. -/
def opened (data : FileStore) (capacity : Nat) (h : 0 < capacity) : ReliableManager :=
  ⟨{ withCapacity data (fun _ => false) capacity with
      relationFileManager := ⟨data, fun r => (data.files r).isSome, fun _ => false⟩ }, by
    have hvalid := valid_withCapacity data (fun _ => false) h
    refine ⟨⟨⟨hvalid.coherent, ?_, ?_⟩, hvalid.idle⟩, fun _ => rfl, fun _ => rfl⟩
    · intro r count hcount
      cases hcount
    · intro key c hc
      cases hc⟩

lemma pages_opened (data : FileStore) (capacity : Nat) (h : 0 < capacity) :
    (opened data capacity h).1.pages = data.files := by
  funext r
  have hlen : (opened data capacity h).1.lengths r = (data.files r).map List.length := rfl
  cases hfile : data.files r with
  | none =>
    rw [StorageManager.pages, pagesOf, hlen, hfile]
    rfl
  | some ps =>
    rw [hfile] at hlen
    apply pagesOf_eq_of hlen
    intro i hi
    have hi' : i < 2 ^ 64 := (hi.trans_le (data.bounded r ps hfile)).trans (by decide)
    show (data.files r).bind _ = _
    rw [hfile, Option.bind_some, PageId.index_new hi']

end ReliableManager

open StorageManager in
instance : PageStore ReliableManager where
  access key body := (StorageManager.access key body).restrict (access_reliable key body)
  flushPage key := (StorageManager.flushPage key).restrict (flushPage_reliable key)
  allocatePage r := (StorageManager.allocatePage r).restrict (allocatePage_reliable r)
  createRelation r := (StorageManager.createRelation r).restrict (createRelation_reliable r)
  pageCount r := (StorageManager.pageCount r).restrict (pageCount_reliable r)
  pages s := s.1.pages
  Cached s key := s.1.view.cached key ≠ none
  maxPages := maxFilePages
  maxPages_le := maxFilePages_le
  length_le h := length_le_of_pages h
  access_ok := by
    intro α s key ps p body hps hp
    have hshown : s.1.view.shown key = some p := by
      rw [s.2.shown_eq_pages, hps, Option.bind_some, hp]
    rcases access_cases s.2.toValid key body with ⟨page, s', hrun, hpage, hs'⟩ | ⟨e, s', _, _, hrel⟩
    · cases hpage.symm.trans hshown
      exact ⟨_, Exec.run_restrict_ok (access_reliable key body) hrun, hs'.cached,
        hs'.pages_eq hps hp⟩
    · exact absurd (hrel s.2.faultless).1 (s.2.writable hshown)
  access_err := by
    intro α s key body hnone
    rw [← s.2.shown_eq_pages] at hnone
    rcases access_cases s.2.toValid key body with ⟨page, s', _, hpage, _⟩ | ⟨e, s', hrun, hquiet, _⟩
    · cases hnone.symm.trans hpage
    · exact ⟨e, _, Exec.run_restrict_err (access_reliable key body) hrun, hquiet.pages_eq s.2.toValid⟩
  flush_ok := by
    intro s key hc
    rcases flushPage_cases s.2.toValid key with ⟨hnone, _⟩ | ⟨s', page, hrun, hquiet, _⟩ |
      ⟨e, s', _, _, _, hnot⟩
    · exact absurd hnone hc
    · exact ⟨_, Exec.run_restrict_ok (flushPage_reliable key) hrun, hquiet.pages_eq s.2.toValid⟩
    · exact absurd s.2.faultless hnot
  allocate_ok := by
    intro s r ps hps hlt
    have hlen := pagesOf_eq_some hps
    rw [lengths, Option.map_eq_some_iff] at hlen
    have ⟨file, hfile, heq⟩ := hlen
    rcases allocatePage_cases s.2.toValid r with ⟨pages, s', hrun, hs'⟩ | ⟨e, s', _, _, hrel⟩
    · cases hfile.symm.trans hs'.file_eq
      rw [heq] at hrun
      refine ⟨_, Exec.run_restrict_ok (allocatePage_reliable r) hrun, ?_⟩
      show s'.pages = _
      rw [StorageManager.pages, hs'.shown_eq, heq]
      apply pagesOf_append hps (hlt.trans (by decide))
      intro r'
      rw [lengths, hs'.lengths, heq]
      rfl
    · have hreg : s.1.relationFileManager.registeredRelations r = true := by
        rw [s.2.registered_eq, hfile, Option.isSome_some]
      have hfull := hrel s.2.faultless file hreg hfile
      rw [heq] at hfull
      exact absurd hfull (Nat.ne_of_lt hlt)
  allocate_err := by
    intro s r hfull
    rcases allocatePage_cases s.2.toValid r with ⟨pages, s', hrun, hs'⟩ | ⟨e, s', hrun, hquiet, _⟩
    · have hlen : s.1.lengths r = some pages.length := by
        rw [lengths, hs'.file_eq, Option.map_some]
      have ⟨ps, hps⟩ : ∃ ps, s.1.pages r = some ps := by
        rw [StorageManager.pages, pagesOf, hlen]
        exact ⟨_, rfl⟩
      have heq := Option.some.inj (hlen.symm.trans (pagesOf_eq_some hps))
      rw [hfull ps hps] at heq
      exact absurd heq (Nat.ne_of_lt hs'.length_lt)
    · exact ⟨e, _, Exec.run_restrict_err (allocatePage_reliable r) hrun, hquiet.pages_eq s.2.toValid⟩
  create_ok := by
    intro s r
    rcases createRelation_cases s.2.toValid r with ⟨s', hrun, hs'⟩ | ⟨e, s', _, _, hnot⟩
    · exact ⟨_, Exec.run_restrict_ok (createRelation_reliable r) hrun, hs'.pages_eq⟩
    · exact absurd s.2.faultless hnot
  count_ok := by
    intro s r ps hps
    have hlen := pagesOf_eq_some hps
    rw [lengths, Option.map_eq_some_iff] at hlen
    have ⟨file, hfile, heq⟩ := hlen
    rcases pageCount_cases s.2.toValid r with ⟨pages, s', hrun, hvalid, hview, hfiles, hfile'⟩ |
      ⟨e, s', _, _, hrel⟩
    · cases hfile.symm.trans hfile'
      rw [heq] at hrun
      refine ⟨_, Exec.run_restrict_ok (pageCount_reliable r) hrun, ?_⟩
      show s'.pages = _
      rw [StorageManager.pages, hview]
      funext r'
      apply pagesOf_congr _ fun _ => rfl
      rw [lengths, hfiles.data_eq, lengths]
    · rcases (hrel s.2.faultless).1 with hnot | hnone
      · rw [s.2.registered_eq, hfile] at hnot
        cases hnot
      · rw [hfile] at hnone
        cases hnone

end RdbRs
