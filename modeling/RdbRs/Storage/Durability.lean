import Mathlib.Data.List.Perm.Basic
import RdbRs.Lib.Triple
import RdbRs.Storage.ReliableManager
import RdbRs.Storage.SlottedPageRuns

/-!
# What a restart finds

The files of a settled manager hold, page by page, what it shows, but for changes of the layout of
a heap page. A manager that is opened on them cannot be told from it by reading.
-/

namespace RdbRs

open Exec

section Alike

variable {p q p' : Page} {m m' : SlotId → Option Row} {key : PageKey}

lemma PageRun.unique (h : PageRun p m) (h' : PageRun p m') : m = m' := by
  funext s
  have heq := (h.readRow_eq s).symm.trans (h'.readRow_eq s)
  cases hm : m s with
  | none =>
    cases hm' : m' s with
    | none => rfl
    | some row =>
      rw [hm, hm'] at heq
      cases heq
  | some row =>
    cases hm' : m' s with
    | none =>
      rw [hm, hm'] at heq
      cases heq
    | some row' =>
      rw [hm, hm'] at heq
      rw [Except.ok.inj heq]

/-- The pages of a heap have the same rows, those of an index the same bytes. -/
def Alike (key : PageKey) (p q : Page) : Prop :=
  match key.relationId with
  | .heap _ => ∃ m, PageRun p m ∧ PageRun q m
  | .index _ => p = q

lemma alike_index {r : IndexId} {pageId : PageId} : Alike ⟨.index r, pageId⟩ p q ↔ p = q := Iff.rfl

lemma alike_heap {t : TableId} {pageId : PageId} :
    Alike ⟨.heap t, pageId⟩ p q ↔ ∃ m, PageRun p m ∧ PageRun q m := Iff.rfl

lemma Alike.symm (h : Alike key p q) : Alike key q p := by
  obtain ⟨r, pageId⟩ := key
  cases r with
  | heap t =>
    have ⟨m, hp, hq⟩ := alike_heap.mp h
    exact ⟨m, hq, hp⟩
  | index i => exact (alike_index.mp h).symm

lemma Alike.trans (h : Alike key p q) (h' : Alike key q p') : Alike key p p' := by
  obtain ⟨r, pageId⟩ := key
  cases r with
  | heap t =>
    have ⟨m, hp, hq⟩ := alike_heap.mp h
    have ⟨m', hq', hp'⟩ := alike_heap.mp h'
    have heq := hq.unique hq'
    subst heq
    exact ⟨m, hp, hp'⟩
  | index i => exact (alike_index.mp h).trans (alike_index.mp h')

lemma Alike.right (h : Alike key p q) : Alike key q q := h.symm.trans h

lemma alike_new (key : PageKey) : Alike key Page.new Page.new := by
  unfold Alike
  split
  · exact ⟨_, .new, .new⟩
  · rfl

/-- Pages with the same rows list them alike. -/
lemma PageRun.scanRows_congr (h : PageRun p m) (h' : PageRun q m) : p.scanRows = q.scanRows := by
  have ⟨live, hlive, hordered, hmem⟩ := h.scanRows_eq
  have ⟨live', hlive', hordered', hmem'⟩ := h'.scanRows_eq
  have hnodup {l : List (SlotId × Row)} (hl : l.Pairwise fun x y => x.1.index < y.1.index) : l.Nodup := by
    apply hl.imp
    intro x y hlt heq
    rw [heq] at hlt
    exact Nat.lt_irrefl _ hlt
  have hperm : live.Perm live' := by
    rw [List.perm_ext_iff_of_nodup (hnodup hordered) (hnodup hordered')]
    intro ⟨s, row⟩
    rw [hmem, hmem']
  have heq : live = live' := by
    apply hperm.eq_of_pairwise _ hordered hordered'
    intro x y _ _ hxy hyx
    omega
  rw [hlive, hlive', heq]

lemma PageRun.readRow_congr (h : PageRun p m) (h' : PageRun q m) (s : SlotId) :
    p.readRow s = q.readRow s := by
  rw [h.readRow_eq, h'.readRow_eq]

end Alike

/-! ### Settled managers -/

namespace ReliableManager

open StorageManager

/-- What a page shows. -/
def shown (s : ReliableManager) (key : PageKey) : Option Page := s.1.view.shown key

/-- The page in the file. -/
def stored (s : ReliableManager) (key : PageKey) : Option Page := s.1.view.stored key

/-- The page in the file is like the one shown. -/
def SettledAt (s : ReliableManager) (key : PageKey) : Prop :=
  ∀ p q, s.stored key = some p → s.shown key = some q → Alike key p q

def Settled (s : ReliableManager) : Prop := ∀ key, s.SettledAt key

/-- One page has been changed in the pool, and the manager is settled but for it. -/
structure Pending (key : PageKey) (s : ReliableManager) : Prop where
  cached : PageStore.Cached s key
  alike {q : Page} : s.shown key = some q → Alike key q q
  others {k : PageKey} : k ≠ key → s.SettledAt k

section Steps

variable {s s' : ReliableManager} {key : PageKey} {change : Option Page}

lemma shown_eq_none : s.shown key = none ↔ s.stored key = none := s.2.coherent.shown_eq_none

/-- A page has been moved to its file, if at all. -/
lemma SettledAt.of_stored_or (h : s.SettledAt key) (hshown : s'.shown key = s.shown key)
    (hstored : s'.stored key = s.stored key ∨ s'.stored key = s.shown key) : s'.SettledAt key := by
  intro p q hp hq
  rw [hshown] at hq
  rcases hstored with heq | heq
  · rw [heq] at hp
    exact h p q hp hq
  · rw [heq, hq, Option.some.injEq] at hp
    subst hp
    cases hold : s.stored key with
    | none =>
      rw [shown_eq_none.mpr hold] at hq
      cases hq
    | some p' => exact (h p' q hold hq).right

lemma settled_of_quiet (h : s.Settled) (hq : Quiet s.1 s'.1) : s'.Settled := by
  have hsame := s.2.toSound.same hq.moves
  intro key
  exact (h key).of_stored_or (congrFun hsame.shown_eq key) (hsame.stored_or key)

lemma others_of_accessed (h : s.Settled) (ha : Accessed s.1 s'.1 key change) {k : PageKey} (hk : k ≠ key) :
    s'.SettledAt k := by
  apply (h k).of_stored_or _ (ha.stored_or k)
  show s'.1.view.shown k = s.1.view.shown k
  rw [ha.shown_eq]
  cases change with
  | none => rfl
  | some q => exact Function.update_of_ne hk ..

lemma shown_of_accessed (ha : Accessed s.1 s'.1 key change) {p : Page} (hp : s.shown key = some p) :
    s'.shown key = some (change.getD p) := by
  show s'.1.view.shown key = _
  rw [ha.shown_eq]
  cases change with
  | none => exact hp
  | some q => exact Function.update_self ..

lemma settled_of_accessed (h : s.Settled) (ha : Accessed s.1 s'.1 key change) {p : Page}
    (hp : s.shown key = some p) (halike : Alike key p p → Alike key p (change.getD p)) : s'.Settled := by
  intro k
  by_cases hk : k = key
  · subst hk
    intro p' q' hp' hq'
    rw [shown_of_accessed ha hp, Option.some.injEq] at hq'
    subst hq'
    rcases ha.stored_or k with heq | heq
    · have hpair := h k p' p (heq.symm.trans hp') hp
      exact hpair.trans (halike hpair.right)
    · have hp'' : s.shown k = some p' := heq.symm.trans hp'
      rw [hp, Option.some.injEq] at hp''
      subst hp''
      cases hold : s.stored k with
      | none =>
        rw [shown_eq_none.mpr hold] at hp
        cases hp
      | some p' => exact halike (h k p' p hold hp).right
  · exact others_of_accessed h ha hk

lemma pending_of_accessed (h : s.Settled) (ha : Accessed s.1 s'.1 key change) {p : Page}
    (hp : s.shown key = some p) (halike : Alike key p p → Alike key (change.getD p) (change.getD p)) :
    s'.Pending key := by
  refine ⟨ha.cached, ?_, others_of_accessed h ha⟩
  intro q hq
  rw [shown_of_accessed ha hp, Option.some.injEq] at hq
  subst hq
  cases hold : s.stored key with
  | none =>
    rw [shown_eq_none.mpr hold] at hp
    cases hp
  | some p' => exact halike (h key p' p hold hp).right

/-- What an access of the store does. -/
lemma access_cases {α : Type} (s : ReliableManager) (key : PageKey) (body : Page → α × Option Page) :
    (∃ p s', (PageStore.access key body).run s = .ok (body p).1 s' ∧ s.shown key = some p ∧
      Accessed s.1 s'.1 key (body p).2) ∨
    ∃ s', (PageStore.access key body).run s =
        .err (.relationFileManager (s.1.relationFileManager.missing key)) s' ∧ s.shown key = none ∧
      Quiet s.1 s'.1 := by
  rcases StorageManager.access_cases s.2.toValid key body with ⟨p, s', hrun, hp, hs'⟩ |
    ⟨e, s', hrun, hquiet, hrel⟩
  · exact .inl ⟨p, _, Exec.run_restrict_ok (access_reliable key body) hrun, hp, hs'⟩
  · have ⟨hwhy, he⟩ := hrel s.2.faultless
    subst he
    refine .inr ⟨_, Exec.run_restrict_err (access_reliable key body) hrun, ?_, hquiet⟩
    cases hshown : s.shown key with
    | none => rfl
    | some p => exact absurd hwhy (s.2.writable hshown)

end Steps

/-! ### The calls of a store -/

section Calls

variable {key : PageKey} {r : RelationId}

/-- A read leaves a settled manager settled. -/
lemma keeps_fetchPage (key : PageKey) : Keeps Settled (PageStore.fetchPage key) := by
  intro s hs
  unfold PageStore.fetchPage
  rcases access_cases s key fun p => (p, (none : Option Page)) with ⟨p, s', hrun, hp, hs'⟩ |
    ⟨s', hrun, _, hquiet⟩
  · rw [hrun]
    exact settled_of_accessed hs hs' hp id
  · rw [hrun]
    exact settled_of_quiet hs hquiet

/-- A write is pending until it is flushed. -/
lemma triple_writePage (key : PageKey) (bytes : Page) (hbytes : Alike key bytes bytes) :
    Triple Settled (PageStore.writePage key bytes) (fun _ => Pending key) Settled := by
  intro s hs
  unfold PageStore.writePage
  rcases access_cases s key fun _ => ((), some bytes) with ⟨p, s', hrun, hp, hs'⟩ |
    ⟨s', hrun, _, hquiet⟩
  · rw [hrun]
    exact pending_of_accessed hs hs' hp fun _ => hbytes
  · rw [hrun]
    exact settled_of_quiet hs hquiet

lemma withPageMut_cases {ε α : Type} (s : ReliableManager) (key : PageKey) (call : Exec ε Page α) :
    (∃ p s' change, (PageStore.withPageMut key call).run s = .ok (call.run p) s' ∧ s.shown key = some p ∧
      Accessed s.1 s'.1 key change ∧ change = match call.run p with
        | .ok _ q => some q
        | .err _ q => some q
        | _ => none) ∨
    ∃ s', (PageStore.withPageMut key call).run s =
        .err (.relationFileManager (s.1.relationFileManager.missing key)) s' ∧ s.shown key = none ∧
      Quiet s.1 s'.1 := by
  rcases access_cases s key fun p =>
      let o := call.run p
      (o, match o with
        | .ok _ q => some q
        | .err _ q => some q
        | _ => none) with ⟨p, s', hrun, hp, hs'⟩ | hmissing
  · exact .inl ⟨p, s', _, hrun, hp, hs', rfl⟩
  · exact .inr hmissing

/-- What a call behind a guard leaves, if only some of its results stand for a change. -/
def Left {ε α : Type} (key : PageKey) (changed : α → Bool) (o : Outcome ε Page α) (s : ReliableManager) :
    Prop :=
  match o with
  | .ok a _ => if changed a then Pending key s else Settled s
  | _ => Settled s

/-- A call on a page that need be flushed only if the result says so. -/
structure Honest {ε α : Type} (key : PageKey) (changed : α → Bool) (call : Exec ε Page α) : Prop where
  alike {p q : Page} {a : α} : Alike key p p → call.run p = .ok a q → Alike key q q
  same {p q : Page} {a : α} : Alike key p p → call.run p = .ok a q → changed a = false → Alike key p q
  err {p q : Page} {e : ε} : Alike key p p → call.run p = .err e q → Alike key p q

lemma triple_withPageMut {ε α : Type} {changed : α → Bool} {call : Exec ε Page α}
    (h : Honest key changed call) :
    Triple Settled (PageStore.withPageMut key call) (Left key changed) Settled := by
  intro s hs
  rcases withPageMut_cases s key call with ⟨p, s', change, hrun, hp, hs', hchange⟩ |
    ⟨s', hrun, _, hquiet⟩
  · rw [hrun]
    simp only
    cases hcall : call.run p with
    | ok a q =>
      rw [hcall] at hchange
      subst hchange
      cases hchanged : changed a with
      | true =>
        simp only [Left, hchanged, if_true]
        exact pending_of_accessed hs hs' hp fun hpp => h.alike hpp hcall
      | false =>
        simp only [Left, hchanged]
        exact settled_of_accessed hs hs' hp fun hpp => h.same hpp hcall hchanged
    | err e q =>
      rw [hcall] at hchange
      subst hchange
      exact settled_of_accessed hs hs' hp fun hpp => h.err hpp hcall
    | panic =>
      rw [hcall] at hchange
      subst hchange
      exact settled_of_accessed hs hs' hp id
    | diverge =>
      rw [hcall] at hchange
      subst hchange
      exact settled_of_accessed hs hs' hp id
  · rw [hrun]
    exact settled_of_quiet hs hquiet

/-- A flush settles the page. -/
lemma triple_flushPage (key : PageKey) :
    Triple (Pending key) (PageStore.flushPage key) (fun _ => Settled) Settled := by
  intro s hs
  rcases flushPage_cases s.2.toValid key with ⟨hnone, _⟩ | ⟨s', page, hrun, hquiet, hclean⟩ |
    ⟨e, s', _, _, _, hnot⟩
  · exact absurd hnone hs.cached
  · have hrun' : (PageStore.flushPage key).run s = .ok () ⟨s', _⟩ :=
      Exec.run_restrict_ok (flushPage_reliable key) hrun
    rw [hrun']
    have hsame := s.2.toSound.same hquiet.moves
    intro k
    by_cases hk : k = key
    · subst hk
      intro p q hp hq
      have hshown : s'.view.shown k = some page := WriteBack.shown_of_cached hclean
      have hstored : s'.view.stored k = some page := hquiet.valid.coherent.clean hclean
      obtain rfl := Option.some.inj (hstored.symm.trans hp)
      obtain rfl := Option.some.inj (hshown.symm.trans hq)
      apply hs.alike
      show s.1.view.shown k = _
      rw [← hsame.shown_eq, hshown]
    · exact (hs.others hk).of_stored_or (congrFun hsame.shown_eq k) (hsame.stored_or k)
  · exact absurd s.2.faultless hnot

/-- A call that moves pages at most. -/
lemma keeps_of_same {ε α : Type} {x : Exec ε StorageManager α}
    (h : ∀ s s', s.Reliable → (x.run s).Returns s' → s'.Reliable)
    (hsame : ∀ s s', s.Reliable → (x.run s).Returns s' → WriteBack.Same s.view s'.view) :
    Keeps Settled (x.restrict h) := by
  intro s hs
  have hsettled (s' : StorageManager) (hrun : (x.run s.1).Returns s') :
      Settled ⟨s', h s.1 s' s.2 hrun⟩ := by
    have hsame := hsame s.1 s' s.2 hrun
    intro key
    exact (hs key).of_stored_or (congrFun hsame.shown_eq key) (hsame.stored_or key)
  cases hrun : x.run s.1 with
  | ok a s' =>
    rw [run_restrict_ok h hrun]
    exact hsettled s' (.inl ⟨a, hrun⟩)
  | err e s' =>
    rw [run_restrict_err h hrun]
    exact hsettled s' (.inr ⟨e, hrun⟩)
  | panic =>
    rw [run_restrict_panic h hrun]
    trivial
  | diverge =>
    rw [run_restrict_diverge h hrun]
    trivial

lemma same_of_view_eq {s s' : StorageManager} (h : s.Reliable) (hview : s'.view = s.view) :
    WriteBack.Same s.view s'.view := by
  rw [hview]
  exact ⟨h.coherent, rfl, fun _ => .inl rfl⟩

lemma keeps_pageCount (r : RelationId) : Keeps Settled (PageStore.pageCount r) := by
  apply keeps_of_same (pageCount_reliable r)
  intro s s' h hrun
  rcases pageCount_cases h.toValid r with ⟨pages, s₁, hrun', _, hview, _⟩ | ⟨e, s₁, hrun', hquiet, _⟩
  all_goals
    rw [hrun'] at hrun
    rcases hrun with ⟨_, heq⟩ | ⟨_, heq⟩ <;> cases heq
  · exact same_of_view_eq h hview
  · exact h.toSound.same hquiet.moves

lemma keeps_createRelation (r : RelationId) : Keeps Settled (PageStore.createRelation r) := by
  apply keeps_of_same (createRelation_reliable r)
  intro s s' h hrun
  rcases createRelation_cases h.toValid r with ⟨s₁, hrun', hs₁⟩ | ⟨e, s₁, _, _, hnot⟩
  · rw [hrun'] at hrun
    rcases hrun with ⟨_, heq⟩ | ⟨_, heq⟩ <;> cases heq
    exact same_of_view_eq h hs₁.view_eq
  · exact absurd h.faultless hnot

/-- A new page is in its file at once. -/
lemma keeps_allocatePage (r : RelationId) : Keeps Settled (PageStore.allocatePage r) := by
  intro s hs
  rcases allocatePage_cases s.2.toValid r with ⟨pages, s', hrun, hs'⟩ | ⟨e, s', hrun, hquiet, _⟩
  · have hrun' : (PageStore.allocatePage r).run s = .ok _ ⟨s', _⟩ :=
      run_restrict_ok (allocatePage_reliable r) hrun
    rw [hrun']
    intro key p q hp hq
    have hp : s'.view.stored key = some p := hp
    have hq : s'.view.shown key = some q := hq
    rw [hs'.stored_eq, Function.update_apply] at hp
    rw [hs'.shown_eq, Function.update_apply] at hq
    split at hp
    · rename_i hkey
      rw [if_pos hkey] at hq
      obtain rfl := Option.some.inj hp
      obtain rfl := Option.some.inj hq
      exact alike_new key
    · rename_i hkey
      rw [if_neg hkey] at hq
      exact hs key p q hp hq
  · have hrun' : (PageStore.allocatePage r).run s = .err e ⟨s', _⟩ :=
      run_restrict_err (allocatePage_reliable r) hrun
    rw [hrun']
    exact settled_of_quiet hs hquiet

end Calls

/-! ### The manager after a restart -/

/-- The second manager has pages like those of the first one. -/
structure Mirrors (s t : ReliableManager) : Prop where
  lengths_eq : t.1.lengths = s.1.lengths
  alike {key : PageKey} {p q : Page} : s.shown key = some p → t.shown key = some q → Alike key p q

section Restart

variable {s s' t t' : ReliableManager} {key : PageKey} {r : RelationId}

lemma mirrors_opened (h : s.Settled) {capacity : Nat} (hcapacity : 0 < capacity) :
    Mirrors s (opened s.1.relationFileManager.data capacity hcapacity) := by
  refine ⟨rfl, ?_⟩
  intro key p q hp hq
  exact (h key q p hq hp).symm

/-- Which pages there are can be told from the lengths of the files. -/
lemma shown_eq_none_iff_lengths :
    s.shown key = none ↔ ∀ n, s.1.lengths key.relationId = some n → n ≤ key.pageId.index := by
  rw [shown_eq_none]
  show (s.1.relationFileManager.data.files key.relationId).bind _ = none ↔
    ∀ n, (s.1.relationFileManager.data.files key.relationId).map List.length = some n → _
  cases s.1.relationFileManager.data.files key.relationId with
  | none => simp
  | some pages => simp

lemma missing_eq_lengths (s : ReliableManager) (key : PageKey) : s.1.relationFileManager.missing key =
    if (s.1.lengths key.relationId).isSome then
      .pager (if maxFilePages ≤ key.pageId.index then .pageOffsetOverflow key.pageId else .io)
    else .relationNotRegistered key.relationId := by
  unfold RelationFileManager.missing StorageManager.lengths
  rw [s.2.registered_eq]
  cases s.1.relationFileManager.data.files key.relationId with
  | none => rfl
  | some pages => rfl

lemma Mirrors.missing_eq (h : Mirrors s t) (key : PageKey) :
    s.1.relationFileManager.missing key = t.1.relationFileManager.missing key := by
  rw [missing_eq_lengths, missing_eq_lengths, h.lengths_eq]

lemma Mirrors.none_iff (h : Mirrors s t) : s.shown key = none ↔ t.shown key = none := by
  rw [shown_eq_none_iff_lengths, shown_eq_none_iff_lengths, h.lengths_eq]

lemma Mirrors.of_eq (h : Mirrors s t) (hs : s'.1.lengths = s.1.lengths) (hs' : s'.shown = s.shown)
    (ht : t'.1.lengths = t.1.lengths) (ht' : t'.shown = t.shown) : Mirrors s' t' := by
  refine ⟨by rw [ht, h.lengths_eq, hs], ?_⟩
  intro key p q hp hq
  rw [hs'] at hp
  rw [ht'] at hq
  exact h.alike hp hq

lemma shown_of_quiet (hq : Quiet s.1 s'.1) : s'.shown = s.shown := hq.shown_eq s.2.toValid

/-- A read shows like pages, or fails alike. -/
lemma agree_fetchPage (key : PageKey) :
    Agree Mirrors (Alike key) (PageStore.fetchPage key) (PageStore.fetchPage key) := by
  intro s t hst
  unfold PageStore.fetchPage
  rcases access_cases s key fun p => (p, (none : Option Page)) with ⟨p, s', hrun, hp, hs'⟩ |
    ⟨s', hrun, hp, hquiet⟩
  · rcases access_cases t key fun p => (p, (none : Option Page)) with ⟨q, t', hrun', hq, ht'⟩ |
      ⟨t', _, hq, _⟩
    · rw [hrun, hrun']
      exact ⟨hst.alike hp hq, hst.of_eq hs'.lengths_eq hs'.shown_eq ht'.lengths_eq ht'.shown_eq⟩
    · rw [← hst.none_iff, hp] at hq
      cases hq
  · rcases access_cases t key fun p => (p, (none : Option Page)) with ⟨q, t', _, hq, _⟩ |
      ⟨t', hrun', _, hquiet'⟩
    · rw [hst.none_iff, hq] at hp
      cases hp
    · rw [hrun, hrun']
      exact ⟨congrArg _ (hst.missing_eq key), hst.of_eq hquiet.lengths_eq (shown_of_quiet hquiet)
        hquiet'.lengths_eq (shown_of_quiet hquiet')⟩

/-- What a count of the pages returns. -/
lemma pageCount_run (s : ReliableManager) (r : RelationId) :
    ∃ s', s'.1.lengths = s.1.lengths ∧ s'.shown = s.shown ∧ (PageStore.pageCount r).run s =
      match s.1.lengths r with
      | some n => .ok n s'
      | none => .err (.relationFileManager (s.1.relationFileManager.missing ⟨r, PageId.new 0⟩)) s' := by
  rcases pageCount_cases s.2.toValid r with ⟨pages, s', hrun, _, hview, hfiles, hfile⟩ |
    ⟨e, s', hrun, hquiet, hrel⟩
  · have hs' := pageCount_reliable r s.1 s' s.2 (.inl ⟨_, hrun⟩)
    have hrun' : (PageStore.pageCount r).run s = .ok pages.length ⟨s', hs'⟩ :=
      run_restrict_ok (pageCount_reliable r) hrun
    refine ⟨⟨s', hs'⟩, ?_, ?_, hrun'.trans ?_⟩
    · show StorageManager.lengths s' = s.1.lengths
      unfold StorageManager.lengths
      rw [hfiles.data_eq]
    · show s'.view.shown = s.1.view.shown
      rw [hview]
    · rw [StorageManager.lengths, hfile]
      rfl
  · have ⟨hwhy, he⟩ := hrel s.2.faultless
    have hs' := pageCount_reliable r s.1 s' s.2 (.inr ⟨_, hrun⟩)
    have hrun' : (PageStore.pageCount r).run s = .err e ⟨s', hs'⟩ :=
      run_restrict_err (pageCount_reliable r) hrun
    refine ⟨⟨s', hs'⟩, hquiet.lengths_eq, hquiet.shown_eq s.2.toValid, hrun'.trans ?_⟩
    have hnone : s.1.relationFileManager.data.files r = none := by
      rcases hwhy with hnot | hnone
      · rw [s.2.registered_eq, Option.isSome_eq_false_iff, Option.isNone_iff_eq_none] at hnot
        exact hnot
      · exact hnone
    rw [StorageManager.lengths, hnone, he (PageId.new 0)]
    rfl

lemma agree_pageCount (r : RelationId) :
    Agree Mirrors Eq (PageStore.pageCount r) (PageStore.pageCount r) := by
  intro s t hst
  have ⟨s', hlen, hshown, hrun⟩ := pageCount_run s r
  have ⟨t', hlen', hshown', hrun'⟩ := pageCount_run t r
  rw [hst.lengths_eq] at hrun'
  rw [hrun, hrun']
  have hst' := hst.of_eq hlen hshown hlen' hshown'
  cases s.1.lengths r with
  | some n => exact ⟨rfl, hst'⟩
  | none => exact ⟨congrArg _ (hst.missing_eq _), hst'⟩

lemma length_pages (s : ReliableManager) (r : RelationId) :
    ((PageStore.pages s r).getD []).length = (s.1.lengths r).getD 0 := by
  show ((s.1.pages r).getD []).length = _
  unfold StorageManager.pages
  cases hps : pagesOf s.1.lengths s.1.view.shown r with
  | none =>
    rw [pagesOf, Option.map_eq_none_iff] at hps
    rw [hps]
    rfl
  | some ps =>
    rw [pagesOf_eq_some hps]
    rfl

end Restart

end ReliableManager

end RdbRs
