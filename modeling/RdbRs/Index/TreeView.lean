import RdbRs.Index.BTree
import RdbRs.Index.InternalSpec
import RdbRs.Index.LeafSpec
import RdbRs.Lib.LeafChainFuse

/-!
# What the pages of a tree hold

A page is read as a leaf, as an internal page or as neither. The calls of the tree on its pages are
described by what they do to this view.
-/

namespace RdbRs

open LeafChain

/-- A page in the eyes of the tree. -/
inductive Node where
  | leaf (leaf : Leaf PageId LeafEntry)
  | internal (entries : List InternalEntry) (rightmost : PageId)
  | other

def Node.leaf? : Node → Option (Leaf PageId LeafEntry)
  | .leaf l => some l
  | _ => none

/-- The page as `read_leaf_entries` or `read_internal_entries` reads it. -/
def nodeOf (t : BTreeKeyType) (p : Page) : Node :=
  match BTreePageHeader.readFromPage p with
  | none => .other
  | some header =>
    if header.isLeaf then
      match readLeafEntries p t with
      | .ok es => .leaf ⟨es, header.nextLeafPageId⟩
      | .error _ => .other
    else
      match readInternalEntries p t, header.rightmostChild with
      | .ok es, some child => .internal es child
      | _, _ => .other

/-- The pages of a relation as nodes. -/
def nodesOf (t : BTreeKeyType) (ps : List Page) (p : PageId) : Node :=
  match ps[p.index]? with
  | some page => nodeOf t page
  | none => .other

/-- The leaves among the nodes. -/
def leavesOf (nodes : PageId → Node) (p : PageId) : Option (Leaf PageId LeafEntry) := (nodes p).leaf?

section NodeOf

variable {t : BTreeKeyType} {p : Page} {l : Leaf PageId LeafEntry} {es : List InternalEntry}
  {rightmost : PageId}

lemma HoldsLeaf.nodeOf_eq {es : List LeafEntry} {next : Option PageId} (h : HoldsLeaf t es next p) :
    nodeOf t p = .leaf ⟨es, next⟩ := by
  simp only [nodeOf, h.readFromPage_eq, h.readLeafEntries_eq]
  rfl

lemma HoldsInternal.nodeOf_eq (h : HoldsInternal t es rightmost p) :
    nodeOf t p = .internal es rightmost := by
  simp only [nodeOf, h.readFromPage_eq, h.readInternalEntries_eq]
  rfl

/-- A page read as a leaf is one. -/
lemma holdsLeaf_of_nodeOf (h : nodeOf t p = .leaf l) : HoldsLeaf t l.entries l.next p := by
  unfold nodeOf at h
  split at h
  · cases h
  rename_i header hheader
  split at h
  · split at h
    · rename_i es hread
      obtain rfl := Node.leaf.inj h
      exact holdsLeaf_of_readLeafEntries hheader hread
    · cases h
  · split at h <;> cases h

lemma holdsInternal_of_nodeOf (h : nodeOf t p = .internal es rightmost) :
    HoldsInternal t es rightmost p := by
  unfold nodeOf at h
  split at h
  · cases h
  rename_i header hheader
  split at h
  · split at h <;> cases h
  · split at h
    · rename_i es' child hread hchild
      obtain ⟨rfl, rfl⟩ := Node.internal.inj h
      have ⟨_, hrightmost, hholds⟩ := holdsInternal_of_readInternalEntries hheader hread
      cases hchild.symm.trans hrightmost
      exact hholds
    · cases h

/-- A page that has just been allocated is no node. -/
lemma nodeOf_new (t : BTreeKeyType) : nodeOf t Page.new = .other := by
  have h0 : Page.new.byte 0 = NodeType.leaf.toByte := by decide
  have h5 : Page.new.byte 5 = 0 := by decide
  have h1 : Page.new.u16At 1 = 0 := by decide
  have h3 : Page.new.u16At 3 = 2080 := by decide
  have hread : BTreePageHeader.readFromPage Page.new = some ⟨.leaf, 0, 2080, none, none⟩ := by
    simp only [BTreePageHeader.readFromPage, h0, h1, h3, h5, NodeType.fromByte_toByte,
      Option.bind_eq_bind, Option.bind_some, if_true, leafHeaderSize, pageSize]
    rfl
  simp only [nodeOf, hread, readLeafEntries, EntryFormat.readEntries]
  rfl

@[simp] lemma leavesOf_update {nodes : PageId → Node} {q : PageId} {n : Node} :
    leavesOf (Function.update nodes q n) = Function.update (leavesOf nodes) q n.leaf? := by
  funext p
  by_cases h : p = q
  · subst h
    simp [leavesOf]
  · simp [leavesOf, h]

lemma leavesOf_eq_some {nodes : PageId → Node} {q : PageId} :
    leavesOf nodes q = some l ↔ nodes q = .leaf l := by
  unfold leavesOf
  cases nodes q <;> simp [Node.leaf?]

end NodeOf

/-! ### The calls of a tree on its pages -/

namespace BTree

section View

variable {σ : Type} [PageStore σ] (tree : BTree)

/-- The tree's relation has `n` pages, which hold these nodes. -/
def Shows (nodes : PageId → Node) (n : Nat) (s : σ) : Prop :=
  ∃ ps, PageStore.pages s tree.relationId = some ps ∧ ps.length = n ∧
    nodesOf tree.keyType ps = nodes

variable {tree} {nodes : PageId → Node} {n : Nat} {s : σ} {p : PageId}

lemma Shows.index_lt (h : tree.Shows nodes n s) (hp : nodes p ≠ .other) : p.index < n := by
  obtain ⟨ps, -, rfl, rfl⟩ := h
  by_contra hge
  rw [nodesOf, List.getElem?_eq_none (Nat.le_of_not_lt hge)] at hp
  exact hp rfl

lemma Shows.le_maxPages (h : tree.Shows nodes n s) : n ≤ PageStore.maxPages σ := by
  obtain ⟨ps, hps, rfl, -⟩ := h
  exact PageStore.length_le hps

lemma Shows.congr {s' : σ} (h : tree.Shows nodes n s)
    (hs : PageStore.pages s' tree.relationId = PageStore.pages s tree.relationId) :
    tree.Shows nodes n s' := by
  obtain ⟨ps, hps, hn, hnodes⟩ := h
  exact ⟨ps, hs.trans hps, hn, hnodes⟩

/-- The page with the number of pages so far is the next one to be allocated. -/
lemma Shows.fresh (h : tree.Shows nodes n s) (hn : n < PageStore.maxPages σ) :
    (PageId.new n).index = n ∧ nodes (PageId.new n) = .other := by
  have hindex : (PageId.new n).index = n :=
    PageId.index_new (hn.trans_le PageStore.maxPages_le)
  refine ⟨hindex, ?_⟩
  by_contra hne
  have := h.index_lt hne
  omega

lemma nodesOf_set {t : BTreeKeyType} {ps : List Page} {page : Page} (hp : p.index < ps.length) :
    nodesOf t (ps.set p.index page) = Function.update (nodesOf t ps) p (nodeOf t page) := by
  funext q
  by_cases hq : q = p
  · subst hq
    simp [nodesOf, hp]
  · have hne : p.index ≠ q.index := fun h => hq (PageId.index_injective h.symm)
    simp only [Function.update_of_ne hq, nodesOf, List.getElem?_set_ne hne]

/-- One access to a page that is there. -/
lemma Shows.access {α : Type} (h : tree.Shows nodes n s) (hp : p.index < n)
    (body : Page → α × Option Page) :
    ∃ page s', nodeOf tree.keyType page = nodes p ∧
      (PageStore.access (tree.pageKey p) body).run s = .ok (body page).1 s' ∧
      PageStore.Cached s' (tree.pageKey p) ∧
      tree.Shows (Function.update nodes p (nodeOf tree.keyType ((body page).2.getD page))) n s' := by
  obtain ⟨ps, hps, rfl, rfl⟩ := h
  have hget : ps[p.index]? = some ps[p.index] := List.getElem?_eq_getElem hp
  obtain ⟨s', hrun, hcached, hpages⟩ :=
    PageStore.access_ok (tree.pageKey p) body hps hget
  refine ⟨ps[p.index], s', ?_, hrun, hcached, ?_⟩
  · rw [nodesOf, hget]
  · refine ⟨ps.set p.index ((body ps[p.index]).2.getD ps[p.index]), ?_, List.length_set, ?_⟩
    · rw [hpages]
      exact Function.update_self ..
    · exact nodesOf_set hp

lemma Shows.fetchPage_ok (h : tree.Shows nodes n s) (hp : nodes p ≠ .other) :
    ∃ page s', (tree.fetchPage p).run s = .ok page s' ∧ nodeOf tree.keyType page = nodes p ∧
      tree.Shows nodes n s' := by
  obtain ⟨page, s', hpage, hrun, -, hshows⟩ := h.access (h.index_lt hp) fun page => (page, none)
  refine ⟨page, s', ?_, hpage, ?_⟩
  · rw [BTree.fetchPage, Exec.run_mapErr, PageStore.fetchPage, hrun, Outcome.mapErr_ok]
  · rwa [Option.getD_none, hpage, Function.update_eq_self] at hshows

lemma Shows.flushPage_ok (h : tree.Shows nodes n s) (hc : PageStore.Cached s (tree.pageKey p)) :
    ∃ s', (tree.flushPage p).run s = .ok () s' ∧ tree.Shows nodes n s' := by
  obtain ⟨s', hrun, hpages⟩ := PageStore.flush_ok hc
  refine ⟨s', ?_, h.congr (by rw [hpages])⟩
  rw [BTree.flushPage, Exec.run_mapErr, hrun, Outcome.mapErr_ok]

lemma Shows.fetchAndFlushPage_ok (h : tree.Shows nodes n s) (hp : p.index < n) (bytes : Page) :
    ∃ s', (tree.fetchAndFlushPage p bytes).run s = .ok () s' ∧
      tree.Shows (Function.update nodes p (nodeOf tree.keyType bytes)) n s' := by
  obtain ⟨page, s₁, -, hrun, hcached, hshows⟩ := h.access hp fun _ => ((), some bytes)
  obtain ⟨s', hflush, hshows'⟩ := hshows.flushPage_ok hcached
  refine ⟨s', ?_, hshows'⟩
  rw [fetchAndFlushPage, Exec.run_bind, Exec.run_mapErr, PageStore.writePage, hrun, Outcome.mapErr_ok,
    Outcome.andThen_ok, hflush]

/-- The guard writes what the call leaves, unless it does not come back. -/
lemma Shows.access_call {ε α : Type} (h : tree.Shows nodes n s) (hp : p.index < n) (call : Exec ε Page α) :
    ∃ page s', nodeOf tree.keyType page = nodes p ∧
      (PageStore.withPageMut (tree.pageKey p) call).run s = .ok (call.run page) s' ∧
      PageStore.Cached s' (tree.pageKey p) ∧
      tree.Shows (Function.update nodes p (nodeOf tree.keyType ((match call.run page with
        | .ok _ q => some q
        | .err _ q => some q
        | _ => none : Option Page).getD page))) n s' := h.access hp _

/-- A call on a page behind a guard. -/
lemma Shows.onPage_of_lt {ε α : Type} (h : tree.Shows nodes n s) (hp : p.index < n)
    (call : Exec ε Page α) :
    ∃ page s', nodeOf tree.keyType page = nodes p ∧
      (tree.onPage p call).run s = .ok (call.run page) s' ∧
      PageStore.Cached s' (tree.pageKey p) ∧
      (∀ a q, call.run page = .ok a q →
        tree.Shows (Function.update nodes p (nodeOf tree.keyType q)) n s') ∧
      (∀ e q, call.run page = .err e q →
        tree.Shows (Function.update nodes p (nodeOf tree.keyType q)) n s') := by
  obtain ⟨page, s', hpage, hrun, hcached, hshows⟩ := h.access_call hp call
  refine ⟨page, s', hpage, ?_, hcached, ?_, ?_⟩
  · exact congrArg (Outcome.mapErr BTreeError.storage) hrun
  · intro a q hcall
    simp only [hcall] at hshows
    exact hshows
  · intro e q hcall
    simp only [hcall] at hshows
    exact hshows

lemma Shows.onPage_ok {ε α : Type} (h : tree.Shows nodes n s) (hp : nodes p ≠ .other)
    (call : Exec ε Page α) :
    ∃ page s', nodeOf tree.keyType page = nodes p ∧
      (tree.onPage p call).run s = .ok (call.run page) s' ∧
      PageStore.Cached s' (tree.pageKey p) ∧
      (∀ a q, call.run page = .ok a q →
        tree.Shows (Function.update nodes p (nodeOf tree.keyType q)) n s') ∧
      (∀ e q, call.run page = .err e q →
        tree.Shows (Function.update nodes p (nodeOf tree.keyType q)) n s') :=
  h.onPage_of_lt (h.index_lt hp) call

lemma Shows.allocatePage_ok (h : tree.Shows nodes n s) (hn : n < PageStore.maxPages σ) :
    ∃ s', tree.allocatePage.run s = .ok (PageId.new n) s' ∧ tree.Shows nodes (n + 1) s' := by
  have hfresh := (h.fresh hn).2
  have hindex := (h.fresh hn).1
  obtain ⟨ps, hps, rfl, rfl⟩ := h
  obtain ⟨s', hrun, hpages⟩ := PageStore.allocate_ok hps hn
  refine ⟨s', ?_, ps ++ [Page.new], ?_, ?_, ?_⟩
  · rw [BTree.allocatePage, Exec.run_mapErr, hrun, Outcome.mapErr_ok]
  · rw [hpages, Function.update_self]
  · rw [List.length_append, List.length_singleton]
  · funext q
    by_cases hq : q.index < ps.length
    · simp only [nodesOf, List.getElem?_append_left hq]
    · by_cases heq : q = PageId.new ps.length
      · rw [heq, hfresh, nodesOf, hindex, List.getElem?_concat_length]
        exact nodeOf_new _
      · have hne : q.index ≠ ps.length := fun h => heq (PageId.index_injective (h.trans hindex.symm))
        simp only [nodesOf]
        rw [List.getElem?_eq_none (by simp; omega), List.getElem?_eq_none (by omega)]

lemma Shows.allocatePage_err (h : tree.Shows nodes n s) (hn : n = PageStore.maxPages σ) :
    ∃ e s', tree.allocatePage.run s = .err e s' ∧ tree.Shows nodes n s' := by
  obtain ⟨ps, hps, rfl, hnodes⟩ := h
  obtain ⟨e, s', hrun, hpages⟩ := PageStore.allocate_err (s := s) (r := tree.relationId) (by
    intro ps' hps'
    obtain rfl := Option.some.inj (hps.symm.trans hps')
    exact hn)
  refine ⟨.storage e, s', ?_, ps, by rw [hpages, hps], rfl, hnodes⟩
  rw [BTree.allocatePage, Exec.run_mapErr, hrun, Outcome.mapErr_err]

lemma Shows.linkFuel_eq (h : tree.Shows nodes n s) : tree.linkFuel.run s = .ok (n + 1) s := by
  obtain ⟨ps, hps, rfl, -⟩ := h
  rw [linkFuel, Exec.run_gets, hps, Option.getD_some]

end View

end BTree

end RdbRs
