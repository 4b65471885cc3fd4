import RdbRs.Lib.LeafChainLinks
import RdbRs.Index.TextTrees
import RdbRs.Index.TreeShape

/-!
# The links between the leaves of a tree

After insertions alone the links list the leaves below the root exactly when no leaf but the
leftmost one has been split.
-/

namespace RdbRs

open LeafChain

/-- The leaf that is reached by always taking the same outermost child. -/
inductive Outermost (pick : List PageId → Option PageId) (nodes : PageId → Node) :
    PageId → PageId → Prop where
  | leaf {p : PageId} {l : Leaf PageId LeafEntry} : nodes p = .leaf l → Outermost pick nodes p p
  | down {p c q : PageId} : pick (nodes p).children = some c → Outermost pick nodes c q →
      Outermost pick nodes p q

abbrev Leftmost := Outermost List.head?

abbrev Rightmost := Outermost List.getLast?

/-- The links list the leaves below the root in the order of their keys. -/
structure LeafList (root : PageId) (nodes : PageId → Node) (first : PageId) (ps : List PageId) : Prop where
  leftmost : Leftmost nodes root first
  links : Links (leavesOf nodes) (some first) ps
  nodup : ps.Nodup
  mem_iff : ∀ q, q ∈ ps ↔ ∃ is l, Path nodes root is q ∧ nodes q = .leaf l
  sorted : ps.Pairwise fun p q => ∀ l l', nodes p = .leaf l → nodes q = .leaf l' →
    ∀ e ∈ l.entries, ∀ e' ∈ l'.entries, e.key ≤ e'.key
  rightmost : ∃ q, ps.getLast? = some q ∧ Rightmost nodes root q

def ListsLeaves (root : PageId) (nodes : PageId → Node) : Prop := ∃ first ps, LeafList root nodes first ps

section Outermost

variable {pick : List PageId → Option PageId} {nodes : PageId → Node} {p q q' : PageId}

lemma Outermost.unique (hpick : pick [] = none) (h : Outermost pick nodes p q)
    (h' : Outermost pick nodes p q') : q = q' := by
  induction h with
  | leaf hl =>
    cases h' with
    | leaf _ => rfl
    | down hc _ =>
      rw [hl, show (Node.leaf _).children = [] from rfl, hpick] at hc
      cases hc
  | down hc _ ih =>
    cases h' with
    | leaf hl =>
      rw [hl, show (Node.leaf _).children = [] from rfl, hpick] at hc
      cases hc
    | down hc' hrest =>
      obtain rfl := Option.some.inj (hc.symm.trans hc')
      exact ih hrest

end Outermost

section Lists

variable {root p q : PageId} {nodes : PageId → Node} {seq before : List (PageId × WithTop BTreeKey)}
  {es es' : List InternalEntry} {rightmost rightmost' left right : PageId} {sep : BTreeKey}
  {u : WithTop BTreeKey} {pick : List PageId → Option PageId}

lemma childrenOf_ne_nil : (childrenOf es rightmost u).map Prod.fst ≠ [] := by
  rw [map_fst_childrenOf]
  simp

lemma mem_childrenOf_iff :
    q ∈ (childrenOf es rightmost u).map Prod.fst ↔
      ∃ i : Nat, (es.map InternalEntry.leftChild ++ [rightmost])[i]? = some q := by
  rw [map_fst_childrenOf, List.mem_iff_getElem?]

lemma children_internal (h : nodes p = .internal es rightmost) :
    (nodes p).children = (childrenOf es rightmost u).map Prod.fst := by
  rw [h, map_fst_childrenOf]
  rfl

/-- The leaves below a page over leaves. -/
lemma path_leaf_iff_of_linkedFrom
    (h : LinkedFrom LeafEntry.key (leavesOf nodes) before (childrenOf es rightmost u))
    (hp : nodes p = .internal es rightmost) :
    (∃ is l, Path nodes p is q ∧ nodes q = .leaf l) ↔ q ∈ (childrenOf es rightmost u).map Prod.fst := by
  rw [mem_childrenOf_iff]
  constructor
  · intro ⟨is, l, hpath, hl⟩
    rcases paths_of_linkedFrom h hp hpath with ⟨-, rfl⟩ | ⟨i, -, hi, -⟩
    · rw [hp] at hl
      cases hl
    · exact ⟨i, hi⟩
  · intro ⟨i, hi⟩
    have ⟨l, hl, _⟩ := child_of_linkedFrom h hi
    refine ⟨[i], l, .down ?_ .here, hl⟩
    rw [hp]
    exact hi

/-- The leaves below the root are the live leaves. -/
lemma Wired.path_leaf_iff (h : Wired root nodes seq) :
    (∃ is l, Path nodes root is q ∧ nodes q = .leaf l) ↔ q ∈ seq.map Prod.fst := by
  have ⟨hshape, hlinked⟩ := h
  have hfrom := hlinked.linked
  cases hshape with
  | @leaf l hroot =>
    simp only [List.map_cons, List.map_nil, List.mem_singleton]
    constructor
    · intro ⟨is, l', hpath, _⟩
      exact (hpath.of_leaf hroot).2
    · intro heq
      subst heq
      exact ⟨[], l, .here, hroot⟩
  | parent hroot => exact path_leaf_iff_of_linkedFrom hfrom hroot
  | grandparent hroot hl hr =>
    have ⟨hleft, hright⟩ := linkedFrom_append.mp hfrom
    rw [List.map_append, List.mem_append, ← path_leaf_iff_of_linkedFrom hleft hl,
      ← path_leaf_iff_of_linkedFrom hright hr]
    constructor
    · intro ⟨is, l, hpath, hq⟩
      rcases hpath.of_pair hroot with ⟨-, rfl⟩ | ⟨js, -, hpath⟩ | ⟨js, -, hpath⟩
      · rw [hroot] at hq
        cases hq
      · exact .inl ⟨js, l, hpath, hq⟩
      · exact .inr ⟨js, l, hpath, hq⟩
    · intro hor
      rcases hor with ⟨js, l, hpath, hq⟩ | ⟨js, l, hpath, hq⟩
      · exact ⟨0 :: js, l, .down (by rw [hroot]; rfl) hpath, hq⟩
      · exact ⟨1 :: js, l, .down (by rw [hroot]; rfl) hpath, hq⟩

lemma outermost_of_linkedFrom
    (h : LinkedFrom LeafEntry.key (leavesOf nodes) before (childrenOf es rightmost u))
    (hp : nodes p = .internal es rightmost)
    (hpick : pick ((childrenOf es rightmost u).map Prod.fst) = some q)
    (hmem : q ∈ (childrenOf es rightmost u).map Prod.fst) : Outermost pick nodes p q := by
  have ⟨i, hi⟩ := mem_childrenOf_iff.mp hmem
  have ⟨l, hl, _⟩ := child_of_linkedFrom h hi
  apply Outermost.down _ (.leaf hl)
  rw [children_internal hp, hpick]

/-- The leftmost leaf is the first live one. -/
lemma Wired.leftmost (h : Wired root nodes seq) (hq : (seq.map Prod.fst).head? = some q) :
    Leftmost nodes root q := by
  have ⟨hshape, hlinked⟩ := h
  have hfrom := hlinked.linked
  cases hshape with
  | leaf hroot =>
    obtain rfl := Option.some.inj hq
    exact .leaf hroot
  | parent hroot => exact outermost_of_linkedFrom hfrom hroot hq (List.mem_of_mem_head? hq)
  | grandparent hroot hl hr =>
    rw [List.map_append, List.head?_append_of_ne_nil _ childrenOf_ne_nil] at hq
    apply Outermost.down (by rw [hroot]; rfl)
    exact outermost_of_linkedFrom (linkedFrom_append.mp hfrom).1 hl hq (List.mem_of_mem_head? hq)

lemma Wired.rightmost_last (h : Wired root nodes seq) (hq : (seq.map Prod.fst).getLast? = some q) :
    Rightmost nodes root q := by
  have ⟨hshape, hlinked⟩ := h
  have hfrom := hlinked.linked
  cases hshape with
  | leaf hroot =>
    obtain rfl := Option.some.inj hq
    exact .leaf hroot
  | parent hroot => exact outermost_of_linkedFrom hfrom hroot hq (List.mem_of_getLast? hq)
  | grandparent hroot hl hr =>
    rw [List.map_append, List.getLast?_append_of_ne_nil _ childrenOf_ne_nil] at hq
    apply Outermost.down (by rw [hroot]; rfl)
    exact outermost_of_linkedFrom (linkedFrom_append.mp hfrom).2 hr hq (List.mem_of_getLast? hq)

/-- While the links list the live leaves, they list the leaves below the root. -/
lemma Wired.listsLeaves (h : Wired root nodes seq) (hl : Listed (leavesOf nodes) seq) :
    ListsLeaves root nodes := by
  have ⟨z, rest, hseq⟩ : ∃ z rest, seq = z :: rest := by
    have ⟨z, hz, _⟩ := h.linked.covers
    exact List.exists_cons_of_ne_nil (List.ne_nil_of_mem hz)
  have hhead : (seq.map Prod.fst).head? = some z.1 := by rw [hseq, List.map_cons, List.head?_cons]
  unfold Listed at hl
  rw [hhead] at hl
  have hne : seq.map Prod.fst ≠ [] := by simp [hseq]
  refine ⟨z.1, seq.map Prod.fst, h.leftmost hhead, hl, hl.nodup, fun q => h.path_leaf_iff.symm, ?_, ?_⟩
  · apply h.linked.linked.pairwise.imp
    intro p q hpq l l' hp hq
    exact hpq l l' (leavesOf_eq_some.mpr hp) (leavesOf_eq_some.mpr hq)
  · have hlast := List.getLast?_eq_some_getLast hne
    exact ⟨_, hlast, h.rightmost_last hlast⟩

/-- Once the links lead through a leaf that is not live, they do not. -/
lemma Wired.not_listsLeaves (h : Wired root nodes seq) (hs : Stray (leavesOf nodes) seq) :
    ¬ ListsLeaves root nodes := by
  intro ⟨first, ps, hlist⟩
  have ⟨qs, hqs, y, hy, hne⟩ := hs
  have hfirst : (seq.map Prod.fst).head? = some first := by
    cases hhead : (seq.map Prod.fst).head? with
    | none =>
      rw [hhead] at hqs
      cases hqs
      cases hy
    | some q => rw [(h.leftmost hhead).unique rfl hlist.leftmost]
  rw [hfirst] at hqs
  rw [hqs.unique hlist.links, hlist.mem_iff, h.path_leaf_iff] at hy
  exact hne hy

end Lists

/-! ### Runs of insertions -/

namespace BTree

section Runs

variable {σ : Type} [PageStore σ] [UnstableSort] (tree : BTree)

/-- The entry fits the leaf of its key, or this leaf is the leftmost one. -/
def KeepsLinks (s : σ) (k : BTreeKey) (r : RowId) : Prop :=
  ∃ parent x l, tree.LeafOf s k parent x l ∧
    (leafSize (l.entries ++ [⟨k, r⟩]) ≤ pageSize ∨ Leftmost (tree.nodesAt s) tree.rootPageId x)

/-- Runs of insertions that succeed. The proposition says that each of them kept the links. -/
inductive InsertRun : σ → Prop → Prop where
  | create {indexId : IndexId} {keyType : BTreeKeyType} {s s' : σ} :
      (create indexId keyType).run s = .ok tree s' → InsertRun s' True
  | insert {k : BTreeKey} {r : RowId} {s s' : σ} {kept : Prop} : InsertRun s kept →
      (tree.insert k r).run s = .ok () s' → InsertRun s' (kept ∧ tree.KeepsLinks s k r)
  | elsewhere {s s' : σ} {kept : Prop} : InsertRun s kept →
      PageStore.pages s' tree.relationId = PageStore.pages s tree.relationId → InsertRun s' kept

variable {tree} {nodes nodes' : PageId → Node} {n n' : Nat} {s s' : σ}
  {seq seq' : List (PageId × WithTop BTreeKey)} {k : BTreeKey} {r : RowId} {parent : Option PageId}
  {x : PageId} {l : Leaf PageId LeafEntry} {kept : Prop}

omit [UnstableSort] in
lemma Shows.leafSize_le (h : tree.Shows nodes n s) (hx : nodes x = .leaf l) :
    leafSize l.entries ≤ pageSize := by
  obtain ⟨pages, -, -, rfl⟩ := h
  unfold nodesOf at hx
  split at hx
  · exact (holdsLeaf_of_nodeOf hx).size_le
  · cases hx

omit [UnstableSort] in
lemma keepsLinks_iff (h : tree.LeafOf s k parent x l) : tree.KeepsLinks s k r ↔
    leafSize (l.entries ++ [⟨k, r⟩]) ≤ pageSize ∨ Leftmost (tree.nodesAt s) tree.rootPageId x := by
  constructor
  · intro ⟨parent', x', l', h', hor⟩
    obtain ⟨-, rfl, rfl⟩ := h.unique h'
    exact hor
  · intro hor
    exact ⟨parent, x, l, h, hor⟩

omit [UnstableSort] in
/-- The leftmost leaf is the one with no live leaf before it. -/
lemma leftmost_iff {pre post : List (PageId × WithTop BTreeKey)} {u : WithTop BTreeKey} {root : PageId}
    (hw : Wired root nodes (pre ++ (x, u) :: post)) : Leftmost nodes root x ↔ pre = [] := by
  cases pre with
  | nil => simpa using hw.leftmost rfl
  | cons z pre =>
    have ⟨l, hl⟩ := hw.linked.at
    have hfirst := hw.leftmost (q := z.1) rfl
    simp only [reduceCtorEq, iff_false]
    intro hx
    exact hl.above.ne z List.mem_cons_self (hfirst.unique rfl hx)

/-- An insertion that fits does not add a leaf. -/
lemma Shows.leavesOf_of_fits (h : tree.Shows nodes n s) (hl : tree.LeafOf s k parent x l)
    (hw : Wired tree.rootPageId nodes seq) (hfits : leafSize (l.entries ++ [⟨k, r⟩]) ≤ pageSize)
    (hrun : (tree.insert k r).run s = .ok () s') (h' : tree.Shows nodes' n' s') {a : PageId}
    (ha : leavesOf nodes a = none) : leavesOf nodes' a = none := by
  obtain ⟨⟨d, hd⟩, hx⟩ := hl
  rw [h.nodesAt_eq] at hd hx
  have ⟨d', parent', x', hd', hplace, hn⟩ := h.exists_place hw k
  obtain ⟨-, rfl, rfl⟩ := hd.unique hd'
  have hk : k.keyType = tree.keyType := by
    by_contra hk
    rw [insert_of_keyType_ne hk] at hrun
    cases hrun
  have hlen : k.toBytes.length ≤ u16Max := by
    by_contra hlen
    have ⟨s₁, hrun₁, _⟩ := h.insert_tooLong (r := r) hk (Nat.lt_of_not_le hlen) hd' hn hx
    rw [hrun₁] at hrun
    cases hrun
  have ⟨s₁, hrun₁, h₁⟩ := (h.insert_run (r := r) hk hlen hd' hn hx).1 hfits
  obtain rfl := (Outcome.ok.inj (hrun₁.symm.trans hrun)).2
  have hnodes := h₁.nodesAt_eq.symm.trans h'.nodesAt_eq
  have hax : a ≠ x := by
    intro heq
    rw [heq, leavesOf_eq_some.mpr hx] at ha
    cases ha
  rw [← hnodes, leavesOf_update, Function.update_of_ne hax, ha]

/-- An insertion keeps the links when it can, and never repairs them. -/
lemma Shows.insert_links (h : tree.Shows nodes n s) (hw : Wired tree.rootPageId nodes seq)
    (hrun : (tree.insert k r).run s = .ok () s') : ∃ nodes' n' seq', tree.Shows nodes' n' s' ∧
      Wired tree.rootPageId nodes' seq' ∧
      (Stray (leavesOf nodes) seq → Stray (leavesOf nodes') seq') ∧
      (Listed (leavesOf nodes) seq →
        (tree.KeepsLinks s k r ∧ Listed (leavesOf nodes') seq') ∨
        (¬ tree.KeepsLinks s k r ∧ Stray (leavesOf nodes') seq')) := by
  rcases h.insert_cases hw k r with ⟨s₁, hrun₁, hdone⟩ | ⟨e, s₁, _, hrun₁, _⟩
  swap
  · rw [hrun₁] at hrun
    cases hrun
  obtain rfl := (Outcome.ok.inj (hrun₁.symm.trans hrun)).2
  have ⟨nodes', n', seq', h', hw', hgrown⟩ := hdone
  have hnodes := h.nodesAt_eq
  have ⟨parent, x, l, hleaf⟩ := (h.sound hw).exists_leafOf k
  have hroute := hleaf.route_eq (by rwa [hnodes]) (by rwa [hnodes])
  have hkeeps := keepsLinks_iff (r := r) hleaf
  have hx := hleaf.leaf_eq
  rw [hnodes] at hkeeps hx
  refine ⟨nodes', n', seq', h', hw', ?_⟩
  cases hgrown with
  | @append pre post y u ly hrewritten hlt =>
    have hle := hrewritten.le_bound ⟨k, r⟩ (by simp)
    obtain rfl := Option.some.inj ((route_of_le hlt hle).symm.trans hroute)
    obtain rfl := Option.some.inj (hrewritten.old.leaf_eq.symm.trans (leavesOf_eq_some.mpr hx))
    have hfits := h'.leafSize_le (leavesOf_eq_some.mp hrewritten.new)
    constructor
    · intro ⟨ps, hps, hstray⟩
      exact ⟨ps, hrewritten.links rfl hps, hstray⟩
    · intro hlisted
      exact .inl ⟨hkeeps.mpr (.inl hfits), hrewritten.links rfl hlisted⟩
  | @split pre post y a b u ly lo hi sep hsplit =>
    obtain rfl := Option.some.inj ((route_of_le hsplit.lt_new hsplit.new_le).symm.trans hroute)
    obtain rfl := Option.some.inj (hsplit.old.leaf_eq.symm.trans (leavesOf_eq_some.mpr hx))
    have hfull : ¬ leafSize (ly.entries ++ [⟨k, r⟩]) ≤ pageSize := by
      intro hfits
      have hnone := h.leavesOf_of_fits hleaf hw hfits hrun₁ h' hsplit.fresh_left
      rw [hsplit.new_left] at hnone
      cases hnone
    rw [or_iff_right hfull, leftmost_iff hw] at hkeeps
    by_cases hpre : pre = []
    · subst hpre
      exact ⟨hsplit.stray, fun hlisted => .inl ⟨hkeeps.mpr rfl, hsplit.listed hlisted⟩⟩
    · constructor
      · exact hsplit.stray_keep hpre
      · intro hlisted
        exact .inr ⟨fun hk => hpre (hkeeps.mp hk), hsplit.stray_of_listed hw.linked hpre hlisted⟩

lemma InsertRun.links (h : tree.InsertRun s kept) : ∃ nodes n seq, tree.Shows nodes n s ∧
    Wired tree.rootPageId nodes seq ∧
    ((kept ∧ Listed (leavesOf nodes) seq) ∨ (¬ kept ∧ Stray (leavesOf nodes) seq)) := by
  induction h with
  | @create indexId keyType s s' hrun =>
    have ⟨pages, hpages, hlt⟩ := create_eq_ok hrun
    have ⟨s₁, hrun', hs⟩ := create_ok keyType hpages hlt
    obtain ⟨rfl, rfl⟩ := Outcome.ok.inj (hrun'.symm.trans hrun)
    have hroot := Function.update_self (PageId.new pages.length) (Node.leaf ⟨[], none⟩)
      (nodesOf keyType pages)
    exact ⟨_, _, _, hs, wired_leaf hroot, .inl ⟨trivial, .cons (leavesOf_eq_some.mpr hroot) .nil⟩⟩
  | insert _ hrun ih =>
    have ⟨nodes, n, seq, hs, hw, hor⟩ := ih
    have ⟨nodes', n', seq', hs', hw', hstray, hlisted⟩ := hs.insert_links hw hrun
    refine ⟨nodes', n', seq', hs', hw', ?_⟩
    rcases hor with ⟨hkept, hl⟩ | ⟨hkept, hst⟩
    · rcases hlisted hl with ⟨hkeeps, hl'⟩ | ⟨hkeeps, hst'⟩
      · exact .inl ⟨⟨hkept, hkeeps⟩, hl'⟩
      · exact .inr ⟨fun hboth => hkeeps hboth.2, hst'⟩
    · exact .inr ⟨fun hboth => hkept hboth.1, hstray hst⟩
  | elsewhere _ hpages ih =>
    have ⟨nodes, n, seq, hs, hw, hor⟩ := ih
    exact ⟨nodes, n, seq, hs.congr hpages, hw, hor⟩

lemma InsertRun.listsLeaves (h : tree.InsertRun s kept) (hkept : kept) :
    ListsLeaves tree.rootPageId (tree.nodesAt s) := by
  have ⟨nodes, n, seq, hs, hw, hor⟩ := h.links
  rw [hs.nodesAt_eq]
  rcases hor with ⟨-, hl⟩ | ⟨hnot, -⟩
  · exact hw.listsLeaves hl
  · exact absurd hkept hnot

lemma InsertRun.not_listsLeaves (h : tree.InsertRun s kept) (hkept : ¬ kept) :
    ¬ ListsLeaves tree.rootPageId (tree.nodesAt s) := by
  have ⟨nodes, n, seq, hs, hw, hor⟩ := h.links
  rw [hs.nodesAt_eq]
  rcases hor with ⟨hyes, -⟩ | ⟨-, hst⟩
  · exact absurd hyes hkept
  · exact hw.not_listsLeaves hst

/-- After a run of insertions the links list the leaves exactly when each insertion kept them. -/
theorem insertRun_listsLeaves_iff (h : tree.InsertRun s kept) :
    ListsLeaves tree.rootPageId (tree.nodesAt s) ↔ kept := by
  constructor
  · intro hlists
    by_contra hkept
    exact h.not_listsLeaves hkept hlists
  · exact h.listsLeaves

lemma insertRun_insertClosed : tree.InsertClosed fun _ (s : σ) => ∃ kept, tree.InsertRun s kept :=
  ⟨fun hrun => ⟨True, .create hrun⟩, fun ⟨_, h⟩ hrun => ⟨_, h.insert hrun⟩⟩

end Runs

/-- The links of a tree of two leaves list them. -/
lemma TwoLeaves.listsLeaves {left right : List (Char × Nat)} {t : Char × Nat} {s : FileStore} {nodes : PageId → Node}
    (h : TwoLeaves left right t s nodes) : ListsLeaves (PageId.new 0) nodes := by
  have ⟨n, seq, hs, hw⟩ := h.reachable.sound
  rw [h.shows'.nodesAt_eq] at hs hw
  have hseq := seq_eq_of_twoLeaves hw h.root h.left_leaf
  subst hseq
  apply hw.listsLeaves
  exact .cons (leavesOf_eq_some.mpr h.left_leaf) (.cons (leavesOf_eq_some.mpr h.right_leaf) .nil)

/-- An insertion that splits the right one of two leaves. -/
lemma exists_staleSplit : ∃ s nodes s' kept,
    TwoLeaves [('a', 4000)] [('b', 4000), ('b', 4000)] ('a', 4000) s nodes ∧
    (open' ⟨0⟩ (PageId.new 0) .varchar).InsertRun s kept ∧
    ((open' ⟨0⟩ (PageId.new 0) .varchar).insert (.repeated 'c' 1500) (.ofSlot 3)).run s = .ok () s' ∧
    ¬ (open' ⟨0⟩ (PageId.new 0) .varchar).KeepsLinks s (.repeated 'c' 1500) (.ofSlot 3) := by
  obtain ⟨s, nodes, s', ⟨kept, hkept⟩, htree, hrun⟩ := insertRun_insertClosed.exists_rightSplit
  refine ⟨s, nodes, s', kept, htree, hkept, hrun, ?_⟩
  intro hkeeps
  rcases (keepsLinks_iff (htree.leafOf_right (by decide) (by decide))).mp hkeeps with hroom | hleftmost
  · -- the leaf is full
    rw [show [(⟨.repeated 'c' 1500, .ofSlot 3⟩ : LeafEntry)] = textEntries 3 [('c', 1500)] from rfl,
      SingleBytes.leafSize_append (by decide) (by decide)] at hroom
    exact absurd hroom (by decide)
  · -- and there is one before it
    rw [htree.shows'.nodesAt_eq] at hleftmost
    have hfirst : Leftmost nodes (PageId.new 0) (PageId.new 1) := by
      apply Outermost.down _ (.leaf htree.left_leaf)
      rw [htree.root]
      rfl
    exact absurd (hleftmost.unique rfl hfirst) (by decide)

/-- The links list two leaves, and no longer do so once the right one has been split. -/
theorem insertRun_listsLeaves_split : ∃ (s s' : FileStore) (nodes : PageId → Node) (kept kept' : Prop),
    TwoLeaves [('a', 4000)] [('b', 4000), ('b', 4000)] ('a', 4000) s nodes ∧
    ((open' ⟨0⟩ (PageId.new 0) .varchar).insert (.repeated 'c' 1500) (.ofSlot 3)).run s = .ok () s' ∧
    ((open' ⟨0⟩ (PageId.new 0) .varchar).InsertRun s kept ∧ kept) ∧
    ((open' ⟨0⟩ (PageId.new 0) .varchar).InsertRun s' kept' ∧
      ¬ ListsLeaves (PageId.new 0) ((open' ⟨0⟩ (PageId.new 0) .varchar).nodesAt s')) := by
  obtain ⟨s, nodes, s', kept, htree, hkept, hrun, hnot⟩ := exists_staleSplit
  refine ⟨s, s', nodes, kept, _, htree, hrun, ⟨hkept, ?_⟩, hkept.insert hrun, ?_⟩
  · apply (insertRun_listsLeaves_iff hkept).mp
    rw [htree.shows'.nodesAt_eq]
    exact htree.listsLeaves
  · intro hlists
    exact hnot ((insertRun_listsLeaves_iff (hkept.insert hrun)).mp hlists).2

/-- Three rows with keys of 4000 bytes and one with a key of 1500: the last one splits the right one of
two leaves, and the left one keeps its link to the old page. -/
theorem insertRun_keeps_stale_link : ∃ (s : FileStore) (kept : Prop),
    (open' ⟨0⟩ (PageId.new 0) .varchar).InsertRun s kept ∧
    ¬ ListsLeaves (PageId.new 0) ((open' ⟨0⟩ (PageId.new 0) .varchar).nodesAt s) := by
  obtain ⟨s, nodes, s', kept, -, hkept, hrun, hnot⟩ := exists_staleSplit
  exact ⟨s', _, hkept.insert hrun, (hkept.insert hrun).not_listsLeaves fun hboth => hnot hboth.2⟩

end BTree

end RdbRs
