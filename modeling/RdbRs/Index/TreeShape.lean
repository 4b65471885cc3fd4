import RdbRs.Index.TextTrees

/-!
# The shape of a tree

The invariant read as a search tree: the pages below the root, the bounds of the keys below each
child, and the depth of the leaves.
-/

namespace RdbRs

open LeafChain

/-- The pages an internal page leads to. -/
def Node.children : Node → List PageId
  | .internal es rightmost => es.map InternalEntry.leftChild ++ [rightmost]
  | _ => []

/-- The keys on a page. -/
def Node.keys : Node → List BTreeKey
  | .leaf l => l.entries.map LeafEntry.key
  | .internal es _ => es.map InternalEntry.separatorKey
  | .other => []

/-- The way from one page down to another, as the places of the children taken. -/
inductive Path (nodes : PageId → Node) : PageId → List Nat → PageId → Prop where
  | here {p : PageId} : Path nodes p [] p
  | down {p c q : PageId} {i : Nat} {is : List Nat} : (nodes p).children[i]? = some c →
      Path nodes c is q → Path nodes p (i :: is) q

/-- The pages below the root are a search tree with all leaves at one depth. -/
structure SearchTree (root : PageId) (nodes : PageId → Node) : Prop where
  decodes : ∀ is q, Path nodes root is q → nodes q ≠ .other
  sorted : ∀ is q es rightmost, Path nodes root is q → nodes q = .internal es rightmost →
    es.Pairwise fun a b => a.separatorKey ≤ b.separatorKey
  /-- The keys below the child `i` of `p` lie between the separators before it and its own. -/
  bounded : ∀ is p es rightmost (i : Nat) c js q, Path nodes root is p →
    nodes p = .internal es rightmost → (nodes p).children[i]? = some c → Path nodes c js q →
    ∀ k ∈ (nodes q).keys,
      (∀ (j : Nat) (a : InternalEntry), j < i → es[j]? = some a → a.separatorKey ≤ k) ∧
        ∀ a : InternalEntry, es[i]? = some a → k ≤ a.separatorKey
  unique : ∀ is js q, Path nodes root is q → Path nodes root js q → is = js
  level : ∀ is js q q' l l', Path nodes root is q → Path nodes root js q' → nodes q = .leaf l →
    nodes q' = .leaf l' → is.length = js.length

section Paths

variable {nodes : PageId → Node} {p q c : PageId} {is js : List Nat} {l : Leaf PageId LeafEntry}
  {es es' : List InternalEntry} {rightmost rightmost' : PageId} {i j : Nat}

lemma Path.of_leaf (h : Path nodes p is q) (hp : nodes p = .leaf l) : is = [] ∧ q = p := by
  cases h with
  | here => exact ⟨rfl, rfl⟩
  | down hi _ =>
    rw [hp] at hi
    cases hi

lemma Path.of_internal (h : Path nodes p is q) (hp : nodes p = .internal es rightmost) :
    (is = [] ∧ q = p) ∨ ∃ i c js, is = i :: js ∧
      (es.map InternalEntry.leftChild ++ [rightmost])[i]? = some c ∧ Path nodes c js q := by
  cases h with
  | here => exact .inl ⟨rfl, rfl⟩
  | @down _ c _ i js hi hrest =>
    rw [hp] at hi
    exact .inr ⟨i, c, js, rfl, hi, hrest⟩

end Paths

/-! ### A page over leaves -/

section OverLeaves

variable {nodes : PageId → Node} {p q c : PageId} {l : Leaf PageId LeafEntry}
  {es : List InternalEntry} {rightmost : PageId} {u : WithTop BTreeKey} {i j : Nat}
  {before : List (PageId × WithTop BTreeKey)} {a b : InternalEntry}

lemma map_fst_childrenOf :
    (childrenOf es rightmost u).map Prod.fst = es.map InternalEntry.leftChild ++ [rightmost] := by
  unfold childrenOf
  rw [List.map_append, List.map_map]
  rfl

lemma getElem?_childrenOf (rightmost : PageId) (u : WithTop BTreeKey) (hj : es[j]? = some a) :
    (childrenOf es rightmost u)[j]? = some (a.leftChild, (a.separatorKey : WithTop BTreeKey)) := by
  have hlt := (List.getElem?_eq_some_iff.mp hj).1
  unfold childrenOf
  rw [List.getElem?_append_left (by rwa [List.length_map]), List.getElem?_map, hj]
  rfl

/-- A child is a leaf whose keys lie between the separators. -/
lemma child_of_linkedFrom
    (h : LinkedFrom LeafEntry.key (leavesOf nodes) before (childrenOf es rightmost u))
    (hi : (es.map InternalEntry.leftChild ++ [rightmost])[i]? = some c) :
    ∃ l, nodes c = .leaf l ∧ (∀ b ∈ before, b.1 ≠ c) ∧ ∀ e ∈ l.entries,
      (∀ j a, j < i → es[j]? = some a → a.separatorKey ≤ e.key) ∧
      (∀ a, es[i]? = some a → e.key ≤ a.separatorKey) ∧
      (∀ b ∈ before, b.2 ≤ e.key) ∧ (e.key : WithTop BTreeKey) ≤ u := by
  rw [← map_fst_childrenOf (u := u), List.getElem?_map, Option.map_eq_some_iff] at hi
  have ⟨z, hz, hc⟩ := hi
  subst hc
  have ⟨l, hl⟩ := h.getElem hz
  refine ⟨l, leavesOf_eq_some.mp hl.leaf_eq, ?_, ?_⟩
  · intro b hb
    exact hl.above.ne b (List.mem_append_left _ hb)
  intro e he
  refine ⟨?_, ?_, fun b hb => hl.above.le b (List.mem_append_left _ hb) e he, ?_⟩
  · intro j a hj ha
    have hmem : (a.leftChild, (a.separatorKey : WithTop BTreeKey)) ∈
        (childrenOf es rightmost u).take i := by
      apply List.mem_of_getElem? (i := j)
      rw [List.getElem?_take_of_lt hj, getElem?_childrenOf rightmost u ha]
    exact WithTop.coe_le_coe.mp (hl.above.le _ (List.mem_append_right _ hmem) e he)
  · intro a ha
    have hbound := hl.le_bound e he
    rw [getElem?_childrenOf rightmost u ha, Option.some.injEq] at hz
    rw [← hz] at hbound
    exact WithTop.coe_le_coe.mp hbound
  · exact (hl.le_bound e he).trans (bound_le_of_linkedFrom h z (List.mem_of_getElem? hz))

lemma sorted_of_linkedFrom
    (h : LinkedFrom LeafEntry.key (leavesOf nodes) before (childrenOf es rightmost u)) :
    es.Pairwise fun a b => a.separatorKey ≤ b.separatorKey := by
  apply List.pairwise_iff_getElem.mpr
  intro i j hi hj hij
  have hi' := getElem?_childrenOf rightmost u (List.getElem?_eq_getElem hi)
  have hj' := getElem?_childrenOf rightmost u (List.getElem?_eq_getElem hj)
  have ⟨l, hl⟩ := h.getElem hj'
  apply WithTop.coe_le_coe.mp
  apply hl.bound_le (es[i].leftChild, (es[i].separatorKey : WithTop BTreeKey))
  apply List.mem_append_right
  apply List.mem_of_getElem? (i := i)
  rw [List.getElem?_take_of_lt hij, hi']

/-- A leaf is a child in one place only. -/
lemma child_unique (h : LinkedFrom LeafEntry.key (leavesOf nodes) before (childrenOf es rightmost u))
    (hi : (es.map InternalEntry.leftChild ++ [rightmost])[i]? = some c)
    (hj : (es.map InternalEntry.leftChild ++ [rightmost])[j]? = some c) : i = j := by
  have hnodup := (nodup_of_linkedFrom h).1
  rw [map_fst_childrenOf] at hnodup
  have ⟨hi', hci⟩ := List.getElem?_eq_some_iff.mp hi
  have ⟨hj', hcj⟩ := List.getElem?_eq_some_iff.mp hj
  exact (List.Nodup.getElem_inj_iff hnodup).mp (hci.trans hcj.symm)

/-- The pages below a page over leaves. -/
lemma paths_of_linkedFrom {is : List Nat}
    (h : LinkedFrom LeafEntry.key (leavesOf nodes) before (childrenOf es rightmost u))
    (hp : nodes p = .internal es rightmost) (hpath : Path nodes p is q) :
    (is = [] ∧ q = p) ∨ ∃ i, is = [i] ∧
      (es.map InternalEntry.leftChild ++ [rightmost])[i]? = some q ∧ ∃ l, nodes q = .leaf l := by
  rcases hpath.of_internal hp with hhere | ⟨i, c, js, rfl, hi, hrest⟩
  · exact .inl hhere
  · have ⟨l, hc, _⟩ := child_of_linkedFrom h hi
    have ⟨hjs, hq⟩ := hrest.of_leaf hc
    subst hjs hq
    exact .inr ⟨i, rfl, hi, l, hc⟩

lemma length_path_of_linkedFrom {is : List Nat} {l : Leaf PageId LeafEntry}
    (h : LinkedFrom LeafEntry.key (leavesOf nodes) before (childrenOf es rightmost u))
    (hp : nodes p = .internal es rightmost) (hpath : Path nodes p is q) (hq : nodes q = .leaf l) :
    is.length = 1 := by
  rcases paths_of_linkedFrom h hp hpath with ⟨-, rfl⟩ | ⟨i, rfl, -⟩
  · rw [hp] at hq
    cases hq
  · rfl

/-- The keys on a page over leaves and below it. -/
lemma keys_of_path {is : List Nat} {k : BTreeKey}
    (h : LinkedFrom LeafEntry.key (leavesOf nodes) before (childrenOf es rightmost u))
    (hp : nodes p = .internal es rightmost) (hpath : Path nodes p is q) (hk : k ∈ (nodes q).keys) :
    (∀ b ∈ before, b.2 ≤ k) ∧ (k : WithTop BTreeKey) ≤ u := by
  rcases paths_of_linkedFrom h hp hpath with ⟨-, rfl⟩ | ⟨i, -, hi, -⟩
  · rw [hp] at hk
    have ⟨a, ha, hak⟩ := List.mem_map.mp hk
    have ⟨j, hj⟩ := List.mem_iff_getElem?.mp ha
    have hz := getElem?_childrenOf rightmost u hj
    have ⟨l, hl⟩ := h.getElem hz
    subst hak
    exact ⟨fun b hb => hl.bound_le b (List.mem_append_left _ hb),
      bound_le_of_linkedFrom h _ (List.mem_of_getElem? hz)⟩
  · have ⟨l', hl', _, hbounds⟩ := child_of_linkedFrom h hi
    rw [hl'] at hk
    have ⟨e, he, hek⟩ := List.mem_map.mp hk
    subst hek
    exact (hbounds e he).2.2

end OverLeaves

/-! ### A page over two pages -/

section Pair

variable {nodes : PageId → Node} {root left right q c : PageId} {sep : BTreeKey} {is : List Nat}
  {i : Nat}

lemma child_of_pair (h : (Node.internal [⟨left, sep⟩] right).children[i]? = some c) :
    (i = 0 ∧ c = left) ∨ (i = 1 ∧ c = right) := by
  match i with
  | 0 => exact .inl ⟨rfl, (Option.some.inj h).symm⟩
  | 1 => exact .inr ⟨rfl, (Option.some.inj h).symm⟩
  | i + 2 => cases h

lemma Path.of_pair (h : Path nodes root is q) (hroot : nodes root = .internal [⟨left, sep⟩] right) :
    (is = [] ∧ q = root) ∨ (∃ js, is = 0 :: js ∧ Path nodes left js q) ∨
      ∃ js, is = 1 :: js ∧ Path nodes right js q := by
  rcases h.of_internal hroot with hhere | ⟨i, c, js, rfl, hi, hrest⟩
  · exact .inl hhere
  · rcases child_of_pair hi with ⟨rfl, rfl⟩ | ⟨rfl, rfl⟩
    · exact .inr (.inl ⟨js, rfl, hrest⟩)
    · exact .inr (.inr ⟨js, rfl, hrest⟩)

end Pair

/-! ### The search tree -/

section Trees

variable {root : PageId} {nodes : PageId → Node} {seq : List (PageId × WithTop BTreeKey)}
  {l : Leaf PageId LeafEntry} {es es' : List InternalEntry} {rightmost rightmost' left right : PageId}
  {sep : BTreeKey}

lemma searchTree_leaf (hroot : nodes root = .leaf l) : SearchTree root nodes := by
  constructor
  · intro is q hq
    obtain ⟨-, rfl⟩ := hq.of_leaf hroot
    simp [hroot]
  · intro is q es rightmost hq hnode
    obtain ⟨-, rfl⟩ := hq.of_leaf hroot
    rw [hroot] at hnode
    cases hnode
  · intro is p es rightmost i c js q hp hnode
    obtain ⟨-, rfl⟩ := hp.of_leaf hroot
    rw [hroot] at hnode
    cases hnode
  · intro is js q hq hq'
    rw [(hq.of_leaf hroot).1, (hq'.of_leaf hroot).1]
  · intro is js q q' l₁ l₂ hq hq' _ _
    rw [(hq.of_leaf hroot).1, (hq'.of_leaf hroot).1]

lemma searchTree_parent {before : List (PageId × WithTop BTreeKey)} {u : WithTop BTreeKey}
    (hroot : nodes root = .internal es rightmost)
    (h : LinkedFrom LeafEntry.key (leavesOf nodes) before (childrenOf es rightmost u)) :
    SearchTree root nodes := by
  constructor
  · intro is q hq
    rcases paths_of_linkedFrom h hroot hq with ⟨-, rfl⟩ | ⟨i, -, -, l, hl⟩
    · simp [hroot]
    · simp [hl]
  · intro is q es₁ rightmost₁ hq hnode
    rcases paths_of_linkedFrom h hroot hq with ⟨-, rfl⟩ | ⟨i, -, -, l, hl⟩
    · obtain ⟨rfl, rfl⟩ := Node.internal.inj (hroot.symm.trans hnode)
      exact sorted_of_linkedFrom h
    · rw [hl] at hnode
      cases hnode
  · intro is p es₁ rightmost₁ i c js q hp hnode hc hq k hk
    rcases paths_of_linkedFrom h hroot hp with ⟨-, rfl⟩ | ⟨-, -, -, l', hl'⟩
    · obtain ⟨rfl, rfl⟩ := Node.internal.inj (hroot.symm.trans hnode)
      rw [hroot] at hc
      have ⟨lc, hlc, _, hbounds⟩ := child_of_linkedFrom h hc
      obtain ⟨-, rfl⟩ := hq.of_leaf hlc
      rw [hlc] at hk
      have ⟨e, he, hek⟩ := List.mem_map.mp hk
      subst hek
      exact ⟨(hbounds e he).1, (hbounds e he).2.1⟩
    · rw [hl'] at hnode
      cases hnode
  · intro is js q hq hq'
    rcases paths_of_linkedFrom h hroot hq with ⟨rfl, rfl⟩ | ⟨i, rfl, hi, l, hl⟩
    · rcases paths_of_linkedFrom h hroot hq' with ⟨rfl, -⟩ | ⟨j, -, -, l, hl⟩
      · rfl
      · rw [hroot] at hl
        cases hl
    · rcases paths_of_linkedFrom h hroot hq' with ⟨-, rfl⟩ | ⟨j, rfl, hj, -, -⟩
      · rw [hroot] at hl
        cases hl
      · rw [child_unique h hi hj]
  · intro is js q q' l₁ l₂ hq hq' hl₁ hl₂
    rw [length_path_of_linkedFrom h hroot hq hl₁, length_path_of_linkedFrom h hroot hq' hl₂]

/-- A page over two search trees with the leaves at one depth, where the keys of the left one are at
most the separator and the keys of the right one at least. -/
lemma searchTree_pair {d : Nat} (hroot : nodes root = .internal [⟨left, sep⟩] right)
    (hleft : SearchTree left nodes) (hright : SearchTree right nodes)
    (hdisjoint : ∀ is js q, Path nodes left is q → ¬ Path nodes right js q)
    (hout : ∀ is, ¬ Path nodes left is root) (hout' : ∀ is, ¬ Path nodes right is root)
    (hdepth : ∀ is q l, Path nodes left is q → nodes q = .leaf l → is.length = d)
    (hdepth' : ∀ is q l, Path nodes right is q → nodes q = .leaf l → is.length = d)
    (hle : ∀ is q, Path nodes left is q → ∀ k ∈ (nodes q).keys, k ≤ sep)
    (hge : ∀ is q, Path nodes right is q → ∀ k ∈ (nodes q).keys, sep ≤ k) :
    SearchTree root nodes := by
  constructor
  · intro is q hq
    rcases hq.of_pair hroot with ⟨-, rfl⟩ | ⟨is, -, hq⟩ | ⟨is, -, hq⟩
    · simp [hroot]
    · exact hleft.decodes is q hq
    · exact hright.decodes is q hq
  · intro is q es₁ rightmost₁ hq hnode
    rcases hq.of_pair hroot with ⟨-, rfl⟩ | ⟨is, -, hq⟩ | ⟨is, -, hq⟩
    · obtain ⟨rfl, rfl⟩ := Node.internal.inj (hroot.symm.trans hnode)
      exact List.pairwise_singleton _ _
    · exact hleft.sorted is q es₁ rightmost₁ hq hnode
    · exact hright.sorted is q es₁ rightmost₁ hq hnode
  · intro is p es₁ rightmost₁ i c js q hp hnode hc hq
    rcases hp.of_pair hroot with ⟨-, rfl⟩ | ⟨is, -, hp⟩ | ⟨is, -, hp⟩
    · obtain ⟨rfl, rfl⟩ := Node.internal.inj (hroot.symm.trans hnode)
      rw [hroot] at hc
      intro k hk
      rcases child_of_pair hc with ⟨rfl, rfl⟩ | ⟨rfl, rfl⟩
      · constructor
        · intro j a hj
          omega
        · intro a ha
          obtain rfl := Option.some.inj ha
          exact hle js q hq k hk
      · constructor
        · intro j a hj ha
          obtain rfl : j = 0 := by omega
          obtain rfl := Option.some.inj ha
          exact hge js q hq k hk
        · intro a ha
          cases ha
    · exact hleft.bounded is p es₁ rightmost₁ i c js q hp hnode hc hq
    · exact hright.bounded is p es₁ rightmost₁ i c js q hp hnode hc hq
  · intro is js q hq hq'
    rcases hq.of_pair hroot with ⟨rfl, heq⟩ | ⟨is, rfl, hleftq⟩ | ⟨is, rfl, hrightq⟩
    · subst heq
      rcases hq'.of_pair hroot with ⟨rfl, -⟩ | ⟨js, -, hq'⟩ | ⟨js, -, hq'⟩
      · rfl
      · exact absurd hq' (hout js)
      · exact absurd hq' (hout' js)
    · rcases hq'.of_pair hroot with ⟨-, rfl⟩ | ⟨js, rfl, hleftq'⟩ | ⟨js, -, hq'⟩
      · exact absurd hleftq (hout is)
      · rw [hleft.unique is js q hleftq hleftq']
      · exact absurd hq' (hdisjoint is js q hleftq)
    · rcases hq'.of_pair hroot with ⟨-, rfl⟩ | ⟨js, -, hq'⟩ | ⟨js, rfl, hrightq'⟩
      · exact absurd hrightq (hout' is)
      · exact absurd hrightq (hdisjoint js is q hq')
      · rw [hright.unique is js q hrightq hrightq']
  · intro is js q q' l₁ l₂ hq hq' hl₁ hl₂
    have hone {is : List Nat} {q : PageId} {l : Leaf PageId LeafEntry} (hq : Path nodes root is q)
        (hl : nodes q = .leaf l) : is.length = d + 1 := by
      rcases hq.of_pair hroot with ⟨-, rfl⟩ | ⟨is, rfl, hq'⟩ | ⟨is, rfl, hq'⟩
      · rw [hroot] at hl
        cases hl
      · rw [List.length_cons, hdepth is q l hq' hl]
      · rw [List.length_cons, hdepth' is q l hq' hl]
    rw [hone hq hl₁, hone hq' hl₂]

lemma searchTree_grandparent (hroot : nodes root = .internal [⟨left, sep⟩] right)
    (hl : nodes left = .internal es rightmost) (hr : nodes right = .internal es' rightmost')
    (hne : left ≠ right) (hrl : root ≠ left) (hrr : root ≠ right)
    (h : LinkedFrom LeafEntry.key (leavesOf nodes) []
      (childrenOf es rightmost sep ++ childrenOf es' rightmost' ⊤)) : SearchTree root nodes := by
  have ⟨hleft, hright⟩ := linkedFrom_append.mp h
  rw [List.nil_append] at hright
  apply searchTree_pair (d := 1) hroot (searchTree_parent hl hleft) (searchTree_parent hr hright)
  · intro is js q hq hq'
    rcases paths_of_linkedFrom hleft hl hq with ⟨-, rfl⟩ | ⟨i, -, hi, l, hlq⟩
    · rcases paths_of_linkedFrom hright hr hq' with ⟨-, heq⟩ | ⟨j, -, -, l', hl'⟩
      · exact hne heq
      · rw [hl] at hl'
        cases hl'
    · rcases paths_of_linkedFrom hright hr hq' with ⟨-, rfl⟩ | ⟨j, -, hj, -, -⟩
      · rw [hr] at hlq
        cases hlq
      · have ⟨_, _, hbefore, _⟩ := child_of_linkedFrom hright hj
        have hmem : q ∈ (childrenOf es rightmost sep).map Prod.fst := by
          rw [map_fst_childrenOf]
          exact List.mem_of_getElem? hi
        have ⟨b, hb, hbq⟩ := List.mem_map.mp hmem
        exact hbefore b hb hbq
  · intro is hq
    rcases paths_of_linkedFrom hleft hl hq with ⟨-, heq⟩ | ⟨i, -, -, l, hlq⟩
    · exact hrl heq
    · rw [hroot] at hlq
      cases hlq
  · intro is hq
    rcases paths_of_linkedFrom hright hr hq with ⟨-, heq⟩ | ⟨i, -, -, l, hlq⟩
    · exact hrr heq
    · rw [hroot] at hlq
      cases hlq
  · intro is q l hq hlq
    exact length_path_of_linkedFrom hleft hl hq hlq
  · intro is q l hq hlq
    exact length_path_of_linkedFrom hright hr hq hlq
  · intro is q hq k hk
    exact WithTop.coe_le_coe.mp (keys_of_path hleft hl hq hk).2
  · intro is q hq k hk
    have hlast : (rightmost, (sep : WithTop BTreeKey)) ∈ childrenOf es rightmost sep := by
      simp [childrenOf]
    exact WithTop.coe_le_coe.mp ((keys_of_path hright hr hq hk).1 _ hlast)

/-- The invariant of a tree makes its pages a search tree. -/
theorem Wired.searchTree (h : Wired root nodes seq) : SearchTree root nodes := by
  have ⟨hshape, hlinked⟩ := h
  have hfrom := hlinked.linked
  cases hshape with
  | leaf hroot => exact searchTree_leaf hroot
  | parent hroot => exact searchTree_parent hroot hfrom
  | grandparent hroot hl hr hne hrl hrr =>
    exact searchTree_grandparent hroot hl hr hne hrl hrr hfrom

end Trees

namespace BTree

/-- The pages of a reachable tree are a search tree. -/
theorem reachable_searchTree {σ : Type} [PageStore σ] [UnstableSort] {tree : BTree} {s : σ}
    (h : tree.Reachable s) : SearchTree tree.rootPageId (tree.nodesAt s) := by
  have ⟨_, _, _, hwired⟩ := h.sound
  exact hwired.searchTree

/-- A root over two leaves, before and after a row of the right one has been deleted. -/
theorem reachable_searchTree_twoLeaves : ∃ (s s' : FileStore) (nodes : PageId → Node),
    TwoLeaves [('a', 100), ('b', 100)] [('c', 4000), ('d', 4090)] ('b', 100) s nodes ∧
    ((open' ⟨0⟩ (PageId.new 0) .varchar).delete (.repeated 'c' 4000) (.ofSlot 2)).run s = .ok true s' ∧
    SearchTree (PageId.new 0) nodes ∧
    SearchTree (PageId.new 0) ((open' ⟨0⟩ (PageId.new 0) .varchar).nodesAt s') := by
  obtain ⟨s, nodes, s', -, htree, -, hrun⟩ := reachable_insertClosed.exists_deleted
  have hbefore := reachable_searchTree htree.reachable
  rw [htree.shows'.nodesAt_eq] at hbefore
  exact ⟨s, s', nodes, htree, hrun, hbefore, reachable_searchTree (htree.reachable.delete (.inl ⟨true, hrun⟩))⟩

end BTree

end RdbRs
