import RdbRs.Index.TextTrees

/-!
# Searches end

The descent to a leaf takes finitely many steps, and the walk over the next-leaf links, through live
leaves and abandoned ones, comes to no page twice.
-/

namespace RdbRs

open LeafChain

namespace BTree

section Ends

variable {σ : Type} [PageStore σ] (tree : BTree)

/-- The descent of `k` goes in `d` steps to the leaf `x` below `parent`, and the walk from there over
the pages `ps`. -/
structure SearchEnds (s : σ) (k : BTreeKey) (d : Nat) (parent : Option PageId) (x : PageId)
    (ps : List PageId) : Prop where
  descent : Descent (tree.nodesAt s) k d none tree.rootPageId parent x
  leaf : ∃ l, tree.nodesAt s x = .leaf l
  steps : d ≤ tree.pageTotal s
  findLeaf : ∃ s', (tree.findLeafPageId k).run s = .ok x s'
  findLeafAndParent : ∃ s', (tree.findLeafAndParentPageIds k).run s = .ok (parent, x) s'
  walk : Walk LeafEntry.key (leavesOf (tree.nodesAt s)) k (some x) ps
  nodup : ps.Nodup
  /-- The loop of the walk takes one round for each of its pages. -/
  rounds : ∀ fuel results, (fuel < ps.length → (tree.searchLoop k fuel x results).run s = .diverge) ∧
    (ps.length ≤ fuel → ∃ s', (tree.searchLoop k fuel x results).run s =
      .ok (results ++ foundRows (tree.nodesAt s) k ps) s')
  search : ∃ s', (tree.search k).run s = .ok (foundRows (tree.nodesAt s) k ps) s'

variable {tree} {s : σ} {k : BTreeKey}

/-- A search in a sound state ends. -/
lemma Sound.searchEnds (h : tree.Sound s) (hk : k.keyType = tree.keyType) :
    ∃ d parent x ps, tree.SearchEnds s k d parent x ps := by
  have ⟨n, seq, hs, hw⟩ := h
  have ⟨d, parent, x, hd, hplace, hn⟩ := hs.exists_place hw k
  have ⟨ps, hps⟩ := hw.linked.exists_search k
  have ⟨s', hsearch, _⟩ := hs.search_ok hw hk hps
  have ⟨y, hy, hwalk⟩ := hps
  cases hplace.route_eq.symm.trans hy
  have ⟨z, hz, hzx⟩ := mem_of_route hplace.route_eq
  have ⟨l, hl⟩ := leaf_of_mem hw.linked hz
  have ⟨s₁, hleaf, _⟩ := hs.findLeafPageId_ok hk hd hn
  have ⟨s₂, hparent, _⟩ := hs.findLeafAndParentPageIds_ok hk hd hn
  refine ⟨d, parent, x, ps, ?_⟩
  constructor
  · exact hd
  · exact ⟨l, hzx ▸ hl⟩
  · rw [hs.pageTotal_eq]
    exact hn
  · exact ⟨s₁, hleaf⟩
  · exact ⟨s₂, hparent⟩
  · exact hwalk
  · exact hwalk.nodup
  · intro fuel results
    constructor
    · intro hshort
      exact hs.searchLoop_short hk hwalk hshort results
    · intro hlong
      have ⟨s₃, hrun, _⟩ := hs.searchLoop_ok hk hwalk hlong results
      exact ⟨s₃, hrun⟩
  · exact ⟨s', hsearch⟩

/-- Every search in a tree that `create`, `insert` and `delete` have led to ends. -/
theorem searching_ends [UnstableSort] (h : tree.Reachable s) (k : BTreeKey) :
    (k.keyType ≠ tree.keyType → (tree.search k).run s = .err .invalidKeyType s) ∧
      (k.keyType = tree.keyType → ∃ d parent x ps, tree.SearchEnds s k d parent x ps) := by
  constructor
  · intro hk
    have haccept : tree.acceptsKey k = false := decide_eq_false (Ne.symm hk)
    rw [search, haccept]
    rfl
  · intro hk
    exact h.sound.searchEnds hk

/-- A search in a tree of two leaves goes down to the left one, and over its link to the right one. -/
theorem searching_ends_twoLeaves : ∃ (s : FileStore) (nodes : PageId → Node),
    TwoLeaves [('a', 100), ('b', 100)] [('c', 4000), ('d', 4090)] ('b', 100) s nodes ∧
    (open' ⟨0⟩ (PageId.new 0) .varchar).SearchEnds s (.repeated 'b' 100) 1 (some (PageId.new 0)) (PageId.new 1)
      [PageId.new 1, PageId.new 2] := by
  have ⟨s, nodes, _, _, htree, _⟩ := reachable_insertClosed.exists_deleted
  have ⟨d, parent, x, ps, hends⟩ := (searching_ends htree.reachable (.repeated 'b' 100)).2 rfl
  have hdescent := hends.descent
  have hwalk := hends.walk
  rw [htree.shows'.nodesAt_eq] at hdescent hwalk
  obtain ⟨rfl, rfl, rfl⟩ := htree.descent_left.unique hdescent
  obtain rfl := (htree.walk (by decide) (by decide)).unique hwalk
  exact ⟨s, nodes, htree, hends⟩

end Ends

end BTree

end RdbRs
