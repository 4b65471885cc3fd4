import RdbRs.Index.TreeDelete
import RdbRs.Lib.LeafChainUnique

/-!
# Deletion and the searches

A deletion cuts the link of the leaf it rewrites. What a search found behind that leaf is lost,
unless the leaf is merged with the one behind it and takes over its link.
-/

namespace RdbRs

open LeafChain BTree

section Effects

variable {nodes : PageId → Node} {seq pre post : List (PageId × WithTop BTreeKey)}
  {root x a b p : PageId} {ua ub : WithTop BTreeKey} {l la lb : Leaf PageId LeafEntry} {k : BTreeKey}
  {r : RowId} {parent : Option PageId}

/-- A leaf on a page of the sequence. -/
lemma Wired.linkedAt {u : WithTop BTreeKey} (hw : Wired root nodes (pre ++ (x, u) :: post))
    (hx : nodes x = .leaf l) : LinkedAt LeafEntry.key (leavesOf nodes) pre x u l := by
  obtain ⟨l₀, hl₀⟩ := hw.linked.at
  have hx' := leavesOf_eq_some.mp hl₀.leaf_eq
  rw [hx] at hx'
  obtain rfl := Node.leaf.inj hx'
  exact hl₀

lemma leafSize_append_comm (es es' : List LeafEntry) : leafSize (es ++ es') = leafSize (es' ++ es) :=
  congrArg (leafHeaderSize + ·) (EntryFormat.entriesSize_perm List.perm_append_comm)

lemma erase_perm {es : List LeafEntry} {e : LeafEntry} (he : e ∈ es) : es.Perm (e :: es.erase e) :=
  List.perm_cons_erase he

/-- The leaf is rewritten without the entry, and its link is cut. -/
lemma Wired.erase_rewritten {u : WithTop BTreeKey} (hw : Wired root nodes (pre ++ (x, u) :: post))
    (hx : nodes x = .leaf l) (e : LeafEntry) :
    Rewritten LeafEntry.key (leavesOf nodes) (leavesOf (erasedNodes nodes x l.entries e)) pre x u l
      ⟨l.entries.erase e, none⟩ := by
  have hl := hw.linkedAt hx
  rw [erasedNodes, leavesOf_update]
  refine ⟨hl, Function.update_self .., fun p hp => Function.update_of_ne hp .., ?_, ?_, .inr rfl⟩
  · exact fun c hc => hl.le_bound c (List.mem_of_mem_erase hc)
  · exact fun z hz c hc => hl.above.le z hz c (List.mem_of_mem_erase hc)

/-- What the searches find then. -/
lemma Wired.erase (hw : Wired root nodes seq) (hx : nodes x = .leaf l) (hm : ⟨k, r⟩ ∈ l.entries)
    (hroute : route seq k = some x) :
    Wired root (erasedNodes nodes x l.entries ⟨k, r⟩) seq ∧
      ∀ j ps, Search LeafEntry.key (leavesOf nodes) seq j ps → ∃ ps',
        Search LeafEntry.key (leavesOf (erasedNodes nodes x l.entries ⟨k, r⟩)) seq j ps' ∧
        ((x ∉ ps ∧ k ≠ j ∧ foundRows (erasedNodes nodes x l.entries ⟨k, r⟩) j ps' =
            foundRows nodes j ps) ∨
          (x ∈ ps ∧ ∃ ws, Walk LeafEntry.key (leavesOf nodes) j l.next ws ∧
            (foundRows nodes j ps).Perm ((if k = j then [r] else []) ++
              foundRows (erasedNodes nodes x l.entries ⟨k, r⟩) j ps' ++ foundRows nodes j ws))) := by
  obtain ⟨pre, u, post, rfl, hlt, hle⟩ := route_eq_some.mp hroute
  have hrewritten := hw.erase_rewritten hx ⟨k, r⟩
  refine ⟨⟨hw.shape.update_leaf hx, hrewritten.linked hw.linked⟩, fun j ps hps => ?_⟩
  obtain ⟨ps', hps', hfound⟩ := hrewritten.search_remove (erase_perm hm) rfl hroute hps
  refine ⟨ps', hps', ?_⟩
  rcases hfound with ⟨hxps, hne, hfound⟩ | ⟨hxps, ws, hws, hfound⟩
  · exact .inl ⟨hxps, hne, congrArg _ hfound⟩
  · refine .inr ⟨hxps, ws, hws, ?_⟩
    have hmap := hfound.map LeafEntry.rowId
    simp only [List.map_append] at hmap
    rwa [ite_map_rowId] at hmap

/-- Where a merge takes place. -/
structure MergeSite (root : PageId) (nodes : PageId → Node) (seq : List (PageId × WithTop BTreeKey))
    (x a b p : PageId) (es : List InternalEntry) (rightmost : PageId) (es' : List InternalEntry)
    (rightmost' : PageId) (pre : List (PageId × WithTop BTreeKey)) (ua ub : WithTop BTreeKey)
    (post : List (PageId × WithTop BTreeKey)) : Prop where
  node : nodes p = .internal es rightmost
  child : IsChild x es rightmost
  pair : mergePair es rightmost x = some (a, b)
  side : x = a ∨ x = b
  merged : MergedChildren a b es rightmost es' rightmost'
  seq_eq : seq = pre ++ (a, ua) :: (b, ub) :: post
  reshape : ∀ nodes' : PageId → Node, nodes' p = .internal es' rightmost' →
    (∀ q es rightmost, q ≠ p → nodes q = .internal es rightmost → nodes' q = nodes q) →
    Shape root nodes' (pre ++ (a, ub) :: post)

/-- The two leaves of a merge are different pages and both are leaves. -/
lemma MergeSite.leaves {es es' : List InternalEntry} {rightmost rightmost' : PageId}
    (hs : MergeSite root nodes seq x a b p es rightmost es' rightmost' pre ua ub post)
    (hw : Wired root nodes seq) : a ≠ b ∧ ∃ la lb, nodes a = .leaf la ∧ nodes b = .leaf lb := by
  have hseq := hs.seq_eq
  subst hseq
  obtain ⟨la, ha⟩ := leaf_of_mem (z := (a, ua)) hw.linked (by simp)
  obtain ⟨lb, hb⟩ := leaf_of_mem (z := (b, ub)) hw.linked (by simp)
  have hw' : Wired root nodes ((pre ++ [(a, ua)]) ++ (b, ub) :: post) := by simpa using hw
  exact ⟨(hw'.linkedAt hb).above.ne (a, ua) (by simp), la, lb, ha, hb⟩

lemma Place.family (h : Place root nodes seq k (some p) x) :
    ∃ es rightmost front u back, Family root nodes seq p es rightmost front u back ∧
      IsChild x es rightmost := by
  cases h with
  | rootChild hf hr =>
    obtain ⟨pre, u, post, hchildren, -, -⟩ := route_eq_some.mp hr
    exact ⟨_, _, _, _, _, hf, (isChild_iff (u := ⊤)).mpr ⟨(x, u), by rw [hchildren]; simp, rfl⟩⟩
  | @grandchild _ _ _ _ _ _ _ _ u hf _ hr _ _ _ _ =>
    obtain ⟨pre, v, post, hchildren, -, -⟩ := route_eq_some.mp hr
    exact ⟨_, _, _, _, _, hf, (isChild_iff (u := u)).mpr ⟨(x, v), by rw [hchildren]; simp, rfl⟩⟩

/-- A merge is one of two neighbouring live leaves. -/
lemma Place.mergeSite (h : Place root nodes seq k parent x) (hw : Wired root nodes seq)
    (hm : MergesAs nodes parent x a b) : ∃ p es rightmost es' rightmost' pre ua ub post,
      parent = some p ∧
      MergeSite root nodes seq x a b p es rightmost es' rightmost' pre ua ub post := by
  obtain ⟨p, es, rightmost, rfl, hp, hpair⟩ := hm
  obtain ⟨es₀, rightmost₀, front, u, back, hf, hchild⟩ := h.family
  obtain ⟨rfl, rfl⟩ := Node.internal.inj (hf.node.symm.trans hp)
  have hseq := hf.seq_eq
  have hlinked := hw.linked.linked
  rw [hseq] at hlinked
  have hnodup := (nodup_of_linkedFrom (linkedFrom_append.mp (linkedFrom_append.mp hlinked).2).1).1
  rcases mergePair_cases hchild hnodup with hnone |
    ⟨a', b', es', rightmost', pre, ua, ub, post, hpair', hside, hmerged, hold, hnew⟩
  · rw [hpair] at hnone
    cases hnone
  · rw [hpair, Option.some.injEq, Prod.mk.injEq] at hpair'
    obtain ⟨rfl, rfl⟩ := hpair'
    refine ⟨p, es₀, rightmost₀, es', rightmost', front ++ pre, ua, ub, post ++ back, rfl, hp, hchild,
      hpair, hside, hmerged, ?_, ?_⟩
    · rw [hseq, hold]
      simp
    · intro nodes' hp' hframe
      have hshape := hf.reshape nodes' es' rightmost' hp' fun q es rightmost hq => hframe q es rightmost hq
      rw [hnew] at hshape
      simpa using hshape

/-- The two leaves of a merge become one. -/
lemma Wired.fuse (nodes' : PageId → Node) {m : List LeafEntry} {next : Option PageId}
    (hw : Wired root nodes (pre ++ (a, ua) :: (b, ub) :: post)) (ha : nodes a = .leaf la)
    (hb : nodes b = .leaf lb) (ha' : leavesOf nodes' a = some ⟨m, next⟩)
    (hb' : leavesOf nodes' b = some ⟨[], none⟩)
    (hframe : ∀ q, q ≠ a → q ≠ b → leavesOf nodes' q = leavesOf nodes q)
    (hm : ∀ e ∈ m, e ∈ la.entries ∨ e ∈ lb.entries) (hnext : next = lb.next ∨ next = none)
    (hshape : Shape root nodes' (pre ++ (a, ub) :: post)) :
    Fused LeafEntry.key (leavesOf nodes) (leavesOf nodes') pre a ua la b ub lb ⟨m, next⟩ ∧
      Wired root nodes' (pre ++ (a, ub) :: post) := by
  have hw' : Wired root nodes ((pre ++ [(a, ua)]) ++ (b, ub) :: post) := by simpa using hw
  have hla := hw.linkedAt ha
  have hlb := hw'.linkedAt hb
  have hfused : Fused LeafEntry.key (leavesOf nodes) (leavesOf nodes') pre a ua la b ub lb
      ⟨m, next⟩ := by
    refine ⟨hla, hlb, ha', hb', hframe, ?_, ?_, hnext⟩
    · intro e he
      rcases hm e he with he | he
      · exact (hla.le_bound e he).trans (hlb.bound_le (a, ua) (by simp))
      · exact hlb.le_bound e he
    · intro z hz e he
      rcases hm e he with he | he
      · exact hla.above.le z hz e he
      · exact hlb.above.le z (List.mem_append_left _ hz) e he
  exact ⟨hfused, hshape, hfused.linked hw.linked⟩

section Merge

variable [UnstableSort] {ly : Leaf PageId LeafEntry} {y : PageId} {es es' : List InternalEntry}
  {rightmost rightmost' : PageId}

/-- The leaves after the entry has been erased from `x` and the leaves `a` and `b` merged. -/
lemma leavesOf_merged (es₀ : List LeafEntry) (e : LeafEntry) (es' : List InternalEntry)
    (rightmost' : PageId) (hp : nodes p = .internal es rightmost)
    (hx : nodes x = .leaf l) (ha : nodes a = .leaf la) (hb : nodes b = .leaf lb)
    (la' lb' : Leaf PageId LeafEntry) :
    leavesOf (mergedNodes (erasedNodes nodes x es₀ e) p a b la' lb' es' rightmost') =
      Function.update (Function.update (Function.update (leavesOf nodes) x
        (some ⟨es₀.erase e, none⟩)) a (some ⟨sortLeafEntries (la'.entries ++ lb'.entries), lb'.next⟩))
        b (some ⟨[], none⟩) := by
  have hpx : p ≠ x := fun heq => by rw [heq, hx] at hp; cases hp
  have hpa : p ≠ a := fun heq => by rw [heq, ha] at hp; cases hp
  have hpb : p ≠ b := fun heq => by rw [heq, hb] at hp; cases hp
  rw [mergedNodes, leavesOf_update_internal, leavesOf_update, leavesOf_update, erasedNodes,
    leavesOf_update]
  · rfl
  · rw [Function.update_of_ne hpb, Function.update_of_ne hpa, erasedNodes, Function.update_of_ne hpx, hp]
    rfl

/-- Only leaves and the parent of the merged leaves change. -/
lemma mergedNodes_internal {es₀ : List LeafEntry} {e : LeafEntry} (hx : nodes x = .leaf l)
    (ha : nodes a = .leaf la) (hb : nodes b = .leaf lb) (la' lb' : Leaf PageId LeafEntry) :
    ∀ q es₁ rightmost₁, q ≠ p → nodes q = .internal es₁ rightmost₁ →
      mergedNodes (erasedNodes nodes x es₀ e) p a b la' lb' es' rightmost' q = nodes q := by
  intro q es₁ rightmost₁ hqp hq
  have hqx : q ≠ x := fun heq => by rw [heq, hx] at hq; cases hq
  have hqa : q ≠ a := fun heq => by rw [heq, ha] at hq; cases hq
  have hqb : q ≠ b := fun heq => by rw [heq, hb] at hq; cases hq
  rw [mergedNodes, Function.update_of_ne hqp, Function.update_of_ne hqb, Function.update_of_ne hqa,
    erasedNodes, Function.update_of_ne hqx]

lemma mem_sortLeafEntries {es : List LeafEntry} {e : LeafEntry} : e ∈ sortLeafEntries es ↔ e ∈ es :=
  (sortLeafEntries_perm es).mem_iff

/-- The leaf takes over the entries and the link of the leaf behind it. -/
lemma MergeSite.fuseRight {e : LeafEntry}
    (hs : MergeSite root nodes seq x x y p es rightmost es' rightmost' pre ua ub post)
    (hw : Wired root nodes seq) (hx : nodes x = .leaf l) (hy : nodes y = .leaf ly)
    {nodes' : PageId → Node}
    (hnodes : nodes' = mergedNodes (erasedNodes nodes x l.entries e) p x y
      ⟨l.entries.erase e, none⟩ ly es' rightmost') :
    Fused LeafEntry.key (leavesOf nodes) (leavesOf nodes') pre x ua l y ub ly
        ⟨sortLeafEntries (l.entries.erase e ++ ly.entries), ly.next⟩ ∧
      Wired root nodes' (pre ++ (x, ub) :: post) := by
  have hseq := hs.seq_eq
  subst hseq
  have hw' : Wired root nodes ((pre ++ [(x, ua)]) ++ (y, ub) :: post) := by simpa using hw
  have hxy : x ≠ y := (hw'.linkedAt hy).above.ne (x, ua) (by simp)
  have hleaves := leavesOf_merged l.entries e es' rightmost' hs.node hx hx hy
    ⟨l.entries.erase e, none⟩ ly
  rw [← hnodes] at hleaves
  have hshape : Shape root nodes' (pre ++ (x, ub) :: post) := by
    apply hs.reshape
    · rw [hnodes, mergedNodes, Function.update_self]
    · rw [hnodes]
      exact mergedNodes_internal hx hx hy _ _
  apply hw.fuse nodes' hx hy
  · rw [hleaves, Function.update_of_ne hxy, Function.update_self]
  · rw [hleaves, Function.update_self]
  · intro q hqx hqy
    rw [hleaves, Function.update_of_ne hqy, Function.update_of_ne hqx, Function.update_of_ne hqx]
  · intro c hc
    exact (List.mem_append.mp (mem_sortLeafEntries.mp hc)).imp_left List.mem_of_mem_erase
  · exact .inl rfl
  · exact hshape

/-- The leaf's entries go to the leaf before it, which is left without a link. -/
lemma MergeSite.fuseLeft {e : LeafEntry}
    (hs : MergeSite root nodes seq x y x p es rightmost es' rightmost' pre ua ub post)
    (hw : Wired root nodes seq) (hx : nodes x = .leaf l) (hy : nodes y = .leaf ly)
    {nodes' : PageId → Node}
    (hnodes : nodes' = mergedNodes (erasedNodes nodes x l.entries e) p y x ly
      ⟨l.entries.erase e, none⟩ es' rightmost') :
    Fused LeafEntry.key (leavesOf nodes) (leavesOf nodes') pre y ua ly x ub l
        ⟨sortLeafEntries (ly.entries ++ l.entries.erase e), none⟩ ∧
      Wired root nodes' (pre ++ (y, ub) :: post) := by
  have hseq := hs.seq_eq
  subst hseq
  have hw' : Wired root nodes ((pre ++ [(y, ua)]) ++ (x, ub) :: post) := by simpa using hw
  have hyx : y ≠ x := (hw'.linkedAt hx).above.ne (y, ua) (by simp)
  have hleaves := leavesOf_merged l.entries e es' rightmost' hs.node hx hy hx ly
    ⟨l.entries.erase e, none⟩
  rw [← hnodes] at hleaves
  have hshape : Shape root nodes' (pre ++ (y, ub) :: post) := by
    apply hs.reshape
    · rw [hnodes, mergedNodes, Function.update_self]
    · rw [hnodes]
      exact mergedNodes_internal hx hy hx _ _
  apply hw.fuse nodes' hy hx
  · rw [hleaves, Function.update_of_ne hyx, Function.update_self]
  · rw [hleaves, Function.update_self]
  · intro q hqy hqx
    rw [hleaves, Function.update_of_ne hqx, Function.update_of_ne hqy, Function.update_of_ne hqx]
  · intro c hc
    exact (List.mem_append.mp (mem_sortLeafEntries.mp hc)).imp_right List.mem_of_mem_erase
  · exact .inr rfl
  · exact hshape

/-- What the searches find after a merge with the leaf behind. -/
lemma Wired.mergeRight (hw : Wired root nodes seq)
    (hs : MergeSite root nodes seq x x y p es rightmost es' rightmost' pre ua ub post)
    (hroute : route seq k = some x) (hx : nodes x = .leaf l) (hy : nodes y = .leaf ly)
    (hm : ⟨k, r⟩ ∈ l.entries) {nodes' : PageId → Node}
    (hnodes : nodes' = mergedNodes (erasedNodes nodes x l.entries ⟨k, r⟩) p x y
      ⟨l.entries.erase ⟨k, r⟩, none⟩ ly es' rightmost') :
    Wired root nodes' (pre ++ (x, ub) :: post) ∧
      ∀ j ps, Search LeafEntry.key (leavesOf nodes) seq j ps → ∃ ps',
        Search LeafEntry.key (leavesOf nodes') (pre ++ (x, ub) :: post) j ps' ∧
        ((x ∉ ps ∧ k ≠ j ∧ (foundRows nodes' j ps').Perm (foundRows nodes j ps)) ∨
          (x ∈ ps ∧ ∃ ws vs, Walk LeafEntry.key (leavesOf nodes) j l.next ws ∧
            Walk LeafEntry.key (leavesOf nodes) j (some y) vs ∧
            (foundRows nodes j ps ++ foundRows nodes j vs).Perm
              ((if k = j then [r] else []) ++ foundRows nodes' j ps' ++ foundRows nodes j ws))) := by
  obtain ⟨hfused, hwired⟩ := hs.fuseRight hw hx hy hnodes
  have hseq := hs.seq_eq
  subst hseq
  obtain ⟨pre', u', post', heq, hlt, hle⟩ := route_eq_some.mp hroute
  obtain ⟨rfl, rfl, -⟩ := at_unique hw.linked heq
  refine ⟨hwired, fun j ps hps => ?_⟩
  obtain ⟨ps', hps', hfound⟩ := hfused.search_removeLeft (erase_perm hm) (sortLeafEntries_perm _) rfl
    hlt hle hw.linked hps
  refine ⟨ps', hps', ?_⟩
  rcases hfound with ⟨hxps, hne, hfound⟩ | ⟨hxps, ws, vs, hws, hvs, hfound⟩
  · exact .inl ⟨hxps, hne, hfound.map _⟩
  · refine .inr ⟨hxps, ws, vs, hws, hvs, ?_⟩
    have hmap := hfound.map LeafEntry.rowId
    simp only [List.map_append] at hmap
    rwa [ite_map_rowId] at hmap

/-- What the searches find after a merge with the leaf before. -/
lemma Wired.mergeLeft (hw : Wired root nodes seq)
    (hs : MergeSite root nodes seq x y x p es rightmost es' rightmost' pre ua ub post)
    (hroute : route seq k = some x) (hx : nodes x = .leaf l) (hy : nodes y = .leaf ly)
    (hm : ⟨k, r⟩ ∈ l.entries) {nodes' : PageId → Node}
    (hnodes : nodes' = mergedNodes (erasedNodes nodes x l.entries ⟨k, r⟩) p y x ly
      ⟨l.entries.erase ⟨k, r⟩, none⟩ es' rightmost') :
    Wired root nodes' (pre ++ (y, ub) :: post) ∧
      ∀ j ps, Search LeafEntry.key (leavesOf nodes) seq j ps → ∃ ps',
        Search LeafEntry.key (leavesOf nodes') (pre ++ (y, ub) :: post) j ps' ∧
        ((y ∈ ps ∧ k ≠ j ∧ ∃ ws, Walk LeafEntry.key (leavesOf nodes) j ly.next ws ∧
            (foundRows nodes j ps ++ rowsAt l.entries j).Perm
              (foundRows nodes' j ps' ++ foundRows nodes j ws)) ∨
          (y ∉ ps ∧ ps.head? = some x ∧ ∃ ws, Walk LeafEntry.key (leavesOf nodes) j l.next ws ∧
            (foundRows nodes j ps).Perm
              ((if k = j then [r] else []) ++ foundRows nodes' j ps' ++ foundRows nodes j ws)) ∨
          (y ∉ ps ∧ x ∈ ps ∧ ps.head? ≠ some x ∧ k ≠ j ∧
            (foundRows nodes j ps).Perm (foundRows nodes' j ps' ++ rowsAt l.entries j)) ∨
          (y ∉ ps ∧ x ∉ ps ∧ k ≠ j ∧ foundRows nodes' j ps' = foundRows nodes j ps)) := by
  obtain ⟨hfused, hwired⟩ := hs.fuseLeft hw hx hy hnodes
  have hseq := hs.seq_eq
  subst hseq
  have hw' : Wired root nodes ((pre ++ [(y, ua)]) ++ (x, ub) :: post) := by simpa using hw
  obtain ⟨pre', u', post', heq, hlt, hle⟩ := route_eq_some.mp hroute
  rw [show pre ++ (y, ua) :: (x, ub) :: post = (pre ++ [(y, ua)]) ++ (x, ub) :: post by simp] at heq
  obtain ⟨rfl, rfl, -⟩ := at_unique hw'.linked heq
  refine ⟨hwired, fun j ps hps => ?_⟩
  obtain ⟨ps', hps', hfound⟩ := hfused.search_removeRight (erase_perm hm) (sortLeafEntries_perm _) rfl
    (hlt (y, ua) (by simp)) hle hw.linked hps
  refine ⟨ps', hps', ?_⟩
  rcases hfound with ⟨hyps, hne, ws, hws, hfound⟩ | ⟨hyps, hhead, ws, hws, hfound⟩ |
    ⟨hyps, hxps, hhead, hne, ws, -, -, hfound⟩ | ⟨hyps, hxps, hne, hfound⟩
  · refine .inl ⟨hyps, hne, ws, hws, ?_⟩
    have hmap := hfound.map LeafEntry.rowId
    simp only [List.map_append] at hmap
    exact hmap
  · refine .inr (.inl ⟨hyps, hhead, ws, hws, ?_⟩)
    have hmap := hfound.map LeafEntry.rowId
    simp only [List.map_append] at hmap
    rwa [ite_map_rowId] at hmap
  · refine .inr (.inr (.inl ⟨hyps, hxps, hhead, hne, ?_⟩))
    have hmap := hfound.map LeafEntry.rowId
    simp only [List.map_append] at hmap
    exact hmap
  · exact .inr (.inr (.inr ⟨hyps, hxps, hne, congrArg _ hfound⟩))

end Merge

end Effects

namespace BTree

section Spec

variable {σ : Type} [PageStore σ] [UnstableSort] {tree : BTree} {nodes : PageId → Node} {n d : Nat}
  {s : σ} {seq pre post : List (PageId × WithTop BTreeKey)} {k : BTreeKey} {r : RowId}
  {parent : Option PageId} {x y p : PageId} {l ly : Leaf PageId LeafEntry}
  {es es' : List InternalEntry} {rightmost rightmost' : PageId} {ua ub : WithTop BTreeKey}

/-- The leaf is not merged: it is still full enough, or it has no neighbour. -/
lemma Shows.delete_plain (h : tree.Shows nodes n s) (hk : k.keyType = tree.keyType)
    (hd : Descent nodes k d none tree.rootPageId parent x) (hn : d ≤ n)
    (hplace : Place tree.rootPageId nodes seq k parent x) (hx : nodes x = .leaf l)
    (hm : ⟨k, r⟩ ∈ l.entries)
    (hplain : Underfull (l.entries.erase ⟨k, r⟩) → ¬ ∃ a b, MergesAs nodes parent x a b) :
    ∃ s', (tree.delete k r).run s = .ok true s' ∧
      tree.Shows (erasedNodes nodes x l.entries ⟨k, r⟩) n s' := by
  obtain ⟨s₁, h₁, hrun⟩ := h.delete_run hk hd hn hx hm
  rw [hrun]
  cases parent with
  | none => exact ⟨s₁, rfl, h₁⟩
  | some p =>
    by_cases hu : leafSize (l.entries.erase ⟨k, r⟩) ≤ pageSize / 2
    · obtain ⟨es, rightmost, front, u, back, hf, hchild⟩ := hplace.family
      have hpx : p ≠ x := by
        rintro rfl
        rw [hf.node] at hx
        cases hx
      have hpair : mergePair es rightmost x = none := by
        rcases hpair : mergePair es rightmost x with _ | ⟨a, b⟩
        · rfl
        · exact absurd ⟨a, b, p, es, rightmost, rfl, hf.node, hpair⟩ (hplain hu)
      obtain ⟨s', hmerge, h'⟩ := h₁.mergeUnderfullLeaf_none (p := p)
        (by rw [erasedNodes, Function.update_of_ne hpx, hf.node]) hchild hpair
      refine ⟨s', ?_, h'⟩
      simp only
      rw [if_pos hu, hmerge, Outcome.andThen_ok]
    · refine ⟨s₁, ?_, h₁⟩
      simp only
      rw [if_neg hu]
      rfl

/-- The run of a deletion that ends in a merge. -/
lemma Shows.delete_merge {a b : PageId} {la' lb' : Leaf PageId LeafEntry} (h : tree.Shows nodes n s)
    (hk : k.keyType = tree.keyType) (hd : Descent nodes k d none tree.rootPageId (some p) x)
    (hn : d ≤ n) (hx : nodes x = .leaf l) (hm : ⟨k, r⟩ ∈ l.entries)
    (hu : Underfull (l.entries.erase ⟨k, r⟩))
    (hs : MergeSite tree.rootPageId nodes seq x a b p es rightmost es' rightmost' pre ua ub post)
    (ha : erasedNodes nodes x l.entries ⟨k, r⟩ a = .leaf la')
    (hb : erasedNodes nodes x l.entries ⟨k, r⟩ b = .leaf lb') :
    (leafSize (la'.entries ++ lb'.entries) ≤ pageSize → ∃ s', (tree.delete k r).run s = .ok true s' ∧
      tree.Shows (mergedNodes (erasedNodes nodes x l.entries ⟨k, r⟩) p a b la' lb' es' rightmost')
        n s') ∧
    (pageSize < leafSize (la'.entries ++ lb'.entries) → ∃ e s', (tree.delete k r).run s = .err e s' ∧
      tree.Shows (erasedNodes nodes x l.entries ⟨k, r⟩) n s') := by
  obtain ⟨s₁, h₁, hrun⟩ := h.delete_run hk hd hn hx hm
  have hpx : p ≠ x := by
    rintro rfl
    have hnode := hs.node
    rw [hx] at hnode
    cases hnode
  have hp : erasedNodes nodes x l.entries ⟨k, r⟩ p = .internal es rightmost := by
    rw [erasedNodes, Function.update_of_ne hpx, hs.node]
  have hu' : leafSize (l.entries.erase ⟨k, r⟩) ≤ pageSize / 2 := hu
  rw [hrun]
  simp only [if_pos hu']
  constructor
  · intro hfits
    obtain ⟨s', hmerge, h'⟩ := h₁.mergeUnderfullLeaf_ok hp hs.child hs.pair hs.merged ha hb hfits
    exact ⟨s', by rw [hmerge, Outcome.andThen_ok], h'⟩
  · intro hfull
    obtain ⟨s', hmerge, h'⟩ := h₁.mergeUnderfullLeaf_full hp hs.child hs.pair ha hb hfull
    exact ⟨_, s', by rw [hmerge, Outcome.andThen_err], h'⟩

/-! ### All courses of a deletion -/

/-- The leaf is merged with a neighbour once the entry is gone. -/
def Merges (nodes : PageId → Node) (parent : Option PageId) (x : PageId) (es : List LeafEntry)
    (e : LeafEntry) : Prop :=
  Underfull (es.erase e) ∧ ∃ a b, MergesAs nodes parent x a b

/-- The leaf becomes underfull, and it does not fit one page with its neighbour. -/
def Overflows (nodes : PageId → Node) (parent : Option PageId) (x : PageId) (es : List LeafEntry)
    (e : LeafEntry) : Prop :=
  e ∈ es ∧ Underfull (es.erase e) ∧ ∃ y ly, (MergesAs nodes parent x x y ∨ MergesAs nodes parent x y x) ∧
    nodes y = .leaf ly ∧ pageSize < leafSize (es.erase e ++ ly.entries)

/-- How the deletion of `e` from the leaf `x` ends. -/
inductive Deleted (tree : BTree) (nodes : PageId → Node) (n : Nat)
    (seq : List (PageId × WithTop BTreeKey)) (parent : Option PageId) (x : PageId)
    (l : Leaf PageId LeafEntry) (e : LeafEntry) : Outcome BTreeError σ Bool → Prop where
  | absent {s' : σ} : e ∉ l.entries → tree.Shows nodes n s' →
      Deleted tree nodes n seq parent x l e (.ok false s')
  | plain {s' : σ} : e ∈ l.entries → ¬ Merges nodes parent x l.entries e →
      tree.Shows (erasedNodes nodes x l.entries e) n s' →
      Deleted tree nodes n seq parent x l e (.ok true s')
  | overflow {s' : σ} {err : BTreeError} : Overflows nodes parent x l.entries e →
      tree.Shows (erasedNodes nodes x l.entries e) n s' →
      Deleted tree nodes n seq parent x l e (.err err s')
  | mergeRight {s' : σ} {y p : PageId} {ly : Leaf PageId LeafEntry} {es es' : List InternalEntry}
      {rightmost rightmost' : PageId} {pre post : List (PageId × WithTop BTreeKey)}
      {ua ub : WithTop BTreeKey} : e ∈ l.entries → Underfull (l.entries.erase e) →
      MergesAs nodes parent x x y → nodes y = .leaf ly →
      leafSize (l.entries.erase e ++ ly.entries) ≤ pageSize →
      MergeSite tree.rootPageId nodes seq x x y p es rightmost es' rightmost' pre ua ub post →
      tree.Shows (mergedNodes (erasedNodes nodes x l.entries e) p x y ⟨l.entries.erase e, none⟩ ly es'
        rightmost') n s' →
      Deleted tree nodes n seq parent x l e (.ok true s')
  | mergeLeft {s' : σ} {y p : PageId} {ly : Leaf PageId LeafEntry} {es es' : List InternalEntry}
      {rightmost rightmost' : PageId} {pre post : List (PageId × WithTop BTreeKey)}
      {ua ub : WithTop BTreeKey} : e ∈ l.entries → Underfull (l.entries.erase e) →
      MergesAs nodes parent x y x → nodes y = .leaf ly →
      leafSize (l.entries.erase e ++ ly.entries) ≤ pageSize →
      MergeSite tree.rootPageId nodes seq x y x p es rightmost es' rightmost' pre ua ub post →
      tree.Shows (mergedNodes (erasedNodes nodes x l.entries e) p y x ly ⟨l.entries.erase e, none⟩ es'
        rightmost') n s' →
      Deleted tree nodes n seq parent x l e (.ok true s')

/-- A deletion takes one of these courses. -/
theorem Shows.delete_spec (h : tree.Shows nodes n s) (hw : Wired tree.rootPageId nodes seq)
    (hk : k.keyType = tree.keyType) (hd : Descent nodes k d none tree.rootPageId parent x)
    (hx : nodes x = .leaf l) : Deleted tree nodes n seq parent x l ⟨k, r⟩ ((tree.delete k r).run s) := by
  obtain ⟨d', parent', x', hd', hplace, hn⟩ := h.exists_place hw k
  obtain ⟨-, rfl, rfl⟩ := hd.unique hd'
  by_cases hm : ⟨k, r⟩ ∈ l.entries
  swap
  · obtain ⟨s', hrun, h'⟩ := h.delete_absent hk hd' hn hx hm
    rw [hrun]
    exact .absent hm h'
  by_cases hmerge : Merges nodes parent x l.entries ⟨k, r⟩
  swap
  · obtain ⟨s', hrun, h'⟩ := h.delete_plain hk hd' hn hplace hx hm
      fun hu hpair => hmerge ⟨hu, hpair⟩
    rw [hrun]
    exact .plain hm hmerge h'
  obtain ⟨hu, a, b, hpair⟩ := hmerge
  obtain ⟨p, es, rightmost, es', rightmost', pre, ua, ub, post, rfl, hs⟩ := hplace.mergeSite hw hpair
  obtain ⟨hne, la, lb, ha, hb⟩ := hs.leaves hw
  have herased : erasedNodes nodes x l.entries ⟨k, r⟩ x = .leaf ⟨l.entries.erase ⟨k, r⟩, none⟩ :=
    Function.update_self ..
  rcases hs.side with rfl | rfl
  · have hb' : erasedNodes nodes x l.entries ⟨k, r⟩ b = .leaf lb := by
      rw [erasedNodes, Function.update_of_ne hne.symm, hb]
    obtain ⟨hfits, hfull⟩ := h.delete_merge hk hd' hn hx hm hu hs herased hb'
    by_cases hsize : leafSize (l.entries.erase ⟨k, r⟩ ++ lb.entries) ≤ pageSize
    · obtain ⟨s', hrun, h'⟩ := hfits hsize
      rw [hrun]
      exact .mergeRight hm hu hpair hb hsize hs h'
    · obtain ⟨err, s', hrun, h'⟩ := hfull (Nat.lt_of_not_le hsize)
      rw [hrun]
      exact .overflow ⟨hm, hu, b, lb, .inl hpair, hb, Nat.lt_of_not_le hsize⟩ h'
  · have ha' : erasedNodes nodes x l.entries ⟨k, r⟩ a = .leaf la := by
      rw [erasedNodes, Function.update_of_ne hne, ha]
    obtain ⟨hfits, hfull⟩ := h.delete_merge hk hd' hn hx hm hu hs ha' herased
    simp only [leafSize_append_comm la.entries] at hfits hfull
    by_cases hsize : leafSize (l.entries.erase ⟨k, r⟩ ++ la.entries) ≤ pageSize
    · obtain ⟨s', hrun, h'⟩ := hfits hsize
      rw [hrun]
      exact .mergeLeft hm hu hpair ha hsize hs h'
    · obtain ⟨err, s', hrun, h'⟩ := hfull (Nat.lt_of_not_le hsize)
      rw [hrun]
      exact .overflow ⟨hm, hu, a, la, .inr hpair, ha, Nat.lt_of_not_le hsize⟩ h'

/-- A deletion that succeeds takes its entry out of the live leaves, or finds it absent. -/
lemma Deleted.shrunk {e : LeafEntry} {found : Bool} {s' : σ}
    (h : Deleted tree nodes n seq parent x l e (.ok found s')) (hw : Wired tree.rootPageId nodes seq)
    (hroute : route seq e.key = some x) (hx : nodes x = .leaf l) :
    (found = false ∧ e ∉ l.entries ∧ tree.Shows nodes n s') ∨
      (found = true ∧ e ∈ l.entries ∧ ∃ nodes' seq', tree.Shows nodes' n s' ∧
        Wired tree.rootPageId nodes' seq' ∧
        Shrunk LeafEntry.key (leavesOf nodes) (leavesOf nodes') e seq seq') := by
  cases h with
  | absent hm hs' => exact .inl ⟨rfl, hm, hs'⟩
  | plain hm _ hs' =>
    have hw' := (hw.erase hx hm hroute).1
    have ⟨pre, u, post, hseq, _⟩ := route_eq_some.mp hroute
    subst hseq
    exact .inr ⟨rfl, hm, _, _, hs', hw', .erase (hw.erase_rewritten hx e) (erase_perm hm)⟩
  | @mergeRight _ y p ly es es' rightmost rightmost' pre post ua ub hm _ _ hy _ hsite hs' =>
    have ⟨hfused, hw'⟩ := hsite.fuseRight (e := e) hw hx hy rfl
    have hseq := hsite.seq_eq
    subst hseq
    refine .inr ⟨rfl, hm, _, _, hs', hw', .fuse hfused ?_⟩
    calc (l.entries ++ ly.entries).Perm (e :: l.entries.erase e ++ ly.entries) :=
          (erase_perm hm).append_right _
      _ = e :: (l.entries.erase e ++ ly.entries) := rfl
      List.Perm _ (e :: sortLeafEntries (l.entries.erase e ++ ly.entries)) :=
          (sortLeafEntries_perm _).symm.cons e
  | @mergeLeft _ y p ly es es' rightmost rightmost' pre post ua ub hm _ _ hy _ hsite hs' =>
    have ⟨hfused, hw'⟩ := hsite.fuseLeft (e := e) hw hx hy rfl
    have hseq := hsite.seq_eq
    subst hseq
    refine .inr ⟨rfl, hm, _, _, hs', hw', .fuse hfused ?_⟩
    calc (ly.entries ++ l.entries).Perm (ly.entries ++ e :: l.entries.erase e) :=
          (erase_perm hm).append_left _
      List.Perm _ (e :: (ly.entries ++ l.entries.erase e)) := List.perm_middle
      List.Perm _ (e :: sortLeafEntries (ly.entries ++ l.entries.erase e)) :=
          (sortLeafEntries_perm _).symm.cons e

/-- A deletion fails exactly when the merge it leads to does not fit a page. -/
lemma Deleted.err_iff {e : LeafEntry} {o : Outcome BTreeError σ Bool}
    (h : Deleted tree nodes n seq parent x l e o) (hw : Wired tree.rootPageId nodes seq) :
    (∃ err s', o = .err err s') ↔ Overflows nodes parent x l.entries e := by
  cases h with
  | absent hm _ =>
    apply iff_of_false
    · rintro ⟨err, s', herr⟩
      cases herr
    · rintro ⟨hm', -⟩
      exact hm hm'
  | plain _ hplain _ =>
    apply iff_of_false
    · rintro ⟨err, s', herr⟩
      cases herr
    · rintro ⟨-, hu, y, ly, hpair, -⟩
      exact hplain ⟨hu, hpair.elim (fun hpair => ⟨x, y, hpair⟩) fun hpair => ⟨y, x, hpair⟩⟩
  | overflow hover _ => exact iff_of_true ⟨_, _, rfl⟩ hover
  | @mergeRight _ y _ ly _ _ _ _ _ _ _ _ _ _ hpair hy hfits hsite _ =>
    apply iff_of_false
    · rintro ⟨err, s', herr⟩
      cases herr
    · rintro ⟨-, -, y', ly', hpair' | hpair', hy', hfull⟩
      · obtain ⟨-, rfl⟩ := hpair.unique hpair'
        obtain rfl := Node.leaf.inj (hy.symm.trans hy')
        exact absurd hfits (Nat.not_le_of_lt hfull)
      · exact (hsite.leaves hw).1 (hpair.unique hpair').2.symm
  | @mergeLeft _ y _ ly _ _ _ _ _ _ _ _ _ _ hpair hy hfits hsite _ =>
    apply iff_of_false
    · rintro ⟨err, s', herr⟩
      cases herr
    · rintro ⟨-, -, y', ly', hpair' | hpair', hy', hfull⟩
      · exact (hsite.leaves hw).1 (hpair.unique hpair').1
      · obtain ⟨rfl, -⟩ := hpair.unique hpair'
        obtain rfl := Node.leaf.inj (hy.symm.trans hy')
        exact absurd hfits (Nat.not_le_of_lt hfull)

/-- A deletion that fails has already erased the entry. -/
lemma Deleted.shows_of_err {e : LeafEntry} {err : BTreeError} {s' : σ}
    (h : Deleted tree nodes n seq parent x l e (.err err s')) :
    e ∈ l.entries ∧ tree.Shows (erasedNodes nodes x l.entries e) n s' := by
  cases h with
  | overflow hover hs' => exact ⟨hover.1, hs'⟩

end Spec

end BTree

end RdbRs
