import RdbRs.Index.TreeInsert

/-!
# Insertion and the searches

An insertion either succeeds, keeps the invariant and adds one row to the searches for its key, or
fails and leaves the nodes alone.
-/

namespace RdbRs

open LeafChain

section Effects

variable {nodes nodes' : PageId → Node} {seq seq' pre post : List (PageId × WithTop BTreeKey)}
  {root x a b : PageId} {u : WithTop BTreeKey} {l : Leaf PageId LeafEntry} {e last : LeafEntry}
  {ies ies' rest les res : List InternalEntry} {rightmost rightmost' leftmost p : PageId}
  {promoted : InternalEntry} {sep : BTreeKey} {next : Option PageId} {es : List LeafEntry}

lemma ite_map_rowId {k j : BTreeKey} {r : RowId} :
    (if k = j then [(⟨k, r⟩ : LeafEntry)] else []).map LeafEntry.rowId = if k = j then [r] else [] := by
  split <;> rfl

/-- A search for the key of the new entry also finds its row, and any other finds what it found. -/
lemma foundRows_grown (h : Grown LeafEntry.key (leavesOf nodes) (leavesOf nodes') e seq seq')
    (hs : Linked LeafEntry.key (leavesOf nodes) seq) {j : BTreeKey} {ps : List PageId}
    (hps : Search LeafEntry.key (leavesOf nodes) seq j ps) :
    ∃ ps', Search LeafEntry.key (leavesOf nodes') seq' j ps' ∧ (BTree.foundRows nodes' j ps').Perm
      (BTree.foundRows nodes j ps ++ if e.key = j then [e.rowId] else []) := by
  obtain ⟨ps', hps', hfound⟩ := h.search hs hps
  refine ⟨ps', hps', ?_⟩
  have hmap := hfound.map LeafEntry.rowId
  obtain ⟨k, r⟩ := e
  simp only [List.map_append] at hmap
  rwa [ite_map_rowId] at hmap

/-- An entry is appended to its leaf. -/
lemma Wired.append (hw : Wired root nodes seq) (hx : nodes x = .leaf l)
    (hroute : route seq e.key = some x) :
    Wired root (Function.update nodes x (.leaf ⟨l.entries ++ [e], l.next⟩)) seq ∧
      Grown LeafEntry.key (leavesOf nodes)
        (leavesOf (Function.update nodes x (.leaf ⟨l.entries ++ [e], l.next⟩))) e seq seq := by
  obtain ⟨hshape, hlinked⟩ := hw
  obtain ⟨pre, u, post, rfl, hlt, hle⟩ := route_eq_some.mp hroute
  obtain ⟨l₀, hl₀⟩ := hlinked.at
  obtain rfl : l₀ = l := by
    have := leavesOf_eq_some.mp hl₀.leaf_eq
    rw [hx] at this
    exact (Node.leaf.inj this).symm
  have hrewritten : Rewritten LeafEntry.key (leavesOf nodes) (leavesOf (Function.update nodes x
      (.leaf ⟨l₀.entries ++ [e], l₀.next⟩))) pre x u l₀ ⟨l₀.entries ++ [e], l₀.next⟩ := by
    rw [leavesOf_update]
    refine ⟨hl₀, Function.update_self .., fun p hp => Function.update_of_ne hp .., ?_, ?_, .inl rfl⟩
    · intro c hc
      rcases List.mem_append.mp hc with hc | hc
      · exact hl₀.le_bound c hc
      · rwa [List.mem_singleton.mp hc]
    · intro z hz c hc
      rcases List.mem_append.mp hc with hc | hc
      · exact hl₀.above.le z hz c hc
      · rw [List.mem_singleton.mp hc]
        exact (hlt z hz).le
  have hgrown : Grown LeafEntry.key (leavesOf nodes) (leavesOf (Function.update nodes x
      (.leaf ⟨l₀.entries ++ [e], l₀.next⟩))) e (pre ++ (x, u) :: post) (pre ++ (x, u) :: post) :=
    .append hrewritten hlt
  exact ⟨⟨hshape.update_leaf hx, hgrown.linked hlinked⟩, hgrown⟩

/-- Writing an internal page where no leaf is does not change the leaves. -/
lemma leavesOf_update_internal (nodes : PageId → Node) (p : PageId) (ies : List InternalEntry)
    (rightmost : PageId) (h : (nodes p).leaf? = none) :
    leavesOf (Function.update nodes p (.internal ies rightmost)) = leavesOf nodes := by
  rw [leavesOf_update]
  apply Function.update_eq_self_iff.mpr
  exact h.symm

/-- When the root splits, its children are those of the two halves, with the leaf replaced. -/
lemma RootHalves.children_eq
    (h : RootHalves x a b sep promoted (ies.take (ies.length / 2)) rest rightmost
      les leftmost res rightmost') (hdrop : ies.drop (ies.length / 2) = promoted :: rest) :
    ∃ pre v post, childrenOf ies rightmost ⊤ = pre ++ (x, v) :: post ∧
      childrenOf les leftmost promoted.separatorKey ++ childrenOf res rightmost' ⊤ =
        pre ++ (a, (sep : WithTop BTreeKey)) :: (b, v) :: post := by
  have hchildren : childrenOf ies rightmost ⊤ =
      childrenOf (ies.take (ies.length / 2)) promoted.leftChild promoted.separatorKey ++
        childrenOf rest rightmost ⊤ := by
    rw [← childrenOf_append, ← hdrop, List.take_append_drop]
  rw [hchildren]
  cases h with
  | left _ hr _ =>
    obtain ⟨pre, v, post, heq, heq'⟩ := hr.children_eq (promoted.separatorKey : WithTop BTreeKey)
    exact ⟨pre, v, post ++ childrenOf rest rightmost ⊤, by rw [heq]; simp, by rw [heq']; simp⟩
  | right _ hr _ =>
    obtain ⟨pre, v, post, heq, heq'⟩ := hr.children_eq ⊤
    refine ⟨childrenOf (ies.take (ies.length / 2)) promoted.leftChild promoted.separatorKey ++ pre, v,
      post, by rw [heq]; simp, by rw [heq']; simp⟩

lemma RootSplits.halves (h : RootSplits x sep ies rightmost) (a b : PageId) :
    ∃ promoted rest les leftmost res rightmost', ies.drop (ies.length / 2) = promoted :: rest ∧
      RootHalves x a b sep promoted (ies.take (ies.length / 2)) rest rightmost
        les leftmost res rightmost' := by
  obtain ⟨promoted, rest, hdrop, h⟩ := h
  split at h
  · rename_i hle
    obtain ⟨es', rightmost', hr⟩ := h.1.replaced a b sep
    exact ⟨promoted, rest, _, _, _, _, hdrop, .left hle hr h.2⟩
  · rename_i hle
    obtain ⟨es', rightmost', hr⟩ := h.1.replaced a b sep
    exact ⟨promoted, rest, _, _, _, _, hdrop, .right (lt_of_not_ge hle) hr h.2⟩

/-- The root over two new pages: the leaves are as before, their sequence is that of both pages. -/
lemma shape_splitRoot (root : PageId) (nodes : PageId → Node) (les res : List InternalEntry)
    (leftmost rightmost' : PageId) (sep : BTreeKey) {li ri : PageId} (hne : li ≠ ri) (hrl : root ≠ li) (hrr : root ≠ ri)
    (hroot : (nodes root).leaf? = none) (hl : (nodes li).leaf? = none)
    (hr : (nodes ri).leaf? = none) :
    leavesOf (Function.update (Function.update (Function.update nodes li (.internal les leftmost)) ri
        (.internal res rightmost')) root (.internal [⟨li, sep⟩] ri)) = leavesOf nodes ∧
      Shape root (Function.update (Function.update (Function.update nodes li (.internal les leftmost))
        ri (.internal res rightmost')) root (.internal [⟨li, sep⟩] ri))
        (childrenOf les leftmost sep ++ childrenOf res rightmost' ⊤) := by
  constructor
  · rw [leavesOf_update_internal, leavesOf_update_internal, leavesOf_update_internal _ _ _ _ hl]
    · rwa [Function.update_of_ne hne.symm]
    · rwa [Function.update_of_ne hrr, Function.update_of_ne hrl]
  · refine .grandparent (Function.update_self ..) ?_ ?_ hne hrl hrr
    · rw [Function.update_of_ne hrl.symm, Function.update_of_ne hne, Function.update_self]
    · rw [Function.update_of_ne hrr.symm, Function.update_self]

variable [UnstableSort]

/-- The leaves of a tree after a leaf has been split. -/
structure SplitLeaves (a b : PageId) (nodes nodes' : PageId → Node) (x : PageId)
    (es : List LeafEntry) (next : Option PageId) : Prop where
  left : leavesOf nodes' a = some ⟨leftHalf es, some b⟩
  right : leavesOf nodes' b = some ⟨rightHalf es, next⟩
  frame : ∀ p, p ≠ a → p ≠ b → p ≠ x → leavesOf nodes' p = leavesOf nodes p

/-- A leaf is split, and the two new ones take its place in the sequence. -/
lemma Wired.split {t : BTreeKeyType} (hw : Wired root nodes (pre ++ (x, u) :: post))
    (hx : nodes x = .leaf l) (htypes : ∀ c ∈ l.entries ++ [e], c.key.keyType = t)
    (hle : (e.key : WithTop BTreeKey) ≤ u) (hlt : ∀ z ∈ pre, z.2 < e.key) (hne : a ≠ b)
    (ha : nodes a = .other) (hb : nodes b = .other)
    (hlast : (leftHalf (l.entries ++ [e])).getLast? = some last)
    (hleaves : SplitLeaves a b nodes nodes' x (l.entries ++ [e]) l.next)
    (hkeep : pre = [] ∨ leavesOf nodes' x = leavesOf nodes x)
    (hshape : Shape root nodes' (pre ++ (a, (last.key : WithTop BTreeKey)) :: (b, u) :: post)) :
    Wired root nodes' (pre ++ (a, (last.key : WithTop BTreeKey)) :: (b, u) :: post) ∧
      Grown LeafEntry.key (leavesOf nodes) (leavesOf nodes') e (pre ++ (x, u) :: post)
        (pre ++ (a, (last.key : WithTop BTreeKey)) :: (b, u) :: post) := by
  have hsplit := split_of_halves hw.linked hx htypes hle hlt hne ha hb hlast hleaves.left hleaves.right
    hleaves.frame hkeep
  exact ⟨⟨hshape, hsplit.linked hw.linked⟩, .split hsplit⟩

lemma splitNodes_leaves (nodes : PageId → Node) (x : PageId) (es : List LeafEntry)
    (next : Option PageId) (hne : a ≠ b) : SplitLeaves a b nodes (splitNodes a b nodes es next) x es next := by
  constructor
  · simp [splitNodes, Function.update_of_ne hne, Node.leaf?]
  · simp [splitNodes, Node.leaf?]
  · intro p hpa hpb _
    simp [splitNodes, Function.update_of_ne hpa, Function.update_of_ne hpb]

lemma splitNodes_of_ne (ha : p ≠ a) (hb : p ≠ b) : splitNodes a b nodes es next p = nodes p := by
  rw [splitNodes, Function.update_of_ne hb, Function.update_of_ne ha]

end Effects

namespace BTree

section Spec

variable {σ : Type} [PageStore σ] [UnstableSort] {tree : BTree} {nodes : PageId → Node} {n d : Nat}
  {s : σ} {seq : List (PageId × WithTop BTreeKey)} {k : BTreeKey} {r : RowId}
  {parent : Option PageId} {x : PageId} {l : Leaf PageId LeafEntry}

/-- What an insertion leaves: a tree that has gained the row. -/
def InsertDone (tree : BTree) (k : BTreeKey) (r : RowId) (nodes : PageId → Node)
    (seq : List (PageId × WithTop BTreeKey)) (s' : σ) : Prop :=
  ∃ nodes' n' seq', tree.Shows nodes' n' s' ∧ Wired tree.rootPageId nodes' seq' ∧
    Grown LeafEntry.key (leavesOf nodes) (leavesOf nodes') ⟨k, r⟩ seq seq'

/-- `insert` behind the descent and the guard of the leaf. -/
lemma run_insert {s₁ s₂ : σ} {page : Page} (haccept : tree.acceptsKey k = true)
    (hfind : (tree.findLeafPageId k).run s = .ok x s₁)
    (hrun : (tree.onPage x (appendLeafEntry ⟨k, r⟩)).run s₁ = .ok ((appendLeafEntry ⟨k, r⟩).run page) s₂) :
    (tree.insert k r).run s = (match (appendLeafEntry ⟨k, r⟩).run page with
      | .ok _ _ => tree.flushPage x
      | .err .pageFull page => if x = tree.rootPageId then tree.rootLeafSplit page ⟨k, r⟩
          else tree.childLeafSplit page x ⟨k, r⟩
      | .err e _ => Exec.throw (.leaf e)
      | .panic => Exec.panic
      | .diverge => Exec.diverge).run s₂ := by
  rw [insert, haccept, if_neg (not_not.mpr rfl), Exec.run_bind, hfind, Outcome.andThen_ok, Exec.run_bind,
    hrun]
  rfl

/-- `insert` up to the point where the leaf is found full. -/
lemma Shows.insert_run (h : tree.Shows nodes n s) (hk : k.keyType = tree.keyType)
    (hlen : k.toBytes.length ≤ u16Max) (hd : Descent nodes k d none tree.rootPageId parent x)
    (hn : d ≤ n) (hx : nodes x = .leaf l) :
    (leafSize (l.entries ++ [⟨k, r⟩]) ≤ pageSize → ∃ s', (tree.insert k r).run s = .ok () s' ∧
      tree.Shows (Function.update nodes x (.leaf ⟨l.entries ++ [⟨k, r⟩], l.next⟩)) n s') ∧
    (¬ leafSize (l.entries ++ [⟨k, r⟩]) ≤ pageSize → ∃ page s',
      HoldsLeaf tree.keyType l.entries l.next page ∧ tree.Shows nodes n s' ∧
      (tree.insert k r).run s = (if x = tree.rootPageId then tree.rootLeafSplit page ⟨k, r⟩
        else tree.childLeafSplit page x ⟨k, r⟩).run s') := by
  have haccept : tree.acceptsKey k = true := decide_eq_true hk.symm
  have he : LeafStorable tree.keyType ⟨k, r⟩ := leafStorable_iff.mpr ⟨hk, hlen⟩
  obtain ⟨s₁, hfind, h₁⟩ := h.findLeafPageId_ok hk hd hn
  obtain ⟨page, s₂, hpage, hrun, hcached, hok, herr⟩ :=
    h₁.onPage_ok (p := x) (by simp [hx]) (appendLeafEntry ⟨k, r⟩)
  have hleaf := holdsLeaf_of_nodeOf (hpage.trans hx)
  have hinsert := run_insert haccept hfind hrun
  constructor
  · intro hfits
    obtain ⟨q, happend, hq⟩ := hleaf.appendLeafEntry_ok he hfits
    have h₂ := hok _ _ happend
    rw [hq.nodeOf_eq] at h₂
    obtain ⟨s₃, hflush, h₃⟩ := h₂.flushPage_ok hcached
    refine ⟨s₃, ?_, h₃⟩
    rw [hinsert, happend]
    exact hflush
  · intro hfull
    have happend := hleaf.appendLeafEntry_full he (Nat.lt_of_not_le hfull)
    have h₂ := herr _ _ happend
    rw [hpage, Function.update_eq_self] at h₂
    refine ⟨page, s₂, hleaf, h₂, ?_⟩
    rw [hinsert, happend]

/-- A key that is too long for its length field is refused. -/
lemma Shows.insert_tooLong (h : tree.Shows nodes n s) (hk : k.keyType = tree.keyType)
    (hlen : u16Max < k.toBytes.length) (hd : Descent nodes k d none tree.rootPageId parent x)
    (hn : d ≤ n) (hx : nodes x = .leaf l) :
    ∃ s', (tree.insert k r).run s = .err (.leaf .invalidPage) s' ∧ tree.Shows nodes n s' := by
  have haccept : tree.acceptsKey k = true := decide_eq_true hk.symm
  obtain ⟨s₁, hfind, h₁⟩ := h.findLeafPageId_ok hk hd hn
  obtain ⟨page, s₂, hpage, hrun, -, -, herr⟩ :=
    h₁.onPage_ok (p := x) (by simp [hx]) (appendLeafEntry ⟨k, r⟩)
  have hleaf := holdsLeaf_of_nodeOf (hpage.trans hx)
  have happend := hleaf.appendLeafEntry_invalid (e := ⟨k, r⟩) hlen
  have h₂ := herr _ _ happend
  rw [hpage, Function.update_eq_self] at h₂
  refine ⟨s₂, ?_, h₂⟩
  rw [insert, haccept]
  simp only [not_true, if_false, Exec.run_bind, hfind, Outcome.andThen_ok, hrun, happend,
    Exec.run_throw]

/-- A leaf below the root is split, and the root is rewritten or split. -/
lemma Shows.insert_rootChild {page : Page} {ies : List InternalEntry} {rightmost : PageId} {s₁ : σ}
    (h : tree.Shows nodes n s₁) (hw : Wired tree.rootPageId nodes seq)
    (hk : k.keyType = tree.keyType) (hlen : k.toBytes.length ≤ u16Max) (hx : nodes x = .leaf l)
    (hpage : HoldsLeaf tree.keyType l.entries l.next page)
    (hf : Family tree.rootPageId nodes seq tree.rootPageId ies rightmost [] ⊤ [])
    (hroute : route (childrenOf ies rightmost ⊤) k = some x)
    (hhalves : HalvesFit (l.entries ++ [⟨k, r⟩])) {last : LeafEntry}
    (hlast : (leftHalf (l.entries ++ [⟨k, r⟩])).getLast? = some last)
    (hn : n + 2 ≤ PageStore.maxPages σ) (hfits : RoomFor last.key ies ∨
      n + 4 ≤ PageStore.maxPages σ ∧ RootSplits x last.key ies rightmost) :
    ∃ s', (tree.childLeafSplit page x ⟨k, r⟩).run s₁ = .ok () s' ∧
      InsertDone tree k r nodes seq s' := by
  have hmax : PageStore.maxPages σ ≤ 2 ^ 64 := PageStore.maxPages_le
  have he : LeafStorable tree.keyType ⟨k, r⟩ := leafStorable_iff.mpr ⟨hk, hlen⟩
  have hroot := hf.node
  have hseq := hf.seq_eq
  rw [List.nil_append, List.append_nil] at hseq
  subst hseq
  obtain ⟨pre, u, post, hchildren, hlt, hle⟩ := route_eq_some.mp hroute
  -- the two fresh pages
  have ha : nodes (PageId.new n) = .other := h.other_of_le (by omega) (by omega)
  have hb : nodes (PageId.new (n + 1)) = .other := h.other_of_le (by omega) (by omega)
  have hne : PageId.new n ≠ PageId.new (n + 1) := PageId.new_ne (by omega) (by omega) (by omega)
  have hra : tree.rootPageId ≠ PageId.new n := fun heq => by rw [heq, ha] at hroot; cases hroot
  have hrb : tree.rootPageId ≠ PageId.new (n + 1) := fun heq => by rw [heq, hb] at hroot; cases hroot
  have hxa : x ≠ PageId.new n := fun heq => by rw [heq, ha] at hx; cases hx
  have hxb : x ≠ PageId.new (n + 1) := fun heq => by rw [heq, hb] at hx; cases hx
  have hleaves := splitNodes_leaves nodes x (l.entries ++ [⟨k, r⟩]) l.next hne
  have hkeep : leavesOf (splitNodes (PageId.new n) (PageId.new (n + 1)) nodes (l.entries ++ [⟨k, r⟩])
      l.next) x = leavesOf nodes x := by
    rw [leavesOf, splitNodes_of_ne hxa hxb, leavesOf]
  have htypes : ∀ c ∈ l.entries ++ [⟨k, r⟩], c.key.keyType = tree.keyType :=
    fun c hc => (hpage.storable_append he c hc).admits
  have hchild : IsChild x ies rightmost :=
    (isChild_iff (u := ⊤)).mpr ⟨(x, u), by rw [hchildren]; simp, rfl⟩
  by_cases hroom : RoomFor last.key ies
  · obtain ⟨ies', rightmost', hr⟩ := hchild.replaced (PageId.new n) (PageId.new (n + 1)) last.key
    obtain ⟨s', hrun, h'⟩ :=
      h.childLeafSplit_room hpage he hroot hn hhalves hlast hr hroom
    obtain ⟨pre', v, post', heq, hnew⟩ := hr.children_eq ⊤
    rw [hchildren] at hw heq ⊢
    obtain ⟨rfl, rfl, rfl⟩ := at_unique hw.linked heq
    -- the leaves are those of the split, whatever the root holds
    have hinternal := leavesOf_update_internal
      (splitNodes (PageId.new n) (PageId.new (n + 1)) nodes (l.entries ++ [⟨k, r⟩]) l.next)
      tree.rootPageId ies' rightmost' (by rw [splitNodes_of_ne hra hrb, hroot]; rfl)
    have hshape : Shape tree.rootPageId (Function.update (splitNodes (PageId.new n)
        (PageId.new (n + 1)) nodes (l.entries ++ [⟨k, r⟩]) l.next) tree.rootPageId
        (.internal ies' rightmost')) (childrenOf ies' rightmost' ⊤) :=
      .parent (Function.update_self ..)
    rw [hnew] at hshape
    obtain ⟨hw', hgrown⟩ := hw.split hx htypes hle hlt hne ha hb hlast
      ⟨by rw [hinternal]; exact hleaves.left, by rw [hinternal]; exact hleaves.right,
        by rw [hinternal]; exact hleaves.frame⟩ (.inr (by rw [hinternal, hkeep])) hshape
    exact ⟨s', hrun, _, _, _, h', hw', hgrown⟩
  · obtain ⟨promoted, rest, les, leftmost, res, rightmost', hdrop, hhalf⟩ :=
      (hfits.resolve_left hroom).2.halves (PageId.new n) (PageId.new (n + 1))
    have hn' := (hfits.resolve_left hroom).1
    obtain ⟨s', hrun, h'⟩ :=
      h.childLeafSplit_splitRoot hpage he hroot hn' hhalves hlast hchild hroom hdrop hhalf
    obtain ⟨pre', v, post', heq, hnew⟩ := hhalf.children_eq hdrop
    rw [hchildren] at hw heq ⊢
    obtain ⟨rfl, rfl, rfl⟩ := at_unique hw.linked heq
    have hc : nodes (PageId.new (n + 2)) = .other := h.other_of_le (by omega) (by omega)
    have hd : nodes (PageId.new (n + 3)) = .other := h.other_of_le (by omega) (by omega)
    have hne' (i j : Nat) (hi : i < n + 4) (hj : j < n + 4) (hij : i ≠ j) :
        PageId.new i ≠ PageId.new j := PageId.new_ne (by omega) (by omega) hij
    obtain ⟨hinternal, hshape⟩ := shape_splitRoot tree.rootPageId
      (splitNodes (PageId.new n) (PageId.new (n + 1)) nodes (l.entries ++ [⟨k, r⟩]) l.next)
      les res leftmost rightmost' promoted.separatorKey (hne' (n + 2) (n + 3) (by omega) (by omega) (by omega))
      (fun heq => by rw [heq, hc] at hroot; cases hroot)
      (fun heq => by rw [heq, hd] at hroot; cases hroot)
      (by rw [splitNodes_of_ne hra hrb, hroot]; rfl)
      (by rw [splitNodes_of_ne (hne' _ _ (by omega) (by omega) (by omega))
        (hne' _ _ (by omega) (by omega) (by omega)), hc]; rfl)
      (by rw [splitNodes_of_ne (hne' _ _ (by omega) (by omega) (by omega))
        (hne' _ _ (by omega) (by omega) (by omega)), hd]; rfl)
    rw [hnew] at hshape
    obtain ⟨hw', hgrown⟩ := hw.split hx htypes hle hlt hne ha hb hlast
      ⟨by rw [hinternal]; exact hleaves.left, by rw [hinternal]; exact hleaves.right,
        by rw [hinternal]; exact hleaves.frame⟩ (.inr (by rw [hinternal, hkeep])) hshape
    exact ⟨s', hrun, _, _, _, h', hw', hgrown⟩

/-- The root leaf is split. -/
lemma Shows.insert_rootLeaf {page : Page} {s₁ : σ} (h : tree.Shows nodes n s₁)
    (hw : Wired tree.rootPageId nodes [(tree.rootPageId, ⊤)]) (hk : k.keyType = tree.keyType)
    (hlen : k.toBytes.length ≤ u16Max) (hx : nodes tree.rootPageId = .leaf l)
    (hpage : HoldsLeaf tree.keyType l.entries l.next page)
    (hhalves : HalvesFit (l.entries ++ [⟨k, r⟩])) {last : LeafEntry}
    (hlast : (leftHalf (l.entries ++ [⟨k, r⟩])).getLast? = some last)
    (hn : n + 2 ≤ PageStore.maxPages σ) :
    ∃ s', (tree.rootLeafSplit page ⟨k, r⟩).run s₁ = .ok () s' ∧
      InsertDone tree k r nodes [(tree.rootPageId, ⊤)] s' := by
  have hmax : PageStore.maxPages σ ≤ 2 ^ 64 := PageStore.maxPages_le
  have he : LeafStorable tree.keyType ⟨k, r⟩ := leafStorable_iff.mpr ⟨hk, hlen⟩
  have ha : nodes (PageId.new n) = .other := h.other_of_le (by omega) (by omega)
  have hb : nodes (PageId.new (n + 1)) = .other := h.other_of_le (by omega) (by omega)
  have hne : PageId.new n ≠ PageId.new (n + 1) := PageId.new_ne (by omega) (by omega) (by omega)
  have hra : tree.rootPageId ≠ PageId.new n := fun heq => by rw [heq, ha] at hx; cases hx
  have hrb : tree.rootPageId ≠ PageId.new (n + 1) := fun heq => by rw [heq, hb] at hx; cases hx
  have hleaves := splitNodes_leaves nodes tree.rootPageId (l.entries ++ [⟨k, r⟩]) l.next hne
  obtain ⟨s', hrun, h'⟩ := h.rootLeafSplit_ok hpage he (by simp [hx]) hn hhalves hlast
  have htypes : ∀ c ∈ l.entries ++ [⟨k, r⟩], c.key.keyType = tree.keyType :=
    fun c hc => (hpage.storable_append he c hc).admits
  have hleaves' : SplitLeaves (PageId.new n) (PageId.new (n + 1)) nodes (Function.update
      (splitNodes (PageId.new n) (PageId.new (n + 1)) nodes (l.entries ++ [⟨k, r⟩]) l.next)
      tree.rootPageId (.internal [⟨PageId.new n, last.key⟩] (PageId.new (n + 1)))) tree.rootPageId
      (l.entries ++ [⟨k, r⟩]) l.next := by
    constructor
    · rw [leavesOf_update, Function.update_of_ne hra.symm]
      exact hleaves.left
    · rw [leavesOf_update, Function.update_of_ne hrb.symm]
      exact hleaves.right
    · intro p hpa hpb hpx
      rw [leavesOf_update, Function.update_of_ne hpx]
      exact hleaves.frame p hpa hpb hpx
  have hw₀ : Wired tree.rootPageId nodes ([] ++ (tree.rootPageId, ⊤) :: []) := hw
  obtain ⟨hw', hgrown⟩ := hw₀.split hx htypes le_top (by simp) hne ha hb hlast hleaves' (.inl rfl)
    (.parent (Function.update_self ..))
  exact ⟨s', hrun, _, _, _, h', hw', hgrown⟩

/-- An insertion succeeds when it fits, and otherwise changes no node. -/
theorem Shows.insert_spec (h : tree.Shows nodes n s) (hw : Wired tree.rootPageId nodes seq)
    (hk : k.keyType = tree.keyType) (hlen : k.toBytes.length ≤ u16Max)
    (hd : Descent nodes k d none tree.rootPageId parent x) (hx : nodes x = .leaf l) :
    (InsertFits tree.rootPageId nodes parent x l.entries ⟨k, r⟩ ∧
        ∃ s', (tree.insert k r).run s = .ok () s' ∧ InsertDone tree k r nodes seq s') ∨
      ((InsertFits tree.rootPageId nodes parent x l.entries ⟨k, r⟩ → PageStore.maxPages σ < n + 4) ∧
        ∃ e s' m, (tree.insert k r).run s = .err e s' ∧ tree.Shows nodes m s') := by
  obtain ⟨d', parent', x', hd', hplace, hn⟩ := h.exists_place hw k
  obtain ⟨-, rfl, rfl⟩ := hd.unique hd'
  have he : LeafStorable tree.keyType ⟨k, r⟩ := leafStorable_iff.mpr ⟨hk, hlen⟩
  obtain ⟨hroomy, hfull⟩ := h.insert_run (r := r) hk hlen hd' hn hx
  by_cases hfits : leafSize (l.entries ++ [⟨k, r⟩]) ≤ pageSize
  · obtain ⟨s', hrun, h'⟩ := hroomy hfits
    obtain ⟨hw', hgrown⟩ := hw.append (e := ⟨k, r⟩) hx hplace.route_eq
    exact .inl ⟨.inl hfits, s', hrun, _, _, _, h', hw', hgrown⟩
  obtain ⟨page, s₁, hpage, h₁, hrun⟩ := hfull hfits
  rw [hrun]
  have hlast (hhalves : HalvesFit (l.entries ++ [⟨k, r⟩])) :
      ∃ last, (leftHalf (l.entries ++ [⟨k, r⟩])).getLast? = some last :=
    Option.isSome_iff_exists.mp (List.getLast?_isSome.mpr hhalves.1)
  cases hplace with
  | root hroot hseq =>
    subst hseq
    rw [if_pos rfl]
    by_cases hcond : n + 2 ≤ PageStore.maxPages σ ∧ HalvesFit (l.entries ++ [⟨k, r⟩])
    · obtain ⟨last, hlast⟩ := hlast hcond.2
      obtain ⟨s', hrun', hdone⟩ := h₁.insert_rootLeaf hw hk hlen hx hpage hcond.2 hlast hcond.1
      exact .inl ⟨.inr ⟨hcond.2, .inl rfl⟩, s', hrun', hdone⟩
    · obtain ⟨err, s', m, hrun', h'⟩ := h₁.rootLeafSplit_err hpage he hcond
      refine .inr ⟨?_, err, s', m, hrun', h'⟩
      rintro (hroom | ⟨hhalves, -⟩)
      · exact absurd hroom hfits
      · by_contra hn'
        exact hcond ⟨by omega, hhalves⟩
  | @rootChild ies rightmost _ hf hr =>
    have hroot := hf.node
    have hne : x ≠ tree.rootPageId := by
      rintro rfl
      rw [hx] at hroot
      cases hroot
    obtain ⟨pre, u, post, hchildren, -, -⟩ := route_eq_some.mp hr
    have hchild : IsChild x ies rightmost :=
      (isChild_iff (u := ⊤)).mpr ⟨(x, u), by rw [hchildren]; simp, rfl⟩
    rw [if_neg hne]
    by_cases hcond : n + 2 ≤ PageStore.maxPages σ ∧ HalvesFit (l.entries ++ [⟨k, r⟩]) ∧
        IsChild x ies rightmost ∧ ∀ last, (leftHalf (l.entries ++ [⟨k, r⟩])).getLast? = some last →
          RoomFor last.key ies ∨ n + 4 ≤ PageStore.maxPages σ ∧ RootSplits x last.key ies rightmost
    · obtain ⟨hn', hhalves, -, hroot'⟩ := hcond
      obtain ⟨last, hlast⟩ := hlast hhalves
      obtain ⟨s', hrun', hdone⟩ := h₁.insert_rootChild hw hk hlen hx hpage hf hr hhalves hlast hn'
        (hroot' last hlast)
      refine .inl ⟨.inr ⟨hhalves, .inr ⟨rfl, ?_⟩⟩, s', hrun', hdone⟩
      intro ies' rightmost' last' hnode hlast'
      obtain ⟨rfl, rfl⟩ := Node.internal.inj (hroot.symm.trans hnode)
      exact (hroot' last' hlast').imp_right And.right
    · obtain ⟨err, s', m, hrun', h'⟩ := h₁.childLeafSplit_err hpage he hroot hcond
      refine .inr ⟨?_, err, s', m, hrun', h'⟩
      rintro (hroom | ⟨hhalves, hparent⟩)
      · exact absurd hroom hfits
      · by_contra hn'
        obtain ⟨-, hparent⟩ := hparent.resolve_left (by simp)
        refine hcond ⟨by omega, hhalves, hchild, fun last hlast => ?_⟩
        exact (hparent ies rightmost last hroot hlast).imp_right fun hsplits => ⟨by omega, hsplits⟩
  | @grandchild parent _ es₀ _ rightmost₀ _ _ _ _ hf _ _ hne hroot hes₀ hrightmost₀ =>
    have hnx : x ≠ tree.rootPageId := by
      rintro rfl
      rw [hx] at hroot
      cases hroot
    rw [if_neg hnx]
    have hchild : ¬ IsChild x es₀ rightmost₀ := by
      rintro (⟨e, he, heq⟩ | heq)
      · exact hes₀ e he heq
      · exact hrightmost₀ heq
    obtain ⟨err, s', m, hrun', h'⟩ := h₁.childLeafSplit_err (x := x) hpage he hroot
      fun hcond => hchild hcond.2.2.1
    refine .inr ⟨?_, err, s', m, hrun', h'⟩
    rintro (hroom | ⟨-, hparent⟩)
    · exact absurd hroom hfits
    · rcases hparent with hparent | ⟨hparent, -⟩
      · cases hparent
      · exact absurd (Option.some.inj hparent) hne

end Spec

end BTree

end RdbRs
