import RdbRs.Index.TreeView

/-!
# The invariant of a tree

A tree is a leaf, a page over leaves, or a page over two pages over leaves: it does not grow
further. `Wired` adds that the leaves are linked in the sense of `LeafChain.Linked`.
-/

namespace RdbRs

open LeafChain

/-- The children of an internal page, each with the greatest key that is sent to it. -/
def childrenOf (es : List InternalEntry) (rightmost : PageId) (u : WithTop BTreeKey) :
    List (PageId × WithTop BTreeKey) :=
  es.map (fun e => (e.leftChild, (e.separatorKey : WithTop BTreeKey))) ++ [(rightmost, u)]

/-- The live leaves of a tree in the order of their bounds. -/
inductive Shape (root : PageId) (nodes : PageId → Node) : List (PageId × WithTop BTreeKey) → Prop where
  | leaf {l : Leaf PageId LeafEntry} : nodes root = .leaf l → Shape root nodes [(root, ⊤)]
  | parent {es : List InternalEntry} {rightmost : PageId} : nodes root = .internal es rightmost →
      Shape root nodes (childrenOf es rightmost ⊤)
  | grandparent {left right : PageId} {sep : BTreeKey} {es es' : List InternalEntry}
      {rightmost rightmost' : PageId} : nodes root = .internal [⟨left, sep⟩] right →
      nodes left = .internal es rightmost → nodes right = .internal es' rightmost' →
      left ≠ right → root ≠ left → root ≠ right →
      Shape root nodes (childrenOf es rightmost sep ++ childrenOf es' rightmost' ⊤)

/-- The invariant of a tree. -/
structure Wired (root : PageId) (nodes : PageId → Node) (seq : List (PageId × WithTop BTreeKey)) :
    Prop where
  shape : Shape root nodes seq
  linked : Linked LeafEntry.key (leavesOf nodes) seq

/-- The way of a key from the page `p`, below `parent`, to a leaf `x`, below `parent'`. -/
inductive Descent (nodes : PageId → Node) (k : BTreeKey) :
    Nat → Option PageId → PageId → Option PageId → PageId → Prop where
  | leaf {parent : Option PageId} {p : PageId} {l : Leaf PageId LeafEntry} : nodes p = .leaf l →
      Descent nodes k 0 parent p parent p
  | step {d : Nat} {parent parent' : Option PageId} {p x : PageId} {es : List InternalEntry}
      {rightmost : PageId} : nodes p = .internal es rightmost →
      Descent nodes k d (some p) (childFor rightmost k es) parent' x →
      Descent nodes k (d + 1) parent p parent' x

/-- The leaves below one page `parent` are a part of the live leaves. -/
structure Family (root : PageId) (nodes : PageId → Node) (seq : List (PageId × WithTop BTreeKey))
    (parent : PageId) (es : List InternalEntry) (rightmost : PageId)
    (front : List (PageId × WithTop BTreeKey)) (u : WithTop BTreeKey)
    (back : List (PageId × WithTop BTreeKey)) : Prop where
  node : nodes parent = .internal es rightmost
  seq_eq : seq = front ++ (childrenOf es rightmost u ++ back)
  /-- `parent` may get other children. -/
  reshape : ∀ (nodes' : PageId → Node) (es' : List InternalEntry) (rightmost' : PageId),
    nodes' parent = .internal es' rightmost' →
    (∀ p es rightmost, p ≠ parent → nodes p = .internal es rightmost → nodes' p = nodes p) →
    Shape root nodes' (front ++ (childrenOf es' rightmost' u ++ back))

/-- Where the leaf of a key is in the tree. -/
inductive Place (root : PageId) (nodes : PageId → Node) (seq : List (PageId × WithTop BTreeKey))
    (k : BTreeKey) : Option PageId → PageId → Prop where
  | root {l : Leaf PageId LeafEntry} : nodes root = .leaf l → seq = [(root, ⊤)] →
      Place root nodes seq k none root
  | rootChild {es : List InternalEntry} {rightmost x : PageId} :
      Family root nodes seq root es rightmost [] ⊤ [] →
      route (childrenOf es rightmost ⊤) k = some x → Place root nodes seq k (some root) x
  | grandchild {parent : PageId} {es es₀ : List InternalEntry} {rightmost rightmost₀ x : PageId}
      {front back : List (PageId × WithTop BTreeKey)} {u : WithTop BTreeKey} :
      Family root nodes seq parent es rightmost front u back → (∀ b ∈ front, b.2 < k) →
      route (childrenOf es rightmost u) k = some x → parent ≠ root →
      nodes root = .internal es₀ rightmost₀ → (∀ e ∈ es₀, e.leftChild ≠ x) → rightmost₀ ≠ x →
      Place root nodes seq k (some parent) x

section Descents

variable {root : PageId} {nodes : PageId → Node} {seq : List (PageId × WithTop BTreeKey)}
  {k : BTreeKey} {es : List InternalEntry} {rightmost p x : PageId} {u : WithTop BTreeKey}
  {parent parent' : Option PageId} {d : Nat}

lemma childrenOf_cons {e : InternalEntry} : childrenOf (e :: es) rightmost u =
    (e.leftChild, (e.separatorKey : WithTop BTreeKey)) :: childrenOf es rightmost u := rfl

/-- The child a key is sent to is the first one whose bound it does not exceed. -/
lemma route_childrenOf (hk : (k : WithTop BTreeKey) ≤ u) :
    route (childrenOf es rightmost u) k = some (childFor rightmost k es) := by
  induction es with
  | nil => simp [childrenOf, route_cons, childFor, hk]
  | cons e es ih =>
    rw [childrenOf_cons, route_cons, childFor, ih]
    by_cases hle : k ≤ e.separatorKey
    · rw [if_pos (WithTop.coe_le_coe.mpr hle), if_pos hle]
    · rw [if_neg (by rwa [WithTop.coe_le_coe]), if_neg hle]

lemma leaf_of_mem (hs : Linked LeafEntry.key (leavesOf nodes) seq) {z : PageId × WithTop BTreeKey}
    (hz : z ∈ seq) : ∃ l, nodes z.1 = .leaf l := by
  obtain ⟨pre, post, rfl⟩ := List.append_of_mem hz
  obtain ⟨l, hl⟩ := hs.at
  exact ⟨l, leavesOf_eq_some.mp hl.leaf_eq⟩

lemma Descent.unique {d' : Nat} {parent₁ parent₂ : Option PageId} {x₁ x₂ : PageId}
    (h : Descent nodes k d parent p parent₁ x₁) (h' : Descent nodes k d' parent p parent₂ x₂) :
    d = d' ∧ parent₁ = parent₂ ∧ x₁ = x₂ := by
  induction h generalizing d' with
  | leaf hp =>
    cases h' with
    | leaf _ => exact ⟨rfl, rfl, rfl⟩
    | step hp' _ =>
      rw [hp] at hp'
      cases hp'
  | step hp _ ih =>
    cases h' with
    | leaf hp' =>
      rw [hp] at hp'
      cases hp'
    | step hp' hrest =>
      rw [hp] at hp'
      obtain ⟨rfl, rfl⟩ := Node.internal.inj hp'
      obtain ⟨rfl, hends⟩ := ih hrest
      exact ⟨rfl, hends⟩

/-- The descent of a key ends at the leaf its route names. -/
lemma Place.route_eq (h : Place root nodes seq k parent x) : route seq k = some x := by
  cases h with
  | root _ hseq =>
    rw [hseq, route_cons, if_pos le_top]
  | rootChild hf hr =>
    rw [hf.seq_eq, List.nil_append, List.append_nil, hr]
  | grandchild hf hfront hr _ _ _ _ =>
    rw [hf.seq_eq, route_append, route_eq_none.mpr hfront, Option.none_or, route_append, hr,
      Option.some_or]

/-- The last of the children of a page bounds them all. -/
lemma bound_le_of_linkedFrom {before : List (PageId × WithTop BTreeKey)}
    {leaf : PageId → Option (Leaf PageId LeafEntry)}
    (h : LinkedFrom LeafEntry.key leaf before (childrenOf es rightmost u)) :
    ∀ z ∈ childrenOf es rightmost u, z.2 ≤ u := by
  intro z hz
  obtain ⟨-, hlast⟩ := linkedFrom_append.mp h
  obtain ⟨l, hl⟩ := linkedFrom_singleton.mp hlast
  rcases List.mem_append.mp hz with hz | hz
  · exact hl.bound_le z (List.mem_append_right _ hz)
  · rw [List.mem_singleton.mp hz]

/-- Leaves may change under the same internal pages. -/
lemma Shape.frame {nodes' : PageId → Node} (h : Shape root nodes seq)
    (hi : ∀ p es rightmost, nodes p = .internal es rightmost → nodes' p = nodes p)
    (hl : ∀ l, nodes root = .leaf l → ∃ l', nodes' root = .leaf l') : Shape root nodes' seq := by
  cases h with
  | leaf hroot =>
    obtain ⟨l', hl'⟩ := hl _ hroot
    exact .leaf hl'
  | parent hroot => exact .parent ((hi _ _ _ hroot).trans hroot)
  | grandparent hroot hleft hright hne hrl hrr =>
    exact .grandparent ((hi _ _ _ hroot).trans hroot) ((hi _ _ _ hleft).trans hleft)
      ((hi _ _ _ hright).trans hright) hne hrl hrr

/-- A leaf is written where a leaf was. -/
lemma Shape.update_leaf {l l' : Leaf PageId LeafEntry} (h : Shape root nodes seq)
    (hx : nodes x = .leaf l) : Shape root (Function.update nodes x (.leaf l')) seq := by
  apply h.frame
  · intro p es rightmost hp
    apply Function.update_of_ne
    rintro rfl
    rw [hx] at hp
    cases hp
  · intro l₀ hroot
    by_cases hr : root = x
    · exact ⟨l', by rw [hr, Function.update_self]⟩
    · exact ⟨l₀, by rw [Function.update_of_ne hr, hroot]⟩

lemma mem_of_route (hr : route seq k = some x) : ∃ z ∈ seq, z.1 = x := by
  obtain ⟨pre, v, post, rfl, -, -⟩ := route_eq_some.mp hr
  exact ⟨(x, v), by simp, rfl⟩

lemma family_root (h : nodes root = .internal es rightmost) :
    Family root nodes (childrenOf es rightmost ⊤) root es rightmost [] ⊤ [] := by
  refine ⟨h, by simp, ?_⟩
  intro nodes' es' rightmost' h' _
  rw [List.nil_append, List.append_nil]
  exact .parent h'

section Grandparent

variable {left right : PageId} {sep : BTreeKey} {es' : List InternalEntry} {rightmost' : PageId}

lemma family_left (hroot : nodes root = .internal [⟨left, sep⟩] right)
    (hl : nodes left = .internal es rightmost) (hr : nodes right = .internal es' rightmost')
    (hne : left ≠ right) (hrl : root ≠ left) (hrr : root ≠ right) :
    Family root nodes (childrenOf es rightmost sep ++ childrenOf es' rightmost' ⊤) left es rightmost
      [] sep (childrenOf es' rightmost' ⊤) := by
  refine ⟨hl, by simp, ?_⟩
  intro nodes' es₁ rightmost₁ h₁ hframe
  refine .grandparent ?_ h₁ ?_ hne hrl hrr
  · rw [hframe root _ _ hrl hroot, hroot]
  · rw [hframe right _ _ hne.symm hr, hr]

lemma family_right (hroot : nodes root = .internal [⟨left, sep⟩] right)
    (hl : nodes left = .internal es rightmost) (hr : nodes right = .internal es' rightmost')
    (hne : left ≠ right) (hrl : root ≠ left) (hrr : root ≠ right) :
    Family root nodes (childrenOf es rightmost sep ++ childrenOf es' rightmost' ⊤) right es'
      rightmost' (childrenOf es rightmost sep) ⊤ [] := by
  refine ⟨hr, by simp, ?_⟩
  intro nodes' es₁ rightmost₁ h₁ hframe
  rw [List.append_nil]
  refine .grandparent ?_ ?_ h₁ hne hrl hrr
  · rw [hframe root _ _ hrr hroot, hroot]
  · rw [hframe left _ _ hne hl, hl]

end Grandparent

/-- Every key has a leaf. -/
lemma Wired.exists_place (h : Wired root nodes seq) (k : BTreeKey) :
    ∃ d parent x, Descent nodes k d none root parent x ∧ Place root nodes seq k parent x ∧
      (d ≠ 0 → nodes root ≠ .other) ∧ d ≤ 2 ∧
      (d = 2 → ∃ p, p ≠ root ∧ nodes root ≠ .other ∧ nodes p ≠ .other) := by
  obtain ⟨hshape, hlinked⟩ := h
  cases hshape with
  | leaf hroot =>
    exact ⟨0, none, root, .leaf hroot, .root hroot rfl, by simp, by simp, by simp⟩
  | @parent es rightmost hroot =>
    have hr : route (childrenOf es rightmost ⊤) k = some (childFor rightmost k es) :=
      route_childrenOf le_top
    obtain ⟨z, hz, hzx⟩ := mem_of_route hr
    obtain ⟨l, hl⟩ := leaf_of_mem hlinked hz
    rw [hzx] at hl
    exact ⟨1, some root, _, .step hroot (.leaf hl), .rootChild (family_root hroot) hr,
      by simp [hroot], by simp, by simp⟩
  | @grandparent left right sep es es' rightmost rightmost' hroot hleft hright hne hrl hrr =>
    have htwo : ∃ p, p ≠ root ∧ nodes root ≠ .other ∧ nodes p ≠ .other :=
      ⟨left, hrl.symm, by simp [hroot], by simp [hleft]⟩
    by_cases hle : k ≤ sep
    · have hr : route (childrenOf es rightmost sep) k = some (childFor rightmost k es) :=
        route_childrenOf (WithTop.coe_le_coe.mpr hle)
      obtain ⟨z, hz, hzx⟩ := mem_of_route hr
      obtain ⟨l, hl⟩ := leaf_of_mem hlinked (List.mem_append_left _ hz)
      rw [hzx] at hl
      have hchild : childFor right k [⟨left, sep⟩] = left := by simp [childFor, hle]
      refine ⟨2, some left, childFor rightmost k es, .step hroot ?_, ?_, by simp [hroot], le_rfl,
        fun _ => htwo⟩
      · rw [hchild]
        exact .step hleft (.leaf hl)
      · refine .grandchild (family_left hroot hleft hright hne hrl hrr) (by simp) hr hrl.symm hroot ?_ ?_
        · intro e he heq
          obtain rfl := List.mem_singleton.mp he
          rw [← heq, hleft] at hl
          cases hl
        · intro heq
          rw [← heq, hright] at hl
          cases hl
    · have hr : route (childrenOf es' rightmost' ⊤) k = some (childFor rightmost' k es') :=
        route_childrenOf le_top
      obtain ⟨z, hz, hzx⟩ := mem_of_route hr
      obtain ⟨l, hl⟩ := leaf_of_mem hlinked (List.mem_append_right _ hz)
      rw [hzx] at hl
      have hchild : childFor right k [⟨left, sep⟩] = right := by simp [childFor, hle]
      refine ⟨2, some right, childFor rightmost' k es', .step hroot ?_, ?_, by simp [hroot], le_rfl,
        fun _ => htwo⟩
      · rw [hchild]
        exact .step hright (.leaf hl)
      · refine .grandchild (family_right hroot hleft hright hne hrl hrr) ?_ hr hrr.symm hroot ?_ ?_
        · intro b hb
          have hle' := bound_le_of_linkedFrom hlinked.linkedFrom_pre b hb
          exact hle'.trans_lt (WithTop.coe_lt_coe.mpr (lt_of_not_ge hle))
        · intro e he heq
          obtain rfl := List.mem_singleton.mp he
          rw [← heq, hleft] at hl
          cases hl
        · intro heq
          rw [← heq, hright] at hl
          cases hl

/-- A page is only once among pages that differ from those before them. -/
lemma split_unique {pre pre' post post' : List (PageId × WithTop BTreeKey)} {v : WithTop BTreeKey}
    (h : pre ++ (x, u) :: post = pre' ++ (x, v) :: post') (hpre : ∀ z ∈ pre, z.1 ≠ x)
    (hpre' : ∀ z ∈ pre', z.1 ≠ x) : pre = pre' ∧ u = v ∧ post = post' := by
  induction pre generalizing pre' with
  | nil =>
    cases pre' with
    | nil =>
      simp only [List.nil_append, List.cons.injEq, Prod.mk.injEq, true_and] at h
      exact ⟨rfl, h⟩
    | cons z pre' =>
      simp only [List.nil_append, List.cons_append, List.cons.injEq] at h
      exact absurd (by rw [← h.1]) (hpre' z List.mem_cons_self)
  | cons y pre ih =>
    cases pre' with
    | nil =>
      simp only [List.nil_append, List.cons_append, List.cons.injEq] at h
      exact absurd (by rw [h.1]) (hpre y List.mem_cons_self)
    | cons z pre' =>
      simp only [List.cons_append, List.cons.injEq] at h
      obtain ⟨rfl, h⟩ := h
      obtain ⟨rfl, hrest⟩ := ih h (fun w hw => hpre w (List.mem_cons_of_mem _ hw))
        (fun w hw => hpre' w (List.mem_cons_of_mem _ hw))
      exact ⟨rfl, hrest⟩

/-- A live leaf is only once in the sequence. -/
lemma at_unique {pre pre' post post' : List (PageId × WithTop BTreeKey)} {v : WithTop BTreeKey}
    (hs : Linked LeafEntry.key (leavesOf nodes) (pre ++ (x, u) :: post))
    (h : pre ++ (x, u) :: post = pre' ++ (x, v) :: post') : pre = pre' ∧ u = v ∧ post = post' := by
  obtain ⟨l, hl⟩ := hs.at
  rw [h] at hs
  obtain ⟨l', hl'⟩ := hs.at
  exact split_unique h hl.above.ne hl'.above.ne

end Descents

/-! ### Descents and searches of the code -/

namespace BTree

section Search

variable {σ : Type} [PageStore σ] {tree : BTree} {nodes : PageId → Node} {n d fuel : Nat} {s : σ}
  {seq : List (PageId × WithTop BTreeKey)} {k : BTreeKey} {parent parent' : Option PageId}
  {p x : PageId} {ps : List PageId}

/-- The descent of a key takes no more pages than there are. -/
lemma Shows.exists_place (h : tree.Shows nodes n s) (hw : Wired tree.rootPageId nodes seq)
    (k : BTreeKey) : ∃ d parent x, Descent nodes k d none tree.rootPageId parent x ∧
      Place tree.rootPageId nodes seq k parent x ∧ d ≤ n := by
  obtain ⟨d, parent, x, hd, hplace, hone, htwo, hpages⟩ := hw.exists_place k
  refine ⟨d, parent, x, hd, hplace, ?_⟩
  by_cases h0 : d = 0
  · omega
  have hroot := h.index_lt (hone h0)
  by_cases h2 : d = 2
  · obtain ⟨q, hq, -, hother⟩ := hpages h2
    have hlt := h.index_lt hother
    have hne : q.index ≠ tree.rootPageId.index := fun heq => hq (PageId.index_injective heq)
    omega
  · omega

lemma Shows.findLeafAndParentLoop_ok (h : tree.Shows nodes n s) (hk : k.keyType = tree.keyType)
    (hd : Descent nodes k d parent p parent' x) (hf : d < fuel) :
    ∃ s', (tree.findLeafAndParentLoop k fuel parent p).run s = .ok (parent', x) s' ∧
      tree.Shows nodes n s' := by
  induction hd generalizing fuel s with
  | @leaf parent p l hp =>
    obtain ⟨fuel, rfl⟩ : ∃ m, fuel = m + 1 := ⟨fuel - 1, by omega⟩
    obtain ⟨page, s', hrun, hpage, hs'⟩ := h.fetchPage_ok (p := p) (by simp [hp])
    have hleaf := holdsLeaf_of_nodeOf (hpage.trans hp)
    refine ⟨s', ?_, hs'⟩
    rw [findLeafAndParentLoop, Exec.run_bind, hrun, Outcome.andThen_ok, hleaf.readFromPage_eq]
    rfl
  | @step d parent parent' p x es rightmost hp _ ih =>
    obtain ⟨fuel, rfl⟩ : ∃ m, fuel = m + 1 := ⟨fuel - 1, by omega⟩
    obtain ⟨page, s₁, hrun, hpage, hs₁⟩ := h.fetchPage_ok (p := p) (by simp [hp])
    have hinternal := holdsInternal_of_nodeOf (hpage.trans hp)
    obtain ⟨s', hrest, hs'⟩ := ih hs₁ (show d < fuel by omega)
    refine ⟨s', ?_, hs'⟩
    rw [findLeafAndParentLoop, Exec.run_bind, hrun, Outcome.andThen_ok, hinternal.readFromPage_eq]
    simp only [BTreePageHeader.newInternal, BTreePageHeader.isLeaf, Bool.false_eq_true, if_false,
      Exec.run_bind, Exec.run_mapErr, Exec.run_liftExcept, hinternal.findInternalChild_eq hk,
      Outcome.mapErr_ok, Outcome.andThen_ok]
    exact hrest

lemma Shows.findLeafLoop_ok (h : tree.Shows nodes n s) (hk : k.keyType = tree.keyType)
    (hd : Descent nodes k d parent p parent' x) (hf : d < fuel) :
    ∃ s', (tree.findLeafLoop k fuel p).run s = .ok x s' ∧ tree.Shows nodes n s' := by
  induction hd generalizing fuel s with
  | @leaf parent p l hp =>
    obtain ⟨fuel, rfl⟩ : ∃ m, fuel = m + 1 := ⟨fuel - 1, by omega⟩
    obtain ⟨page, s', hrun, hpage, hs'⟩ := h.fetchPage_ok (p := p) (by simp [hp])
    have hleaf := holdsLeaf_of_nodeOf (hpage.trans hp)
    refine ⟨s', ?_, hs'⟩
    rw [findLeafLoop, Exec.run_bind, hrun, Outcome.andThen_ok, hleaf.readFromPage_eq]
    rfl
  | @step d parent parent' p x es rightmost hp _ ih =>
    obtain ⟨fuel, rfl⟩ : ∃ m, fuel = m + 1 := ⟨fuel - 1, by omega⟩
    obtain ⟨page, s₁, hrun, hpage, hs₁⟩ := h.fetchPage_ok (p := p) (by simp [hp])
    have hinternal := holdsInternal_of_nodeOf (hpage.trans hp)
    obtain ⟨s', hrest, hs'⟩ := ih hs₁ (show d < fuel by omega)
    refine ⟨s', ?_, hs'⟩
    rw [findLeafLoop, Exec.run_bind, hrun, Outcome.andThen_ok, hinternal.readFromPage_eq]
    simp only [BTreePageHeader.newInternal, BTreePageHeader.isLeaf, Bool.false_eq_true, if_false,
      Exec.run_bind, Exec.run_mapErr, Exec.run_liftExcept, hinternal.findInternalChild_eq hk,
      Outcome.mapErr_ok, Outcome.andThen_ok]
    exact hrest

lemma Shows.findLeafPageId_ok (h : tree.Shows nodes n s) (hk : k.keyType = tree.keyType)
    (hd : Descent nodes k d none tree.rootPageId parent x) (hn : d ≤ n) :
    ∃ s', (tree.findLeafPageId k).run s = .ok x s' ∧ tree.Shows nodes n s' := by
  obtain ⟨s', hrun, hs'⟩ := h.findLeafLoop_ok hk hd (Nat.lt_succ_of_le hn)
  refine ⟨s', ?_, hs'⟩
  rw [findLeafPageId, Exec.run_bind, h.linkFuel_eq, Outcome.andThen_ok, hrun]

lemma Shows.findLeafAndParentPageIds_ok (h : tree.Shows nodes n s) (hk : k.keyType = tree.keyType)
    (hd : Descent nodes k d none tree.rootPageId parent x) (hn : d ≤ n) :
    ∃ s', (tree.findLeafAndParentPageIds k).run s = .ok (parent, x) s' ∧ tree.Shows nodes n s' := by
  obtain ⟨s', hrun, hs'⟩ := h.findLeafAndParentLoop_ok hk hd (Nat.lt_succ_of_le hn)
  refine ⟨s', ?_, hs'⟩
  rw [findLeafAndParentPageIds, Exec.run_bind, h.linkFuel_eq, Outcome.andThen_ok, hrun]

/-- A walk over the leaves visits no more pages than there are. -/
lemma Shows.length_walk_le (h : tree.Shows nodes n s) {o : Option PageId}
    (hw : Walk LeafEntry.key (leavesOf nodes) k o ps) : ps.length ≤ n := by
  have hnodup : (ps.map PageId.index).Nodup :=
    hw.nodup.map fun _ _ => PageId.index_injective
  have hsub : ps.map PageId.index ⊆ List.range n := by
    intro i hi
    obtain ⟨q, hq, rfl⟩ := List.mem_map.mp hi
    obtain ⟨l, hl⟩ := hw.leaf_of_mem hq
    exact List.mem_range.mpr (h.index_lt (by simp [leavesOf_eq_some.mp hl]))
  have := (List.subperm_of_subset hnodup hsub).length_le
  simpa using this

/-- The row ids of what a search finds. -/
def foundRows (nodes : PageId → Node) (k : BTreeKey) (ps : List PageId) : List RowId :=
  (found LeafEntry.key (leavesOf nodes) k ps).map LeafEntry.rowId

/-- The loop of a search stops at a leaf with a greater key. -/
lemma Shows.searchLoop_stop {l : Leaf PageId LeafEntry} (h : tree.Shows nodes n s)
    (hk : k.keyType = tree.keyType) (hl : leavesOf nodes p = some l)
    (hgt : ∃ e ∈ l.entries, k < e.key) (fuel : Nat) (results : List RowId) :
    ∃ s', (tree.searchLoop k (fuel + 1) p results).run s = .ok (results ++ rowsAt l.entries k) s' ∧
      tree.Shows nodes n s' := by
  obtain ⟨page, s', hrun, hpage, hs'⟩ := h.fetchPage_ok (p := p) (by simp [leavesOf_eq_some.mp hl])
  have hleaf := holdsLeaf_of_nodeOf (hpage.trans (leavesOf_eq_some.mp hl))
  have hany : (l.entries.any fun e => decide (k < e.key)) = true := by simpa using hgt
  refine ⟨s', ?_, hs'⟩
  rw [searchLoop, Exec.run_bind, hrun]
  simp only [Outcome.andThen_ok, Exec.run_bind, Exec.run_mapErr, Exec.run_liftExcept,
    hleaf.findLeafRowIds_eq hk, Outcome.mapErr_ok, hany, if_true, Exec.run_pure]

/-- At any other leaf it follows the link. -/
lemma Shows.searchLoop_step {l : Leaf PageId LeafEntry} (h : tree.Shows nodes n s)
    (hk : k.keyType = tree.keyType) (hl : leavesOf nodes p = some l)
    (hle : ∀ e ∈ l.entries, e.key ≤ k) (fuel : Nat) (results : List RowId) :
    ∃ s', tree.Shows nodes n s' ∧ (tree.searchLoop k (fuel + 1) p results).run s =
      match l.next with
      | some next => (tree.searchLoop k fuel next (results ++ rowsAt l.entries k)).run s'
      | none => .ok (results ++ rowsAt l.entries k) s' := by
  obtain ⟨page, s', hrun, hpage, hs'⟩ := h.fetchPage_ok (p := p) (by simp [leavesOf_eq_some.mp hl])
  have hleaf := holdsLeaf_of_nodeOf (hpage.trans (leavesOf_eq_some.mp hl))
  have hany : (l.entries.any fun e => decide (k < e.key)) = false := by simpa using hle
  refine ⟨s', hs', ?_⟩
  rw [searchLoop, Exec.run_bind, hrun]
  simp only [Outcome.andThen_ok, Exec.run_bind, Exec.run_mapErr, Exec.run_liftExcept,
    hleaf.findLeafRowIds_eq hk, Outcome.mapErr_ok, hany, Bool.false_eq_true, if_false,
    hleaf.readFromPage_eq, leafLinks]
  cases l.next <;> rfl

lemma Shows.searchLoop_ok (h : tree.Shows nodes n s) (hk : k.keyType = tree.keyType)
    (hw : Walk LeafEntry.key (leavesOf nodes) k (some p) ps) (hf : ps.length ≤ fuel)
    (results : List RowId) : ∃ s', (tree.searchLoop k fuel p results).run s =
      .ok (results ++ foundRows nodes k ps) s' ∧ tree.Shows nodes n s' := by
  generalize ho : some p = o at hw
  induction hw generalizing p fuel s results with
  | nil => cases ho
  | @stop q l hl hgt =>
    obtain rfl := Option.some.inj ho
    obtain ⟨fuel, rfl⟩ : ∃ m, fuel = m + 1 := ⟨fuel - 1, by simp at hf; omega⟩
    have hfound : foundRows nodes k [p] = rowsAt l.entries k := by
      rw [foundRows, found_cons, found_nil, List.append_nil, foundOn_eq hl]
      rfl
    rw [hfound]
    exact h.searchLoop_stop hk hl hgt fuel results
  | @step q l ps hl hle hrest ih =>
    obtain rfl := Option.some.inj ho
    obtain ⟨fuel, rfl⟩ : ∃ m, fuel = m + 1 := ⟨fuel - 1, by simp at hf; omega⟩
    have ⟨s₁, hs₁, hrun⟩ := h.searchLoop_step hk hl hle fuel results
    have hfound : foundRows nodes k (p :: ps) = rowsAt l.entries k ++ foundRows nodes k ps := by
      rw [foundRows, found_cons, foundOn_eq hl, List.map_append]
      rfl
    rw [hrun, hfound, ← List.append_assoc]
    cases hnext : l.next with
    | none =>
      rw [hnext] at hrest
      cases hrest
      exact ⟨s₁, by simp [foundRows], hs₁⟩
    | some next =>
      exact ih hs₁ (by simp at hf; omega) _ hnext.symm

/-- The loop takes no fewer rounds than the walk has pages. -/
lemma Shows.searchLoop_short (h : tree.Shows nodes n s) (hk : k.keyType = tree.keyType)
    (hw : Walk LeafEntry.key (leavesOf nodes) k (some p) ps) (hf : fuel < ps.length)
    (results : List RowId) : (tree.searchLoop k fuel p results).run s = .diverge := by
  generalize ho : some p = o at hw
  induction hw generalizing p fuel s results with
  | nil => cases ho
  | stop _ _ =>
    obtain rfl : fuel = 0 := by simpa using hf
    rfl
  | @step q l ps hl hle hrest ih =>
    obtain rfl := Option.some.inj ho
    cases fuel with
    | zero => rfl
    | succ fuel =>
      have ⟨s₁, hs₁, hrun⟩ := h.searchLoop_step hk hl hle fuel results
      rw [hrun]
      cases hnext : l.next with
      | none =>
        rw [hnext] at hrest
        cases hrest
        simp at hf
      | some next => exact ih hs₁ (by simpa using hf) _ hnext.symm

lemma Shows.search_ok (h : tree.Shows nodes n s) (hw : Wired tree.rootPageId nodes seq)
    (hk : k.keyType = tree.keyType) (hps : Search LeafEntry.key (leavesOf nodes) seq k ps) :
    ∃ s', (tree.search k).run s = .ok (foundRows nodes k ps) s' ∧ tree.Shows nodes n s' := by
  obtain ⟨d, parent, x, hd, hplace, hn⟩ := h.exists_place hw k
  obtain ⟨y, hy, hwalk⟩ := hps
  obtain rfl := Option.some.inj (hplace.route_eq.symm.trans hy)
  obtain ⟨s₁, hfind, hs₁⟩ := h.findLeafPageId_ok hk hd hn
  obtain ⟨s', hloop, hs'⟩ := hs₁.searchLoop_ok hk hwalk
    (Nat.le_succ_of_le (h.length_walk_le hwalk)) []
  refine ⟨s', ?_, hs'⟩
  have haccept : tree.acceptsKey k = true := decide_eq_true hk.symm
  rw [search, haccept]
  simp only [not_true, if_false, Exec.run_bind, hfind, Outcome.andThen_ok, hs₁.linkFuel_eq, hloop,
    List.nil_append]

end Search

end BTree

end RdbRs
