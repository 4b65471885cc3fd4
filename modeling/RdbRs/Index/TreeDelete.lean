import RdbRs.Index.TreeInsertSpec

/-!
# Deletion from a tree

What `delete` does to the nodes of a tree: nothing if the entry is not in the leaf its key is sent
to; otherwise the leaf is rewritten without the entry, and if it has become underfull it is merged
with a neighbour under the same parent. The merge may fail after the leaf has been rewritten.
-/

namespace RdbRs

open LeafChain

/-- `find_leaf_merge_pair` on the entries of the parent. -/
def mergePair (es : List InternalEntry) (rightmost x : PageId) : Option (PageId × PageId) :=
  match es.findIdx? (·.leftChild = x) with
  | some index =>
    match es[index + 1]? with
    | some next => some (x, next.leftChild)
    | none => some (x, rightmost)
  | none => es.getLast?.map fun last => (last.leftChild, x)

/-- The leaf `x` below `parent` is merged as one of the leaves `a` and `b`. -/
def MergesAs (nodes : PageId → Node) (parent : Option PageId) (x a b : PageId) : Prop :=
  ∃ p es rightmost, parent = some p ∧ nodes p = .internal es rightmost ∧
    mergePair es rightmost x = some (a, b)

/-- The leaf, left with the entries `es`, is underfull. -/
def Underfull (es : List LeafEntry) : Prop := leafSize es ≤ pageSize / 2

section Pairs

variable {t : BTreeKeyType} {es : List InternalEntry} {rightmost x : PageId} {u : WithTop BTreeKey}
  {p : Page}

lemma HoldsInternal.findLeafMergePair_eq (h : HoldsInternal t es rightmost p)
    (hx : IsChild x es rightmost) : findLeafMergePair p t x = .ok (mergePair es rightmost x) := by
  rw [findLeafMergePair, h.readInternalEntries_eq]
  simp only [except_bind_ok, h.readRightmostChild_eq, mergePair]
  cases hidx : es.findIdx? (fun e => decide (e.leftChild = x)) with
  | some i =>
    simp only
    cases es[i + 1]? <;> rfl
  | none =>
    have hne : ¬ ∃ e ∈ es, e.leftChild = x := by
      rintro ⟨e, he, heq⟩
      have := List.findIdx?_eq_none_iff.mp hidx e he
      simp [heq] at this
    simp only
    rw [if_pos (hx.resolve_left hne).symm]
    cases es.getLast? <;> rfl

/-- The pair is two neighbouring children of the page, and the leaf is one of them. -/
lemma mergePair_cases (hx : IsChild x es rightmost)
    (hnodup : ((childrenOf es rightmost u).map Prod.fst).Nodup) :
    mergePair es rightmost x = none ∨ ∃ a b es' rightmost' pre ua ub post,
      mergePair es rightmost x = some (a, b) ∧ (x = a ∨ x = b) ∧
      MergedChildren a b es rightmost es' rightmost' ∧
      childrenOf es rightmost u = pre ++ (a, ua) :: (b, ub) :: post ∧
      childrenOf es' rightmost' u = pre ++ (a, ub) :: post := by
  by_cases hmem : ∃ e ∈ es, e.leftChild = x
  · obtain ⟨pre, s, post, rfl, hpre⟩ := exists_first_child hmem
    right
    have hidx : (pre ++ (⟨x, s⟩ : InternalEntry) :: post).findIdx? (fun e => decide (e.leftChild = x)) =
        some pre.length := findIdx?_child hpre
    have hnext : (pre ++ (⟨x, s⟩ : InternalEntry) :: post)[pre.length + 1]? = post.head? := by
      rw [List.getElem?_append_right (by omega), Nat.add_sub_cancel_left]
      cases post <;> rfl
    cases post with
    | nil =>
      refine ⟨x, rightmost, pre, x, pre.map fun e => (e.leftChild, (e.separatorKey : WithTop BTreeKey)),
        s, u, [], ?_, .inl rfl, .last hpre, ?_, rfl⟩
      · simp only [mergePair, hidx, hnext, List.head?_nil]
      · simp [childrenOf]
    | cons c post =>
      have hne : rightmost ≠ c.leftChild := by
        rintro heq
        simp only [childrenOf, List.map_append, List.map_cons, List.map_nil, List.nodup_append] at hnodup
        exact hnodup.2.2 c.leftChild (by simp) rightmost (by simp) heq.symm
      refine ⟨x, c.leftChild, pre ++ ⟨x, c.separatorKey⟩ :: post, rightmost,
        pre.map fun e => (e.leftChild, (e.separatorKey : WithTop BTreeKey)), s, c.separatorKey,
        childrenOf post rightmost u, ?_, .inl rfl, .inner hpre hne, ?_, ?_⟩
      · simp only [mergePair, hidx, hnext, List.head?_cons]
      · simp [childrenOf]
      · simp [childrenOf]
  · obtain rfl := hx.resolve_left hmem
    have hes : ∀ e ∈ es, e.leftChild ≠ rightmost := fun e he heq => hmem ⟨e, he, heq⟩
    have hidx := findIdx?_child_none hes
    rcases hlast : es.getLast? with _ | last
    · left
      simp only [mergePair, hidx, hlast, Option.map_none]
    · right
      obtain ⟨pre, rfl⟩ := List.getLast?_eq_some_iff.mp hlast
      have hpre : ∀ e ∈ pre, e.leftChild ≠ last.leftChild := by
        rintro e he heq
        simp only [childrenOf, List.map_append, List.map_cons, List.map_nil, List.nodup_append] at hnodup
        exact hnodup.1.2.2 e.leftChild (by simpa using ⟨e, he, rfl⟩) last.leftChild (by simp) heq
      refine ⟨last.leftChild, rightmost, pre, last.leftChild,
        pre.map fun e => (e.leftChild, (e.separatorKey : WithTop BTreeKey)), last.separatorKey, u, [], ?_,
        .inr rfl, .last hpre, ?_, rfl⟩
      · simp only [mergePair, hidx, hlast, Option.map_some]
      · simp [childrenOf]

lemma MergesAs.unique {nodes : PageId → Node} {parent : Option PageId} {a b a' b' : PageId}
    (h : MergesAs nodes parent x a b)
    (h' : MergesAs nodes parent x a' b') :
    a = a' ∧ b = b' := by
  obtain ⟨p, es, rightmost, rfl, hp, hpair⟩ := h
  obtain ⟨p', es', rightmost', hparent, hp', hpair'⟩ := h'
  obtain rfl := Option.some.inj hparent
  obtain ⟨rfl, rfl⟩ := Node.internal.inj (hp.symm.trans hp')
  exact Prod.mk.inj (Option.some.inj (hpair.symm.trans hpair'))

/-- The pages of a sequence of live leaves differ. -/
lemma nodup_of_linkedFrom {leaf : PageId → Option (Leaf PageId LeafEntry)}
    {before seq : List (PageId × WithTop BTreeKey)} (h : LinkedFrom LeafEntry.key leaf before seq) :
    (seq.map Prod.fst).Nodup ∧ ∀ b ∈ before, b.1 ∉ seq.map Prod.fst := by
  induction seq generalizing before with
  | nil => exact ⟨List.nodup_nil, by simp⟩
  | cons z seq ih =>
    obtain ⟨⟨l, hl⟩, hrest⟩ := h
    obtain ⟨hnodup, hbefore⟩ := ih hrest
    refine ⟨List.nodup_cons.mpr ⟨hbefore z (by simp), hnodup⟩, ?_⟩
    intro b hb hmem
    rcases List.mem_cons.mp hmem with heq | hmem
    · exact hl.above.ne b hb heq
    · exact hbefore b (List.mem_append_left _ hb) hmem

end Pairs

namespace BTree

section Delete

variable {σ : Type} [PageStore σ] [UnstableSort] {tree : BTree} {nodes : PageId → Node} {n d : Nat}
  {s : σ} {k : BTreeKey} {r : RowId} {parent : Option PageId} {x a b : PageId}
  {l la lb : Leaf PageId LeafEntry} {es es' : List InternalEntry} {rightmost rightmost' p : PageId}

/-! ### The merge -/

/-- The nodes after a merge. -/
def mergedNodes (nodes : PageId → Node) (p a b : PageId) (la lb : Leaf PageId LeafEntry)
    (es' : List InternalEntry) (rightmost' : PageId) : PageId → Node :=
  Function.update (Function.update (Function.update nodes a
    (.leaf ⟨sortLeafEntries (la.entries ++ lb.entries), lb.next⟩)) b (.leaf ⟨[], none⟩)) p
    (.internal es' rightmost')

lemma Shows.mergeUnderfullLeaf_none (h : tree.Shows nodes n s) (hp : nodes p = .internal es rightmost)
    (hx : IsChild x es rightmost) (hpair : mergePair es rightmost x = none) :
    ∃ s', (tree.mergeUnderfullLeaf p x).run s = .ok () s' ∧ tree.Shows nodes n s' := by
  obtain ⟨page, s', hrun, hpage, h'⟩ := h.fetchPage_ok (p := p) (by simp [hp])
  have hparent := holdsInternal_of_nodeOf (hpage.trans hp)
  refine ⟨s', ?_, h'⟩
  simp only [mergeUnderfullLeaf, Exec.run_bind, hrun, Outcome.andThen_ok, Exec.run_mapErr,
    Exec.run_liftExcept, hparent.findLeafMergePair_eq hx, hpair, Outcome.mapErr_ok, Exec.run_pure]

lemma Shows.mergeUnderfullLeaf_ok (h : tree.Shows nodes n s) (hp : nodes p = .internal es rightmost)
    (hx : IsChild x es rightmost) (hpair : mergePair es rightmost x = some (a, b))
    (hm : MergedChildren a b es rightmost es' rightmost') (ha : nodes a = .leaf la)
    (hb : nodes b = .leaf lb) (hfits : leafSize (la.entries ++ lb.entries) ≤ pageSize) :
    ∃ s', (tree.mergeUnderfullLeaf p x).run s = .ok () s' ∧
      tree.Shows (mergedNodes nodes p a b la lb es' rightmost') n s' := by
  have hplt := h.index_lt (p := p) (by simp [hp])
  have halt := h.index_lt (p := a) (by simp [ha])
  have hblt := h.index_lt (p := b) (by simp [hb])
  obtain ⟨page, s₁, hrun₁, hpage, h₁⟩ := h.fetchPage_ok (p := p) (by simp [hp])
  have hparent := holdsInternal_of_nodeOf (hpage.trans hp)
  obtain ⟨left, s₂, hrun₂, hleft, h₂⟩ := h₁.fetchPage_ok (p := a) (by simp [ha])
  obtain ⟨right, s₃, hrun₃, hright, h₃⟩ := h₂.fetchPage_ok (p := b) (by simp [hb])
  obtain ⟨q, q', hmerge, hq, hq'⟩ := (holdsLeaf_of_nodeOf (hleft.trans ha)).leafMerge_ok
    (holdsLeaf_of_nodeOf (hright.trans hb)) hfits
  obtain ⟨r, hremove, hr⟩ := hparent.removeRightChild_ok hm
  obtain ⟨s₄, hrun₄, h₄⟩ := h₃.fetchAndFlushPage_ok halt q
  obtain ⟨s₅, hrun₅, h₅⟩ := h₄.fetchAndFlushPage_ok hblt q'
  obtain ⟨s₆, hrun₆, h₆⟩ := h₅.fetchAndFlushPage_ok hplt r
  refine ⟨s₆, ?_, ?_⟩
  · simp only [mergeUnderfullLeaf, Exec.run_bind, hrun₁, Outcome.andThen_ok, Exec.run_mapErr,
      Exec.run_liftExcept, hparent.findLeafMergePair_eq hx, hpair, Outcome.mapErr_ok, hrun₂, hrun₃,
      Exec.run_withLocal, hmerge, hremove, hrun₄, hrun₅, hrun₆]
  · rwa [hq.nodeOf_eq, hq'.nodeOf_eq, hr.nodeOf_eq] at h₆

lemma Shows.mergeUnderfullLeaf_full (h : tree.Shows nodes n s)
    (hp : nodes p = .internal es rightmost) (hx : IsChild x es rightmost)
    (hpair : mergePair es rightmost x = some (a, b)) (ha : nodes a = .leaf la)
    (hb : nodes b = .leaf lb) (hfull : pageSize < leafSize (la.entries ++ lb.entries)) :
    ∃ s', (tree.mergeUnderfullLeaf p x).run s = .err (.leaf .pageFull) s' ∧
      tree.Shows nodes n s' := by
  obtain ⟨page, s₁, hrun₁, hpage, h₁⟩ := h.fetchPage_ok (p := p) (by simp [hp])
  have hparent := holdsInternal_of_nodeOf (hpage.trans hp)
  obtain ⟨left, s₂, hrun₂, hleft, h₂⟩ := h₁.fetchPage_ok (p := a) (by simp [ha])
  obtain ⟨right, s₃, hrun₃, hright, h₃⟩ := h₂.fetchPage_ok (p := b) (by simp [hb])
  have hmerge := (holdsLeaf_of_nodeOf (hleft.trans ha)).leafMerge_full
    (holdsLeaf_of_nodeOf (hright.trans hb)) hfull
  refine ⟨s₃, ?_, h₃⟩
  simp only [mergeUnderfullLeaf, Exec.run_bind, hrun₁, Outcome.andThen_ok, Exec.run_mapErr,
    Exec.run_liftExcept, hparent.findLeafMergePair_eq hx, hpair, Outcome.mapErr_ok, hrun₂, hrun₃,
    Exec.run_withLocal, hmerge, Outcome.mapErr_err, Outcome.andThen_err]

/-! ### The deletion -/

/-- The nodes after the leaf `x` has been rewritten without an entry. -/
def erasedNodes (nodes : PageId → Node) (x : PageId) (es : List LeafEntry) (e : LeafEntry) :
    PageId → Node :=
  Function.update nodes x (.leaf ⟨es.erase e, none⟩)

/-- An entry that is not in the leaf its key is sent to is not found. -/
lemma Shows.delete_absent (h : tree.Shows nodes n s) (hk : k.keyType = tree.keyType)
    (hd : Descent nodes k d none tree.rootPageId parent x) (hn : d ≤ n) (hx : nodes x = .leaf l)
    (hm : ⟨k, r⟩ ∉ l.entries) :
    ∃ s', (tree.delete k r).run s = .ok false s' ∧ tree.Shows nodes n s' := by
  have haccept : tree.acceptsKey k = true := decide_eq_true hk.symm
  obtain ⟨s₁, hfind, h₁⟩ := h.findLeafAndParentPageIds_ok hk hd hn
  obtain ⟨page, s₂, hpage, hrun, -, hok, -⟩ := h₁.onPage_ok (p := x) (by simp [hx]) (do
    let deleted ← deleteLeafEntry tree.keyType k r
    let isUnderfull ← Exec.query leafIsUnderfull
    pure (deleted, isUnderfull))
  have hleaf := holdsLeaf_of_nodeOf (hpage.trans hx)
  have hcall : (do
      let deleted ← deleteLeafEntry tree.keyType k r
      let isUnderfull ← Exec.query leafIsUnderfull
      pure (deleted, isUnderfull) : Exec LeafPageError Page (Bool × Bool)).run page =
        .ok (false, decide (leafSize l.entries ≤ pageSize / 2)) page := by
    simp only [Exec.run_bind, hleaf.deleteLeafEntry_absent hm, Outcome.andThen_ok, Exec.run_query,
      hleaf.leafIsUnderfull_eq, Exec.run_pure]
  have h₂ := hok _ _ hcall
  rw [hpage, Function.update_eq_self] at h₂
  refine ⟨s₂, ?_, h₂⟩
  rw [delete, haccept]
  simp only [not_true, if_false, Exec.run_bind, hfind, Outcome.andThen_ok]
  rw [hrun, hcall]
  rfl

/-- `delete` up to the point where the entry has been removed. -/
lemma Shows.delete_run (h : tree.Shows nodes n s) (hk : k.keyType = tree.keyType)
    (hd : Descent nodes k d none tree.rootPageId parent x) (hn : d ≤ n) (hx : nodes x = .leaf l)
    (hm : ⟨k, r⟩ ∈ l.entries) :
    ∃ s', tree.Shows (erasedNodes nodes x l.entries ⟨k, r⟩) n s' ∧
      (tree.delete k r).run s = ((match parent with
        | some parent => if leafSize (l.entries.erase ⟨k, r⟩) ≤ pageSize / 2 then
            tree.mergeUnderfullLeaf parent x else pure ()
        | none => pure () : Exec BTreeError σ Unit).run s').andThen fun _ s' => .ok true s' := by
  have haccept : tree.acceptsKey k = true := decide_eq_true hk.symm
  obtain ⟨s₁, hfind, h₁⟩ := h.findLeafAndParentPageIds_ok hk hd hn
  obtain ⟨page, s₂, hpage, hrun, hcached, hok, -⟩ := h₁.onPage_ok (p := x) (by simp [hx]) (do
    let deleted ← deleteLeafEntry tree.keyType k r
    let isUnderfull ← Exec.query leafIsUnderfull
    pure (deleted, isUnderfull))
  have hleaf := holdsLeaf_of_nodeOf (hpage.trans hx)
  obtain ⟨q, hdelete, hq⟩ := hleaf.deleteLeafEntry_ok hm
  have hcall : (do
      let deleted ← deleteLeafEntry tree.keyType k r
      let isUnderfull ← Exec.query leafIsUnderfull
      pure (deleted, isUnderfull) : Exec LeafPageError Page (Bool × Bool)).run page =
        .ok (true, decide (leafSize (l.entries.erase ⟨k, r⟩) ≤ pageSize / 2)) q := by
    simp only [Exec.run_bind, hdelete, Outcome.andThen_ok, Exec.run_query, hq.leafIsUnderfull_eq,
      Exec.run_pure]
  have h₂ := hok _ _ hcall
  rw [hq.nodeOf_eq] at h₂
  obtain ⟨s₃, hflush, h₃⟩ := h₂.flushPage_ok hcached
  refine ⟨s₃, h₃, ?_⟩
  rw [delete, haccept]
  simp only [not_true, if_false, Exec.run_bind, hfind, Outcome.andThen_ok]
  rw [hrun, hcall]
  simp only [Outcome.andThen_ok, if_true, Exec.run_bind, hflush]
  cases parent with
  | none => rfl
  | some parent =>
    by_cases hu : leafSize (l.entries.erase ⟨k, r⟩) ≤ pageSize / 2 <;> simp [hu]

/-- A leaf that stays more than half full is only rewritten. -/
lemma Shows.delete_roomy (h : tree.Shows nodes n s) (hk : k.keyType = tree.keyType)
    (hd : Descent nodes k d none tree.rootPageId parent x) (hn : d ≤ n) (hx : nodes x = .leaf l)
    (hm : ⟨k, r⟩ ∈ l.entries) (hroomy : ¬ Underfull (l.entries.erase ⟨k, r⟩)) :
    ∃ s', (tree.delete k r).run s = .ok true s' ∧ tree.Shows (erasedNodes nodes x l.entries ⟨k, r⟩) n s' := by
  obtain ⟨s', h', hrun⟩ := h.delete_run hk hd hn hx hm
  refine ⟨s', ?_, h'⟩
  rw [hrun]
  cases parent with
  | none => rfl
  | some parent =>
    have hsize : ¬ leafSize (l.entries.erase ⟨k, r⟩) ≤ pageSize / 2 := hroomy
    dsimp only
    rw [if_neg hsize]
    rfl

end Delete

end BTree

end RdbRs
