import Mathlib.Data.Multiset.AddSub
import RdbRs.Index.TreeDeleteSpec

/-!
# Runs of a tree

The trees that `create` and any calls of `insert` and `delete` lead to keep the invariant, whatever
the calls return. What `search` finds is read off the nodes.
-/

namespace RdbRs

open LeafChain

namespace BTree

section Reach

variable {σ : Type} [PageStore σ] (tree : BTree)

/-- The nodes on the tree's pages. -/
def nodesAt (s : σ) : PageId → Node :=
  nodesOf tree.keyType ((PageStore.pages s tree.relationId).getD [])

/-- The number of the tree's pages. -/
def pageTotal (s : σ) : Nat := ((PageStore.pages s tree.relationId).getD []).length

/-- The row ids `search` returns, in no order. -/
def searchRows (s : σ) (target : BTreeKey) : Option (Multiset RowId) :=
  match (tree.search target).run s with
  | .ok rowIds _ => some rowIds
  | _ => none

/-- The states in which a tree can be. Between two calls the store may change elsewhere. -/
inductive Reachable [UnstableSort] : σ → Prop where
  | create {indexId : IndexId} {keyType : BTreeKeyType} {s s' : σ} :
      (create indexId keyType).run s = .ok tree s' → Reachable s'
  | insert {k : BTreeKey} {r : RowId} {s s' : σ} : Reachable s →
      ((tree.insert k r).run s).Returns s' → Reachable s'
  | delete {k : BTreeKey} {r : RowId} {s s' : σ} : Reachable s →
      ((tree.delete k r).run s).Returns s' → Reachable s'
  | elsewhere {s s' : σ} : Reachable s →
      PageStore.pages s' tree.relationId = PageStore.pages s tree.relationId → Reachable s'

/-- The leaf of a key, with the page above it and what it holds. -/
structure LeafOf (s : σ) (k : BTreeKey) (parent : Option PageId) (x : PageId)
    (l : Leaf PageId LeafEntry) : Prop where
  descent : ∃ d, Descent (tree.nodesAt s) k d none tree.rootPageId parent x
  leaf_eq : tree.nodesAt s x = .leaf l

/-- The leaves a search for a key of the tree's type reads. -/
def Visits (s : σ) (j : BTreeKey) (ps : List PageId) : Prop :=
  j.keyType = tree.keyType ∧ ∃ d parent x,
    Descent (tree.nodesAt s) j d none tree.rootPageId parent x ∧
      Walk LeafEntry.key (leavesOf (tree.nodesAt s)) j (some x) ps

/-- The rows a search for a key collects from the link `o` on. -/
def RowsFrom (s : σ) (j : BTreeKey) (o : Option PageId) (rows : Multiset RowId) : Prop :=
  ∃ ps, Walk LeafEntry.key (leavesOf (tree.nodesAt s)) j o ps ∧
    rows = (foundRows (tree.nodesAt s) j ps : Multiset RowId)

variable {tree} {nodes nodes' : PageId → Node} {n m : Nat} {s s' : σ}
  {seq : List (PageId × WithTop BTreeKey)} {j k : BTreeKey} {r : RowId} {ps : List PageId}
  {parent : Option PageId} {x : PageId} {l : Leaf PageId LeafEntry}

lemma nodesAt_congr (h : PageStore.pages s' tree.relationId = PageStore.pages s tree.relationId) :
    tree.nodesAt s' = tree.nodesAt s := by
  rw [nodesAt, nodesAt, h]

lemma Shows.nodesAt_eq (h : tree.Shows nodes n s) : tree.nodesAt s = nodes := by
  obtain ⟨pages, hpages, -, hnodes⟩ := h
  rw [nodesAt, hpages, Option.getD_some, hnodes]

lemma Shows.pageTotal_eq (h : tree.Shows nodes n s) : tree.pageTotal s = n := by
  obtain ⟨pages, hpages, hn, -⟩ := h
  rw [pageTotal, hpages, Option.getD_some, hn]

/-! ### Searches -/

lemma Shows.searchRows_eq (h : tree.Shows nodes n s) (hw : Wired tree.rootPageId nodes seq)
    (hj : j.keyType = tree.keyType) (hps : Search LeafEntry.key (leavesOf nodes) seq j ps) :
    tree.searchRows s j = some (foundRows nodes j ps : Multiset RowId) := by
  obtain ⟨s', hrun, -⟩ := h.search_ok hw hj hps
  rw [searchRows, hrun]

/-- A search for a key of another type fails. -/
lemma searchRows_of_keyType_ne (hj : j.keyType ≠ tree.keyType) : tree.searchRows s j = none := by
  have haccept : tree.acceptsKey j = false := decide_eq_false (Ne.symm hj)
  rw [searchRows, search, haccept]
  rfl

/-- The nodes decide what every search returns. -/
lemma Shows.searchRows_congr (h : tree.Shows nodes n s) (h' : tree.Shows nodes m s')
    (hw : Wired tree.rootPageId nodes seq) (j : BTreeKey) :
    tree.searchRows s' j = tree.searchRows s j := by
  by_cases hj : j.keyType = tree.keyType
  · obtain ⟨ps, hps⟩ := hw.linked.exists_search j
    rw [h.searchRows_eq hw hj hps, h'.searchRows_eq hw hj hps]
  · rw [searchRows_of_keyType_ne hj, searchRows_of_keyType_ne hj]

lemma Shows.visits_iff (h : tree.Shows nodes n s) (hw : Wired tree.rootPageId nodes seq) :
    tree.Visits s j ps ↔ j.keyType = tree.keyType ∧
      Search LeafEntry.key (leavesOf nodes) seq j ps := by
  obtain ⟨d, parent, x, hd, hplace, -⟩ := h.exists_place hw j
  unfold Visits
  rw [h.nodesAt_eq]
  constructor
  · rintro ⟨hj, d', parent', x', hd', hwalk⟩
    obtain ⟨-, -, rfl⟩ := hd.unique hd'
    exact ⟨hj, x, hplace.route_eq, hwalk⟩
  · rintro ⟨hj, y, hy, hwalk⟩
    obtain rfl := Option.some.inj (hplace.route_eq.symm.trans hy)
    exact ⟨hj, d, parent, x, hd, hwalk⟩

/-! ### The invariant on a run -/

/-- The nodes of a state satisfy the invariant. -/
def Sound (tree : BTree) (s : σ) : Prop :=
  ∃ n seq, tree.Shows (tree.nodesAt s) n s ∧ Wired tree.rootPageId (tree.nodesAt s) seq

lemma Shows.sound (h : tree.Shows nodes n s) (hw : Wired tree.rootPageId nodes seq) :
    tree.Sound s := by
  have hnodes := h.nodesAt_eq
  exact ⟨n, seq, by rwa [hnodes], by rwa [hnodes]⟩

/-- Every key has one leaf. -/
lemma Sound.exists_leafOf (h : tree.Sound s) (k : BTreeKey) : ∃ parent x l, tree.LeafOf s k parent x l := by
  obtain ⟨n, seq, hs, hw⟩ := h
  obtain ⟨d, parent, x, hd, hplace, -⟩ := hs.exists_place hw k
  obtain ⟨z, hz, rfl⟩ := mem_of_route hplace.route_eq
  obtain ⟨l, hl⟩ := leaf_of_mem hw.linked hz
  exact ⟨parent, z.1, l, ⟨d, hd⟩, hl⟩

lemma LeafOf.unique {parent' : Option PageId} {x' : PageId} {l' : Leaf PageId LeafEntry}
    (h : tree.LeafOf s k parent x l) (h' : tree.LeafOf s k parent' x' l') :
    parent = parent' ∧ x = x' ∧ l = l' := by
  obtain ⟨⟨d, hd⟩, hl⟩ := h
  obtain ⟨⟨d', hd'⟩, hl'⟩ := h'
  obtain ⟨-, rfl, rfl⟩ := hd.unique hd'
  rw [hl] at hl'
  exact ⟨rfl, rfl, Node.leaf.inj hl'⟩

lemma LeafOf.route_eq (h : tree.LeafOf s k parent x l) (hs : tree.Shows (tree.nodesAt s) n s)
    (hw : Wired tree.rootPageId (tree.nodesAt s) seq) : route seq k = some x := by
  obtain ⟨d, parent', x', hd, hplace, -⟩ := hs.exists_place hw k
  obtain ⟨d', hd'⟩ := h.descent
  obtain ⟨-, -, rfl⟩ := hd.unique hd'
  exact hplace.route_eq

/-! ### A new tree -/

section Create

variable {indexId : IndexId} (keyType : BTreeKeyType) {pages : List Page}

/-- A new tree is one empty leaf on the next page. -/
lemma create_ok (hpages : PageStore.pages s (.index indexId) = some pages)
    (hlt : pages.length < PageStore.maxPages σ) :
    ∃ s', (create indexId keyType).run s = .ok (open' indexId (PageId.new pages.length) keyType) s' ∧
      (open' indexId (PageId.new pages.length) keyType).Shows (Function.update (nodesOf keyType pages)
        (PageId.new pages.length) (.leaf ⟨[], none⟩)) (pages.length + 1) s' := by
  have hs : (open' indexId (PageId.new pages.length) keyType).Shows (nodesOf keyType pages)
      pages.length s := ⟨pages, hpages, rfl, rfl⟩
  have hindex : (PageId.new pages.length).index = pages.length :=
    PageId.index_new (hlt.trans_le PageStore.maxPages_le)
  obtain ⟨s₁, hallocate, h₁⟩ := hs.allocatePage_ok hlt
  obtain ⟨page, s₂, -, honPage, hcached, hok, -⟩ :=
    h₁.onPage_of_lt (p := PageId.new pages.length) (by omega) initializeLeafPage
  have h₂ := hok _ _ run_initializeLeafPage
  rw [(holdsLeaf_emptyLeaf _).nodeOf_eq] at h₂
  obtain ⟨s₃, hflush, h₃⟩ := h₂.flushPage_ok hcached
  refine ⟨s₃, ?_, h₃⟩
  unfold create
  rw [Exec.run_bind]
  change ((open' indexId (PageId.new pages.length) keyType).allocatePage.run s).andThen _ = _
  rw [hallocate, Outcome.andThen_ok, Exec.run_bind, honPage, Outcome.andThen_ok,
    run_initializeLeafPage, Exec.run_bind, hflush]
  rfl

/-- A tree is created on a relation with room for one more page. -/
lemma create_eq_ok {keyType : BTreeKeyType} (h : (create indexId keyType).run s = .ok tree s') :
    ∃ pages, PageStore.pages s (.index indexId) = some pages ∧
      pages.length < PageStore.maxPages σ := by
  by_contra hnone
  push Not at hnone
  obtain ⟨e, s₁, hrun, -⟩ := PageStore.allocate_err (s := s) (r := .index indexId)
    fun pages hpages => le_antisymm (PageStore.length_le hpages) (hnone pages hpages)
  unfold create at h
  rw [Exec.run_bind, Exec.run_mapErr, hrun, Outcome.mapErr_err, Outcome.andThen_err] at h
  cases h

end Create

/-- A single leaf without a link is a tree. -/
lemma wired_leaf {root : PageId} {es : List LeafEntry} (h : nodes root = .leaf ⟨es, none⟩) :
    Wired root nodes [(root, ⊤)] :=
  ⟨.leaf h, linked_single (leavesOf_eq_some.mpr h)⟩

/-! ### Every run -/

section Runs

variable [UnstableSort]

lemma insert_of_keyType_ne (hk : k.keyType ≠ tree.keyType) :
    (tree.insert k r).run s = .err .invalidKeyType s := by
  have haccept : tree.acceptsKey k = false := decide_eq_false (Ne.symm hk)
  unfold insert
  rw [haccept]
  rfl

lemma delete_of_keyType_ne (hk : k.keyType ≠ tree.keyType) :
    (tree.delete k r).run s = .err .invalidKeyType s := by
  have haccept : tree.acceptsKey k = false := decide_eq_false (Ne.symm hk)
  unfold delete
  rw [haccept]
  rfl

/-- An insertion adds its row and keeps the invariant, or fails and leaves the nodes alone. -/
theorem Shows.insert_cases (hs : tree.Shows nodes n s) (hw : Wired tree.rootPageId nodes seq)
    (k : BTreeKey) (r : RowId) :
    (∃ s', (tree.insert k r).run s = .ok () s' ∧ InsertDone tree k r nodes seq s') ∨
    ∃ e s' m, (tree.insert k r).run s = .err e s' ∧ tree.Shows nodes m s' := by
  obtain ⟨d, parent, x, hd, hplace, hn⟩ := hs.exists_place hw k
  obtain ⟨z, hz, rfl⟩ := mem_of_route hplace.route_eq
  obtain ⟨l, hx⟩ := leaf_of_mem hw.linked hz
  by_cases hk : k.keyType = tree.keyType
  swap
  · exact .inr ⟨_, s, n, insert_of_keyType_ne hk, hs⟩
  by_cases hlen : k.toBytes.length ≤ u16Max
  · rcases hs.insert_spec (r := r) hw hk hlen hd hx with ⟨-, hdone⟩ | ⟨-, herr⟩
    · exact .inl hdone
    · exact .inr herr
  · obtain ⟨s', hrun, hs'⟩ := hs.insert_tooLong (r := r) hk (Nat.lt_of_not_le hlen) hd hn hx
    exact .inr ⟨_, s', n, hrun, hs'⟩

theorem Sound.insert_spec (h : tree.Sound s) (k : BTreeKey) (r : RowId) :
    (∃ n seq s', tree.Shows (tree.nodesAt s) n s ∧ Wired tree.rootPageId (tree.nodesAt s) seq ∧
      (tree.insert k r).run s = .ok () s' ∧ InsertDone tree k r (tree.nodesAt s) seq s') ∨
    ∃ e s' n, (tree.insert k r).run s = .err e s' ∧ tree.Shows (tree.nodesAt s) n s' := by
  obtain ⟨n, seq, hs, hw⟩ := h
  rcases hs.insert_cases hw k r with ⟨s', hdone⟩ | herr
  · exact .inl ⟨n, seq, s', hs, hw, hdone⟩
  · exact .inr herr

/-- A deletion keeps the invariant, also when it fails. -/
lemma Deleted.sound {e : LeafEntry} {o : Outcome BTreeError σ Bool}
    (h : Deleted tree nodes n seq parent x l e o) (hw : Wired tree.rootPageId nodes seq)
    (hroute : route seq e.key = some x) (hx : nodes x = .leaf l) (hr : o.Returns s') :
    tree.Sound s' := by
  have hstate {a : Bool} {s₁ : σ} (h : (Outcome.ok a s₁ : Outcome BTreeError σ Bool).Returns s') :
      s₁ = s' := by
    rcases h with ⟨b, hb⟩ | ⟨e, he⟩
    · exact (Outcome.ok.inj hb).2
    · cases he
  cases h with
  | absent hm hs' =>
    obtain rfl := hstate hr
    exact hs'.sound hw
  | plain hm _ hs' =>
    obtain rfl := hstate hr
    exact hs'.sound (hw.erase hx hm hroute).1
  | overflow hover hs' =>
    rcases hr with ⟨b, hb⟩ | ⟨err, herr⟩
    · cases hb
    · obtain ⟨-, rfl⟩ := Outcome.err.inj herr
      exact hs'.sound (hw.erase hx hover.1 hroute).1
  | mergeRight hm _ _ hy _ hsite hs' =>
    obtain rfl := hstate hr
    exact hs'.sound (hw.mergeRight hsite hroute hx hy hm rfl).1
  | mergeLeft hm _ _ hy _ hsite hs' =>
    obtain rfl := hstate hr
    exact hs'.sound (hw.mergeLeft hsite hroute hx hy hm rfl).1

theorem Sound.delete_returns (h : tree.Sound s) (hr : ((tree.delete k r).run s).Returns s') :
    tree.Sound s' := by
  obtain ⟨parent, x, l, hl⟩ := h.exists_leafOf k
  have hsound := h
  obtain ⟨n, seq, hs, hw⟩ := h
  by_cases hk : k.keyType = tree.keyType
  · obtain ⟨d, hd⟩ := hl.descent
    exact (hs.delete_spec hw hk hd hl.leaf_eq).sound hw (hl.route_eq hs hw) hl.leaf_eq hr
  · rw [delete_of_keyType_ne hk] at hr
    rcases hr with ⟨b, hb⟩ | ⟨e, he⟩
    · cases hb
    · obtain ⟨-, rfl⟩ := Outcome.err.inj he
      exact hsound

/-- Every reachable state satisfies the invariant. -/
theorem Reachable.sound (h : tree.Reachable s) : tree.Sound s := by
  induction h with
  | create hrun =>
    obtain ⟨pages, hpages, hlt⟩ := create_eq_ok hrun
    obtain ⟨s₁, hrun', hs⟩ := create_ok _ hpages hlt
    obtain ⟨rfl, rfl⟩ := Outcome.ok.inj (hrun'.symm.trans hrun)
    exact hs.sound (wired_leaf (Function.update_self ..))
  | @insert k r s s' _ hr ih =>
    rcases ih.insert_spec k r with ⟨_, _, s₁, -, -, hrun, _, _, _, hs, hw, -⟩ | ⟨e, s₁, n, hrun, hs⟩
    · rw [hrun] at hr
      rcases hr with ⟨a, ha⟩ | ⟨e, he⟩
      · obtain ⟨-, rfl⟩ := Outcome.ok.inj ha
        exact hs.sound hw
      · cases he
    · rw [hrun] at hr
      obtain ⟨-, seq, -, hw⟩ := ih
      rcases hr with ⟨a, ha⟩ | ⟨e, he⟩
      · cases ha
      · obtain ⟨-, rfl⟩ := Outcome.err.inj he
        exact hs.sound hw
  | delete _ hr ih => exact ih.delete_returns hr
  | elsewhere _ hpages ih =>
    obtain ⟨n, seq, hs, hw⟩ := ih
    exact (hs.congr hpages).sound hw

/-! ### Filling a tree -/

/-- A new tree satisfies `R` of no entries, and insertions that succeed keep it, of one entry more. -/
structure InsertClosed (tree : BTree) (R : List LeafEntry → σ → Prop) : Prop where
  create {indexId : IndexId} {keyType : BTreeKeyType} {s s' : σ} :
    (create indexId keyType).run s = .ok tree s' → R [] s'
  insert {es : List LeafEntry} {k : BTreeKey} {r : RowId} {s s' : σ} : R es s →
    (tree.insert k r).run s = .ok () s' → R (es ++ [⟨k, r⟩]) s'

lemma reachable_insertClosed : tree.InsertClosed fun _ s => tree.Reachable (σ := σ) s :=
  ⟨.create, fun h hrun => h.insert (.inl ⟨(), hrun⟩)⟩

variable {R : List LeafEntry → σ → Prop} {es₀ : List LeafEntry}

/-- Entries that fit the root leaf are appended to it. -/
lemma InsertClosed.fill (hR : tree.InsertClosed R) (h : R es₀ s) (hs : tree.Shows nodes n s)
    (hroot : nodes tree.rootPageId = .leaf l) (es : List LeafEntry)
    (hes : ∀ e ∈ es, LeafStorable tree.keyType e) (hfits : leafSize (l.entries ++ es) ≤ pageSize) :
    ∃ s' : σ, R (es₀ ++ es) s' ∧
      tree.Shows (Function.update nodes tree.rootPageId (.leaf ⟨l.entries ++ es, l.next⟩)) n s' := by
  induction es generalizing nodes l s es₀ with
  | nil =>
    refine ⟨s, by rwa [List.append_nil], ?_⟩
    rwa [List.append_nil, Function.update_eq_self_iff.mpr hroot.symm]
  | cons e es ih =>
    obtain ⟨k, r⟩ := e
    have hsplit (es' : List LeafEntry) : es' ++ ⟨k, r⟩ :: es = (es' ++ [⟨k, r⟩]) ++ es := by simp
    rw [hsplit] at hfits
    rw [hsplit, hsplit]
    obtain ⟨hk, hlen⟩ := leafStorable_iff.mp (hes ⟨k, r⟩ List.mem_cons_self)
    have hsize : leafSize (l.entries ++ [⟨k, r⟩]) ≤ pageSize :=
      (Nat.add_le_add_left (EntryFormat.entriesSize_le_of_sublist (List.sublist_append_left ..)) _).trans
        hfits
    obtain ⟨s₁, hrun, hs₁⟩ :=
      (hs.insert_run (r := r) hk hlen (.leaf hroot) (Nat.zero_le n) hroot).1 hsize
    obtain ⟨s', hreach', hs'⟩ := ih (hR.insert h hrun) hs₁ (Function.update_self ..)
      (fun e he => hes e (List.mem_cons_of_mem _ he)) hfits
    exact ⟨s', hreach', by rwa [Function.update_idem] at hs'⟩

/-- An entry that does not fit the root leaf splits it. -/
lemma InsertClosed.splitRoot {last : LeafEntry} (hR : tree.InsertClosed R) (h : R es₀ s) (hs : tree.Shows nodes n s)
    (hroot : nodes tree.rootPageId = .leaf l) (hn : n + 2 ≤ PageStore.maxPages σ)
    (hkr : LeafStorable tree.keyType ⟨k, r⟩) (hfull : pageSize < leafSize (l.entries ++ [⟨k, r⟩]))
    (hhalves : HalvesFit (l.entries ++ [⟨k, r⟩]))
    (hlast : (leftHalf (l.entries ++ [⟨k, r⟩])).getLast? = some last) :
    ∃ s' : σ, R (es₀ ++ [⟨k, r⟩]) s' ∧ tree.Shows (Function.update (splitNodes (PageId.new n)
      (PageId.new (n + 1)) nodes (l.entries ++ [⟨k, r⟩]) l.next) tree.rootPageId
      (.internal [⟨PageId.new n, last.key⟩] (PageId.new (n + 1)))) (n + 2) s' := by
  obtain ⟨hk, hlen⟩ := leafStorable_iff.mp hkr
  obtain ⟨page, s₁, hpage, hs₁, hrun⟩ :=
    (hs.insert_run (r := r) hk hlen (.leaf hroot) (Nat.zero_le n) hroot).2 (Nat.not_le_of_lt hfull)
  obtain ⟨s', hsplit, hs'⟩ := hs₁.rootLeafSplit_ok hpage hkr (by simp [hroot]) hn hhalves hlast
  refine ⟨s', hR.insert (k := k) (r := r) h ?_, hs'⟩
  rw [hrun, if_pos rfl, hsplit]

omit [UnstableSort] in
/-- A tree on a new file. -/
lemma exists_created (indexId : IndexId) (keyType : BTreeKeyType) : ∃ s₀ s₁ : FileStore,
    (create indexId keyType).run s₀ = .ok (open' indexId (PageId.new 0) keyType) s₁ ∧
    (open' indexId (PageId.new 0) keyType).Shows
      (Function.update (nodesOf keyType []) (PageId.new 0) (.leaf ⟨[], none⟩)) 1 s₁ := by
  have ⟨s₀, _, hpages⟩ := PageStore.create_ok FileStore.empty (.index indexId)
  have hempty : PageStore.pages s₀ (.index indexId) = some [] := by
    rw [hpages, Function.update_self]
    rfl
  exact ⟨s₀, create_ok keyType hempty (Nat.two_pow_pos 51)⟩

/-- Any entries that fit one leaf make up a tree. -/
lemma InsertClosed.exists_filled {indexId : IndexId} {keyType : BTreeKeyType} {R : List LeafEntry → FileStore → Prop}
    (hR : (open' indexId (PageId.new 0) keyType).InsertClosed R) (es : List LeafEntry)
    (hes : ∀ e ∈ es, LeafStorable keyType e) (hfits : leafSize es ≤ pageSize) :
    ∃ (s : FileStore) (nodes : PageId → Node), R es s ∧
      (open' indexId (PageId.new 0) keyType).Shows nodes 1 s ∧
      nodes (PageId.new 0) = .leaf ⟨es, none⟩ := by
  obtain ⟨s₀, s₁, hrun, hs₁⟩ := exists_created indexId keyType
  obtain ⟨s, hreach, hs⟩ := hR.fill (hR.create hrun) hs₁ (Function.update_self ..) es hes hfits
  exact ⟨s, _, hreach, hs, Function.update_self ..⟩

lemma exists_filled (indexId : IndexId) (keyType : BTreeKeyType) (es : List LeafEntry)
    (hes : ∀ e ∈ es, LeafStorable keyType e) (hfits : leafSize es ≤ pageSize) :
    ∃ (s : FileStore) (nodes : PageId → Node),
      (open' indexId (PageId.new 0) keyType).Reachable s ∧
      (open' indexId (PageId.new 0) keyType).Shows nodes 1 s ∧
      nodes (PageId.new 0) = .leaf ⟨es, none⟩ :=
  reachable_insertClosed.exists_filled es hes hfits

/-- Entries that fit two leaves, but not one. -/
lemma InsertClosed.exists_split {indexId : IndexId} {keyType : BTreeKeyType} {R : List LeafEntry → FileStore → Prop}
    (hR : (open' indexId (PageId.new 0) keyType).InsertClosed R) (last : LeafEntry)
    {es : List LeafEntry}
    (hes : ∀ e ∈ es ++ [⟨k, r⟩], LeafStorable keyType e) (hfits : leafSize es ≤ pageSize)
    (hfull : pageSize < leafSize (es ++ [⟨k, r⟩])) (hhalves : HalvesFit (es ++ [⟨k, r⟩]))
    (hlast : (leftHalf (es ++ [⟨k, r⟩])).getLast? = some last) :
    ∃ (s : FileStore) (nodes : PageId → Node), R (es ++ [⟨k, r⟩]) s ∧
      (open' indexId (PageId.new 0) keyType).Shows nodes 3 s ∧
      nodes (PageId.new 0) = .internal [⟨PageId.new 1, last.key⟩] (PageId.new 2) ∧
      nodes (PageId.new 1) = .leaf ⟨leftHalf (es ++ [⟨k, r⟩]), some (PageId.new 2)⟩ ∧
      nodes (PageId.new 2) = .leaf ⟨rightHalf (es ++ [⟨k, r⟩]), none⟩ := by
  obtain ⟨s₀, nodes₀, hreach₀, hs₀, hroot⟩ := hR.exists_filled es
    (fun e he => hes e (List.mem_append_left _ he)) hfits
  have hmax : PageStore.maxPages FileStore = 2 ^ 51 := rfl
  obtain ⟨s, hreach, hs⟩ := hR.splitRoot hreach₀ hs₀ hroot (by omega) (hes _ (by simp)) hfull
    hhalves hlast
  refine ⟨s, _, hreach, hs, Function.update_self .., ?_, ?_⟩
  · apply (Function.update_of_ne (show PageId.new 1 ≠ PageId.new 0 by decide) _ _).trans
    rw [splitNodes, Function.update_of_ne (show PageId.new 1 ≠ PageId.new (1 + 1) by decide),
      Function.update_self]
  · apply (Function.update_of_ne (show PageId.new 2 ≠ PageId.new 0 by decide) _ _).trans
    exact Function.update_self ..

end Runs

/-! ### Trees of two leaves -/

section TwoLeaves

variable {a b : PageId} {la lb : Leaf PageId LeafEntry}

/-- A root over two leaves sends the keys up to its separator to the left one. -/
lemma descent_left {root : PageId} (hroot : nodes root = .internal [⟨a, k⟩] b)
    (ha : nodes a = .leaf la) (hj : j ≤ k) : Descent nodes j 1 none root (some root) a := by
  apply Descent.step hroot
  rw [show childFor b j [⟨a, k⟩] = a from if_pos hj]
  exact .leaf ha

lemma Shows.leafOf_left (hs : tree.Shows nodes n s)
    (hroot : nodes tree.rootPageId = .internal [⟨a, k⟩] b) (ha : nodes a = .leaf la) (hj : j ≤ k) :
    tree.LeafOf s j (some tree.rootPageId) a la := by
  constructor
  · rw [hs.nodesAt_eq]
    exact ⟨1, descent_left hroot ha hj⟩
  · rw [hs.nodesAt_eq, ha]

/-- The other keys go to the right one. -/
lemma descent_right {root : PageId} (hroot : nodes root = .internal [⟨a, k⟩] b)
    (hb : nodes b = .leaf lb) (hj : k < j) : Descent nodes j 1 none root (some root) b := by
  apply Descent.step hroot
  rw [show childFor b j [⟨a, k⟩] = b from if_neg (not_le.mpr hj)]
  exact .leaf hb

lemma Shows.leafOf_right (hs : tree.Shows nodes n s)
    (hroot : nodes tree.rootPageId = .internal [⟨a, k⟩] b) (hb : nodes b = .leaf lb) (hj : k < j) :
    tree.LeafOf s j (some tree.rootPageId) b lb := by
  constructor
  · rw [hs.nodesAt_eq]
    exact ⟨1, descent_right hroot hb hj⟩
  · rw [hs.nodesAt_eq, hb]

/-- The live leaves are the two. -/
lemma seq_eq_of_twoLeaves {root : PageId} {seq : List (PageId × WithTop BTreeKey)}
    (h : Wired root nodes seq) (hroot : nodes root = .internal [⟨a, k⟩] b) (ha : nodes a = .leaf la) :
    seq = [(a, (k : WithTop BTreeKey)), (b, ⊤)] := by
  cases h.shape with
  | leaf hroot' =>
    rw [hroot] at hroot'
    cases hroot'
  | parent hroot' =>
    obtain ⟨rfl, rfl⟩ := Node.internal.inj (hroot.symm.trans hroot')
    rfl
  | grandparent hroot' hl =>
    obtain ⟨heq, -⟩ := Node.internal.inj (hroot.symm.trans hroot')
    cases heq
    rw [ha] at hl
    cases hl

/-- Sorted entries that fit two leaves in halves, but not one leaf, make up a tree of two leaves. -/
lemma InsertClosed.exists_twoLeaves {indexId : IndexId} {keyType : BTreeKeyType}
    {R : List LeafEntry → FileStore → Prop} (hR : (open' indexId (PageId.new 0) keyType).InsertClosed R)
    (last : LeafEntry)
    {left right es : List LeafEntry} {e : LeafEntry} (heq : left ++ right = es ++ [e])
    (hstorable : ∀ c ∈ left ++ right, LeafStorable keyType c)
    (hsorted : (left ++ right).Pairwise fun a b => a.key ≤ b.key)
    (hlen : (left ++ right).length / 2 = left.length) (hlast : left.getLast? = some last)
    (hleft : leafSize left ≤ pageSize) (hright : leafSize right ≤ pageSize)
    (hfits : leafSize es ≤ pageSize) (hfull : pageSize < leafSize (left ++ right)) :
    ∃ (s : FileStore) (nodes : PageId → Node), R (left ++ right) s ∧
      (open' indexId (PageId.new 0) keyType).Shows nodes 3 s ∧
      nodes (PageId.new 0) = .internal [⟨PageId.new 1, last.key⟩] (PageId.new 2) ∧
      nodes (PageId.new 1) = .leaf ⟨left, some (PageId.new 2)⟩ ∧
      nodes (PageId.new 2) = .leaf ⟨right, none⟩ := by
  obtain ⟨hl, hr⟩ := halves_of_pairwise right (fun c hc => (hstorable c hc).admits) hsorted hlen
  obtain ⟨k, r⟩ := e
  rw [heq] at hl hr hstorable hfull
  have hne : left ≠ [] := by
    rintro rfl
    cases hlast
  have := hR.exists_split last hstorable hfits hfull
    (by rw [HalvesFit, hl, hr]; exact ⟨hne, hleft, hright⟩) (by rw [hl, hlast])
  rwa [hl, hr, ← heq] at this

end TwoLeaves

end Reach

end BTree

end RdbRs
