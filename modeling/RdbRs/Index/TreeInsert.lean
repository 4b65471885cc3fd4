import RdbRs.Index.TreeInvariant

/-!
# Insertion into a tree

What `insert` does to the nodes of a tree in each of its cases: the leaf has room, the root leaf
splits, a child of the root splits and the root takes it in, or the root splits as well. Everything
else is an error that leaves the nodes alone.
-/

namespace RdbRs

open LeafChain

/-- Both halves of the entries fit a page, and the left one is not empty. -/
def HalvesFit [UnstableSort] (es : List LeafEntry) : Prop :=
  leftHalf es ≠ [] ∧ leafSize (leftHalf es) ≤ pageSize ∧ leafSize (rightHalf es) ≤ pageSize

/-- An internal page has room for one more separator. -/
def RoomFor (sep : BTreeKey) (es : List InternalEntry) : Prop :=
  internalSize es + (10 + sep.toBytes.length) ≤ pageSize

def IsChild (x : PageId) (es : List InternalEntry) (rightmost : PageId) : Prop :=
  (∃ e ∈ es, e.leftChild = x) ∨ rightmost = x

/-- When the root has no room for the separator and is split, the half the separator is sent to
has the leaf among its children, and room. -/
def RootSplits (x : PageId) (sep : BTreeKey) (es : List InternalEntry) (rightmost : PageId) : Prop :=
  ∃ promoted rest, es.drop (es.length / 2) = promoted :: rest ∧
    if sep ≤ promoted.separatorKey then
      IsChild x (es.take (es.length / 2)) promoted.leftChild ∧ RoomFor sep (es.take (es.length / 2))
    else IsChild x rest rightmost ∧ RoomFor sep rest

/-- The two pages the root becomes when it splits under the separator `sep`. -/
inductive RootHalves (x a b : PageId) (sep : BTreeKey) (promoted : InternalEntry)
    (ies rest : List InternalEntry) (rightmost : PageId) :
    List InternalEntry → PageId → List InternalEntry → PageId → Prop where
  | left {les : List InternalEntry} {leftmost : PageId} : sep ≤ promoted.separatorKey →
      ReplacedChild x a b sep ies promoted.leftChild les leftmost → RoomFor sep ies →
      RootHalves x a b sep promoted ies rest rightmost les leftmost rest rightmost
  | right {res : List InternalEntry} {rightmost' : PageId} : promoted.separatorKey < sep →
      ReplacedChild x a b sep rest rightmost res rightmost' → RoomFor sep rest →
      RootHalves x a b sep promoted ies rest rightmost ies promoted.leftChild res rightmost'

/-- When an insertion of `e` into the leaf `x` with the entries `es`, below `parent`, succeeds. -/
def InsertFits [UnstableSort] (root : PageId) (nodes : PageId → Node) (parent : Option PageId)
    (x : PageId) (es : List LeafEntry) (e : LeafEntry) : Prop :=
  leafSize (es ++ [e]) ≤ pageSize ∨
    HalvesFit (es ++ [e]) ∧ (parent = none ∨ parent = some root ∧
      ∀ ies rightmost last, nodes root = .internal ies rightmost →
        (leftHalf (es ++ [e])).getLast? = some last →
        RoomFor last.key ies ∨ RootSplits x last.key ies rightmost)

/-! ### The leaves -/

/-- The nodes after a leaf with the entries `es` has been split to the pages `a` and `b`. -/
def splitNodes [UnstableSort] (a b : PageId) (nodes : PageId → Node) (es : List LeafEntry) (next : Option PageId) :
    PageId → Node :=
  Function.update (Function.update nodes a (.leaf ⟨leftHalf es, some b⟩)) b (.leaf ⟨rightHalf es, next⟩)

section Leaves

variable [UnstableSort] {t : BTreeKeyType} {nodes : PageId → Node} {x a b : PageId}
  {leaf' : PageId → Option (Leaf PageId LeafEntry)} {pre post : List (PageId × WithTop BTreeKey)}
  {u : WithTop BTreeKey} {l : Leaf PageId LeafEntry} {e last : LeafEntry} {es : List LeafEntry}

lemma halves_pairwise (hes : ∀ e ∈ es, e.key.keyType = t) :
    (leftHalf es ++ rightHalf es).Pairwise fun a b => a.key ≤ b.key := by
  rw [leftHalf_append_rightHalf]
  exact sortLeafEntries_pairwise hes

/-- The last entry of the left half separates the halves. -/
lemma last_separates (hes : ∀ e ∈ es, e.key.keyType = t)
    (hlast : (leftHalf es).getLast? = some last) :
    (∀ c ∈ leftHalf es, c.key ≤ last.key) ∧ ∀ c ∈ rightHalf es, last.key ≤ c.key := by
  obtain ⟨front, hfront⟩ : ∃ front, leftHalf es = front ++ [last] :=
    List.getLast?_eq_some_iff.mp hlast
  obtain ⟨hleft, -, hcross⟩ := List.pairwise_append.mp (halves_pairwise hes)
  constructor
  · intro c hc
    rw [hfront] at hleft hc
    rcases List.mem_append.mp hc with hc | hc
    · exact (List.pairwise_append.mp hleft).2.2 c hc last (by simp)
    · rw [List.mem_singleton.mp hc]
  · intro c hc
    exact hcross last (by rw [hfront]; simp) c hc

/-- The two pages of a leaf split are a split of the chain of leaves. -/
lemma split_of_halves (hs : Linked LeafEntry.key (leavesOf nodes) (pre ++ (x, u) :: post))
    (hx : nodes x = .leaf l) (htypes : ∀ c ∈ l.entries ++ [e], c.key.keyType = t)
    (hle : (e.key : WithTop BTreeKey) ≤ u) (hlt : ∀ z ∈ pre, z.2 < e.key) (hne : a ≠ b)
    (ha : nodes a = .other) (hb : nodes b = .other)
    (hlast : (leftHalf (l.entries ++ [e])).getLast? = some last)
    (ha' : leaf' a = some ⟨leftHalf (l.entries ++ [e]), some b⟩)
    (hb' : leaf' b = some ⟨rightHalf (l.entries ++ [e]), l.next⟩)
    (hframe : ∀ p, p ≠ a → p ≠ b → p ≠ x → leaf' p = leavesOf nodes p)
    (hkeep : pre = [] ∨ leaf' x = leavesOf nodes x) :
    Split LeafEntry.key (leavesOf nodes) leaf' pre x u l e a b
      (leftHalf (l.entries ++ [e])) (rightHalf (l.entries ++ [e])) last.key := by
  obtain ⟨l₀, hl₀⟩ := hs.at
  obtain rfl : l₀ = l := by
    have := leavesOf_eq_some.mp hl₀.leaf_eq
    rw [hx] at this
    exact (Node.leaf.inj this).symm
  obtain ⟨hlo, hhi⟩ := last_separates htypes hlast
  refine ⟨hl₀, hne, ?_, ?_, ha', hb', hframe, hkeep, leftHalf_append_rightHalf_perm _, hlo, hhi,
    ⟨last, List.mem_of_getLast? hlast, rfl⟩, hle, hlt⟩
  · simp [leavesOf, ha, Node.leaf?]
  · simp [leavesOf, hb, Node.leaf?]

end Leaves

/-! ### The children -/

section Children

variable {t : BTreeKeyType} {es es' : List InternalEntry} {rightmost rightmost' x a b : PageId}
  {sep : BTreeKey} {u : WithTop BTreeKey}

/-- The first entry of a child. -/
lemma exists_first_child (h : ∃ e ∈ es, e.leftChild = x) :
    ∃ pre s post, es = pre ++ ⟨x, s⟩ :: post ∧ ∀ e ∈ pre, e.leftChild ≠ x := by
  induction es with
  | nil => simp at h
  | cons e es ih =>
    by_cases he : e.leftChild = x
    · exact ⟨[], e.separatorKey, es, by rw [← he]; rfl, by simp⟩
    · obtain ⟨e', he', hx⟩ := h
      rcases List.mem_cons.mp he' with rfl | he'
      · exact absurd hx he
      obtain ⟨pre, s, post, rfl, hpre⟩ := ih ⟨e', he', hx⟩
      refine ⟨e :: pre, s, post, rfl, ?_⟩
      intro c hc
      rcases List.mem_cons.mp hc with rfl | hc
      · exact he
      · exact hpre c hc

lemma IsChild.replaced (h : IsChild x es rightmost) (a b : PageId) (sep : BTreeKey) :
    ∃ es' rightmost', ReplacedChild x a b sep es rightmost es' rightmost' := by
  by_cases hmem : ∃ e ∈ es, e.leftChild = x
  · obtain ⟨pre, s, post, rfl, hpre⟩ := exists_first_child hmem
    exact ⟨_, _, .inner hpre⟩
  · obtain rfl := h.resolve_left hmem
    refine ⟨_, _, .last ?_⟩
    intro e he heq
    exact hmem ⟨e, he, heq⟩

lemma ReplacedChild.size_eq (h : ReplacedChild x a b sep es rightmost es' rightmost')
    (hes : ∀ e ∈ es, InternalStorable t e) (hsep : sep.keyType = t ∧ sep.toBytes.length ≤ u16Max) :
    internalSize es' = internalSize es + (10 + sep.toBytes.length) := by
  have hes' := h.storable hes hsep
  cases h with
  | @inner pre post s _ _ =>
    have h1 := length_internalEntryBytes (hes ⟨x, s⟩ (by simp))
    have h2 := length_internalEntryBytes (hes' ⟨a, sep⟩ (by simp))
    have h3 := length_internalEntryBytes (hes' ⟨b, s⟩ (by simp))
    simp only [internalSize, EntryFormat.entriesSize_append, EntryFormat.entriesSize_cons, h1, h2, h3]
    omega
  | last _ =>
    have h2 := length_internalEntryBytes (hes' ⟨a, sep⟩ (by simp))
    simp only [internalSize, EntryFormat.entriesSize_append, EntryFormat.entriesSize_cons,
      EntryFormat.entriesSize_nil, h2]
    omega

/-- In the sequence of children the old one is replaced by the two new ones. -/
lemma ReplacedChild.children_eq (h : ReplacedChild x a b sep es rightmost es' rightmost')
    (u : WithTop BTreeKey) : ∃ pre v post, childrenOf es rightmost u = pre ++ (x, v) :: post ∧
      childrenOf es' rightmost' u = pre ++ (a, (sep : WithTop BTreeKey)) :: (b, v) :: post := by
  cases h with
  | @inner pre post s _ hpre =>
    refine ⟨pre.map fun e => (e.leftChild, (e.separatorKey : WithTop BTreeKey)), s,
      childrenOf post rightmost u, ?_, ?_⟩
    · simp [childrenOf]
    · simp [childrenOf]
  | last hes =>
    refine ⟨es.map fun e => (e.leftChild, (e.separatorKey : WithTop BTreeKey)), u, [], rfl, ?_⟩
    simp [childrenOf]

lemma childrenOf_append {es₁ es₂ : List InternalEntry} {c : InternalEntry} :
    childrenOf (es₁ ++ c :: es₂) rightmost u =
      childrenOf es₁ c.leftChild c.separatorKey ++ childrenOf es₂ rightmost u := by
  simp [childrenOf]

lemma isChild_iff : IsChild x es rightmost ↔ ∃ z ∈ childrenOf es rightmost u, z.1 = x := by
  simp [IsChild, childrenOf]

end Children

namespace BTree

lemma rootInternalSplit_ok (tree : BTree) (a b : PageId) {sep : BTreeKey}
    (hsep : sep.keyType = tree.keyType)
    (hlen : sep.toBytes.length + 23 ≤ pageSize) :
    ∃ page, HoldsInternal tree.keyType [⟨a, sep⟩] b page ∧
      ∀ {σ : Type} (s : σ), (rootInternalSplit a b sep).run s = .ok page s := by
  have hstorable : InternalStorable tree.keyType ⟨a, sep⟩ :=
    internalStorable_iff.mpr ⟨hsep, by simp only [u16Max, pageSize] at *; omega⟩
  have hsize : internalSize [⟨a, sep⟩] = 23 + sep.toBytes.length := by
    have := length_internalEntryBytes hstorable
    simp only [internalSize, EntryFormat.entriesSize_cons, EntryFormat.entriesSize_nil, this,
      internalHeaderSize]
    omega
  obtain ⟨page, hrun, hpage⟩ := (holdsInternal_emptyInternal tree.keyType b).appendEntry_ok
    (internalFormat_lawful tree.keyType) hstorable (by
      rw [List.nil_append]
      exact (hsize.trans_le (by omega)))
  refine ⟨page, hpage, fun s => ?_⟩
  simp only [rootInternalSplit, Exec.run_bind, Exec.run_mapErr, Exec.run_withLocal,
    run_initializeInternalPage, Outcome.andThen_ok, appendInternalEntry, hrun, Outcome.mapErr_ok,
    Exec.run_pure]

section Insert

variable {σ : Type} [PageStore σ] {tree : BTree} {nodes : PageId → Node} {n : Nat} {s : σ}

/-! ### Allocation -/

/-- Two pages are allocated, or the call fails for want of pages. -/
lemma Shows.allocateTwo {α : Type} (h : tree.Shows nodes n s)
    (f : PageId → PageId → Exec BTreeError σ α) :
    (n + 2 ≤ PageStore.maxPages σ → ∃ s', tree.Shows nodes (n + 2) s' ∧
      (do let a ← tree.allocatePage; let b ← tree.allocatePage; f a b).run s =
        (f (PageId.new n) (PageId.new (n + 1))).run s') ∧
    (¬ n + 2 ≤ PageStore.maxPages σ → ∃ e s' m, tree.Shows nodes m s' ∧
      (do let a ← tree.allocatePage; let b ← tree.allocatePage; f a b).run s = .err e s') := by
  have hmax := h.le_maxPages
  constructor
  · intro hn
    obtain ⟨s₁, hrun₁, h₁⟩ := h.allocatePage_ok (by omega)
    obtain ⟨s₂, hrun₂, h₂⟩ := h₁.allocatePage_ok (by omega)
    refine ⟨s₂, h₂, ?_⟩
    simp only [Exec.run_bind, hrun₁, hrun₂, Outcome.andThen_ok]
  · intro hn
    by_cases hn₁ : n < PageStore.maxPages σ
    · obtain ⟨s₁, hrun₁, h₁⟩ := h.allocatePage_ok hn₁
      obtain ⟨e, s₂, hrun₂, h₂⟩ := h₁.allocatePage_err (by omega)
      refine ⟨e, s₂, n + 1, h₂, ?_⟩
      simp only [Exec.run_bind, hrun₁, hrun₂, Outcome.andThen_ok, Outcome.andThen_err]
    · obtain ⟨e, s₁, hrun₁, h₁⟩ := h.allocatePage_err (by omega)
      refine ⟨e, s₁, n, h₁, ?_⟩
      simp only [Exec.run_bind, hrun₁, Outcome.andThen_err]

lemma Shows.other_of_le (h : tree.Shows nodes n s) {i : Nat} (hi : i < PageStore.maxPages σ)
    (hn : n ≤ i) : nodes (PageId.new i) = .other := by
  have hi' : (PageId.new i).index = i := PageId.index_new (hi.trans_le PageStore.maxPages_le)
  by_contra hne
  have := h.index_lt hne
  omega

/-! ### Splitting the root leaf -/

section Split

variable [UnstableSort] {page : Page} {es : List LeafEntry} {next : Option PageId} {e last : LeafEntry}

omit [UnstableSort] in
lemma key_length_le {t : BTreeKeyType} {c : LeafEntry} (he : LeafStorable t c) (hc : c ∈ es)
    (hfits : leafSize es ≤ pageSize) : c.key.toBytes.length + 26 ≤ pageSize := by
  have hsize := length_leafEntryBytes he
  have hle := EntryFormat.entriesSize_le_of_sublist (f := leafFormat) (List.singleton_sublist.mpr hc)
  simp only [EntryFormat.entriesSize_cons, EntryFormat.entriesSize_nil] at hle
  simp only [leafSize, leafHeaderSize] at hfits
  omega

/-- The separator of a leaf split fits a page of its own. -/
lemma separator_fits (hpage : HoldsLeaf tree.keyType es next page)
    (he : LeafStorable tree.keyType e) (hhalves : HalvesFit (es ++ [e]))
    (hlast : (leftHalf (es ++ [e])).getLast? = some last) :
    last.key.keyType = tree.keyType ∧ last.key.toBytes.length + 26 ≤ pageSize := by
  have hes := storable_leftHalf (hpage.storable_append he)
  have hmem := List.mem_of_getLast? hlast
  exact ⟨(hes last hmem).admits, key_length_le (hes last hmem) hmem hhalves.2.1⟩

/-- `root_leaf_split` after its allocations. -/
def rootLeafSplitTo (tree : BTree) (rootBytes : Page) (newEntry : LeafEntry)
    (leftPageId rightPageId : PageId) : Exec BTreeError σ Unit := do
  let (separator, leftPage, rightPage) ← Exec.mapErr .leaf
    (Exec.withLocal (rootBytes, Page.newRaw) (leafSplit rightPageId tree.keyType newEntry))
  tree.fetchAndFlushPage leftPageId leftPage
  tree.fetchAndFlushPage rightPageId rightPage
  let rootPage ← rootInternalSplit leftPageId rightPageId separator
  tree.fetchAndFlushPage tree.rootPageId rootPage

lemma rootLeafSplit_eq : (tree.rootLeafSplit page e : Exec BTreeError σ Unit) =
    (do let a ← tree.allocatePage; let b ← tree.allocatePage; rootLeafSplitTo tree page e a b) := rfl

lemma Shows.rootLeafSplit_ok (h : tree.Shows nodes n s) (hpage : HoldsLeaf tree.keyType es next page)
    (he : LeafStorable tree.keyType e) (hroot : nodes tree.rootPageId ≠ .other)
    (hn : n + 2 ≤ PageStore.maxPages σ) (hhalves : HalvesFit (es ++ [e]))
    (hlast : (leftHalf (es ++ [e])).getLast? = some last) :
    ∃ s', (tree.rootLeafSplit page e).run s = .ok () s' ∧ tree.Shows (Function.update
      (splitNodes (PageId.new n) (PageId.new (n + 1)) nodes (es ++ [e]) next) tree.rootPageId
      (.internal [⟨PageId.new n, last.key⟩] (PageId.new (n + 1)))) (n + 2) s' := by
  have hlt := h.index_lt hroot
  have hmax : PageStore.maxPages σ ≤ 2 ^ 64 := PageStore.maxPages_le
  obtain ⟨hsep, hlen⟩ := separator_fits hpage he hhalves hlast
  obtain ⟨s₀, h₀, hrun₀⟩ := (h.allocateTwo (rootLeafSplitTo tree page e)).1 hn
  obtain ⟨q, q', hsplit, hq, hq'⟩ := hpage.leafSplit_ok Page.newRaw he (PageId.new (n + 1))
    hlast hhalves.2.1 hhalves.2.2
  obtain ⟨rootPage, hrootPage, hrootRun⟩ := rootInternalSplit_ok tree (PageId.new n)
    (PageId.new (n + 1)) hsep (by omega)
  obtain ⟨s₁, hrun₁, h₁⟩ := h₀.fetchAndFlushPage_ok (p := PageId.new n)
    (by rw [PageId.index_new (by omega)]; omega) q
  obtain ⟨s₂, hrun₂, h₂⟩ := h₁.fetchAndFlushPage_ok (p := PageId.new (n + 1))
    (by rw [PageId.index_new (by omega)]; omega) q'
  obtain ⟨s₃, hrun₃, h₃⟩ := h₂.fetchAndFlushPage_ok (p := tree.rootPageId) (by omega) rootPage
  refine ⟨s₃, ?_, ?_⟩
  · rw [rootLeafSplit_eq, hrun₀]
    simp only [rootLeafSplitTo, Exec.run_bind, Exec.run_mapErr, Exec.run_withLocal, hsplit,
      Outcome.mapErr_ok, Outcome.andThen_ok, hrun₁, hrun₂, hrootRun, hrun₃]
  · rwa [hq.nodeOf_eq, hq'.nodeOf_eq, hrootPage.nodeOf_eq] at h₃

lemma Shows.rootLeafSplit_err (h : tree.Shows nodes n s) (hpage : HoldsLeaf tree.keyType es next page)
    (he : LeafStorable tree.keyType e)
    (hnot : ¬ (n + 2 ≤ PageStore.maxPages σ ∧ HalvesFit (es ++ [e]))) :
    ∃ err s' m, (tree.rootLeafSplit page e).run s = .err err s' ∧ tree.Shows nodes m s' := by
  obtain ⟨hok, herr⟩ := h.allocateTwo (rootLeafSplitTo tree page e)
  rw [rootLeafSplit_eq]
  by_cases hn : n + 2 ≤ PageStore.maxPages σ
  · obtain ⟨s₀, h₀, hrun₀⟩ := hok hn
    obtain ⟨err, pages, hsplit⟩ := hpage.leafSplit_err Page.newRaw he (PageId.new (n + 1))
      fun hhalves => hnot ⟨hn, hhalves⟩
    refine ⟨.leaf err, s₀, n + 2, hrun₀.trans ?_, h₀⟩
    simp only [rootLeafSplitTo, Exec.run_bind, Exec.run_mapErr, Exec.run_withLocal, hsplit,
      Outcome.mapErr_err, Outcome.andThen_err]
  · obtain ⟨err, s₀, m, h₀, hrun₀⟩ := herr hn
    exact ⟨err, s₀, m, hrun₀, h₀⟩

end Split

/-! ### Splitting the root page -/

section RootSplit

/-- `replace_child_after_leaf_split` fails if the leaf is no child of the page or the separator
finds no room. -/
lemma replaceChild_err {t : BTreeKeyType} {ies : List InternalEntry} {rightmost x a b : PageId}
    {sep : BTreeKey} {p : Page} (h : HoldsInternal t ies rightmost p)
    (hsep : sep.keyType = t ∧ sep.toBytes.length ≤ u16Max)
    (hnot : ¬ (IsChild x ies rightmost ∧ RoomFor sep ies)) :
    ∃ err, (replaceChildAfterLeafSplit t x a b sep).run p = .err err p := by
  by_cases hchild : IsChild x ies rightmost
  · obtain ⟨ies', rightmost', hr⟩ := hchild.replaced a b sep
    have hsize := hr.size_eq h.storable hsep
    have hroom : ¬ RoomFor sep ies := fun hroom => hnot ⟨hchild, hroom⟩
    refine ⟨_, h.replaceChild_full hr hsep ?_⟩
    rw [hsize]
    exact Nat.lt_of_not_le hroom
  · refine ⟨_, h.replaceChild_absent a b sep ?_ ?_⟩
    · intro e he heq
      exact hchild (.inl ⟨e, he, heq⟩)
    · exact fun heq => hchild (.inr heq)

/-- The part of `child_leaf_split` that splits the root, after its allocations. -/
def rootInternalPageSplitTo (tree : BTree) (parent : Page) (oldChild leftPageId rightPageId : PageId)
    (separator : BTreeKey) (leftPage rightPage : Page) (leftInternalId rightInternalId : PageId) :
    Exec BTreeError σ Unit := do
  let (rootSeparator, internalPages) ← Exec.mapErr .internal
    (Exec.withLocal (parent, Page.newRaw) (internalSplit tree.keyType))
  let replace := replaceChildAfterLeafSplit tree.keyType oldChild leftPageId rightPageId separator
  let (_, leftInternalPage, rightInternalPage) ←
    match separator.compare rootSeparator with
    | some .gt => Exec.mapErr .internal (Exec.withLocal internalPages (onRight replace))
    | some _ => Exec.mapErr .internal (Exec.withLocal internalPages (onLeft replace))
    | none => Exec.throw .invalidKeyType
  let newRoot ← rootInternalSplit leftInternalId rightInternalId rootSeparator
  tree.fetchAndFlushPage leftPageId leftPage
  tree.fetchAndFlushPage rightPageId rightPage
  tree.fetchAndFlushPage leftInternalId leftInternalPage
  tree.fetchAndFlushPage rightInternalId rightInternalPage
  tree.fetchAndFlushPage tree.rootPageId newRoot

lemma rootInternalPageSplit_eq {parent leftPage rightPage : Page} {x a b : PageId} {sep : BTreeKey} :
    (tree.rootInternalPageSplit parent x a b sep leftPage rightPage : Exec BTreeError σ Unit) =
      (do let li ← tree.allocatePage; let ri ← tree.allocatePage
          rootInternalPageSplitTo tree parent x a b sep leftPage rightPage li ri) := rfl

variable {parent : Page} {ies : List InternalEntry} {rightmost x a b : PageId} {sep : BTreeKey}

omit [PageStore σ] in
/-- The comparison that picks the half. -/
lemma compare_promoted {promoted : BTreeKey} (h : sep.keyType = promoted.keyType) :
    (sep ≤ promoted → sep.compare promoted = some .lt ∨ sep.compare promoted = some .eq) ∧
      (promoted < sep → sep.compare promoted = some .gt) := by
  rw [BTreeKey.compare_eq h]
  constructor
  · intro hle
    rcases hle.lt_or_eq with hlt | heq
    · exact .inl (by rw [if_pos hlt])
    · exact .inr (by rw [if_neg heq.not_lt, if_pos heq])
  · intro hlt
    rw [if_neg hlt.not_gt, if_neg hlt.ne']

omit [PageStore σ] in
/-- The two halves of the root with the new children. -/
lemma replace_in_half {promoted : InternalEntry} {rest les res : List InternalEntry}
    {leftmost rightmost' : PageId} {p p' : Page}
    (hp : HoldsInternal tree.keyType (ies.take (ies.length / 2)) promoted.leftChild p)
    (hp' : HoldsInternal tree.keyType rest rightmost p')
    (hsep : sep.keyType = tree.keyType ∧ sep.toBytes.length ≤ u16Max)
    (hhalves : RootHalves x a b sep promoted (ies.take (ies.length / 2)) rest rightmost
      les leftmost res rightmost') :
    ∃ q q', HoldsInternal tree.keyType les leftmost q ∧ HoldsInternal tree.keyType res rightmost' q' ∧
      ((sep ≤ promoted.separatorKey ∧
          (onLeft (replaceChildAfterLeafSplit tree.keyType x a b sep)).run (p, p') = .ok () (q, q')) ∨
        (promoted.separatorKey < sep ∧
          (onRight (replaceChildAfterLeafSplit tree.keyType x a b sep)).run (p, p') =
            .ok () (q, q'))) := by
  cases hhalves with
  | left hle hr hroom =>
    obtain ⟨q, hrun, hq⟩ := hp.replaceChild_ok hr hsep (by
      rw [hr.size_eq hp.storable hsep]
      exact hroom)
    refine ⟨q, p', hq, hp', .inl ⟨hle, ?_⟩⟩
    rw [onLeft, Exec.run_zoom, hrun, Outcome.mapState_ok]
  | right hlt hr hroom =>
    obtain ⟨q, hrun, hq⟩ := hp'.replaceChild_ok hr hsep (by
      rw [hr.size_eq hp'.storable hsep]
      exact hroom)
    refine ⟨p, q, hp, hq, .inr ⟨hlt, ?_⟩⟩
    rw [onRight, Exec.run_zoom, hrun, Outcome.mapState_ok]

lemma Shows.rootInternalPageSplit_ok {promoted : InternalEntry} {rest les res : List InternalEntry}
    {leftmost rightmost' : PageId} (h : tree.Shows nodes n s) (q q' : Page)
    (hparent : HoldsInternal tree.keyType ies rightmost parent)
    (hsep : sep.keyType = tree.keyType ∧ sep.toBytes.length ≤ u16Max)
    (hroot : nodes tree.rootPageId ≠ .other) (hn : n + 2 ≤ PageStore.maxPages σ)
    (ha : a.index < n) (hb : b.index < n)
    (hdrop : ies.drop (ies.length / 2) = promoted :: rest)
    (hhalves : RootHalves x a b sep promoted (ies.take (ies.length / 2)) rest rightmost
      les leftmost res rightmost') :
    ∃ s', (tree.rootInternalPageSplit parent x a b sep q q').run s = .ok () s' ∧
      tree.Shows (Function.update (Function.update (Function.update (Function.update (Function.update
        nodes a (nodeOf tree.keyType q)) b (nodeOf tree.keyType q'))
        (PageId.new n) (.internal les leftmost)) (PageId.new (n + 1)) (.internal res rightmost'))
        tree.rootPageId (.internal [⟨PageId.new n, promoted.separatorKey⟩] (PageId.new (n + 1))))
        (n + 2) s' := by
  have hlt := h.index_lt hroot
  have hmax : PageStore.maxPages σ ≤ 2 ^ 64 := PageStore.maxPages_le
  have hmem : promoted ∈ ies := List.mem_of_mem_drop (hdrop ▸ List.mem_cons_self)
  have hstorable := internalStorable_iff.mp (hparent.storable promoted hmem)
  have hpromoted : promoted.separatorKey.toBytes.length + 23 ≤ pageSize := by
    have hsize := length_internalEntryBytes (hparent.storable promoted hmem)
    have hle := EntryFormat.entriesSize_le_of_sublist (f := internalFormat)
      (List.singleton_sublist.mpr hmem)
    have hfits := hparent.size_le
    simp only [EntryFormat.entriesSize_cons, EntryFormat.entriesSize_nil] at hle
    simp only [internalSize, internalHeaderSize] at hfits
    omega
  obtain ⟨s₀, h₀, hrun₀⟩ :=
    (h.allocateTwo (rootInternalPageSplitTo tree parent x a b sep q q')).1 hn
  obtain ⟨p, p', hsplit, hp, hp'⟩ := hparent.internalSplit_ok Page.newRaw hdrop
  obtain ⟨r, r', hr, hr', hreplace⟩ := replace_in_half hp hp' hsep hhalves
  obtain ⟨rootPage, hrootPage, hrootRun⟩ := rootInternalSplit_ok tree (PageId.new n)
    (PageId.new (n + 1)) hstorable.1 hpromoted
  obtain ⟨s₁, hrun₁, h₁⟩ := h₀.fetchAndFlushPage_ok (p := a) (by omega) q
  obtain ⟨s₂, hrun₂, h₂⟩ := h₁.fetchAndFlushPage_ok (p := b) (by omega) q'
  obtain ⟨s₃, hrun₃, h₃⟩ := h₂.fetchAndFlushPage_ok (p := PageId.new n)
    (by rw [PageId.index_new (by omega)]; omega) r
  obtain ⟨s₄, hrun₄, h₄⟩ := h₃.fetchAndFlushPage_ok (p := PageId.new (n + 1))
    (by rw [PageId.index_new (by omega)]; omega) r'
  obtain ⟨s₅, hrun₅, h₅⟩ := h₄.fetchAndFlushPage_ok (p := tree.rootPageId) (by omega) rootPage
  refine ⟨s₅, ?_, ?_⟩
  · rw [rootInternalPageSplit_eq, hrun₀]
    simp only [rootInternalPageSplitTo, Exec.run_bind, Exec.run_mapErr, Exec.run_withLocal, hsplit,
      Outcome.mapErr_ok, Outcome.andThen_ok]
    obtain ⟨hcmple, hcmplt⟩ := compare_promoted (hsep.1.trans hstorable.1.symm)
    rcases hreplace with ⟨hle, hreplace⟩ | ⟨hlt', hreplace⟩
    · rcases hcmple hle with hcmp | hcmp <;>
      simp only [hcmp, Exec.run_bind, Exec.run_mapErr, Exec.run_withLocal, hreplace, Outcome.mapErr_ok,
        Outcome.andThen_ok, hrootRun, hrun₁, hrun₂, hrun₃, hrun₄, hrun₅]
    · simp only [hcmplt hlt', Exec.run_bind, Exec.run_mapErr, Exec.run_withLocal, hreplace,
        Outcome.mapErr_ok, Outcome.andThen_ok, hrootRun, hrun₁, hrun₂, hrun₃, hrun₄, hrun₅]
  · rwa [hr.nodeOf_eq, hr'.nodeOf_eq, hrootPage.nodeOf_eq] at h₅

lemma Shows.rootInternalPageSplit_err (h : tree.Shows nodes n s) (a b : PageId) (q q' : Page)
    (hparent : HoldsInternal tree.keyType ies rightmost parent)
    (hsep : sep.keyType = tree.keyType ∧ sep.toBytes.length ≤ u16Max)
    (hnot : ¬ (n + 2 ≤ PageStore.maxPages σ ∧ RootSplits x sep ies rightmost)) :
    ∃ e s' m, (tree.rootInternalPageSplit parent x a b sep q q').run s = .err e s' ∧
      tree.Shows nodes m s' := by
  obtain ⟨hok, herr⟩ := h.allocateTwo (rootInternalPageSplitTo tree parent x a b sep q q')
  rw [rootInternalPageSplit_eq]
  by_cases hn : n + 2 ≤ PageStore.maxPages σ
  swap
  · obtain ⟨err, s₀, m, h₀, hrun₀⟩ := herr hn
    exact ⟨err, s₀, m, hrun₀, h₀⟩
  obtain ⟨s₀, h₀, hrun₀⟩ := hok hn
  suffices hfail : ∃ e, (rootInternalPageSplitTo tree parent x a b sep q q' (PageId.new n)
      (PageId.new (n + 1))).run s₀ = .err e s₀ by
    obtain ⟨e, he⟩ := hfail
    exact ⟨e, s₀, n + 2, hrun₀.trans he, h₀⟩
  have hsplits : ¬ RootSplits x sep ies rightmost := fun hr => hnot ⟨hn, hr⟩
  rcases hdrop : ies.drop (ies.length / 2) with _ | ⟨promoted, rest⟩
  · have hnil : ies = [] := by
      have := List.drop_eq_nil_iff.mp hdrop
      apply List.length_eq_zero_iff.mp
      omega
    have hsplit := hparent.internalSplit_err Page.newRaw hnil
    exact ⟨_, by simp only [rootInternalPageSplitTo, Exec.run_bind, Exec.run_mapErr,
      Exec.run_withLocal, hsplit, Outcome.mapErr_err, Outcome.andThen_err]; rfl⟩
  have hmem : promoted ∈ ies := List.mem_of_mem_drop (hdrop ▸ List.mem_cons_self)
  obtain ⟨hcmple, hcmplt⟩ := compare_promoted (hsep.1.trans (hparent.keyType_eq hmem).symm)
  obtain ⟨p, p', hsplit, hp, hp'⟩ := hparent.internalSplit_ok Page.newRaw hdrop
  simp only [rootInternalPageSplitTo, Exec.run_bind, Exec.run_mapErr, Exec.run_withLocal, hsplit,
    Outcome.mapErr_ok, Outcome.andThen_ok]
  by_cases hle : sep ≤ promoted.separatorKey
  · obtain ⟨err, hrun⟩ := replaceChild_err (a := a) (b := b) hp hsep fun hc =>
      hsplits ⟨promoted, rest, hdrop, by rwa [if_pos hle]⟩
    refine ⟨.internal err, ?_⟩
    rcases hcmple hle with hcmp | hcmp <;>
    simp only [hcmp, Exec.run_bind, Exec.run_mapErr, Exec.run_withLocal, onLeft, Exec.run_zoom, hrun,
      Outcome.mapState_err, Outcome.mapErr_err, Outcome.andThen_err]
  · obtain ⟨err, hrun⟩ := replaceChild_err (a := a) (b := b) hp' hsep fun hc =>
      hsplits ⟨promoted, rest, hdrop, by rwa [if_neg hle]⟩
    refine ⟨.internal err, ?_⟩
    simp only [hcmplt (lt_of_not_ge hle), Exec.run_bind, Exec.run_mapErr, Exec.run_withLocal, onRight,
      Exec.run_zoom, hrun, Outcome.mapState_err, Outcome.mapErr_err, Outcome.andThen_err]

end RootSplit

/-! ### Splitting a child of the root -/

section ChildSplit

variable [UnstableSort] {page parent : Page} {es : List LeafEntry} {next : Option PageId}
  {e last : LeafEntry} {ies ies' : List InternalEntry} {rightmost rightmost' x : PageId}

/-- `child_leaf_split` after its allocations. -/
def childLeafSplitTo (tree : BTree) (parent leafBytes : Page) (oldChild : PageId)
    (newEntry : LeafEntry) (leftPageId rightPageId : PageId) : Exec BTreeError σ Unit := do
  let (separator, leftPage, rightPage) ← Exec.mapErr .leaf
    (Exec.withLocal (leafBytes, Page.newRaw) (leafSplit rightPageId tree.keyType newEntry))
  let (replaceResult, parent) ← Exec.withLocal parent (Exec.attempt
    (replaceChildAfterLeafSplit tree.keyType oldChild leftPageId rightPageId separator))
  match replaceResult with
  | .ok _ => do
    tree.fetchAndFlushPage leftPageId leftPage
    tree.fetchAndFlushPage rightPageId rightPage
    tree.fetchAndFlushPage tree.rootPageId parent
  | .error .pageFull =>
    tree.rootInternalPageSplit parent oldChild leftPageId rightPageId separator leftPage rightPage
  | .error e => Exec.throw (.internal e)

lemma childLeafSplit_eq : (tree.childLeafSplit page x e : Exec BTreeError σ Unit) =
    (do let parent ← tree.fetchPage tree.rootPageId
        let a ← tree.allocatePage; let b ← tree.allocatePage
        childLeafSplitTo tree parent page x e a b) := rfl

/-- The call up to its allocations. -/
lemma Shows.childLeafSplit_run (h : tree.Shows nodes n s) (page : Page) (x : PageId)
    (e : LeafEntry) (hroot : nodes tree.rootPageId = .internal ies rightmost) :
    ∃ parent, HoldsInternal tree.keyType ies rightmost parent ∧
      (n + 2 ≤ PageStore.maxPages σ → ∃ s', tree.Shows nodes (n + 2) s' ∧
        (tree.childLeafSplit page x e).run s =
          (childLeafSplitTo tree parent page x e (PageId.new n) (PageId.new (n + 1))).run s') ∧
      (¬ n + 2 ≤ PageStore.maxPages σ → ∃ err s' m, tree.Shows nodes m s' ∧
        (tree.childLeafSplit page x e).run s = .err err s') := by
  obtain ⟨parent, s₁, hfetch, hparent, h₁⟩ := h.fetchPage_ok (p := tree.rootPageId) (by simp [hroot])
  refine ⟨parent, holdsInternal_of_nodeOf (hparent.trans hroot), ?_⟩
  rw [childLeafSplit_eq, Exec.run_bind, hfetch, Outcome.andThen_ok]
  exact h₁.allocateTwo (childLeafSplitTo tree parent page x e)

/-- The root has room for the separator. -/
lemma Shows.childLeafSplit_room (h : tree.Shows nodes n s)
    (hpage : HoldsLeaf tree.keyType es next page) (he : LeafStorable tree.keyType e)
    (hroot : nodes tree.rootPageId = .internal ies rightmost) (hn : n + 2 ≤ PageStore.maxPages σ)
    (hhalves : HalvesFit (es ++ [e])) (hlast : (leftHalf (es ++ [e])).getLast? = some last)
    (hr : ReplacedChild x (PageId.new n) (PageId.new (n + 1)) last.key ies rightmost ies' rightmost')
    (hroom : RoomFor last.key ies) :
    ∃ s', (tree.childLeafSplit page x e).run s = .ok () s' ∧ tree.Shows (Function.update
      (splitNodes (PageId.new n) (PageId.new (n + 1)) nodes (es ++ [e]) next) tree.rootPageId
      (.internal ies' rightmost')) (n + 2) s' := by
  have hlt := h.index_lt (p := tree.rootPageId) (by simp [hroot])
  have hmax : PageStore.maxPages σ ≤ 2 ^ 64 := PageStore.maxPages_le
  obtain ⟨hsep, hlen⟩ := separator_fits hpage he hhalves hlast
  have hsep' : last.key.toBytes.length ≤ u16Max := by simp only [u16Max, pageSize] at *; omega
  obtain ⟨parent, hparent, hok, -⟩ := h.childLeafSplit_run page x e hroot
  obtain ⟨s₀, h₀, hrun₀⟩ := hok hn
  obtain ⟨q, q', hsplit, hq, hq'⟩ := hpage.leafSplit_ok Page.newRaw he (PageId.new (n + 1))
    hlast hhalves.2.1 hhalves.2.2
  obtain ⟨r, hreplace, hr'⟩ := hparent.replaceChild_ok hr ⟨hsep, hsep'⟩ (by
    rw [hr.size_eq hparent.storable ⟨hsep, hsep'⟩]
    exact hroom)
  obtain ⟨s₁, hrun₁, h₁⟩ := h₀.fetchAndFlushPage_ok (p := PageId.new n)
    (by rw [PageId.index_new (by omega)]; omega) q
  obtain ⟨s₂, hrun₂, h₂⟩ := h₁.fetchAndFlushPage_ok (p := PageId.new (n + 1))
    (by rw [PageId.index_new (by omega)]; omega) q'
  obtain ⟨s₃, hrun₃, h₃⟩ := h₂.fetchAndFlushPage_ok (p := tree.rootPageId) (by omega) r
  refine ⟨s₃, ?_, ?_⟩
  · rw [hrun₀]
    simp only [childLeafSplitTo, Exec.run_bind, Exec.run_mapErr, Exec.run_withLocal, hsplit,
      Outcome.mapErr_ok, Outcome.andThen_ok, Exec.run_attempt, hreplace, Outcome.attempt_ok, hrun₁,
      hrun₂, hrun₃]
  · rwa [hq.nodeOf_eq, hq'.nodeOf_eq, hr'.nodeOf_eq] at h₃

/-- The root has no room for the separator and is split. -/
lemma Shows.childLeafSplit_splitRoot {promoted : InternalEntry} {rest les res : List InternalEntry}
    {leftmost : PageId} (h : tree.Shows nodes n s)
    (hpage : HoldsLeaf tree.keyType es next page) (he : LeafStorable tree.keyType e)
    (hroot : nodes tree.rootPageId = .internal ies rightmost) (hn : n + 4 ≤ PageStore.maxPages σ)
    (hhalves : HalvesFit (es ++ [e])) (hlast : (leftHalf (es ++ [e])).getLast? = some last)
    (hx : IsChild x ies rightmost) (hroom : ¬ RoomFor last.key ies)
    (hdrop : ies.drop (ies.length / 2) = promoted :: rest)
    (hsplits : RootHalves x (PageId.new n) (PageId.new (n + 1)) last.key promoted
      (ies.take (ies.length / 2)) rest rightmost les leftmost res rightmost') :
    ∃ s', (tree.childLeafSplit page x e).run s = .ok () s' ∧ tree.Shows (Function.update
      (Function.update (Function.update
        (splitNodes (PageId.new n) (PageId.new (n + 1)) nodes (es ++ [e]) next)
        (PageId.new (n + 2)) (.internal les leftmost)) (PageId.new (n + 3)) (.internal res rightmost'))
        tree.rootPageId (.internal [⟨PageId.new (n + 2), promoted.separatorKey⟩] (PageId.new (n + 3))))
      (n + 4) s' := by
  have hmax : PageStore.maxPages σ ≤ 2 ^ 64 := PageStore.maxPages_le
  obtain ⟨hsep, hlen⟩ := separator_fits hpage he hhalves hlast
  have hsep' : last.key.toBytes.length ≤ u16Max := by simp only [u16Max, pageSize] at *; omega
  obtain ⟨parent, hparent, hok, -⟩ := h.childLeafSplit_run page x e hroot
  obtain ⟨s₀, h₀, hrun₀⟩ := hok (by omega)
  obtain ⟨q, q', hsplit, hq, hq'⟩ := hpage.leafSplit_ok Page.newRaw he (PageId.new (n + 1))
    hlast hhalves.2.1 hhalves.2.2
  obtain ⟨ies', rightmost'', hr⟩ := hx.replaced (PageId.new n) (PageId.new (n + 1)) last.key
  have hreplace := hparent.replaceChild_full hr ⟨hsep, hsep'⟩ (by
    rw [hr.size_eq hparent.storable ⟨hsep, hsep'⟩]
    exact Nat.lt_of_not_le hroom)
  obtain ⟨s', hrun, h'⟩ := h₀.rootInternalPageSplit_ok q q' hparent ⟨hsep, hsep'⟩
    (by simp [hroot]) hn (by rw [PageId.index_new (by omega)]; omega)
    (by rw [PageId.index_new (by omega)]; omega) hdrop hsplits
  refine ⟨s', ?_, ?_⟩
  · rw [hrun₀]
    simp only [childLeafSplitTo, Exec.run_bind, Exec.run_mapErr, Exec.run_withLocal, hsplit,
      Outcome.mapErr_ok, Outcome.andThen_ok, Exec.run_attempt, hreplace, Outcome.attempt_err, hrun]
  · rwa [hq.nodeOf_eq, hq'.nodeOf_eq] at h'

lemma Shows.childLeafSplit_err (h : tree.Shows nodes n s)
    (hpage : HoldsLeaf tree.keyType es next page) (he : LeafStorable tree.keyType e)
    (hroot : nodes tree.rootPageId = .internal ies rightmost)
    (hnot : ¬ (n + 2 ≤ PageStore.maxPages σ ∧ HalvesFit (es ++ [e]) ∧ IsChild x ies rightmost ∧
      ∀ last, (leftHalf (es ++ [e])).getLast? = some last → RoomFor last.key ies ∨
        n + 4 ≤ PageStore.maxPages σ ∧ RootSplits x last.key ies rightmost)) :
    ∃ err s' m, (tree.childLeafSplit page x e).run s = .err err s' ∧ tree.Shows nodes m s' := by
  obtain ⟨parent, hparent, hok, herr⟩ := h.childLeafSplit_run page x e hroot
  by_cases hn : n + 2 ≤ PageStore.maxPages σ
  swap
  · obtain ⟨err, s', m, h', hrun⟩ := herr hn
    exact ⟨err, s', m, hrun, h'⟩
  obtain ⟨s₀, h₀, hrun₀⟩ := hok hn
  rw [hrun₀]
  by_cases hhalves : HalvesFit (es ++ [e])
  swap
  · obtain ⟨err, pages, hsplit⟩ := hpage.leafSplit_err Page.newRaw he (PageId.new (n + 1)) hhalves
    refine ⟨.leaf err, s₀, n + 2, ?_, h₀⟩
    simp only [childLeafSplitTo, Exec.run_bind, Exec.run_mapErr, Exec.run_withLocal, hsplit,
      Outcome.mapErr_err, Outcome.andThen_err]
  obtain ⟨last, hlast⟩ : ∃ last, (leftHalf (es ++ [e])).getLast? = some last :=
    Option.isSome_iff_exists.mp (List.getLast?_isSome.mpr hhalves.1)
  obtain ⟨hsep, hlen⟩ := separator_fits hpage he hhalves hlast
  have hsep' : last.key.toBytes.length ≤ u16Max := by simp only [u16Max, pageSize] at *; omega
  obtain ⟨q, q', hsplit, hq, hq'⟩ := hpage.leafSplit_ok Page.newRaw he (PageId.new (n + 1))
    hlast hhalves.2.1 hhalves.2.2
  simp only [childLeafSplitTo, Exec.run_bind, Exec.run_mapErr, Exec.run_withLocal, hsplit,
    Outcome.mapErr_ok, Outcome.andThen_ok, Exec.run_attempt]
  by_cases hchild : IsChild x ies rightmost
  · obtain ⟨ies', rightmost', hr⟩ := hchild.replaced (PageId.new n) (PageId.new (n + 1)) last.key
    have hroom : ¬ RoomFor last.key ies := by
      intro hroom
      refine hnot ⟨hn, hhalves, hchild, fun last' hlast' => ?_⟩
      obtain rfl := Option.some.inj (hlast.symm.trans hlast')
      exact .inl hroom
    have hreplace := hparent.replaceChild_full hr ⟨hsep, hsep'⟩ (by
      rw [hr.size_eq hparent.storable ⟨hsep, hsep'⟩]
      exact Nat.lt_of_not_le hroom)
    obtain ⟨err, s', m, hrun, h'⟩ := h₀.rootInternalPageSplit_err (x := x) (PageId.new n)
      (PageId.new (n + 1)) q q' hparent ⟨hsep, hsep'⟩ (by
        rintro ⟨hn', hsplits⟩
        refine hnot ⟨hn, hhalves, hchild, fun last' hlast' => ?_⟩
        obtain rfl := Option.some.inj (hlast.symm.trans hlast')
        exact .inr ⟨hn', hsplits⟩)
    refine ⟨err, s', m, ?_, h'⟩
    simp only [hreplace, Outcome.attempt_err, Outcome.andThen_ok, hrun]
  · have hreplace := hparent.replaceChild_absent (PageId.new n) (PageId.new (n + 1)) last.key
      (fun e he heq => hchild (.inl ⟨e, he, heq⟩)) (fun heq => hchild (.inr heq))
    refine ⟨.internal .invalidPage, s₀, n + 2, ?_, h₀⟩
    simp only [hreplace, Outcome.attempt_err, Outcome.andThen_ok, Exec.run_throw]

end ChildSplit

end Insert

end BTree

end RdbRs
