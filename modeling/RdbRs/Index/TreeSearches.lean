import Mathlib.Algebra.Order.Group.Multiset
import RdbRs.Index.TextTrees

/-!
# What insertions and deletions do to searches

For every reachable tree: when an insertion succeeds, what it adds, when a deletion finds its entry,
and when a deletion takes away nothing but its row.
-/

namespace RdbRs

open LeafChain

namespace BTree

section Searches

variable {σ : Type} [PageStore σ] (tree : BTree)

/-- Every search finds what it found before, and a search for `k` one `r` more. -/
def SearchesGain (k : BTreeKey) (r : RowId) (s s' : σ) : Prop :=
  ∀ j, j.keyType = tree.keyType → ∃ rows, tree.searchRows s j = some rows ∧
    tree.searchRows s' j = some (rows + if k = j then {r} else 0)

/-- A search for `j` finds what it found before, and if `j` is `k` one `r` less. -/
def SearchLoses (k : BTreeKey) (r : RowId) (s s' : σ) (j : BTreeKey) : Prop :=
  ∃ rows, tree.searchRows s j = some ((if k = j then {r} else 0) + rows) ∧
    tree.searchRows s' j = some rows

/-- Every search finds what it found before. -/
def SearchesKeep (s s' : σ) : Prop := ∀ j, tree.searchRows s' j = tree.searchRows s j

/-- The searches find the entries. -/
def FindsEntries (m : Multiset (BTreeKey × RowId)) (s : σ) : Prop :=
  ∀ j, j.keyType = tree.keyType → tree.searchRows s j = some ((m.filter fun e => e.1 = j).map Prod.snd)

/-- The insertion has room: in the leaf; or in the two halves of the leaf, if it is the root or a
child of the root and the root takes in the separator. -/
def HasRoom [UnstableSort] (s : σ) (k : BTreeKey) (r : RowId) : Prop :=
  ∃ parent x l, tree.LeafOf s k parent x l ∧
    InsertFits tree.rootPageId (tree.nodesAt s) parent x l.entries ⟨k, r⟩

/-- The entry is not in the leaf of its key, but a search finds the row behind that leaf. -/
def Overlooks (s : σ) (k : BTreeKey) (r : RowId) : Prop :=
  ∃ parent x l rows, tree.LeafOf s k parent x l ∧ ⟨k, r⟩ ∉ l.entries ∧
    tree.RowsFrom s k l.next rows ∧ r ∈ rows

/-- Deleting the entry ends in a merge that does not fit a page. -/
def MergeOverflows (s : σ) (k : BTreeKey) (r : RowId) : Prop :=
  ∃ parent x l, tree.LeafOf s k parent x l ∧ Overflows (tree.nodesAt s) parent x l.entries ⟨k, r⟩

/-- No search that comes to `x` finds rows from `next` on. -/
def NothingBehind (s : σ) (x : PageId) (next : Option PageId) : Prop :=
  ∀ j ps rows, tree.Visits s j ps → x ∈ ps → tree.RowsFrom s j next rows → rows = 0

/-- A search that comes to `x` finds the same rows from `next` on as from `y` on. -/
def SameBehind (s : σ) (x : PageId) (next : Option PageId) (y : PageId) : Prop :=
  ∀ j ps rows rows', tree.Visits s j ps → x ∈ ps → tree.RowsFrom s j next rows →
    tree.RowsFrom s j (some y) rows' → rows = rows'

/-- Every search finds the entries of `x` once they have been moved to `y`, and nothing is lost
behind the two leaves. -/
def MovesInto (s : σ) (x : PageId) (l : Leaf PageId LeafEntry) (y : PageId)
    (ly : Leaf PageId LeafEntry) : Prop :=
  ∀ j ps, tree.Visits s j ps →
    (y ∈ ps → ∀ rows, tree.RowsFrom s j ly.next rows → rows = (rowsAt l.entries j : Multiset RowId)) ∧
    (y ∉ ps → ps.head? = some x → ∀ rows, tree.RowsFrom s j l.next rows → rows = 0) ∧
    (y ∉ ps → x ∈ ps → ps.head? ≠ some x → rowsAt l.entries j = [])

/-- Deleting the entry cuts no search off from other rows. -/
def CutsNothing (s : σ) (k : BTreeKey) (r : RowId) : Prop :=
  ∀ parent x l, tree.LeafOf s k parent x l → ⟨k, r⟩ ∈ l.entries →
    (¬ Merges (tree.nodesAt s) parent x l.entries ⟨k, r⟩ → tree.NothingBehind s x l.next) ∧
    (∀ y ly, Underfull (l.entries.erase ⟨k, r⟩) → MergesAs (tree.nodesAt s) parent x x y →
      tree.nodesAt s y = .leaf ly → tree.SameBehind s x l.next y) ∧
    (∀ y ly, Underfull (l.entries.erase ⟨k, r⟩) → MergesAs (tree.nodesAt s) parent x y x →
      tree.nodesAt s y = .leaf ly → tree.MovesInto s x l y ly)

variable {tree} {nodes nodes' : PageId → Node} {n n' : Nat} {s s' : σ}
  {seq seq' : List (PageId × WithTop BTreeKey)} {j k : BTreeKey} {r : RowId} {ps ps' : List PageId}
  {parent : Option PageId} {x y : PageId} {l ly : Leaf PageId LeafEntry}

/-! ### Insertion -/

lemma Reachable.searchesGain [UnstableSort] (h : tree.Reachable s)
    (hok : (tree.insert k r).run s = .ok () s') : tree.SearchesGain k r s s' := by
  rcases h.sound.insert_spec k r with ⟨n, seq, s₁, hs, hw, hrun, nodes', n', seq', hs', hw', hgrown⟩ |
    ⟨e, s₁, n, hrun, -⟩
  · intro j hj
    obtain ⟨-, rfl⟩ := Outcome.ok.inj (hrun.symm.trans hok)
    obtain ⟨ps, hps⟩ := hw.linked.exists_search j
    obtain ⟨ps', hps', hperm⟩ := foundRows_grown hgrown hw.linked hps
    refine ⟨_, hs.searchRows_eq hw hj hps, ?_⟩
    rw [hs'.searchRows_eq hw' hj hps', Multiset.coe_eq_coe.mpr hperm, ← Multiset.coe_add]
    by_cases heq : k = j <;> simp [heq]
  · rw [hrun] at hok
    cases hok

lemma Reachable.searchesKeep [UnstableSort] {e : BTreeError} (h : tree.Reachable s)
    (herr : (tree.insert k r).run s = .err e s') : tree.SearchesKeep s s' := by
  rcases h.sound.insert_spec k r with ⟨n, seq, s₁, -, -, hrun, -⟩ | ⟨e₁, s₁, n, hrun, hs'⟩
  · rw [hrun] at herr
    cases herr
  · obtain ⟨n₀, seq, hs, hw⟩ := h.sound
    intro j
    obtain ⟨-, rfl⟩ := Outcome.err.inj (hrun.symm.trans herr)
    exact hs.searchRows_congr hs' hw j

lemma FindsEntries.insert {m : Multiset (BTreeKey × RowId)} (h : tree.FindsEntries m s)
    (hgain : tree.SearchesGain k r s s') : tree.FindsEntries ((k, r) ::ₘ m) s' := by
  intro j hj
  obtain ⟨rows, hbefore, hafter⟩ := hgain j hj
  rw [h j hj, Option.some.injEq] at hbefore
  rw [hafter, ← hbefore, Multiset.filter_cons, Multiset.map_add, add_comm]
  by_cases heq : k = j <;> simp [heq]

lemma FindsEntries.keep {m : Multiset (BTreeKey × RowId)} (h : tree.FindsEntries m s)
    (hkeep : tree.SearchesKeep s s') : tree.FindsEntries m s' :=
  fun j hj => (hkeep j).trans (h j hj)

lemma FindsEntries.mem_iff {m : Multiset (BTreeKey × RowId)} (h : tree.FindsEntries m s)
    (hk : k.keyType = tree.keyType) : (k, r) ∈ m ↔ ∃ rows, tree.searchRows s k = some rows ∧ r ∈ rows := by
  rw [h k hk]
  simp

lemma SearchesKeep.trans {s'' : σ} (h : tree.SearchesKeep s s') (h' : tree.SearchesKeep s' s'') :
    tree.SearchesKeep s s'' :=
  fun j => (h' j).trans (h j)

lemma SearchesKeep.gain {s'' : σ} (h : tree.SearchesKeep s s') (h' : tree.SearchesGain k r s' s'') :
    tree.SearchesGain k r s s'' := by
  intro j hj
  rw [← h j]
  exact h' j hj

lemma SearchesGain.keep {s'' : σ} (h : tree.SearchesGain k r s s') (h' : tree.SearchesKeep s' s'') :
    tree.SearchesGain k r s s'' := by
  intro j hj
  rw [h' j]
  exact h j hj

/-- Changes elsewhere in the store change no search. -/
lemma Sound.searchesKeep (h : tree.Sound s)
    (hpages : PageStore.pages s' tree.relationId = PageStore.pages s tree.relationId) :
    tree.SearchesKeep s s' := by
  obtain ⟨n, seq, hs, hw⟩ := h
  exact hs.searchRows_congr (hs.congr hpages) hw

/-- A successful insertion adds one row to the searches for its key, and a failed one changes no
search. -/
theorem insert_exact [UnstableSort] (h : tree.Reachable s) (k : BTreeKey) (r : RowId) :
    (∀ s', (tree.insert k r).run s = .ok () s' → tree.SearchesGain k r s s') ∧
      ∀ e s', (tree.insert k r).run s = .err e s' → tree.SearchesKeep s s' :=
  ⟨fun _ hok => h.searchesGain hok, fun _ _ herr => h.searchesKeep herr⟩

/-- An insertion that splits the right one of two leaves. -/
theorem insert_exact_split : ∃ (s s' : FileStore) (nodes : PageId → Node),
    TwoLeaves [('a', 4000)] [('b', 4000), ('b', 4000)] ('a', 4000) s nodes ∧
    ((open' ⟨0⟩ (PageId.new 0) .varchar).insert (.repeated 'c' 1500) (.ofSlot 3)).run s = .ok () s' ∧
    (open' ⟨0⟩ (PageId.new 0) .varchar).SearchesGain (.repeated 'c' 1500) (.ofSlot 3) s s' := by
  obtain ⟨s, nodes, s', -, htree, hrun⟩ := reachable_insertClosed.exists_rightSplit
  exact ⟨s, s', nodes, htree, hrun, (insert_exact htree.reachable _ _).1 s' hrun⟩

/-- An insertion that fails leaves the nodes as they were. -/
lemma Sound.nodesAt_of_err [UnstableSort] {e : BTreeError} (h : tree.Sound s)
    (herr : (tree.insert k r).run s = .err e s') : tree.nodesAt s' = tree.nodesAt s := by
  rcases h.insert_spec k r with ⟨n, seq, s₁, -, -, hrun, -⟩ | ⟨e₁, s₁, n, hrun, hs'⟩
  · rw [hrun] at herr
    cases herr
  · obtain ⟨-, rfl⟩ := Outcome.err.inj (hrun.symm.trans herr)
    exact hs'.nodesAt_eq

/-- A key that is too long for a leaf of its own is refused. -/
lemma Sound.insert_longKey [UnstableSort] (h : tree.Sound s) (hk : k.keyType = tree.keyType)
    (hlong : pageSize < k.toBytes.length + 26) : ∃ e s', (tree.insert k r).run s = .err e s' := by
  obtain ⟨parent, x, l, hl⟩ := h.exists_leafOf k
  obtain ⟨n, seq, hs, hw⟩ := h
  obtain ⟨d, hd⟩ := hl.descent
  by_cases hlen : k.toBytes.length ≤ u16Max
  · have he : LeafStorable tree.keyType ⟨k, r⟩ := leafStorable_iff.mpr ⟨hk, hlen⟩
    have hfull {es : List LeafEntry} (hmem : ⟨k, r⟩ ∈ es) : ¬ leafSize es ≤ pageSize :=
      fun hfits => Nat.not_le_of_lt hlong (key_length_le he hmem hfits)
    rcases hs.insert_spec (r := r) hw hk hlen hd hl.leaf_eq with ⟨hfits, -⟩ | ⟨-, e, s', -, hrun, -⟩
    · exfalso
      have hmem : ⟨k, r⟩ ∈ l.entries ++ [⟨k, r⟩] := List.mem_append_right _ List.mem_cons_self
      rcases hfits with hfits | ⟨⟨-, hleft, hright⟩, -⟩
      · exact hfull hmem hfits
      · -- the entry is in one of the halves
        rw [← (leftHalf_append_rightHalf_perm _).mem_iff, List.mem_append] at hmem
        rcases hmem with hmem | hmem
        · exact hfull hmem hleft
        · exact hfull hmem hright
    · exact ⟨e, s', hrun⟩
  · obtain ⟨d', parent', x', hd', hplace, hn⟩ := hs.exists_place hw k
    obtain ⟨-, rfl, rfl⟩ := hd.unique hd'
    obtain ⟨s', hrun, -⟩ := hs.insert_tooLong (r := r) hk (Nat.lt_of_not_le hlen) hd' hn hl.leaf_eq
    exact ⟨_, s', hrun⟩

/-- An insertion succeeds exactly when it has room. -/
theorem insert_ok_iff_hasRoom [UnstableSort] (h : tree.Reachable s) (hk : k.keyType = tree.keyType)
    (hlen : k.toBytes.length ≤ 2000) (hpages : tree.pageTotal s + 4 ≤ PageStore.maxPages σ) :
    (∃ s', (tree.insert k r).run s = .ok () s') ↔ tree.HasRoom s k r := by
  obtain ⟨parent, x, l, hl⟩ := h.sound.exists_leafOf k
  obtain ⟨n, seq, hs, hw⟩ := h.sound
  rw [hs.pageTotal_eq] at hpages
  obtain ⟨d, hd⟩ := hl.descent
  have hlen' : k.toBytes.length ≤ u16Max := hlen.trans (by decide)
  constructor
  · rintro ⟨s', hok⟩
    rcases hs.insert_spec (r := r) hw hk hlen' hd hl.leaf_eq with ⟨hfits, -⟩ | ⟨-, e, s₁, m, hrun, -⟩
    · exact ⟨parent, x, l, hl, hfits⟩
    · rw [hrun] at hok
      cases hok
  · rintro ⟨parent', x', l', hl', hfits⟩
    obtain ⟨rfl, rfl, rfl⟩ := hl.unique hl'
    rcases hs.insert_spec (r := r) hw hk hlen' hd hl.leaf_eq with ⟨-, s', hrun, -⟩ | ⟨hnot, -⟩
    · exact ⟨s', hrun⟩
    · exact absurd (hnot hfits) (by omega)

/-- The insertion that splits the right one of two leaves has room. -/
theorem insert_ok_iff_hasRoom_split : ∃ (s : FileStore) (nodes : PageId → Node),
    TwoLeaves [('a', 4000)] [('b', 4000), ('b', 4000)] ('a', 4000) s nodes ∧
    (∃ s', ((open' ⟨0⟩ (PageId.new 0) .varchar).insert (.repeated 'c' 1500) (.ofSlot 3)).run s = .ok () s') ∧
    (open' ⟨0⟩ (PageId.new 0) .varchar).HasRoom s (.repeated 'c' 1500) (.ofSlot 3) := by
  obtain ⟨s, nodes, s', -, htree, hrun⟩ := reachable_insertClosed.exists_rightSplit
  refine ⟨s, nodes, htree, ⟨s', hrun⟩, (insert_ok_iff_hasRoom htree.reachable rfl ?_ ?_).mp ⟨s', hrun⟩⟩
  · rw [BTreeKey.length_toBytes_repeated rfl]
    decide
  · rw [htree.shows'.pageTotal_eq]
    decide

/-- Four rows with an empty text and five with one of 2000 bytes: the leaf is split by the number of
its entries, and the five do not fit one page. -/
theorem insert_not_ok_of_uneven_keys : ¬ ∀ (tree : BTree) (s : FileStore) (k : BTreeKey) (r : RowId),
    tree.Reachable s → k.keyType = tree.keyType → k.toBytes.length ≤ 2000 →
      tree.pageTotal s + 4 ≤ PageStore.maxPages FileStore →
      ∃ s', (tree.insert k r).run s = .ok () s' := by
  intro hall
  have hshort : SingleBytes (List.replicate 4 ('a', 0) ++ List.replicate 4 ('b', 2000)) := by decide
  have hlong : SingleBytes (List.replicate 5 ('b', 2000)) := by decide
  have hboth : SingleBytes (List.replicate 4 ('a', 0) ++ List.replicate 5 ('b', 2000)) := by decide
  have hlen : (BTreeKey.repeated 'b' 2000).toBytes.length = 2000 := BTreeKey.length_toBytes_repeated (by decide) 2000
  obtain ⟨s, nodes, hreach, hs, hroot⟩ := exists_filled ⟨0⟩ .varchar _ (hshort.storable 0)
    (by rw [hshort.leafSize_eq]; decide)
  obtain ⟨n, seq, hs', hw⟩ := hreach.sound
  rw [hs.nodesAt_eq] at hs' hw
  obtain ⟨s', hok⟩ := hall _ s (.repeated 'b' 2000) (.ofSlot 8) hreach rfl (by rw [hlen])
    (by rw [hs.pageTotal_eq]; decide)
  rcases hs.insert_spec (k := .repeated 'b' 2000) (r := .ofSlot 8) hw rfl (by rw [hlen]; decide)
    (.leaf hroot) hroot with ⟨hfits, -⟩ | ⟨-, e, s₁, m, hrun, -⟩
  · have hentries : textEntries 0 (List.replicate 4 ('a', 0) ++ List.replicate 4 ('b', 2000)) ++
        [⟨.repeated 'b' 2000, .ofSlot 8⟩] =
        textEntries 0 (List.replicate 4 ('a', 0) ++ List.replicate 5 ('b', 2000)) := rfl
    obtain ⟨-, hright⟩ := halves_texts 0 (List.replicate 4 ('a', 0)) (List.replicate 5 ('b', 2000)) hboth (by decide) rfl
    simp only [InsertFits, HalvesFit, hentries, hright] at hfits
    rcases hfits with hfits | ⟨⟨-, -, hfits⟩, -⟩
    · rw [hboth.leafSize_eq] at hfits
      exact absurd hfits (by decide)
    · rw [hlong.leafSize_eq] at hfits
      exact absurd hfits (by decide)
  · rw [hrun] at hok
    cases hok

/-! ### Deletion -/

/-- What a walk collects does not depend on the walk. -/
lemma rowsFrom_iff {o : Option PageId} {ws : List PageId} {rows : Multiset RowId}
    (hws : Walk LeafEntry.key (leavesOf (tree.nodesAt s)) j o ws) :
    tree.RowsFrom s j o rows ↔ rows = (foundRows (tree.nodesAt s) j ws : Multiset RowId) := by
  constructor
  · rintro ⟨ws', hws', rfl⟩
    rw [hws.unique hws']
  · rintro rfl
    exact ⟨ws, hws, rfl⟩

/-- A leaf holds a row of a key as often as the entry. -/
lemma mem_rowsAt {es : List LeafEntry} : r ∈ rowsAt es k ↔ ⟨k, r⟩ ∈ es := by
  simp only [rowsAt, List.mem_map, List.mem_filter, decide_eq_true_eq]
  constructor
  · rintro ⟨⟨k', r'⟩, ⟨hmem, rfl⟩, rfl⟩
    exact hmem
  · intro hmem
    exact ⟨⟨k, r⟩, ⟨hmem, rfl⟩, rfl⟩

lemma foundRows_leaf (hx : nodes x = .leaf l) : foundRows nodes k [x] = rowsAt l.entries k := by
  rw [foundRows, found_cons, foundOn_eq (leavesOf_eq_some.mpr hx), found_nil, List.append_nil]
  rfl

/-- A search for `k` finds the rows of the leaf of `k` and those behind it. -/
lemma LeafOf.searchRows_eq (hl : tree.LeafOf s k parent x l) (hs : tree.Shows (tree.nodesAt s) n s)
    (hw : Wired tree.rootPageId (tree.nodesAt s) seq) (hk : k.keyType = tree.keyType) :
    ∃ ws, Walk LeafEntry.key (leavesOf (tree.nodesAt s)) k l.next ws ∧
      tree.searchRows s k =
        some ((rowsAt l.entries k ++ foundRows (tree.nodesAt s) k ws : List RowId) : Multiset RowId) := by
  have hroute := hl.route_eq hs hw
  obtain ⟨pre, u, post, rfl, -, -⟩ := route_eq_some.mp hroute
  have hlinked := hw.linkedAt hl.leaf_eq
  obtain ⟨ws, hws⟩ := hlinked.next.exists_walk LeafEntry.key k
  obtain ⟨rs, hrs, hfound⟩ := hlinked.walk hws
  refine ⟨ws, hws, ?_⟩
  rw [hs.searchRows_eq hw hk ⟨x, hroute, hrs⟩]
  unfold foundRows
  rw [hfound, List.map_append]
  rfl

/-- A root that is a leaf is the leaf of every key. -/
lemma leafOf_root {es : List LeafEntry} {next : Option PageId}
    (hroot : tree.nodesAt s tree.rootPageId = .leaf ⟨es, next⟩) :
    tree.LeafOf s k none tree.rootPageId ⟨es, next⟩ := ⟨⟨0, .leaf hroot⟩, hroot⟩

/-- A search in a tree of one leaf. -/
lemma Sound.searchRows_root {es : List LeafEntry} (h : tree.Sound s) (hk : k.keyType = tree.keyType)
    (hroot : tree.nodesAt s tree.rootPageId = .leaf ⟨es, none⟩) :
    tree.searchRows s k = some (rowsAt es k : Multiset RowId) := by
  obtain ⟨n, seq, hs, hw⟩ := h
  obtain ⟨ws, hws, hrows⟩ := (leafOf_root hroot).searchRows_eq hs hw hk
  obtain rfl : ws = [] := hws.unique .nil
  rw [hrows]
  simp [foundRows]

/-- A deletion from a tree of one leaf. -/
lemma Sound.delete_root [UnstableSort] {es : List LeafEntry} {next : Option PageId} (h : tree.Sound s)
    (hk : k.keyType = tree.keyType) (hroot : tree.nodesAt s tree.rootPageId = .leaf ⟨es, next⟩)
    (hmem : ⟨k, r⟩ ∈ es) : ∃ s', (tree.delete k r).run s = .ok true s' ∧
      tree.nodesAt s' tree.rootPageId = .leaf ⟨es.erase ⟨k, r⟩, none⟩ := by
  obtain ⟨n, seq, hs, -⟩ := h
  obtain ⟨s', hs', hrun⟩ := hs.delete_run (r := r) hk (.leaf hroot) (Nat.zero_le n) hroot hmem
  refine ⟨s', hrun, ?_⟩
  rw [hs'.nodesAt_eq]
  exact Function.update_self ..

lemma Sound.delete_root_absent [UnstableSort] {es : List LeafEntry} {next : Option PageId} (h : tree.Sound s)
    (hk : k.keyType = tree.keyType) (hroot : tree.nodesAt s tree.rootPageId = .leaf ⟨es, next⟩)
    (hmem : ⟨k, r⟩ ∉ es) : ∃ s', (tree.delete k r).run s = .ok false s' := by
  obtain ⟨n, seq, hs, -⟩ := h
  obtain ⟨s', hrun, -⟩ := hs.delete_absent (r := r) hk (.leaf hroot) (Nat.zero_le n) hroot hmem
  exact ⟨s', hrun⟩

/-- Every search in a new tree finds nothing. -/
lemma create_finds {indexId : IndexId} {keyType : BTreeKeyType}
    (h : (create indexId keyType).run s = .ok tree s') :
    tree = open' indexId tree.rootPageId keyType ∧ tree.FindsEntries 0 s' := by
  obtain ⟨pages, hpages, hlt⟩ := create_eq_ok h
  obtain ⟨s₁, hrun, hs⟩ := create_ok keyType hpages hlt
  obtain ⟨rfl, rfl⟩ := Outcome.ok.inj (hrun.symm.trans h)
  refine ⟨rfl, ?_⟩
  intro j hj
  have hnodes := hs.nodesAt_eq
  have hroot := Function.update_self (PageId.new pages.length) (Node.leaf ⟨[], none⟩) (nodesOf keyType pages)
  rw [← hnodes] at hs hroot
  have hleaf : (open' indexId (PageId.new pages.length) keyType).LeafOf s₁ j none
      (PageId.new pages.length) ⟨[], none⟩ := ⟨⟨0, .leaf hroot⟩, hroot⟩
  obtain ⟨ws, hws, hrows⟩ := hleaf.searchRows_eq hs (wired_leaf hroot) hj
  rw [hrows]
  cases hws
  rfl

/-- `r` is missing from `a` in `b`, given what else is lost and gained. -/
lemma loses_iff {a b v w i : Multiset RowId} (h : a + v = i + b + w) : a = i + b ↔ w = v := by
  constructor
  · rintro rfl
    exact (add_left_cancel h).symm
  · rintro rfl
    exact add_right_cancel h

lemma coe_ite_row : ((if k = j then [r] else [] : List RowId) : Multiset RowId) =
    if k = j then {r} else 0 := by
  split <;> rfl

lemma searchLoses_iff (hs : tree.Shows nodes n s) (hw : Wired tree.rootPageId nodes seq)
    (hs' : tree.Shows nodes' n' s') (hw' : Wired tree.rootPageId nodes' seq')
    (hj : j.keyType = tree.keyType) (hps : Search LeafEntry.key (leavesOf nodes) seq j ps)
    (hps' : Search LeafEntry.key (leavesOf nodes') seq' j ps') :
    tree.SearchLoses k r s s' j ↔ (foundRows nodes j ps : Multiset RowId) =
      (if k = j then {r} else 0) + (foundRows nodes' j ps' : Multiset RowId) := by
  unfold SearchLoses
  rw [hs.searchRows_eq hw hj hps, hs'.searchRows_eq hw' hj hps']
  constructor
  · rintro ⟨rows, hbefore, hafter⟩
    rw [Option.some.inj hafter, Option.some.inj hbefore]
  · intro heq
    exact ⟨_, by rw [heq], rfl⟩

section Deletes

variable {err : BTreeError} {found : Bool}

lemma keyType_of_delete_ok [UnstableSort] (h : (tree.delete k r).run s = .ok found s') :
    k.keyType = tree.keyType := by
  by_contra hne
  rw [delete_of_keyType_ne hne] at h
  cases h

/-- A deletion looks for its entry in the leaf of the key only. -/
lemma Deleted.found_iff [UnstableSort] {e : LeafEntry}
    (h : Deleted tree nodes n seq parent x l e (.ok found s')) : found = true ↔ e ∈ l.entries := by
  cases h with
  | absent hm _ => simp [hm]
  | plain hm _ _ => simp [hm]
  | mergeRight hm _ _ _ _ _ _ => simp [hm]
  | mergeLeft hm _ _ _ _ _ _ => simp [hm]

/-- A deletion reports what a search for its key finds, unless it overlooks the row. -/
theorem delete_found_iff [UnstableSort] (h : tree.Reachable s) (hrun : (tree.delete k r).run s = .ok found s') :
    (found = true ↔ ∃ rows, tree.searchRows s k = some rows ∧ r ∈ rows) ↔ ¬ tree.Overlooks s k r := by
  have hk := keyType_of_delete_ok hrun
  obtain ⟨parent, x, l, hl⟩ := h.sound.exists_leafOf k
  obtain ⟨n, seq, hs, hw⟩ := h.sound
  obtain ⟨d, hd⟩ := hl.descent
  have hspec := hs.delete_spec (r := r) hw hk hd hl.leaf_eq
  rw [hrun] at hspec
  obtain ⟨ws, hws, hrows⟩ := hl.searchRows_eq hs hw hk
  have hsearch : (∃ rows, tree.searchRows s k = some rows ∧ r ∈ rows) ↔
      ⟨k, r⟩ ∈ l.entries ∨ r ∈ foundRows (tree.nodesAt s) k ws := by
    rw [hrows]
    simp [mem_rowsAt]
  have hoverlooks : tree.Overlooks s k r ↔
      ⟨k, r⟩ ∉ l.entries ∧ r ∈ foundRows (tree.nodesAt s) k ws := by
    constructor
    · rintro ⟨parent', x', l', rows, hl', hm, hfrom, hr⟩
      obtain ⟨rfl, rfl, rfl⟩ := hl.unique hl'
      rw [(rowsFrom_iff hws).mp hfrom] at hr
      exact ⟨hm, Multiset.mem_coe.mp hr⟩
    · rintro ⟨hm, hr⟩
      exact ⟨parent, x, l, _, hl, hm, (rowsFrom_iff hws).mpr rfl, Multiset.mem_coe.mpr hr⟩
  rw [hspec.found_iff, hsearch, hoverlooks]
  by_cases hm : ⟨k, r⟩ ∈ l.entries <;> by_cases hr : r ∈ foundRows (tree.nodesAt s) k ws <;>
    simp [hm, hr]

/-- A row of the right one of two leaves is found and deleted. -/
theorem delete_found_iff_twoLeaves : ∃ (s s' : FileStore) (nodes : PageId → Node),
    TwoLeaves [('a', 100), ('b', 100)] [('c', 4000), ('d', 4090)] ('b', 100) s nodes ∧
    ((open' ⟨0⟩ (PageId.new 0) .varchar).delete (.repeated 'c' 4000) (.ofSlot 2)).run s = .ok true s' ∧
    (∃ rows, (open' ⟨0⟩ (PageId.new 0) .varchar).searchRows s (.repeated 'c' 4000) = some rows ∧ .ofSlot 2 ∈ rows) ∧
    ¬ (open' ⟨0⟩ (PageId.new 0) .varchar).Overlooks s (.repeated 'c' 4000) (.ofSlot 2) := by
  obtain ⟨s, nodes, s', -, htree, -, hrun⟩ := reachable_insertClosed.exists_deleted
  have hno : ¬ (open' ⟨0⟩ (PageId.new 0) .varchar).Overlooks s (.repeated 'c' 4000) (.ofSlot 2) := by
    rintro ⟨parent, x, l, rows, hl, hm, -⟩
    obtain ⟨-, -, rfl⟩ := (htree.leafOf_right (by decide) (by decide)).unique hl
    exact hm List.mem_cons_self
  exact ⟨s, s', nodes, htree, hrun, ((delete_found_iff htree.reachable hrun).mpr hno).mp rfl, hno⟩

/-- Three rows under one key of 4000 bytes, inserted one after the other: the second is in the right
leaf after the split, where a search finds it and a deletion does not look for it. -/
theorem delete_overlooks_duplicate : ¬ ∀ (tree : BTree) (s s' : FileStore) (k : BTreeKey) (r : RowId)
    (found : Bool), tree.Reachable s → (tree.delete k r).run s = .ok found s' →
      (found = true ↔ ∃ rows, tree.searchRows s k = some rows ∧ r ∈ rows) := by
  intro hall
  obtain ⟨s, nodes, -, htree⟩ := reachable_insertClosed.exists_texts (t := ('a', 4000))
    (show SplitsInto [('a', 4000)] [('a', 4000), ('a', 4000)] by decide) rfl
  obtain ⟨s', hrun, -⟩ := htree.shows'.delete_absent (r := .ofSlot 1) rfl htree.descent_left (by decide)
    htree.left_leaf (by simp [textEntries, RowId.ofSlot]; decide)
  obtain ⟨n, seq, hs, hw⟩ := htree.reachable.sound
  obtain ⟨ws, hws, hrows⟩ := htree.leafOf_left.searchRows_eq hs hw rfl
  rw [htree.shows'.nodesAt_eq] at hws hrows
  have hwalk : Walk LeafEntry.key (leavesOf nodes) (.repeated 'a' 4000) (some (PageId.new 2))
      [PageId.new 2] := by
    apply Walk.step (leavesOf_eq_some.mpr htree.right_leaf)
    · intro e he
      obtain ⟨t, ht, hkey⟩ := text_of_mem he
      rw [hkey, List.eq_of_mem_replicate (n := 2) ht]
    · exact .nil
  rw [hws.unique hwalk] at hrows
  have hfound : RowId.ofSlot 1 ∈ foundRows nodes (.repeated 'a' 4000) [PageId.new 2] := by
    rw [foundRows_leaf htree.right_leaf]
    exact mem_rowsAt.mpr List.mem_cons_self
  have hiff := hall _ s s' _ (.ofSlot 1) false htree.reachable hrun
  exact absurd (hiff.mpr ⟨_, hrows, Multiset.mem_coe.mpr (List.mem_append_right _ hfound)⟩) (by decide)

/-- The leaf is rewritten without its entry: what was behind it is lost. -/
lemma erase_loses_iff (hs : tree.Shows (tree.nodesAt s) n s)
    (hw : Wired tree.rootPageId (tree.nodesAt s) seq) (hl : tree.LeafOf s k parent x l)
    (hm : ⟨k, r⟩ ∈ l.entries)
    (hs' : tree.Shows (erasedNodes (tree.nodesAt s) x l.entries ⟨k, r⟩) n' s') :
    (∀ j, j.keyType = tree.keyType → tree.SearchLoses k r s s' j) ↔ tree.NothingBehind s x l.next := by
  obtain ⟨hw', heffect⟩ := hw.erase hl.leaf_eq hm (hl.route_eq hs hw)
  constructor
  · intro hloses j ps rows hvisits hx hrows
    obtain ⟨hj, hps⟩ := (hs.visits_iff hw).mp hvisits
    obtain ⟨ps', hps', ⟨hx', -⟩ | ⟨-, ws, hws, hperm⟩⟩ := heffect j ps hps
    · exact absurd hx hx'
    rw [(rowsFrom_iff hws).mp hrows]
    have hcount := Multiset.coe_eq_coe.mpr hperm
    rw [← Multiset.coe_add, ← Multiset.coe_add, coe_ite_row] at hcount
    have hloses' := (searchLoses_iff hs hw hs' hw' hj hps hps').mp (hloses j hj)
    exact (loses_iff (v := 0) (by rw [hcount, add_zero])).mp hloses'
  · intro hnothing j hj
    obtain ⟨ps, hps⟩ := hw.linked.exists_search j
    obtain ⟨ps', hps', ⟨-, hne, heq⟩ | ⟨hx, ws, hws, hperm⟩⟩ := heffect j ps hps
    · apply (searchLoses_iff hs hw hs' hw' hj hps hps').mpr
      rw [heq, if_neg hne, zero_add]
    · have hzero := hnothing j ps _ ((hs.visits_iff hw).mpr ⟨hj, hps⟩) hx ((rowsFrom_iff hws).mpr rfl)
      have hcount := Multiset.coe_eq_coe.mpr hperm
      rw [← Multiset.coe_add, ← Multiset.coe_add, coe_ite_row, hzero, add_zero] at hcount
      exact (searchLoses_iff hs hw hs' hw' hj hps hps').mpr hcount

/-- The leaf takes over what is behind the leaf it is merged with. -/
lemma mergeRight_loses_iff [UnstableSort] {p : PageId} {es es' : List InternalEntry} {rightmost rightmost' : PageId}
    {pre post : List (PageId × WithTop BTreeKey)} {ua ub : WithTop BTreeKey}
    (hs : tree.Shows (tree.nodesAt s) n s) (hw : Wired tree.rootPageId (tree.nodesAt s) seq)
    (hl : tree.LeafOf s k parent x l) (hm : ⟨k, r⟩ ∈ l.entries) (hy : tree.nodesAt s y = .leaf ly)
    (hsite : MergeSite tree.rootPageId (tree.nodesAt s) seq x x y p es rightmost es' rightmost' pre
      ua ub post)
    (hs' : tree.Shows (mergedNodes (erasedNodes (tree.nodesAt s) x l.entries ⟨k, r⟩) p x y
      ⟨l.entries.erase ⟨k, r⟩, none⟩ ly es' rightmost') n' s') :
    (∀ j, j.keyType = tree.keyType → tree.SearchLoses k r s s' j) ↔ tree.SameBehind s x l.next y := by
  obtain ⟨hw', heffect⟩ := hw.mergeRight hsite (hl.route_eq hs hw) hl.leaf_eq hy hm rfl
  constructor
  · intro hloses j ps rows rows' hvisits hx hrows hrows'
    obtain ⟨hj, hps⟩ := (hs.visits_iff hw).mp hvisits
    obtain ⟨ps', hps', ⟨hx', -⟩ | ⟨-, ws, vs, hws, hvs, hperm⟩⟩ := heffect j ps hps
    · exact absurd hx hx'
    rw [(rowsFrom_iff hws).mp hrows, (rowsFrom_iff hvs).mp hrows']
    have hcount := Multiset.coe_eq_coe.mpr hperm
    rw [← Multiset.coe_add, ← Multiset.coe_add, ← Multiset.coe_add, coe_ite_row] at hcount
    exact (loses_iff hcount).mp ((searchLoses_iff hs hw hs' hw' hj hps hps').mp (hloses j hj))
  · intro hsame j hj
    obtain ⟨ps, hps⟩ := hw.linked.exists_search j
    obtain ⟨ps', hps', ⟨-, hne, hperm⟩ | ⟨hx, ws, vs, hws, hvs, hperm⟩⟩ := heffect j ps hps
    · apply (searchLoses_iff hs hw hs' hw' hj hps hps').mpr
      rw [Multiset.coe_eq_coe.mpr hperm, if_neg hne, zero_add]
    · have heq := hsame j ps _ _ ((hs.visits_iff hw).mpr ⟨hj, hps⟩) hx ((rowsFrom_iff hws).mpr rfl)
        ((rowsFrom_iff hvs).mpr rfl)
      have hcount := Multiset.coe_eq_coe.mpr hperm
      rw [← Multiset.coe_add, ← Multiset.coe_add, ← Multiset.coe_add, coe_ite_row] at hcount
      exact (searchLoses_iff hs hw hs' hw' hj hps hps').mpr ((loses_iff hcount).mpr heq)

/-- The entries of the leaf move to the one before it. -/
lemma mergeLeft_loses_iff [UnstableSort] {p : PageId} {es es' : List InternalEntry} {rightmost rightmost' : PageId}
    {pre post : List (PageId × WithTop BTreeKey)} {ua ub : WithTop BTreeKey}
    (hs : tree.Shows (tree.nodesAt s) n s) (hw : Wired tree.rootPageId (tree.nodesAt s) seq)
    (hl : tree.LeafOf s k parent x l) (hm : ⟨k, r⟩ ∈ l.entries) (hy : tree.nodesAt s y = .leaf ly)
    (hsite : MergeSite tree.rootPageId (tree.nodesAt s) seq x y x p es rightmost es' rightmost' pre
      ua ub post)
    (hs' : tree.Shows (mergedNodes (erasedNodes (tree.nodesAt s) x l.entries ⟨k, r⟩) p y x ly
      ⟨l.entries.erase ⟨k, r⟩, none⟩ es' rightmost') n' s') :
    (∀ j, j.keyType = tree.keyType → tree.SearchLoses k r s s' j) ↔ tree.MovesInto s x l y ly := by
  obtain ⟨hw', heffect⟩ := hw.mergeLeft hsite (hl.route_eq hs hw) hl.leaf_eq hy hm rfl
  -- for one key, the property is that of the case its search is in
  have hcase (j : BTreeKey) (hj : j.keyType = tree.keyType) (ps : List PageId)
      (hps : Search LeafEntry.key (leavesOf (tree.nodesAt s)) seq j ps) :
      tree.SearchLoses k r s s' j ↔
        (y ∈ ps → ∀ rows, tree.RowsFrom s j ly.next rows →
          rows = (rowsAt l.entries j : Multiset RowId)) ∧
        (y ∉ ps → ps.head? = some x → ∀ rows, tree.RowsFrom s j l.next rows → rows = 0) ∧
        (y ∉ ps → x ∈ ps → ps.head? ≠ some x → rowsAt l.entries j = []) := by
    obtain ⟨ps', hps', heffect⟩ := heffect j ps hps
    rw [searchLoses_iff hs hw hs' hw' hj hps hps']
    rcases heffect with ⟨hyps, hne, ws, hws, hperm⟩ | ⟨hyps, hhead, ws, hws, hperm⟩ |
      ⟨hyps, hxps, hhead, hne, hperm⟩ | ⟨hyps, hxps, hne, heq⟩
    · have hcount := Multiset.coe_eq_coe.mpr hperm
      rw [← Multiset.coe_add, ← Multiset.coe_add] at hcount
      rw [if_neg hne, loses_iff (by rw [zero_add, hcount])]
      simp only [hyps, forall_const, not_true, false_implies, and_true, rowsFrom_iff hws, forall_eq]
    · have hcount := Multiset.coe_eq_coe.mpr hperm
      rw [← Multiset.coe_add, ← Multiset.coe_add, coe_ite_row] at hcount
      rw [loses_iff (v := 0) (by rw [hcount, add_zero])]
      simp only [hyps, hhead, forall_const, not_true, not_false_iff, false_implies, true_and, and_true,
        rowsFrom_iff hws, forall_eq, ne_eq, implies_true]
    · have hcount := Multiset.coe_eq_coe.mpr hperm
      rw [← Multiset.coe_add] at hcount
      rw [if_neg hne, loses_iff (v := 0) (by rw [zero_add, hcount, add_zero])]
      simp only [hyps, hxps, hhead, forall_const, not_false_iff, false_implies, true_and, ne_eq,
        Multiset.coe_eq_zero]
    · have hhead : ps.head? ≠ some x := fun hhead => hxps (mem_of_head?_eq hhead)
      rw [if_neg hne, heq]
      simp [hyps, hxps, hhead]
  constructor
  · intro hloses j ps hvisits
    obtain ⟨hj, hps⟩ := (hs.visits_iff hw).mp hvisits
    exact (hcase j hj ps hps).mp (hloses j hj)
  · intro hmoves j hj
    obtain ⟨ps, hps⟩ := hw.linked.exists_search j
    exact (hcase j hj ps hps).mpr (hmoves j ps ((hs.visits_iff hw).mpr ⟨hj, hps⟩))

/-- A successful deletion takes away its row and nothing else exactly when it cuts nothing off. -/
theorem delete_exact_iff [UnstableSort] (h : tree.Reachable s) (hrun : (tree.delete k r).run s = .ok found s') :
    ((found = true → ∀ j, j.keyType = tree.keyType → tree.SearchLoses k r s s' j) ∧
      (found = false → tree.SearchesKeep s s')) ↔ tree.CutsNothing s k r := by
  have hk := keyType_of_delete_ok hrun
  obtain ⟨parent, x, l, hl⟩ := h.sound.exists_leafOf k
  obtain ⟨n, seq, hs, hw⟩ := h.sound
  obtain ⟨d, hd⟩ := hl.descent
  have hcuts (hm : ⟨k, r⟩ ∈ l.entries) : tree.CutsNothing s k r ↔
      (¬ Merges (tree.nodesAt s) parent x l.entries ⟨k, r⟩ → tree.NothingBehind s x l.next) ∧
      (∀ y ly, Underfull (l.entries.erase ⟨k, r⟩) → MergesAs (tree.nodesAt s) parent x x y →
        tree.nodesAt s y = .leaf ly → tree.SameBehind s x l.next y) ∧
      (∀ y ly, Underfull (l.entries.erase ⟨k, r⟩) → MergesAs (tree.nodesAt s) parent x y x →
        tree.nodesAt s y = .leaf ly → tree.MovesInto s x l y ly) := by
    constructor
    · intro hcuts
      exact hcuts parent x l hl hm
    · intro hcuts parent' x' l' hl' hm'
      obtain ⟨rfl, rfl, rfl⟩ := hl.unique hl'
      exact hcuts
  have hspec := hs.delete_spec (r := r) hw hk hd hl.leaf_eq
  rw [hrun] at hspec
  cases hspec with
  | absent hm hs' =>
    apply iff_of_true
    · exact ⟨by simp, fun _ => hs.searchRows_congr hs' hw⟩
    · intro parent' x' l' hl' hm'
      obtain ⟨rfl, rfl, rfl⟩ := hl.unique hl'
      exact absurd hm' hm
  | plain hm hplain hs' =>
    have hnothing : tree.CutsNothing s k r ↔ tree.NothingBehind s x l.next := by
      rw [hcuts hm]
      constructor
      · intro hall
        exact hall.1 hplain
      · intro hnothing
        exact ⟨fun _ => hnothing, fun y ly hu hpair => absurd ⟨hu, x, y, hpair⟩ hplain,
          fun y ly hu hpair => absurd ⟨hu, y, x, hpair⟩ hplain⟩
    rw [hnothing, ← erase_loses_iff hs hw hl hm hs']
    simp
  | @mergeRight _ y _ ly _ _ _ _ _ _ _ _ hm hu hpair hy _ hsite hs' =>
    have hne := (hsite.leaves hw).1
    have hsame : tree.CutsNothing s k r ↔ tree.SameBehind s x l.next y := by
      rw [hcuts hm]
      constructor
      · intro hall
        exact hall.2.1 y ly hu hpair hy
      · intro hsame
        refine ⟨fun hplain => absurd ⟨hu, x, y, hpair⟩ hplain, ?_, ?_⟩
        · intro y' ly' _ hpair' _
          obtain ⟨-, rfl⟩ := hpair.unique hpair'
          exact hsame
        · intro y' ly' _ hpair' _
          exact absurd (hpair.unique hpair').2.symm hne
    rw [hsame, ← mergeRight_loses_iff hs hw hl hm hy hsite hs']
    simp
  | @mergeLeft _ y _ ly _ _ _ _ _ _ _ _ hm hu hpair hy _ hsite hs' =>
    have hne := (hsite.leaves hw).1
    have hmoves : tree.CutsNothing s k r ↔ tree.MovesInto s x l y ly := by
      rw [hcuts hm]
      constructor
      · intro hall
        exact hall.2.2 y ly hu hpair hy
      · intro hmoves
        refine ⟨fun hplain => absurd ⟨hu, y, x, hpair⟩ hplain, ?_, ?_⟩
        · intro y' ly' _ hpair' _
          exact absurd (hpair.unique hpair').1 hne
        · intro y' ly' _ hpair' hy'
          obtain ⟨rfl, -⟩ := hpair.unique hpair'
          obtain rfl := Node.leaf.inj (hy.symm.trans hy')
          exact hmoves
    rw [hmoves, ← mergeLeft_loses_iff hs hw hl hm hy hsite hs']
    simp

/-- Deleting a row of the right one of two leaves, behind which there is none. -/
theorem delete_exact_iff_twoLeaves : ∃ (s s' : FileStore) (nodes : PageId → Node),
    TwoLeaves [('a', 100), ('b', 100)] [('c', 4000), ('d', 4090)] ('b', 100) s nodes ∧
    ((open' ⟨0⟩ (PageId.new 0) .varchar).delete (.repeated 'c' 4000) (.ofSlot 2)).run s = .ok true s' ∧
    (∀ j, j.keyType = .varchar →
      (open' ⟨0⟩ (PageId.new 0) .varchar).SearchLoses (.repeated 'c' 4000) (.ofSlot 2) s s' j) ∧
    (open' ⟨0⟩ (PageId.new 0) .varchar).CutsNothing s (.repeated 'c' 4000) (.ofSlot 2) := by
  obtain ⟨s, nodes, s', -, htree, hroomy, hrun⟩ := reachable_insertClosed.exists_deleted
  have hcuts : (open' ⟨0⟩ (PageId.new 0) .varchar).CutsNothing s (.repeated 'c' 4000) (.ofSlot 2) := by
    intro parent x l hl _
    obtain ⟨rfl, rfl, rfl⟩ := (htree.leafOf_right (by decide) (by decide)).unique hl
    refine ⟨?_, fun y ly hu => absurd hu hroomy, fun y ly hu => absurd hu hroomy⟩
    rintro - j ps rows - - ⟨ws, hws, rfl⟩
    cases hws
    rfl
  exact ⟨s, s', nodes, htree, hrun, ((delete_exact_iff htree.reachable hrun).mpr hcuts).1 rfl, hcuts⟩

/-- A text of 4088 bytes, two rows under a short key, and a greater text: the split cuts the rows of
the short key apart, and deleting the first one cuts the link that leads to the second. -/
theorem delete_hides_duplicate : ¬ ∀ (tree : BTree) (s s' : FileStore) (k : BTreeKey) (r : RowId)
    (found : Bool), tree.Reachable s → (tree.delete k r).run s = .ok found s' →
      (found = true → ∀ j, j.keyType = tree.keyType → tree.SearchLoses k r s s' j) ∧
        (found = false → tree.SearchesKeep s s') := by
  intro hall
  obtain ⟨s, nodes, -, htree⟩ := reachable_insertClosed.exists_texts (t := ('k', 1))
    (show SplitsInto [('a', 4088), ('k', 1)] [('k', 1), ('z', 4060)] by decide) rfl
  -- the left leaf is still more than half full without the row
  have herase : (textEntries 0 [('a', 4088), ('k', 1)]).erase ⟨.repeated 'k' 1, .ofSlot 1⟩ =
      textEntries 0 [('a', 4088)] := erase_second (by decide) (by decide)
  have hroomy : ¬ Underfull ((textEntries 0 [('a', 4088), ('k', 1)]).erase ⟨.repeated 'k' 1, .ofSlot 1⟩) := by
    rw [herase, Underfull, SingleBytes.leafSize_eq (by decide)]
    decide
  have hm : (⟨.repeated 'k' 1, .ofSlot 1⟩ : LeafEntry) ∈ textEntries 0 [('a', 4088), ('k', 1)] :=
    List.mem_cons_of_mem _ List.mem_cons_self
  obtain ⟨s', hrun, herased⟩ := htree.shows'.delete_roomy (r := .ofSlot 1) rfl htree.descent_left (by decide)
    htree.left_leaf hm hroomy
  have hloses := (hall _ s s' _ (.ofSlot 1) true htree.reachable hrun).1 rfl
  obtain ⟨n, seq, hs, hw⟩ := htree.reachable.sound
  have hnodes := htree.shows'.nodesAt_eq
  rw [← hnodes] at herased
  have hnothing := (erase_loses_iff hs hw htree.leafOf_left hm herased).mp hloses
  -- but there is the other row
  have hvisits : (open' ⟨0⟩ (PageId.new 0) .varchar).Visits s (.repeated 'k' 1) [PageId.new 1, PageId.new 2] := by
    unfold Visits
    rw [hnodes]
    exact ⟨rfl, 1, _, _, htree.descent_left, htree.walk (by decide) (by decide)⟩
  have hfrom : (open' ⟨0⟩ (PageId.new 0) .varchar).RowsFrom s (.repeated 'k' 1) (some (PageId.new 2))
      (foundRows nodes (.repeated 'k' 1) [PageId.new 2] : Multiset RowId) := by
    unfold RowsFrom
    rw [hnodes]
    exact ⟨_, htree.walk_right (by decide), rfl⟩
  have hempty := hnothing _ _ _ hvisits List.mem_cons_self hfrom
  rw [Multiset.coe_eq_zero, foundRows_leaf htree.right_leaf] at hempty
  have hmem : .ofSlot 2 ∈ rowsAt (textEntries 2 [('k', 1), ('z', 4060)]) (.repeated 'k' 1) :=
    mem_rowsAt.mpr List.mem_cons_self
  exact List.ne_nil_of_mem hmem hempty

/-- Without its entry a leaf gives a search for the key one row less. -/
lemma not_searchesKeep_of_erased (hs : tree.Shows (tree.nodesAt s) n s) (hw : Wired tree.rootPageId (tree.nodesAt s) seq)
    (hl : tree.LeafOf s k parent x l) (hm : ⟨k, r⟩ ∈ l.entries) (hk : k.keyType = tree.keyType)
    (hs' : tree.Shows (erasedNodes (tree.nodesAt s) x l.entries ⟨k, r⟩) n' s') : ¬ tree.SearchesKeep s s' := by
  intro hkeep
  have hk' := hkeep k
  obtain ⟨hw', heffect⟩ := hw.erase hl.leaf_eq hm (hl.route_eq hs hw)
  obtain ⟨ps, hps⟩ := hw.linked.exists_search k
  obtain ⟨ps', hps', ⟨-, hne, -⟩ | ⟨-, ws, -, hperm⟩⟩ := heffect k ps hps
  · exact hne rfl
  rw [hs.searchRows_eq hw hk hps, hs'.searchRows_eq hw' hk hps', Option.some.injEq, Multiset.coe_eq_coe] at hk'
  have hlen := hperm.length_eq
  rw [if_pos rfl, List.length_append, List.length_append, List.length_singleton, hk'.length_eq] at hlen
  omega

/-- A deletion that ends in a merge that overflows fails, after the entry has gone. -/
lemma Reachable.loses_of_overflow [UnstableSort] (h : tree.Reachable s) (hk : k.keyType = tree.keyType)
    (hover : tree.MergeOverflows s k r) :
    ∃ e s', (tree.delete k r).run s = .err e s' ∧ ¬ tree.SearchesKeep s s' := by
  obtain ⟨parent, x, l, hl, hover⟩ := hover
  obtain ⟨n, seq, hs, hw⟩ := h.sound
  obtain ⟨d, hd⟩ := hl.descent
  have hspec := hs.delete_spec (r := r) hw hk hd hl.leaf_eq
  obtain ⟨e, s', hrun⟩ := (hspec.err_iff hw).mpr hover
  rw [hrun] at hspec
  obtain ⟨hm, hs'⟩ := hspec.shows_of_err
  exact ⟨e, s', hrun, not_searchesKeep_of_erased hs hw hl hm hk hs'⟩

/-- A deletion that fails changes no search, unless it fails because a merge overflows. -/
theorem delete_err_keeps_iff [UnstableSort] (h : tree.Reachable s) :
    (∀ e s', (tree.delete k r).run s = .err e s' → tree.SearchesKeep s s') ↔
      ¬ (k.keyType = tree.keyType ∧ tree.MergeOverflows s k r) := by
  constructor
  · rintro hkeep ⟨hk, hover⟩
    obtain ⟨e, s', hrun, hnot⟩ := h.loses_of_overflow hk hover
    exact hnot (hkeep e s' hrun)
  · intro hroom e s' hrun
    by_cases hk : k.keyType = tree.keyType
    · exfalso
      obtain ⟨parent, x, l, hl⟩ := h.sound.exists_leafOf k
      obtain ⟨n, seq, hs, hw⟩ := h.sound
      obtain ⟨d, hd⟩ := hl.descent
      have hspec := hs.delete_spec (r := r) hw hk hd hl.leaf_eq
      exact hroom ⟨hk, parent, x, l, hl, (hspec.err_iff hw).mp ⟨e, s', hrun⟩⟩
    · intro j
      rw [delete_of_keyType_ne hk] at hrun
      obtain ⟨-, rfl⟩ := Outcome.err.inj hrun
      rfl

/-- Texts of 200, 3900, 3900 and 4050 bytes, the last of which splits the leaf: without the second one
the left leaf is underfull, but with the first one the right leaf does not fit a page. -/
lemma exists_mergeOverflows : ∃ s nodes,
    TwoLeaves [('a', 200), ('b', 3900)] [('c', 3900), ('d', 4050)] ('b', 3900) s nodes ∧
    (open' ⟨0⟩ (PageId.new 0) .varchar).MergeOverflows s (.repeated 'b' 3900) (.ofSlot 1) := by
  obtain ⟨s, nodes, -, htree⟩ := reachable_insertClosed.exists_texts (t := ('b', 3900))
    (show SplitsInto [('a', 200), ('b', 3900)] [('c', 3900), ('d', 4050)] by decide) rfl
  have herase : (textEntries 0 [('a', 200), ('b', 3900)]).erase ⟨.repeated 'b' 3900, .ofSlot 1⟩ =
      textEntries 0 [('a', 200)] := erase_second (by decide) (by decide)
  refine ⟨s, nodes, htree, _, _, _, htree.leafOf_left, List.mem_cons_of_mem _ List.mem_cons_self, ?_, PageId.new 2,
    ⟨textEntries 2 [('c', 3900), ('d', 4050)], none⟩, .inl ?_, ?_, ?_⟩
  · rw [herase, Underfull, SingleBytes.leafSize_eq (by decide)]
    decide
  · rw [htree.shows'.nodesAt_eq]
    exact ⟨PageId.new 0, _, _, rfl, htree.root, by simp [mergePair]⟩
  · rw [htree.shows'.nodesAt_eq]
    exact htree.right_leaf
  · rw [herase, SingleBytes.leafSize_append (by decide) (by decide)]
    decide

/-- The merge that overflows. -/
theorem delete_err_keeps_iff_overflow : ∃ (s : FileStore) (nodes : PageId → Node),
    TwoLeaves [('a', 200), ('b', 3900)] [('c', 3900), ('d', 4050)] ('b', 3900) s nodes ∧
    (open' ⟨0⟩ (PageId.new 0) .varchar).MergeOverflows s (.repeated 'b' 3900) (.ofSlot 1) ∧
    ¬ ∀ e s', ((open' ⟨0⟩ (PageId.new 0) .varchar).delete (.repeated 'b' 3900) (.ofSlot 1)).run s = .err e s' →
      (open' ⟨0⟩ (PageId.new 0) .varchar).SearchesKeep s s' := by
  obtain ⟨s, nodes, htree, hover⟩ := exists_mergeOverflows
  exact ⟨s, nodes, htree, hover, fun hkeep => (delete_err_keeps_iff htree.reachable).mp hkeep ⟨rfl, hover⟩⟩

/-- The deletion of the text of 3900 bytes fails, and a search for it finds nothing any more. -/
theorem delete_err_loses_row : ¬ ∀ (tree : BTree) (s s' : FileStore) (k : BTreeKey) (r : RowId)
    (e : BTreeError), tree.Reachable s → (tree.delete k r).run s = .err e s' → tree.SearchesKeep s s' := by
  intro hall
  obtain ⟨s, nodes, htree, hover⟩ := exists_mergeOverflows
  obtain ⟨e, s', hrun, hnot⟩ := htree.reachable.loses_of_overflow rfl hover
  exact hnot (hall _ s s' _ _ e htree.reachable hrun)

end Deletes

end Searches

end BTree

end RdbRs
