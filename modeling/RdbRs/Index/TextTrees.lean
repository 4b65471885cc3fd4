import Mathlib.Tactic.MkIffOfInductiveProp
import RdbRs.Index.TreeRuns

/-!
# Trees of texts

Entries under texts of one repeated character. Their order and their sizes are those of the characters and the
lengths, so that it is decided which of them make up a tree of two leaves.
-/

namespace RdbRs

/-- Entries under texts of one character each, for rows that are numbered from `start`. -/
def textEntries : Nat → List (Char × Nat) → List LeafEntry
  | _, [] => []
  | start, (c, n) :: texts => ⟨.repeated c n, .ofSlot start⟩ :: textEntries (start + 1) texts

/-- The bytes of a leaf with such entries. -/
def textSize (texts : List (Char × Nat)) : Nat := 14 + (texts.map fun t => 12 + t.2).sum

/-- The characters are single bytes, and the lengths fit a key. -/
def SingleBytes (texts : List (Char × Nat)) : Prop := ∀ t ∈ texts, t.1.utf8Size = 1 ∧ t.2 ≤ u16Max

instance (texts : List (Char × Nat)) : Decidable (SingleBytes texts) :=
  inferInstanceAs (Decidable (∀ t ∈ texts, t.1.utf8Size = 1 ∧ t.2 ≤ u16Max))

section Entries

variable {texts texts' : List (Char × Nat)} {t : Char × Nat} {start : Nat} {e : LeafEntry}

@[simp] lemma length_textEntries : (textEntries start texts).length = texts.length := by
  induction texts generalizing start with
  | nil => rfl
  | cons t texts ih => rw [textEntries, List.length_cons, ih, List.length_cons]

lemma textEntries_append :
    textEntries start (texts ++ texts') = textEntries start texts ++ textEntries (start + texts.length) texts' := by
  induction texts generalizing start with
  | nil => rfl
  | cons t texts ih =>
    rw [List.cons_append, textEntries, ih, textEntries, List.length_cons, List.cons_append, Nat.add_assoc,
      Nat.add_comm 1]

/-- An entry is under one of the texts. -/
lemma text_of_mem (he : e ∈ textEntries start texts) : ∃ t ∈ texts, e.key = .repeated t.1 t.2 := by
  induction texts generalizing start with
  | nil => cases he
  | cons t texts ih =>
    rcases List.mem_cons.mp he with rfl | he
    · exact ⟨t, List.mem_cons_self, rfl⟩
    · obtain ⟨u, hu, hkey⟩ := ih he
      exact ⟨u, List.mem_cons_of_mem t hu, hkey⟩

lemma entry_of_mem (ht : t ∈ texts) : ∃ e ∈ textEntries start texts, e.key = .repeated t.1 t.2 := by
  induction texts generalizing start with
  | nil => cases ht
  | cons u texts ih =>
    rcases List.mem_cons.mp ht with rfl | ht
    · exact ⟨_, List.mem_cons_self, rfl⟩
    · obtain ⟨e, he, hkey⟩ := ih ht
      exact ⟨e, List.mem_cons_of_mem _ he, hkey⟩

lemma SingleBytes.storable (h : SingleBytes texts) (start : Nat) :
    ∀ e ∈ textEntries start texts, LeafStorable .varchar e := by
  intro e he
  obtain ⟨t, ht, hkey⟩ := text_of_mem he
  obtain ⟨hsize, hlen⟩ := h t ht
  rw [leafStorable_iff, hkey, BTreeKey.length_toBytes_repeated hsize]
  exact ⟨rfl, hlen⟩

lemma SingleBytes.leafSize_eq (h : SingleBytes texts) : leafSize (textEntries start texts) = textSize texts := by
  have hsum : ((textEntries start texts).map fun e => 12 + e.key.toBytes.length) = texts.map fun t => 12 + t.2 := by
    induction texts generalizing start with
    | nil => rfl
    | cons t texts ih =>
      obtain ⟨hsize, -⟩ := h t List.mem_cons_self
      rw [textEntries, List.map_cons, ih fun u hu => h u (List.mem_cons_of_mem t hu),
        BTreeKey.length_toBytes_repeated hsize, List.map_cons]
  rw [leafSize_eq_sum (h.storable start), hsum, textSize]

/-- The bytes do not depend on the rows. -/
lemma SingleBytes.leafSize_append (h : SingleBytes texts) (h' : SingleBytes texts') (start start' : Nat) :
    leafSize (textEntries start texts ++ textEntries start' texts') = textSize (texts ++ texts') := by
  have hleft : leafSize (textEntries start texts) = _ := h.leafSize_eq
  have hright : leafSize (textEntries start' texts') = _ := h'.leafSize_eq
  simp only [leafSize, leafHeaderSize, textSize, EntryFormat.entriesSize_append, List.map_append,
    List.sum_append] at hleft hright ⊢
  omega

lemma pairwise_textEntries (h : texts.Pairwise fun t u => t = u ∨ t.1 < u.1 ∧ 0 < u.2) :
    (textEntries start texts).Pairwise fun a b => a.key ≤ b.key := by
  induction h generalizing start with
  | nil => exact .nil
  | cons hfirst _ ih =>
    refine List.pairwise_cons.mpr ⟨?_, ih⟩
    intro e he
    obtain ⟨u, hu, hkey⟩ := text_of_mem he
    rw [hkey]
    rcases hfirst u hu with rfl | ⟨hlt, hpos⟩
    · exact le_rfl
    · exact (BTreeKey.repeated_lt hlt hpos).le

/-- Texts of different characters are different keys. -/
lemma nodup_textEntries (h : texts.Pairwise fun t u => t.1 < u.1 ∧ 0 < u.2) :
    ((textEntries start texts).map LeafEntry.key).Nodup := by
  induction h generalizing start with
  | nil => exact .nil
  | cons hfirst _ ih =>
    rw [textEntries, List.map_cons, List.nodup_cons]
    refine ⟨?_, ih⟩
    intro hmem
    obtain ⟨e, he, heq⟩ := List.mem_map.mp hmem
    obtain ⟨u, hu, hkey⟩ := text_of_mem he
    obtain ⟨hlt, hpos⟩ := hfirst u hu
    exact (BTreeKey.repeated_lt hlt hpos).ne (heq.symm.trans hkey)

/-- The second of two texts is not the first one. -/
lemma erase_second {c c' : Char} {n n' : Nat} (hc : c < c') (hn : 0 < n') :
    (textEntries 0 [(c, n), (c', n')]).erase ⟨.repeated c' n', .ofSlot 1⟩ = textEntries 0 [(c, n)] := by
  have hne : BTreeKey.repeated c n ≠ .repeated c' n' := (BTreeKey.repeated_lt hc hn).ne
  simp [textEntries, hne]

/-- Sorted texts are cut in the middle, however equal ones are ordered. -/
lemma halves_texts (start : Nat) (texts texts' : List (Char × Nat)) (hbytes : SingleBytes (texts ++ texts'))
    (hsorted : (texts ++ texts').Pairwise fun t u => t = u ∨ t.1 < u.1 ∧ 0 < u.2)
    (hmiddle : (texts ++ texts').length / 2 = texts.length) :
    leftHalf (textEntries start (texts ++ texts')) = textEntries start texts ∧
      rightHalf (textEntries start (texts ++ texts')) = textEntries (start + texts.length) texts' := by
  have hstorable := hbytes.storable start
  have hpairwise : (textEntries start (texts ++ texts')).Pairwise fun a b => a.key ≤ b.key :=
    pairwise_textEntries hsorted
  have hlen : (textEntries start (texts ++ texts')).length / 2 = (textEntries start texts).length := by
    rw [length_textEntries, length_textEntries, hmiddle]
  rw [textEntries_append] at hstorable hpairwise hlen ⊢
  exact halves_of_pairwise _ (fun e he => (hstorable e he).admits) hpairwise hlen

end Entries

/-! ### Two leaves -/

/-- Sorted texts that two leaves hold, and that one does not. -/
@[mk_iff]
structure SplitsInto (left right : List (Char × Nat)) : Prop where
  bytes : SingleBytes (left ++ right)
  sorted : (left ++ right).Pairwise fun t u => t = u ∨ t.1 < u.1 ∧ 0 < u.2
  middle : (left ++ right).length / 2 = left.length
  left_fits : textSize left ≤ pageSize
  right_fits : textSize right ≤ pageSize
  rest_fits : textSize (left ++ right).dropLast ≤ pageSize
  full : pageSize < textSize (left ++ right)

instance (left right : List (Char × Nat)) : Decidable (SplitsInto left right) :=
  decidable_of_iff _ (splitsInto_iff left right).symm

namespace BTree

open LeafChain

variable {R : List LeafEntry → FileStore → Prop} {left right : List (Char × Nat)} {t : Char × Nat}

/-- The tree of two leaves that such texts make up. -/
structure TwoLeaves (left right : List (Char × Nat)) (t : Char × Nat) (s : FileStore) (nodes : PageId → Node) :
    Prop where
  reachable : (open' ⟨0⟩ (PageId.new 0) .varchar).Reachable s
  shows' : (open' ⟨0⟩ (PageId.new 0) .varchar).Shows nodes 3 s
  root : nodes (PageId.new 0) = .internal [⟨PageId.new 1, .repeated t.1 t.2⟩] (PageId.new 2)
  left_leaf : nodes (PageId.new 1) = .leaf ⟨textEntries 0 left, some (PageId.new 2)⟩
  right_leaf : nodes (PageId.new 2) = .leaf ⟨textEntries left.length right, none⟩

lemma InsertClosed.exists_texts (hR : (open' ⟨0⟩ (PageId.new 0) .varchar).InsertClosed R)
    (h : SplitsInto left right) (ht : left.getLast? = some t) :
    ∃ s nodes, R (textEntries 0 (left ++ right)) s ∧ TwoLeaves left right t s nodes := by
  have hboth : (open' ⟨0⟩ (PageId.new 0) .varchar).InsertClosed fun es s =>
      R es s ∧ (open' ⟨0⟩ (PageId.new 0) .varchar).Reachable s :=
    ⟨fun hrun => ⟨hR.create hrun, .create hrun⟩,
      fun h hrun => ⟨hR.insert h.1 hrun, h.2.insert (.inl ⟨(), hrun⟩)⟩⟩
  have happend : textEntries 0 left ++ textEntries left.length right = textEntries 0 (left ++ right) := by
    rw [textEntries_append, Nat.zero_add]
  -- the last text is the one that splits the leaf
  have hne : left ++ right ≠ [] := by
    obtain ⟨init, rfl⟩ := List.getLast?_eq_some_iff.mp ht
    simp
  obtain ⟨e, hlastText⟩ : ∃ e, textEntries 0 (left ++ right) = textEntries 0 (left ++ right).dropLast ++ [e] := by
    obtain ⟨init, ⟨c, n⟩, heq⟩ : ∃ init u, left ++ right = init ++ [u] :=
      ⟨_, _, (List.dropLast_append_getLast hne).symm⟩
    rw [heq, List.dropLast_concat, textEntries_append]
    exact ⟨_, rfl⟩
  have hlast : (textEntries 0 left).getLast? = some ⟨.repeated t.1 t.2, .ofSlot (left.length - 1)⟩ := by
    obtain ⟨init, rfl⟩ := List.getLast?_eq_some_iff.mp ht
    rw [textEntries_append, List.getLast?_append]
    simp [textEntries]
  have hsub {texts : List (Char × Nat)} (hsub : texts ⊆ left ++ right) : SingleBytes texts :=
    fun u hu => h.bytes u (hsub hu)
  obtain ⟨s, nodes, ⟨hs, hreach⟩, hshows, hroot, hleft, hright⟩ := hboth.exists_twoLeaves
    ⟨.repeated t.1 t.2, .ofSlot (left.length - 1)⟩ (happend.trans hlastText)
    (by rw [happend]; exact h.bytes.storable 0) (by rw [happend]; exact pairwise_textEntries h.sorted)
    (by rw [happend, length_textEntries, length_textEntries]; exact h.middle) hlast
    (by rw [(hsub (List.subset_append_left _ _)).leafSize_eq]; exact h.left_fits)
    (by rw [(hsub (List.subset_append_right _ _)).leafSize_eq]; exact h.right_fits)
    (by rw [(hsub (List.dropLast_subset _)).leafSize_eq]; exact h.rest_fits)
    (by rw [happend, h.bytes.leafSize_eq]; exact h.full)
  rw [happend] at hs
  exact ⟨s, nodes, hs, hreach, hshows, hroot, hleft, hright⟩

section Leaves

variable {s : FileStore} {nodes : PageId → Node} {c : Char} {n : Nat} (h : TwoLeaves left right t s nodes)
include h

/-- The separator is sent to the left leaf. -/
lemma TwoLeaves.descent_left :
    Descent nodes (.repeated t.1 t.2) 1 none (PageId.new 0) (some (PageId.new 0)) (PageId.new 1) :=
  BTree.descent_left h.root h.left_leaf le_rfl

lemma TwoLeaves.leafOf_left : (open' ⟨0⟩ (PageId.new 0) .varchar).LeafOf s (.repeated t.1 t.2) (some (PageId.new 0))
    (PageId.new 1) ⟨textEntries 0 left, some (PageId.new 2)⟩ :=
  h.shows'.leafOf_left h.root h.left_leaf le_rfl

/-- The texts that are greater than the separator are in the right leaf. -/
lemma TwoLeaves.descent_right (hc : t.1 < c) (hn : 0 < n) :
    Descent nodes (.repeated c n) 1 none (PageId.new 0) (some (PageId.new 0)) (PageId.new 2) :=
  BTree.descent_right h.root h.right_leaf (BTreeKey.repeated_lt hc hn)

lemma TwoLeaves.leafOf_right (hc : t.1 < c) (hn : 0 < n) : (open' ⟨0⟩ (PageId.new 0) .varchar).LeafOf s
    (.repeated c n) (some (PageId.new 0)) (PageId.new 2) ⟨textEntries left.length right, none⟩ :=
  h.shows'.leafOf_right h.root h.right_leaf (BTreeKey.repeated_lt hc hn)

/-- A search for the separator stops at the right leaf, if that one has a greater text. -/
lemma TwoLeaves.walk_right (hright : ∃ u ∈ right, t.1 < u.1 ∧ 0 < u.2) :
    Walk LeafEntry.key (leavesOf nodes) (.repeated t.1 t.2) (some (PageId.new 2)) [PageId.new 2] := by
  obtain ⟨u, hu, hlt, hpos⟩ := hright
  obtain ⟨e, he, hkey⟩ : ∃ e ∈ textEntries left.length right, e.key = .repeated u.1 u.2 := entry_of_mem hu
  apply Walk.stop (leavesOf_eq_some.mpr h.right_leaf)
  exact ⟨e, he, hkey ▸ BTreeKey.repeated_lt hlt hpos⟩

/-- It comes there over the link of the left leaf. -/
lemma TwoLeaves.walk (hleft : ∀ u ∈ left, u = t ∨ u.1 < t.1 ∧ 0 < t.2) (hright : ∃ u ∈ right, t.1 < u.1 ∧ 0 < u.2) :
    Walk LeafEntry.key (leavesOf nodes) (.repeated t.1 t.2) (some (PageId.new 1)) [PageId.new 1, PageId.new 2] := by
  apply Walk.step (leavesOf_eq_some.mpr h.left_leaf) _ (h.walk_right hright)
  intro e he
  obtain ⟨u, hu, hkey⟩ := text_of_mem he
  rw [hkey]
  rcases hleft u hu with rfl | ⟨hlt, hpos⟩
  · exact le_rfl
  · exact (BTreeKey.repeated_lt hlt hpos).le

end Leaves

/-- Two short texts and two long ones, each of which fills half a leaf. The right leaf stays more than half full
without one of them. -/
lemma InsertClosed.exists_deleted (hR : (open' ⟨0⟩ (PageId.new 0) .varchar).InsertClosed R) : ∃ s nodes s',
    R (textEntries 0 [('a', 100), ('b', 100), ('c', 4000), ('d', 4090)]) s ∧
    TwoLeaves [('a', 100), ('b', 100)] [('c', 4000), ('d', 4090)] ('b', 100) s nodes ∧
    ¬ Underfull ((textEntries 2 [('c', 4000), ('d', 4090)]).erase ⟨.repeated 'c' 4000, .ofSlot 2⟩) ∧
    ((open' ⟨0⟩ (PageId.new 0) .varchar).delete (.repeated 'c' 4000) (.ofSlot 2)).run s = .ok true s' := by
  obtain ⟨s, nodes, hs, htree⟩ := hR.exists_texts (t := ('b', 100))
    (show SplitsInto [('a', 100), ('b', 100)] [('c', 4000), ('d', 4090)] by decide) rfl
  have herase : (textEntries 2 [('c', 4000), ('d', 4090)]).erase ⟨.repeated 'c' 4000, .ofSlot 2⟩ =
      textEntries 3 [('d', 4090)] := List.erase_cons_head ..
  have hroomy : ¬ Underfull ((textEntries 2 [('c', 4000), ('d', 4090)]).erase ⟨.repeated 'c' 4000, .ofSlot 2⟩) := by
    rw [herase, Underfull, SingleBytes.leafSize_eq (by decide)]
    decide
  obtain ⟨s', hrun, -⟩ := htree.shows'.delete_roomy (k := .repeated 'c' 4000) (r := .ofSlot 2) rfl
    (htree.descent_right (by decide) (by decide)) (by decide) htree.right_leaf List.mem_cons_self hroomy
  exact ⟨s, nodes, s', hs, htree, hroomy, hrun⟩

/-- Three texts, and a fourth one that splits the right leaf. -/
lemma InsertClosed.exists_rightSplit (hR : (open' ⟨0⟩ (PageId.new 0) .varchar).InsertClosed R) : ∃ s nodes s',
    R (textEntries 0 [('a', 4000), ('b', 4000), ('b', 4000)]) s ∧
    TwoLeaves [('a', 4000)] [('b', 4000), ('b', 4000)] ('a', 4000) s nodes ∧
    ((open' ⟨0⟩ (PageId.new 0) .varchar).insert (.repeated 'c' 1500) (.ofSlot 3)).run s = .ok () s' := by
  obtain ⟨s, nodes, hs, htree⟩ := hR.exists_texts (t := ('a', 4000))
    (show SplitsInto [('a', 4000)] [('b', 4000), ('b', 4000)] by decide) rfl
  refine ⟨s, nodes, ?_⟩
  obtain ⟨n, seq, hs', hw⟩ := htree.reachable.sound
  rw [htree.shows'.nodesAt_eq] at hs' hw
  obtain ⟨hleft, hright⟩ := halves_texts 1 [('b', 4000)] [('b', 4000), ('c', 1500)] (by decide) (by decide) rfl
  have hentries : textEntries 1 [('b', 4000), ('b', 4000)] ++ [⟨.repeated 'c' 1500, .ofSlot 3⟩] =
      textEntries 1 ([('b', 4000)] ++ [('b', 4000), ('c', 1500)]) := by
    simp only [textEntries, List.cons_append, List.nil_append]
  have hfits : InsertFits (PageId.new 0) nodes (some (PageId.new 0)) (PageId.new 2)
      (textEntries 1 [('b', 4000), ('b', 4000)]) ⟨.repeated 'c' 1500, .ofSlot 3⟩ := by
    rw [InsertFits, HalvesFit, hentries, hleft, hright, SingleBytes.leafSize_eq (by decide),
      SingleBytes.leafSize_eq (by decide), SingleBytes.leafSize_eq (by decide)]
    refine .inr ⟨⟨List.cons_ne_nil _ _, by decide, by decide⟩, .inr ⟨rfl, ?_⟩⟩
    -- the root has room for the separator
    intro ies rightmost last hnode hlast
    have hroot : nodes (PageId.new 0) = .internal [⟨PageId.new 1, .repeated 'a' 4000⟩] (PageId.new 2) := htree.root
    obtain ⟨rfl, rfl⟩ := Node.internal.inj (hroot.symm.trans hnode)
    have hkey : last.key = .repeated 'b' 4000 := by
      obtain ⟨u, hu, hkey⟩ := text_of_mem (List.mem_of_getLast? hlast)
      rw [hkey, List.mem_singleton.mp hu]
    have hlen (c : Char) (hc : c.utf8Size = 1) : (BTreeKey.repeated c 4000).toBytes.length = 4000 :=
      BTreeKey.length_toBytes_repeated hc 4000
    have hstorable : InternalStorable .varchar ⟨PageId.new 1, .repeated 'a' 4000⟩ := by
      rw [internalStorable_iff, hlen 'a' rfl]
      exact ⟨rfl, by decide⟩
    apply Or.inl
    rw [hkey, RoomFor, internalSize, EntryFormat.entriesSize_cons, EntryFormat.entriesSize_nil,
      length_internalEntryBytes hstorable, hlen 'a' rfl, hlen 'b' rfl]
    decide
  rcases htree.shows'.insert_spec (k := .repeated 'c' 1500) (r := .ofSlot 3) hw rfl
    (by rw [BTreeKey.length_toBytes_repeated rfl]; decide) (htree.descent_right (by decide) (by decide))
    htree.right_leaf with ⟨-, s', hrun, -⟩ | ⟨hfull, -⟩
  · exact ⟨s', hs, htree, hrun⟩
  · exact absurd (hfull hfits) (by decide)

end BTree

end RdbRs
