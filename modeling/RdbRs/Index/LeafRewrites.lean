import RdbRs.Index.LeafSpec

/-!
# Splits and merges of leaf pages

When `leaf_split` and `leaf_merge` succeed on two pages, and what they leave. The bytes a list of
entries takes depend only on its keys, so the order among equal keys does not matter to a cut.
-/

namespace RdbRs

/-- The first `i` entries and the others are two parts, neither of them empty, that fit a page
each. -/
def CutsAt (i : Nat) (es : List LeafEntry) : Prop :=
  (es.take i ≠ [] ∧ FitsLeaf (es.take i)) ∧ es.drop i ≠ [] ∧ FitsLeaf (es.drop i)

section Keys

variable {es es' : List LeafEntry} {i : Nat}

lemma leafBytes_eq (es : List LeafEntry) :
    leafBytes es = ((es.map LeafEntry.key).map fun k => 12 + k.toBytes.length).sum := by
  rw [leafBytes, List.map_map]
  rfl

lemma fitsLeaf_congr (h : es.map LeafEntry.key = es'.map LeafEntry.key) :
    FitsLeaf es ↔ FitsLeaf es' := by
  rw [FitsLeaf, FitsLeaf, leafBytes_eq, leafBytes_eq, h]

lemma leafBytes_append : leafBytes (es ++ es') = leafBytes es + leafBytes es' := by
  rw [leafBytes, List.map_append, List.sum_append, leafBytes, leafBytes]

/-- Only the keys decide where a list can be cut. -/
lemma cutsAt_congr (h : es.map LeafEntry.key = es'.map LeafEntry.key) :
    CutsAt i es ↔ CutsAt i es' := by
  have htake : (es.take i).map LeafEntry.key = (es'.take i).map LeafEntry.key := by
    rw [List.map_take, List.map_take, h]
  have hdrop : (es.drop i).map LeafEntry.key = (es'.drop i).map LeafEntry.key := by
    rw [List.map_drop, List.map_drop, h]
  have hnil {l l' : List LeafEntry} (hl : l.map LeafEntry.key = l'.map LeafEntry.key) :
      l = [] ↔ l' = [] := by
    rw [← List.map_eq_nil_iff, hl, List.map_eq_nil_iff]
  simp only [CutsAt, fitsLeaf_congr htake, fitsLeaf_congr hdrop, ne_eq, hnil htake, hnil hdrop]

lemma cutsAt_append (hi : es.length = i) : CutsAt i (es ++ es') ↔
    (es ≠ [] ∧ FitsLeaf es) ∧ es' ≠ [] ∧ FitsLeaf es' := by
  rw [CutsAt, List.take_left' hi, List.drop_left' hi]

/-- Two sorted lists of the same entries have the same keys at the same positions. -/
lemma map_key_eq_of_perm (hperm : es.Perm es') (h : es.Pairwise fun a b => a.key ≤ b.key)
    (h' : es'.Pairwise fun a b => a.key ≤ b.key) :
    es.map LeafEntry.key = es'.map LeafEntry.key := by
  have hkeys : (es.map LeafEntry.key).Pairwise (· ≤ ·) := by
    rw [List.pairwise_map]
    exact h
  have hkeys' : (es'.map LeafEntry.key).Pairwise (· ≤ ·) := by
    rw [List.pairwise_map]
    exact h'
  exact (hperm.map LeafEntry.key).eq_of_pairwise' hkeys hkeys'

/-- Sorted entries are cut where they stand, whichever way equal keys are ordered. -/
lemma cutsAt_sort [UnstableSort] {t : BTreeKeyType} (htypes : ∀ e ∈ es, e.key.keyType = t)
    (h : es.Pairwise fun a b => a.key ≤ b.key) : CutsAt i (sortLeafEntries es) ↔ CutsAt i es := by
  apply cutsAt_congr
  exact map_key_eq_of_perm (sortLeafEntries_perm es) (sortLeafEntries_pairwise htypes) h

end Keys

/-! ### Rows that share a key -/

section Uneven

variable {n : Nat} {k : BTreeKey} {start : Nat}

lemma leafBytes_copies : leafBytes (copies k start n) = n * (12 + k.toBytes.length) := by
  have hmap : (copies k start n).map (fun e => 12 + e.key.toBytes.length) =
      List.replicate n (12 + k.toBytes.length) := by
    rw [List.eq_replicate_iff, List.length_map, length_copies]
    apply And.intro rfl
    intro size hsize
    have ⟨e, he, heq⟩ := List.mem_map.mp hsize
    rw [← heq, key_of_mem_copies he]
  rw [leafBytes, hmap, List.sum_replicate_nat]

lemma keyType_copies {t : BTreeKeyType} (hk : k.keyType = t) :
    ∀ e ∈ copies k start n, e.key.keyType = t := by
  intro e he
  rw [key_of_mem_copies he]
  exact hk

/-- Rows with a text of 2000 bytes. -/
lemma fitsLeaf_long : FitsLeaf (copies (.repeated 'b' 2000) start n) ↔ n ≤ 4 := by
  rw [FitsLeaf, leafBytes_copies, BTreeKey.length_toBytes_repeated (by decide)]
  simp only [pageSize, leafHeaderSize]
  omega

lemma exists_leaf_long (start : Nat) (hn : n ≤ 4) :
    ∃ p, HoldsLeaf .varchar (copies (.repeated 'b' 2000) start n) none p :=
  exists_leaf_of_fits (keyType_copies rfl) (fitsLeaf_long.mpr hn)

/-- Four rows with an empty text, and `n` rows with one of 2000 bytes. -/
def unevenEntries (n : Nat) : List LeafEntry :=
  copies (.repeated 'a' 0) 0 4 ++ copies (.repeated 'b' 2000) 4 n

lemma fitsLeaf_unevenEntries : FitsLeaf (unevenEntries n) ↔ n ≤ 4 := by
  rw [FitsLeaf, unevenEntries, leafBytes_append, leafBytes_copies, leafBytes_copies,
    BTreeKey.length_toBytes_repeated (by decide), BTreeKey.length_toBytes_repeated (by decide)]
  simp only [pageSize, leafHeaderSize]
  omega

lemma unevenEntries_succ :
    unevenEntries n ++ [⟨.repeated 'b' 2000, .ofSlot (4 + n)⟩] = unevenEntries (n + 1) := by
  rw [unevenEntries, List.append_assoc, ← copies_succ]
  rfl

lemma keyType_unevenEntries : ∀ e ∈ unevenEntries n, e.key.keyType = .varchar := by
  intro e he
  rcases List.mem_append.mp he with he | he
  · exact keyType_copies rfl e he
  · exact keyType_copies rfl e he

lemma sorted_unevenEntries : (unevenEntries n).Pairwise fun a b => a.key ≤ b.key := by
  apply List.pairwise_append.mpr
  refine ⟨pairwise_copies, pairwise_copies, ?_⟩
  intro a ha b hb
  rw [key_of_mem_copies ha, key_of_mem_copies hb]
  exact (BTreeKey.repeated_lt (by decide) (by decide)).le

/-- Five long rows are cut in the middle. -/
lemma cutsAt_fiveLong [UnstableSort] : CutsAt ((4 + 1) / 2) (sortLeafEntries
    (copies (.repeated 'b' 2000) 0 4 ++ [⟨.repeated 'b' 2000, .ofSlot 4⟩])) := by
  have hfive : copies (.repeated 'b' 2000) 0 (4 + 1) =
      copies (.repeated 'b' 2000) 0 4 ++ [⟨.repeated 'b' 2000, .ofSlot (0 + 4)⟩] := copies_succ
  rw [← hfive, cutsAt_sort (keyType_copies rfl) pairwise_copies, ← copies_append _ 0 2 3]
  apply (cutsAt_append length_copies).mpr
  rw [fitsLeaf_long, fitsLeaf_long]
  decide

/-- Four short and five long rows are cut behind the first long row. -/
lemma cutsAt_uneven [UnstableSort] : CutsAt 5 (sortLeafEntries (unevenEntries 5)) := by
  have hsplit : unevenEntries 5 = unevenEntries 1 ++ copies (.repeated 'b' 2000) (4 + 1) 4 := by
    rw [unevenEntries, unevenEntries, List.append_assoc, copies_append]
  rw [cutsAt_sort keyType_unevenEntries sorted_unevenEntries, hsplit]
  apply (cutsAt_append (show (unevenEntries 1).length = 5 from rfl)).mpr
  rw [fitsLeaf_unevenEntries, fitsLeaf_long]
  decide

lemma not_cutsAt_uneven [UnstableSort] : ¬ CutsAt ((8 + 1) / 2) (sortLeafEntries (unevenEntries 5)) := by
  rw [cutsAt_sort keyType_unevenEntries sorted_unevenEntries]
  intro hcut
  have hfour := (cutsAt_append (show (copies (.repeated 'a' 0) 0 4).length = (8 + 1) / 2 from rfl)).mp hcut
  exact absurd (fitsLeaf_long.mp hfour.2.2) (by decide)

end Uneven

section Rewrites

variable {t : BTreeKeyType} {es es' : List LeafEntry} {next : Option PageId}
  {p p' q q' : Page} {e : LeafEntry} {right : PageId} {s : BTreeKey}

/-- What a split leaves. -/
structure LeavesHalves (t : BTreeKeyType) (es : List LeafEntry) (right : PageId) (next : Option PageId)
    (s : BTreeKey) (q q' : Page) : Prop where
  entries : ∃ left right, readLeafEntries q t = .ok left ∧ readLeafEntries q' t = .ok right ∧
    (left ++ right).Perm es ∧ ((left ++ right).Pairwise fun a b => a.key ≤ b.key) ∧
    left ≠ [] ∧ right ≠ [] ∧
    s ∈ left.map LeafEntry.key ∧ (∀ e ∈ left, e.key ≤ s) ∧ ∀ e ∈ right, s ≤ e.key
  leftNext : readNextLeafPageId q = .ok (some right)
  rightNext : readNextLeafPageId q' = .ok next

/-- What a merge leaves. -/
structure LeavesMerged (t : BTreeKeyType) (es : List LeafEntry) (next : Option PageId) (q q' : Page) :
    Prop where
  entries : ∃ merged, readLeafEntries q t = .ok merged ∧ merged.Perm es ∧
    merged.Pairwise fun a b => a.key ≤ b.key
  next : readNextLeafPageId q = .ok next
  rightEntries : readLeafEntries q' t = .ok []
  rightNext : readNextLeafPageId q' = .ok none

/-! ### Splits -/

lemma HoldsLeaf.leafSplit_mistyped [UnstableSort] (h : HoldsLeaf t es next p) (he : e.key.keyType ≠ t) :
    (leafSplit right t e).run (p, p') = .err .invalidPage (p, p') := by
  have hany : (es ++ [e]).any (fun entry => decide (entry.key.keyType ≠ t)) = true := by
    apply List.any_eq_true.mpr
    exact ⟨e, by simp, decide_eq_true he⟩
  simp only [leafSplit, Exec.run_bind, Exec.run_query, h.readLeafEntries_eq, Outcome.andThen_ok, hany,
    if_true, Exec.run_throw]

lemma length_sortLeafEntries [UnstableSort] : (sortLeafEntries (es ++ [e])).length = es.length + 1 := by
  rw [(sortLeafEntries_perm _).length_eq, List.length_append, List.length_singleton]

lemma rightHalf_ne_nil [UnstableSort] : rightHalf (es ++ [e]) ≠ [] := by
  rw [rightHalf, ne_eq, List.drop_eq_nil_iff, length_sortLeafEntries]
  omega

/-- The halves of a leaf with one more entry are the parts of a cut when they fit. -/
lemma cutsAt_half [UnstableSort] : CutsAt ((es.length + 1) / 2) (sortLeafEntries (es ++ [e])) ↔
    leftHalf (es ++ [e]) ≠ [] ∧ FitsLeaf (leftHalf (es ++ [e])) ∧ FitsLeaf (rightHalf (es ++ [e])) := by
  rw [CutsAt, ← length_sortLeafEntries (e := e)]
  constructor
  · intro ⟨⟨hne, hleft⟩, _, hfits⟩
    exact ⟨hne, hleft, hfits⟩
  · intro ⟨hne, hleft, hfits⟩
    exact ⟨⟨hne, hleft⟩, rightHalf_ne_nil, hfits⟩

/-- A split that cuts the sorted entries in two parts that fit leaves these parts. -/
lemma HoldsLeaf.leafSplit_cut [UnstableSort] (h : HoldsLeaf t es next p) (p' : Page) (he : e.key.keyType = t)
    (right : PageId) (hcut : CutsAt ((es.length + 1) / 2) (sortLeafEntries (es ++ [e]))) :
    ∃ last q q', (leafSplit right t e).run (p, p') = .ok last.key (q, q') ∧
      (leftHalf (es ++ [e])).getLast? = some last ∧
      HoldsLeaf t (leftHalf (es ++ [e])) (some right) q ∧
      HoldsLeaf t (rightHalf (es ++ [e])) next q' := by
  have htypes := h.keyType_append he
  have ⟨hne, hleft, hright⟩ := cutsAt_half.mp hcut
  have ⟨hstorable, hsize⟩ := (fitsLeaf_iff (keyType_leftHalf htypes)).mp hleft
  have ⟨hstorable', hsize'⟩ := (fitsLeaf_iff (keyType_rightHalf htypes)).mp hright
  have hnew : LeafStorable t e := by
    have hmem : e ∈ leftHalf (es ++ [e]) ++ rightHalf (es ++ [e]) :=
      (leftHalf_append_rightHalf_perm _).mem_iff.mpr (by simp)
    rcases List.mem_append.mp hmem with hmem | hmem
    · exact hstorable e hmem
    · exact hstorable' e hmem
  have ⟨last, hlast⟩ := Option.isSome_iff_exists.mp (List.getLast?_isSome.mpr hne)
  have ⟨q, q', hrun, hq, hq'⟩ := h.leafSplit_ok p' hnew right hlast hsize hsize'
  exact ⟨last, q, q', hrun, hlast, hq, hq'⟩

/-- A split succeeds exactly when the cut at half the number of the entries does. -/
lemma HoldsLeaf.leafSplit_ok_iff [UnstableSort] (h : HoldsLeaf t es next p) (p' : Page) (he : e.key.keyType = t)
    (right : PageId) : (∃ s pages, (leafSplit right t e).run (p, p') = .ok s pages) ↔
      CutsAt ((es.length + 1) / 2) (sortLeafEntries (es ++ [e])) := by
  constructor
  · intro ⟨s, pages, hrun⟩
    by_contra hnot
    rw [cutsAt_half] at hnot
    have ⟨err, pages', herr⟩ := h.leafSplit_unfit p' he right hnot
    cases hrun.symm.trans herr
  · intro hcut
    have ⟨last, q, q', hrun, _⟩ := h.leafSplit_cut p' he right hcut
    exact ⟨_, _, hrun⟩

/-- The last entry of the left half separates the halves. -/
lemma leavesHalves_of_holds [UnstableSort] {last : LeafEntry} (htypes : ∀ e ∈ es, e.key.keyType = t)
    (hlast : (leftHalf es).getLast? = some last) (hne : rightHalf es ≠ [])
    (hq : HoldsLeaf t (leftHalf es) (some right) q) (hq' : HoldsLeaf t (rightHalf es) next q') :
    LeavesHalves t es right next last.key q q' := by
  have hsorted := sortLeafEntries_pairwise htypes
  rw [← leftHalf_append_rightHalf] at hsorted
  have ⟨hleft, _, hcross⟩ := List.pairwise_append.mp hsorted
  have hmem := List.mem_of_getLast? hlast
  have ⟨pre, heq⟩ := List.getLast?_eq_some_iff.mp hlast
  have hle (e : LeafEntry) (he : e ∈ leftHalf es) : e.key ≤ last.key := by
    rw [heq] at he hleft
    rcases List.mem_append.mp he with he | he
    · exact (List.pairwise_append.mp hleft).2.2 e he last (by simp)
    · rw [List.mem_singleton.mp he]
  constructor
  · refine ⟨_, _, hq.readLeafEntries_eq, hq'.readLeafEntries_eq, leftHalf_append_rightHalf_perm es,
      hsorted, List.ne_nil_of_mem hmem, hne, List.mem_map_of_mem hmem, hle, ?_⟩
    intro e he
    exact hcross last hmem e he
  · exact hq.readNextLeafPageId_eq
  · exact hq'.readNextLeafPageId_eq

/-- A successful split partitions the entries around its separator. -/
theorem leafSplit_partitions [UnstableSort] (hread : readLeafEntries p t = .ok es)
    (hnext : readNextLeafPageId p = .ok next)
    (hrun : (leafSplit right t e).run (p, p') = .ok s (q, q')) :
    LeavesHalves t (es ++ [e]) right next s q q' := by
  have ⟨next', h⟩ := exists_holdsLeaf hread
  cases hnext.symm.trans h.readNextLeafPageId_eq
  by_cases he : e.key.keyType = t
  · have hcut := (h.leafSplit_ok_iff p' he right).mp ⟨_, _, hrun⟩
    have ⟨last, q₁, q₁', hrun₁, hlast, hq, hq'⟩ := h.leafSplit_cut p' he right hcut
    cases hrun.symm.trans hrun₁
    exact leavesHalves_of_holds (h.keyType_append he) hlast rightHalf_ne_nil hq hq'
  · rw [h.leafSplit_mistyped he] at hrun
    cases hrun

/-- Four rows with a text of 2000 bytes are split when the fifth comes. -/
theorem leafSplit_partitions_fifth : ∃ s p q q',
    readLeafEntries p .varchar = .ok (copies (.repeated 'b' 2000) 0 4) ∧
    readNextLeafPageId p = .ok none ∧
    (leafSplit (PageId.new 1) .varchar ⟨.repeated 'b' 2000, .ofSlot 4⟩).run (p, Page.new) =
      .ok s (q, q') ∧
    LeavesHalves .varchar (copies (.repeated 'b' 2000) 0 4 ++ [⟨.repeated 'b' 2000, .ofSlot 4⟩])
      (PageId.new 1) none s q q' := by
  have ⟨p, h⟩ := exists_leaf_long 0 (le_refl 4)
  have ⟨last, q, q', hrun, _⟩ := h.leafSplit_cut Page.new rfl (PageId.new 1) cutsAt_fiveLong
  exact ⟨last.key, p, q, q', h.readLeafEntries_eq, h.readNextLeafPageId_eq, hrun,
    leafSplit_partitions h.readLeafEntries_eq h.readNextLeafPageId_eq hrun⟩

/-- A split succeeds whenever the sorted entries can be cut anywhere, except where they can not be
cut at half their number. -/
theorem leafSplit_findsCut_iff [UnstableSort] (hread : readLeafEntries p t = .ok es) (he : e.key.keyType = t)
    (_hfull : ¬ FitsLeaf (es ++ [e])) (right : PageId) (p' : Page) :
    ((∃ i, CutsAt i (sortLeafEntries (es ++ [e]))) →
        ∃ s pages, (leafSplit right t e).run (p, p') = .ok s pages) ↔
      ((∀ i, ¬ CutsAt i (sortLeafEntries (es ++ [e]))) ∨
        CutsAt ((es.length + 1) / 2) (sortLeafEntries (es ++ [e]))) := by
  have ⟨next, h⟩ := exists_holdsLeaf hread
  rw [h.leafSplit_ok_iff p' he right]
  constructor
  · intro hfinds
    by_cases hcut : ∃ i, CutsAt i (sortLeafEntries (es ++ [e]))
    · exact .inr (hfinds hcut)
    · exact .inl (not_exists.mp hcut)
  · rintro (hnone | hhalf) ⟨i, hcut⟩
    · exact absurd hcut (hnone i)
    · exact hhalf

/-- Five rows with a text of 2000 bytes are cut. -/
theorem leafSplit_findsCut_iff_fifth : ∃ p,
    readLeafEntries p .varchar = .ok (copies (.repeated 'b' 2000) 0 4) ∧
    ((∃ i, CutsAt i (sortLeafEntries
        (copies (.repeated 'b' 2000) 0 4 ++ [⟨.repeated 'b' 2000, .ofSlot 4⟩]))) →
      ∃ s pages, (leafSplit (PageId.new 1) .varchar ⟨.repeated 'b' 2000, .ofSlot 4⟩).run
        (p, Page.new) = .ok s pages) := by
  have ⟨p, h⟩ := exists_leaf_long 0 (le_refl 4)
  have hfull : ¬ FitsLeaf
      (copies (.repeated 'b' 2000) 0 4 ++ [⟨.repeated 'b' 2000, .ofSlot (0 + 4)⟩]) := by
    rw [← copies_succ, fitsLeaf_long]
    decide
  apply Exists.intro p
  apply And.intro h.readLeafEntries_eq
  apply (leafSplit_findsCut_iff h.readLeafEntries_eq rfl hfull (PageId.new 1) Page.new).mpr
  exact .inr cutsAt_fiveLong

/-- Four rows with an empty text and five with one of 2000 bytes: the cut at half their number leaves
five long rows on the right, although the cut behind the fifth row fits. -/
theorem leafSplit_misses_cut : ∃ p es e, readLeafEntries p .varchar = .ok es ∧
    e.key.keyType = .varchar ∧ ¬ FitsLeaf (es ++ [e]) ∧
    ∀ (_ : UnstableSort) (right : PageId) (p' : Page),
      (∃ i, CutsAt i (sortLeafEntries (es ++ [e]))) ∧
        ¬ ∃ s pages, (leafSplit right .varchar e).run (p, p') = .ok s pages := by
  have ⟨p, h⟩ := exists_leaf_of_fits keyType_unevenEntries (fitsLeaf_unevenEntries.mpr (le_refl 4))
  refine ⟨p, unevenEntries 4, ⟨.repeated 'b' 2000, .ofSlot (4 + 4)⟩, h.readLeafEntries_eq, rfl, ?_, ?_⟩
  · rw [unevenEntries_succ, fitsLeaf_unevenEntries]
    decide
  · intro _ right p'
    rw [h.leafSplit_ok_iff p' rfl right, unevenEntries_succ]
    exact ⟨⟨5, cutsAt_uneven⟩, not_cutsAt_uneven⟩

/-! ### Merges -/

/-- A merge succeeds exactly when the entries of both pages fit one, and changes nothing when it
fails. -/
theorem leafMerge_allOrNothing [UnstableSort] (hread : readLeafEntries p t = .ok es)
    (hread' : readLeafEntries p' t = .ok es') (hnext : readNextLeafPageId p' = .ok next) :
    ((∃ pages, (leafMerge t).run (p, p') = .ok () pages) ↔ FitsLeaf (es ++ es')) ∧
      (∀ q q', (leafMerge t).run (p, p') = .ok () (q, q') →
        LeavesMerged t (es ++ es') next q q') ∧
      (¬ FitsLeaf (es ++ es') → ∃ err, (leafMerge t).run (p, p') = .err err (p, p')) := by
  have ⟨_, h⟩ := exists_holdsLeaf hread
  have ⟨next', h'⟩ := exists_holdsLeaf hread'
  cases hnext.symm.trans h'.readNextLeafPageId_eq
  have htypes (e : LeafEntry) (he : e ∈ es ++ es') : e.key.keyType = t := by
    rcases List.mem_append.mp he with he | he
    · exact h.keyType_eq he
    · exact h'.keyType_eq he
  have hfull (hnot : ¬ FitsLeaf (es ++ es')) :
      (leafMerge t).run (p, p') = .err .pageFull (p, p') := by
    apply h.leafMerge_full h'
    rw [fitsLeaf_iff htypes] at hnot
    by_contra hle
    exact hnot ⟨fun e he => storable_merge h h' e ((sortLeafEntries_perm _).mem_iff.mpr he),
      Nat.le_of_not_lt hle⟩
  have hok (hfits : FitsLeaf (es ++ es')) : ∃ q q', (leafMerge t).run (p, p') = .ok () (q, q') ∧
      LeavesMerged t (es ++ es') next q q' := by
    have ⟨q, q', hrun, hq, hq'⟩ := h.leafMerge_ok h' ((fitsLeaf_iff htypes).mp hfits).2
    refine ⟨q, q', hrun, ?_, hq.readNextLeafPageId_eq, hq'.readLeafEntries_eq,
      hq'.readNextLeafPageId_eq⟩
    exact ⟨_, hq.readLeafEntries_eq, sortLeafEntries_perm _, sortLeafEntries_pairwise htypes⟩
  constructor
  · constructor
    · intro ⟨pages, hrun⟩
      by_contra hnot
      cases hrun.symm.trans (hfull hnot)
    · intro hfits
      have ⟨q, q', hrun, _⟩ := hok hfits
      exact ⟨_, hrun⟩
  constructor
  · intro q q' hrun
    by_cases hfits : FitsLeaf (es ++ es')
    · have ⟨q₁, q₁', hrun₁, hleaves⟩ := hok hfits
      cases hrun.symm.trans hrun₁
      exact hleaves
    · cases hrun.symm.trans (hfull hfits)
  · intro hnot
    exact ⟨_, hfull hnot⟩

/-- Two pages with one row each. -/
theorem leafMerge_allOrNothing_two : ∃ p p',
    readLeafEntries p .varchar = .ok (copies (.repeated 'b' 2000) 0 1) ∧
    readLeafEntries p' .varchar = .ok (copies (.repeated 'b' 2000) 1 1) ∧
    (∃ pages, (leafMerge .varchar).run (p, p') = .ok () pages) ∧
    ∀ q q', (leafMerge .varchar).run (p, p') = .ok () (q, q') → LeavesMerged .varchar
      (copies (.repeated 'b' 2000) 0 1 ++ copies (.repeated 'b' 2000) 1 1) none q q' := by
  have ⟨p, h⟩ := exists_leaf_long 0 (show 1 ≤ 4 by decide)
  have ⟨p', h'⟩ := exists_leaf_long 1 (show 1 ≤ 4 by decide)
  have ⟨hiff, hleaves, _⟩ := leafMerge_allOrNothing h.readLeafEntries_eq h'.readLeafEntries_eq
    h'.readNextLeafPageId_eq
  refine ⟨p, p', h.readLeafEntries_eq, h'.readLeafEntries_eq, hiff.mpr ?_, hleaves⟩
  rw [copies_append (.repeated 'b' 2000) 0 1 1, fitsLeaf_long]
  decide

end Rewrites

end RdbRs
