import RdbRs.Index.TreeInsert
import RdbRs.Lib.Loop

/-!
# The children of a page that splits

When a full root splits, the child whose leaf has split is replaced in the half its new separator
is compared to. The children and separators of the two halves then follow one another as before,
unless the child stands behind the promoted separator and the new separator equals it.
-/

namespace RdbRs

/-! ### The sequence of children and separators -/

/-- The children of an internal page from left to right. -/
def childIds (es : List InternalEntry) (rightmost : PageId) : List PageId :=
  es.map InternalEntry.leftChild ++ [rightmost]

def entrySequence (es : List InternalEntry) : List (PageId ⊕ BTreeKey) :=
  es.flatMap fun e => [.inl e.leftChild, .inr e.separatorKey]

/-- The children and separators of an internal page from left to right. -/
def inOrder (es : List InternalEntry) (rightmost : PageId) : List (PageId ⊕ BTreeKey) :=
  entrySequence es ++ [.inl rightmost]

/-- The child `old` becomes two, with a separator between them. -/
def replaceIn (old left right : PageId) (separator : BTreeKey) (l : List (PageId ⊕ BTreeKey)) :
    List (PageId ⊕ BTreeKey) :=
  l.flatMap fun x => if x = .inl old then [.inl left, .inr separator, .inl right] else [x]

section Sequence

variable {es es' es₁ es₂ : List InternalEntry} {rightmost rightmost' : PageId}
  {promoted : InternalEntry} {old left right : PageId} {s : BTreeKey}

lemma childIds_append :
    childIds (es₁ ++ promoted :: es₂) rightmost = childIds es₁ promoted.leftChild ++ childIds es₂ rightmost := by
  simp [childIds]

lemma inOrder_append : inOrder (es₁ ++ promoted :: es₂) rightmost =
    inOrder es₁ promoted.leftChild ++ .inr promoted.separatorKey :: inOrder es₂ rightmost := by
  simp [inOrder, entrySequence]

lemma mem_childIds : old ∈ childIds es rightmost ↔ IsChild old es rightmost := by
  simp [childIds, IsChild, eq_comm]

lemma inl_mem_inOrder : .inl old ∈ inOrder es rightmost ↔ old ∈ childIds es rightmost := by
  simp [inOrder, entrySequence, childIds, eq_comm]

lemma replaceIn_append (l l' : List (PageId ⊕ BTreeKey)) :
    replaceIn old left right s (l ++ l') = replaceIn old left right s l ++ replaceIn old left right s l' :=
  List.flatMap_append

lemma replaceIn_cons_inr (k : BTreeKey) (l : List (PageId ⊕ BTreeKey)) :
    replaceIn old left right s (.inr k :: l) = .inr k :: replaceIn old left right s l := by
  rw [replaceIn, List.flatMap_cons, if_neg (by simp)]
  rfl

lemma replaceIn_of_notMem {l : List (PageId ⊕ BTreeKey)} (h : .inl old ∉ l) :
    replaceIn old left right s l = l := by
  induction l with
  | nil => rfl
  | cons x l ih =>
    rw [List.mem_cons, not_or] at h
    rw [replaceIn, List.flatMap_cons, if_neg (Ne.symm h.1), List.singleton_append]
    congr 1
    exact ih h.2

/-- The children and separators of a page whose child has been replaced. -/
lemma ReplacedChild.inOrder_eq (h : ReplacedChild old left right s es rightmost es' rightmost')
    (hnodup : (childIds es rightmost).Nodup) :
    inOrder es' rightmost' = replaceIn old left right s (inOrder es rightmost) := by
  cases h with
  | @inner pre post k _ hpre =>
    rw [childIds_append] at hnodup
    have hapart := (List.nodup_append.mp hnodup).2.2
    have hleft : .inl old ∉ entrySequence pre := by
      intro hmem
      have ⟨e, he, heq⟩ := List.mem_flatMap.mp hmem
      simp at heq
      exact hpre e he heq.symm
    have hright : .inl old ∉ inOrder post rightmost := by
      intro hmem
      exact hapart old (by simp [childIds]) old (inl_mem_inOrder.mp hmem) rfl
    have hsplit : inOrder (pre ++ ⟨old, k⟩ :: post) rightmost =
        entrySequence pre ++ (.inl old :: .inr k :: inOrder post rightmost) := by
      simp [inOrder, entrySequence]
    have hself : replaceIn old left right s (.inl old :: .inr k :: inOrder post rightmost) =
        .inl left :: .inr s :: .inl right :: .inr k :: inOrder post rightmost := by
      rw [replaceIn, List.flatMap_cons, if_pos rfl]
      exact congrArg _ ((replaceIn_cons_inr k _).trans (congrArg _ (replaceIn_of_notMem hright)))
    rw [hsplit, replaceIn_append, replaceIn_of_notMem hleft, hself]
    simp [inOrder, entrySequence]
  | last hes =>
    have hleft : .inl rightmost ∉ entrySequence es := by
      intro hmem
      have ⟨e, he, heq⟩ := List.mem_flatMap.mp hmem
      simp at heq
      exact hes e he heq.symm
    rw [inOrder, inOrder, replaceIn_append, replaceIn_of_notMem hleft]
    simp [entrySequence, replaceIn]

end Sequence

/-! ### The second replacement -/

/-- The part of `child_leaf_split` that replaces the child in one half of the root. -/
def replaceInHalf (keyType : BTreeKeyType) (oldChild leftPageId rightPageId : PageId)
    (separator rootSeparator : BTreeKey) : Exec BTreeError PagePair Unit :=
  let replace := replaceChildAfterLeafSplit keyType oldChild leftPageId rightPageId separator
  match separator.compare rootSeparator with
  | some .gt => Exec.mapErr .internal (onRight replace)
  | some _ => Exec.mapErr .internal (onLeft replace)
  | none => Exec.throw .invalidKeyType

lemma withLocal_mapErr {ε ε' σ τ α : Type} (f : ε → ε') (init : τ) (x : Exec ε τ α) :
    (Exec.withLocal init (x.mapErr f) : Exec ε' σ (α × τ)) = (Exec.withLocal init x).mapErr f := by
  apply Exec.ext_run
  intro s
  simp only [Exec.run_withLocal, Exec.run_mapErr]
  cases x.run init <;> rfl

/-- `child_leaf_split` runs it on the two halves. -/
lemma BTree.rootInternalPageSplit_eq_replaceInHalf {σ : Type} [PageStore σ] (tree : BTree)
    (parent : Page) (oldChild leftPageId rightPageId : PageId) (separator : BTreeKey)
    (leftPage rightPage : Page) :
    (tree.rootInternalPageSplit parent oldChild leftPageId rightPageId separator leftPage rightPage :
      Exec BTreeError σ Unit) = (do
        let leftInternalId ← tree.allocatePage
        let rightInternalId ← tree.allocatePage
        let (rootSeparator, internalPages) ← Exec.mapErr .internal
          (Exec.withLocal (parent, Page.newRaw) (internalSplit tree.keyType))
        let (_, leftInternalPage, rightInternalPage) ← Exec.withLocal internalPages
          (replaceInHalf tree.keyType oldChild leftPageId rightPageId separator rootSeparator)
        let newRoot ← rootInternalSplit leftInternalId rightInternalId rootSeparator
        tree.fetchAndFlushPage leftPageId leftPage
        tree.fetchAndFlushPage rightPageId rightPage
        tree.fetchAndFlushPage leftInternalId leftInternalPage
        tree.fetchAndFlushPage rightInternalId rightInternalPage
        tree.fetchAndFlushPage tree.rootPageId newRoot) := by
  unfold BTree.rootInternalPageSplit
  congr 1
  funext leftInternalId
  congr 1
  funext rightInternalId
  congr 1
  funext split
  cases hcompare : separator.compare split.1 with
  | none =>
    simp only [replaceInHalf, hcompare]
    rfl
  | some order =>
    cases order <;> simp only [replaceInHalf, hcompare, withLocal_mapErr]

/-- The half the separator is compared to. -/
def halfFor (separator rootSeparator : BTreeKey) (pages : PagePair) : Page :=
  match separator.compare rootSeparator with
  | some .gt => pages.2
  | _ => pages.1

/-- The children and separators of a page. -/
def sequenceOf (keyType : BTreeKeyType) (p : Page) : List (PageId ⊕ BTreeKey) :=
  match nodeOf keyType p with
  | .internal es rightmost => inOrder es rightmost
  | _ => []

/-- The page splits, and then the second replacement finds the child and keeps the sequence. -/
def SplitKeepsSequence (keyType : BTreeKeyType) (p : Page) (oldChild left right : PageId)
    (separator : BTreeKey) : Prop :=
  ∃ rootSeparator pages, (internalSplit keyType).run (p, Page.newRaw) = .ok rootSeparator pages ∧
    .inl oldChild ∈ sequenceOf keyType (halfFor separator rootSeparator pages) ∧
    (∀ pages', (replaceInHalf keyType oldChild left right separator rootSeparator).run pages ≠
      .err (.internal .invalidPage) pages') ∧
    ∀ pages', (replaceInHalf keyType oldChild left right separator rootSeparator).run pages =
        .ok () pages' →
      sequenceOf keyType pages'.1 ++ .inr rootSeparator :: sequenceOf keyType pages'.2 =
        replaceIn oldChild left right separator (sequenceOf keyType p)

/-- The separator lies between those around the `i`-th child. -/
def Between (es : List InternalEntry) (i : Nat) (s : BTreeKey) : Prop :=
  (∀ e, 0 < i → es[i - 1]? = some e → e.separatorKey ≤ s) ∧ ∀ e, es[i]? = some e → s ≤ e.separatorKey

section Split

variable {t : BTreeKeyType} {es : List InternalEntry} {rightmost old left right : PageId} {p : Page}
  {s : BTreeKey}

lemma HoldsInternal.sequenceOf_eq (h : HoldsInternal t es rightmost p) :
    sequenceOf t p = inOrder es rightmost := by
  rw [sequenceOf, h.nodeOf_eq]

/-- A separator that is reported not to fit can be encoded. -/
lemma HoldsInternal.length_of_full {q : Page} (h : HoldsInternal t es rightmost p)
    (hchild : IsChild old es rightmost)
    (hfull : (replaceChildAfterLeafSplit t old left right s).run p = .err .pageFull q) :
    s.toBytes.length ≤ u16Max := by
  by_contra hlong
  have hnone (c : PageId) : internalFormat.toBytes ⟨c, s⟩ = none := by
    simp [internalFormat, InternalEntry.toBytes, Nat.not_le.mp hlong]
  obtain ⟨es', rightmost', hr⟩ := hchild.replaced left right s
  have hsplit : ∃ pre post, es' = pre ++ ⟨left, s⟩ :: post ∧ pre.Sublist es := by
    cases hr with
    | @inner pre post k _ _ => exact ⟨pre, _, rfl, List.sublist_append_left _ _⟩
    | last _ => exact ⟨es, [], rfl, List.Sublist.refl _⟩
  obtain ⟨pre, post, heq, hsub⟩ := hsplit
  obtain ⟨q', hrun⟩ := (holdsInternal_emptyInternal t rightmost').appendEntries_invalid
    (internalFormat_lawful t) pre post (fun e he => h.storable e (hsub.subset he))
    ((internalSize_le_of_sublist hsub).trans h.size_le) (hnone left)
  rw [h.replaceChild_run hr, appendInternalEntries, heq, hrun] at hfull
  cases hfull

/-- A child that is replaced is found, and the sequence is kept. -/
lemma HoldsInternal.replaceChild_keeps (left right : PageId) (h : HoldsInternal t es rightmost p)
    (hchild : old ∈ childIds es rightmost) (hdistinct : (childIds es rightmost).Nodup)
    (hs : s.keyType = t ∧ s.toBytes.length ≤ u16Max) :
    (∀ q, (replaceChildAfterLeafSplit t old left right s).run p ≠ .err .invalidPage q) ∧
      ∀ q, (replaceChildAfterLeafSplit t old left right s).run p = .ok () q →
        sequenceOf t q = replaceIn old left right s (inOrder es rightmost) := by
  have ⟨es', rightmost', hr⟩ := (mem_childIds.mp hchild).replaced left right s
  by_cases hfits : internalSize es' ≤ pageSize
  · have ⟨q, hrun, hq⟩ := h.replaceChild_ok hr hs hfits
    constructor
    · intro q' hq'
      cases hrun.symm.trans hq'
    · intro q' hq'
      cases hrun.symm.trans hq'
      rw [hq.sequenceOf_eq, hr.inOrder_eq hdistinct]
  · have hrun := h.replaceChild_full hr hs (Nat.not_le.mp hfits)
    constructor
    · intro q' hq'
      cases hrun.symm.trans hq'
    · intro q' hq'
      cases hrun.symm.trans hq'

/-! ### The promoted separator -/

variable {i : Nat} {promoted : InternalEntry} {es₁ es₂ : List InternalEntry}

lemma childIds_left_getElem (hi : i ≤ es₁.length) :
    (childIds (es₁ ++ promoted :: es₂) rightmost)[i]? = (childIds es₁ promoted.leftChild)[i]? := by
  rw [childIds_append, List.getElem?_append_left]
  simp only [childIds, List.length_append, List.length_map, List.length_singleton]
  omega

lemma childIds_right_getElem (hi : es₁.length < i) :
    (childIds (es₁ ++ promoted :: es₂) rightmost)[i]? =
      (childIds es₂ rightmost)[i - (es₁.length + 1)]? := by
  rw [childIds_append, List.getElem?_append_right]
  · simp [childIds]
  · simp only [childIds, List.length_append, List.length_map, List.length_singleton]
    exact hi

/-- A separator before the promoted entry is at most the promoted one. -/
lemma Between.le_promoted (h : Between (es₁ ++ promoted :: es₂) i s) (hi : i ≤ es₁.length)
    (hsorted : ((es₁ ++ promoted :: es₂).map InternalEntry.separatorKey).Pairwise (· ≤ ·)) :
    s ≤ promoted.separatorKey := by
  rw [List.map_append, List.map_cons, List.pairwise_append] at hsorted
  cases Nat.lt_or_eq_of_le hi with
  | inl hlt =>
    have hget : (es₁ ++ promoted :: es₂)[i]? = some es₁[i] := by
      rw [List.getElem?_append_left hlt, List.getElem?_eq_getElem hlt]
    apply (h.2 _ hget).trans
    exact hsorted.2.2 _ (List.mem_map_of_mem (List.getElem_mem hlt)) _ List.mem_cons_self
  | inr heq =>
    apply h.2
    rw [heq, List.getElem?_append_right (Nat.le_refl _), Nat.sub_self]
    rfl

/-- A separator behind the promoted entry is at least the promoted one. -/
lemma Between.promoted_le (h : Between (es₁ ++ promoted :: es₂) i s) (hi : es₁.length < i)
    (hbound : i ≤ (es₁ ++ promoted :: es₂).length)
    (hsorted : ((es₁ ++ promoted :: es₂).map InternalEntry.separatorKey).Pairwise (· ≤ ·)) :
    promoted.separatorKey ≤ s := by
  have hlt : i - 1 < (es₁ ++ promoted :: es₂).length := by omega
  have hlast := h.1 _ (by omega) (List.getElem?_eq_getElem hlt)
  rw [List.map_append, List.map_cons, List.pairwise_append, List.pairwise_cons] at hsorted
  by_cases hnext : i - 1 = es₁.length
  · simpa [hnext] using hlast
  · have hmem : (es₁ ++ promoted :: es₂)[i - 1] ∈ es₂ := by
      rw [List.getElem_append_right (by omega), List.getElem_cons, dif_neg (by omega)]
      exact List.getElem_mem _
    exact (hsorted.2.1.1 _ (List.mem_map_of_mem hmem)).trans hlast

section Half

variable {k : BTreeKey} {pages : PagePair}

lemma halfFor_left (htype : s.keyType = k.keyType) (hle : s ≤ k) : halfFor s k pages = pages.1 := by
  rw [halfFor, BTreeKey.compare_eq htype]
  cases hle.lt_or_eq with
  | inl hlt => simp [hlt]
  | inr heq => simp [heq]

lemma halfFor_right (htype : s.keyType = k.keyType) (hlt : k < s) : halfFor s k pages = pages.2 := by
  rw [halfFor, BTreeKey.compare_eq htype]
  simp [hlt.not_gt, hlt.ne']

lemma run_replaceInHalf_left (htype : s.keyType = k.keyType) (hle : s ≤ k) :
    (replaceInHalf t old left right s k).run pages =
      (((replaceChildAfterLeafSplit t old left right s).run pages.1).mapState
        fun p => (p, pages.2)).mapErr .internal := by
  unfold replaceInHalf
  rw [BTreeKey.compare_eq htype]
  cases hle.lt_or_eq with
  | inl hlt =>
    simp only [hlt, if_true]
    rfl
  | inr heq =>
    simp only [heq, lt_irrefl, if_false, if_true]
    rfl

lemma run_replaceInHalf_right (htype : s.keyType = k.keyType) (hlt : k < s) :
    (replaceInHalf t old left right s k).run pages =
      (((replaceChildAfterLeafSplit t old left right s).run pages.2).mapState
        fun p => (pages.1, p)).mapErr .internal := by
  unfold replaceInHalf
  rw [BTreeKey.compare_eq htype]
  simp only [hlt.not_gt, hlt.ne', if_false]
  rfl

end Half

section Mapped

variable {o : Outcome InternalPageError Page Unit} {f : Page → PagePair} {pages : PagePair}

lemma mapErr_internal_ne (h : ∀ q, o ≠ .err .invalidPage q) :
    (o.mapState f).mapErr BTreeError.internal ≠ .err (.internal .invalidPage) pages := by
  intro hrun
  cases o <;> cases hrun
  exact h _ rfl

lemma mapErr_internal_eq_ok (h : (o.mapState f).mapErr BTreeError.internal = .ok () pages) :
    ∃ q, o = .ok () q ∧ f q = pages := by
  cases o <;> cases h
  exact ⟨_, rfl, rfl⟩

end Mapped

/-! ### The two halves -/

section Halves

variable (h : HoldsInternal t (es₁ ++ promoted :: es₂) rightmost p)
  (hmid : (es₁ ++ promoted :: es₂).length / 2 = es₁.length)
  (hdistinct : (childIds (es₁ ++ promoted :: es₂) rightmost).Nodup)

include h hmid

lemma HoldsInternal.internalSplit_middle (p' : Page) :
    ∃ q q', (internalSplit t).run (p, p') = .ok promoted.separatorKey (q, q') ∧
      HoldsInternal t es₁ promoted.leftChild q ∧ HoldsInternal t es₂ rightmost q' := by
  have hdrop : (es₁ ++ promoted :: es₂).drop ((es₁ ++ promoted :: es₂).length / 2) = promoted :: es₂ := by
    rw [hmid, List.drop_left]
  have hsplit := h.internalSplit_ok p' hdrop
  rwa [hmid, List.take_left] at hsplit

include hdistinct

/-- The child stands in the left half, and so does the new separator. -/
lemma HoldsInternal.keepsSequence_left (hs : s.keyType = t ∧ s.toBytes.length ≤ u16Max)
    (hold : old ∈ childIds es₁ promoted.leftChild) (hle : s ≤ promoted.separatorKey) :
    SplitKeepsSequence t p old left right s := by
  have ⟨q, q', hrun, hq, hq'⟩ := h.internalSplit_middle hmid Page.newRaw
  have htype : s.keyType = promoted.separatorKey.keyType :=
    hs.1.trans (h.keyType_eq (List.mem_append_right _ List.mem_cons_self)).symm
  rw [childIds_append, List.nodup_append] at hdistinct
  have ⟨hfound, hkept⟩ := hq.replaceChild_keeps left right hold hdistinct.1 hs
  have hother : .inl old ∉ inOrder es₂ rightmost := by
    intro hmem
    exact hdistinct.2.2 old hold old (inl_mem_inOrder.mp hmem) rfl
  apply Exists.intro promoted.separatorKey
  apply Exists.intro (q, q')
  apply And.intro hrun
  constructor
  · rw [halfFor_left htype hle, hq.sequenceOf_eq]
    exact inl_mem_inOrder.mpr hold
  rw [run_replaceInHalf_left htype hle]
  constructor
  · intro pages'
    exact mapErr_internal_ne hfound
  · intro pages' hok
    have ⟨q₁, hq₁, heq⟩ := mapErr_internal_eq_ok hok
    rw [← heq, hkept q₁ hq₁, hq'.sequenceOf_eq, h.sequenceOf_eq, inOrder_append, replaceIn_append,
      replaceIn_cons_inr, replaceIn_of_notMem hother]

/-- The child stands in the right half, and so does the new separator. -/
lemma HoldsInternal.keepsSequence_right (hs : s.keyType = t ∧ s.toBytes.length ≤ u16Max)
    (hold : old ∈ childIds es₂ rightmost) (hlt : promoted.separatorKey < s) :
    SplitKeepsSequence t p old left right s := by
  have ⟨q, q', hrun, hq, hq'⟩ := h.internalSplit_middle hmid Page.newRaw
  have htype : s.keyType = promoted.separatorKey.keyType :=
    hs.1.trans (h.keyType_eq (List.mem_append_right _ List.mem_cons_self)).symm
  rw [childIds_append, List.nodup_append] at hdistinct
  have ⟨hfound, hkept⟩ := hq'.replaceChild_keeps left right hold hdistinct.2.1 hs
  have hother : .inl old ∉ inOrder es₁ promoted.leftChild := by
    intro hmem
    exact hdistinct.2.2 old (inl_mem_inOrder.mp hmem) old hold rfl
  apply Exists.intro promoted.separatorKey
  apply Exists.intro (q, q')
  apply And.intro hrun
  constructor
  · rw [halfFor_right htype hlt, hq'.sequenceOf_eq]
    exact inl_mem_inOrder.mpr hold
  rw [run_replaceInHalf_right htype hlt]
  constructor
  · intro pages'
    exact mapErr_internal_ne hfound
  · intro pages' hok
    have ⟨q₁, hq₁, heq⟩ := mapErr_internal_eq_ok hok
    rw [← heq, hkept q₁ hq₁, hq.sequenceOf_eq, h.sequenceOf_eq, inOrder_append, replaceIn_append,
      replaceIn_cons_inr, replaceIn_of_notMem hother]

/-- The child stands in the right half, but the new separator belongs to the left one. -/
lemma HoldsInternal.not_keepsSequence (hs : s.keyType = t)
    (hold : old ∈ childIds es₂ rightmost) (hle : s ≤ promoted.separatorKey) :
    ¬ SplitKeepsSequence t p old left right s := by
  have ⟨q, q', hrun, hq, _⟩ := h.internalSplit_middle hmid Page.newRaw
  have htype : s.keyType = promoted.separatorKey.keyType :=
    hs.trans (h.keyType_eq (List.mem_append_right _ List.mem_cons_self)).symm
  rw [childIds_append, List.nodup_append] at hdistinct
  intro ⟨rootSeparator, pages, hsplit, hfound, _⟩
  cases hrun.symm.trans hsplit
  rw [halfFor_left htype hle, hq.sequenceOf_eq] at hfound
  exact hdistinct.2.2 old (inl_mem_inOrder.mp hfound) old hold rfl

end Halves

/-- When a child cannot be replaced because the page is full, splitting the page helps unless there
is no separator to promote, or the child stands behind the promoted separator and the new one
equals it. -/
theorem internalSplit_keepsSequence_iff {q : Page} (hnode : nodeOf t p = .internal es rightmost)
    (hsorted : (es.map InternalEntry.separatorKey).Pairwise (· ≤ ·))
    (hdistinct : (childIds es rightmost).Nodup) (hchild : (childIds es rightmost)[i]? = some old)
    (hbetween : Between es i s) (htype : s.keyType = t)
    (hfull : (replaceChildAfterLeafSplit t old left right s).run p = .err .pageFull q) :
    SplitKeepsSequence t p old left right s ↔
      ∃ promoted, es[es.length / 2]? = some promoted ∧
        ¬ (es.length / 2 < i ∧ s = promoted.separatorKey) := by
  have h := holdsInternal_of_nodeOf hnode
  have hi : i < es.length + 1 := by
    have ⟨hlt, _⟩ := List.getElem?_eq_some_iff.mp hchild
    simpa [childIds] using hlt
  have hlen := h.length_of_full (mem_childIds.mp (List.mem_of_getElem? hchild)) hfull
  cases hpromoted : es[es.length / 2]? with
  | none =>
    have hnil : es = [] := by
      have hle := List.getElem?_eq_none_iff.mp hpromoted
      apply List.eq_nil_of_length_eq_zero
      omega
    constructor
    · intro ⟨_, _, hsplit, _⟩
      cases (h.internalSplit_err Page.newRaw hnil).symm.trans hsplit
    · intro ⟨_, hsome, _⟩
      cases hsome
  | some promoted =>
    have ⟨hlt, hget⟩ := List.getElem?_eq_some_iff.mp hpromoted
    have hsplit : es = es.take (es.length / 2) ++ promoted :: es.drop (es.length / 2 + 1) := by
      rw [← hget, List.getElem_cons_drop, List.take_append_drop]
    have hmid : (es.take (es.length / 2)).length = es.length / 2 := List.length_take_of_le hlt.le
    generalize es.take (es.length / 2) = es₁ at hsplit hmid
    generalize es.drop (es.length / 2 + 1) = es₂ at hsplit
    subst hsplit
    rw [← hmid]
    by_cases hbehind : es₁.length < i
    · have hle := hbetween.promoted_le hbehind (Nat.le_of_lt_succ hi) hsorted
      have hright : old ∈ childIds es₂ rightmost := by
        rw [childIds_right_getElem hbehind] at hchild
        exact List.mem_of_getElem? hchild
      constructor
      · intro hkeeps
        apply Exists.intro promoted
        apply And.intro rfl
        intro ⟨_, heq⟩
        exact h.not_keepsSequence hmid.symm hdistinct htype hright heq.le hkeeps
      · intro ⟨_, hsome, hne⟩
        cases hsome
        apply h.keepsSequence_right hmid.symm hdistinct ⟨htype, hlen⟩ hright
        apply lt_of_le_of_ne hle
        intro heq
        exact hne ⟨hbehind, heq.symm⟩
    · have hleft : old ∈ childIds es₁ promoted.leftChild := by
        rw [childIds_left_getElem (Nat.not_lt.mp hbehind)] at hchild
        exact List.mem_of_getElem? hchild
      constructor
      · intro _
        apply Exists.intro promoted
        apply And.intro rfl
        intro hboth
        exact hbehind hboth.1
      · intro _
        apply h.keepsSequence_left hmid.symm hdistinct ⟨htype, hlen⟩ hleft
        exact hbetween.le_promoted (Nat.not_lt.mp hbehind) hsorted

end Split

/-! ### Three equal separators -/

/-- Three children that share a separator of 2700 bytes. -/
def equalSeparators : List InternalEntry :=
  [⟨PageId.new 1, .repeated 'a' 2700⟩, ⟨PageId.new 2, .repeated 'a' 2700⟩,
    ⟨PageId.new 3, .repeated 'a' 2700⟩]

lemma separator_repeated : (BTreeKey.repeated 'a' 2700).keyType = .varchar ∧
    (BTreeKey.repeated 'a' 2700).toBytes.length ≤ u16Max := by
  constructor
  · rfl
  · rw [BTreeKey.length_toBytes_repeated rfl]
    decide

lemma separatorKey_of_mem_equalSeparators {e : InternalEntry} (he : e ∈ equalSeparators) :
    e.separatorKey = .repeated 'a' 2700 := by
  simp only [equalSeparators, List.mem_cons, List.not_mem_nil, or_false] at he
  rcases he with rfl | rfl | rfl <;> rfl

lemma storable_of_mem_equalSeparators {e : InternalEntry} (he : e ∈ equalSeparators) :
    InternalStorable .varchar e := by
  rw [internalStorable_iff, separatorKey_of_mem_equalSeparators he]
  exact separator_repeated

lemma internalSize_equalSeparators : internalSize equalSeparators = 8143 := by
  have hsize (e : InternalEntry) (he : e ∈ equalSeparators) :
      (internalFormat.entryBytes e).length = 2710 := by
    rw [length_internalEntryBytes (storable_of_mem_equalSeparators he),
      separatorKey_of_mem_equalSeparators he, BTreeKey.length_toBytes_repeated rfl]
  have hsum : internalFormat.entriesSize equalSeparators = 3 * 2710 := by
    rw [EntryFormat.entriesSize, List.map_congr_left hsize]
    rfl
  rw [internalSize, hsum]
  rfl

lemma exists_holds_equalSeparators : ∃ p, HoldsInternal .varchar equalSeparators (PageId.new 4) p := by
  have ⟨p, _, hp⟩ := appendInternalEntries_ok (PageId.new 4) equalSeparators
    (fun _ => storable_of_mem_equalSeparators) (internalSize_equalSeparators.le.trans (by decide))
  exact ⟨p, hp⟩

lemma sorted_equalSeparators :
    (equalSeparators.map InternalEntry.separatorKey).Pairwise (· ≤ ·) := by
  simp [equalSeparators]

lemma between_equalSeparators (i : Nat) : Between equalSeparators i (.repeated 'a' 2700) := by
  constructor
  · intro e _ he
    exact (separatorKey_of_mem_equalSeparators (List.mem_of_getElem? he)).le
  · intro e he
    exact (separatorKey_of_mem_equalSeparators (List.mem_of_getElem? he)).ge

/-- A fourth separator does not fit. -/
lemma replaceChild_equalSeparators_full {p : Page} {c : PageId} (left right : PageId)
    (h : HoldsInternal .varchar equalSeparators (PageId.new 4) p)
    (hc : c ∈ childIds equalSeparators (PageId.new 4)) :
    (replaceChildAfterLeafSplit .varchar c left right (.repeated 'a' 2700)).run p =
      .err .pageFull p := by
  have ⟨es', rightmost', hr⟩ := (mem_childIds.mp hc).replaced left right (.repeated 'a' 2700)
  apply h.replaceChild_full hr separator_repeated
  rw [hr.size_eq h.storable separator_repeated, internalSize_equalSeparators,
    BTreeKey.length_toBytes_repeated rfl]
  decide

/-- The third child stands behind the promoted separator, which the new separator equals: the child
is looked for in the left half, and the insertion fails. -/
theorem internalSplit_loses_child : ∃ p q q', nodeOf .varchar p = .internal equalSeparators (PageId.new 4) ∧
    (equalSeparators.map InternalEntry.separatorKey).Pairwise (· ≤ ·) ∧
    (childIds equalSeparators (PageId.new 4)).Nodup ∧
    (childIds equalSeparators (PageId.new 4))[2]? = some (PageId.new 3) ∧
    Between equalSeparators 2 (.repeated 'a' 2700) ∧
    (replaceChildAfterLeafSplit .varchar (PageId.new 3) (PageId.new 5) (PageId.new 6)
      (.repeated 'a' 2700)).run p = .err .pageFull p ∧
    (internalSplit .varchar).run (p, Page.newRaw) = .ok (.repeated 'a' 2700) (q, q') ∧
    (replaceInHalf .varchar (PageId.new 3) (PageId.new 5) (PageId.new 6) (.repeated 'a' 2700)
      (.repeated 'a' 2700)).run (q, q') = .err (.internal .invalidPage) (q, q') ∧
    ¬ SplitKeepsSequence .varchar p (PageId.new 3) (PageId.new 5) (PageId.new 6)
      (.repeated 'a' 2700) := by
  have ⟨p, h⟩ := exists_holds_equalSeparators
  have hhalves : HoldsInternal .varchar ([⟨PageId.new 1, .repeated 'a' 2700⟩] ++
      ⟨PageId.new 2, .repeated 'a' 2700⟩ :: [⟨PageId.new 3, .repeated 'a' 2700⟩]) (PageId.new 4) p := h
  have ⟨q, q', hsplit, hq, _⟩ := hhalves.internalSplit_middle rfl Page.newRaw
  have hdistinct : (childIds equalSeparators (PageId.new 4)).Nodup := by decide
  have habsent : (replaceChildAfterLeafSplit .varchar (PageId.new 3) (PageId.new 5) (PageId.new 6)
      (.repeated 'a' 2700)).run q = .err .invalidPage q := by
    apply hq.replaceChild_absent
    · intro e he
      rw [List.mem_singleton.mp he]
      decide
    · decide
  have hfailed : (replaceInHalf .varchar (PageId.new 3) (PageId.new 5) (PageId.new 6)
      (.repeated 'a' 2700) (.repeated 'a' 2700)).run (q, q') = .err (.internal .invalidPage) (q, q') := by
    rw [run_replaceInHalf_left rfl (le_refl _), habsent]
    rfl
  have hlost : ¬ SplitKeepsSequence .varchar p (PageId.new 3) (PageId.new 5) (PageId.new 6)
      (.repeated 'a' 2700) := by
    apply hhalves.not_keepsSequence rfl hdistinct rfl _ (le_refl _)
    decide
  exact ⟨p, q, q', h.nodeOf_eq, sorted_equalSeparators, hdistinct, rfl, between_equalSeparators 2,
    replaceChild_equalSeparators_full _ _ h (by decide), hsplit, hfailed, hlost⟩

/-- The second child stands before it: the page splits. -/
theorem internalSplit_keepsSequence_second : ∃ p, nodeOf .varchar p = .internal equalSeparators (PageId.new 4) ∧
    SplitKeepsSequence .varchar p (PageId.new 2) (PageId.new 5) (PageId.new 6)
      (.repeated 'a' 2700) := by
  have ⟨p, h⟩ := exists_holds_equalSeparators
  apply Exists.intro p
  apply And.intro h.nodeOf_eq
  apply (internalSplit_keepsSequence_iff h.nodeOf_eq sorted_equalSeparators (by decide)
    (show (childIds equalSeparators (PageId.new 4))[1]? = _ from rfl) (between_equalSeparators 1) rfl
    (replaceChild_equalSeparators_full _ _ h (by decide))).mpr
  apply Exists.intro ⟨PageId.new 2, .repeated 'a' 2700⟩
  apply And.intro rfl
  intro ⟨hlt, _⟩
  exact absurd hlt (by decide)

end RdbRs
