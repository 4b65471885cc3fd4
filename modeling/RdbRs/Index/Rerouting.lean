import RdbRs.Index.InternalSequence

/-!
# Where keys go after an edit of their parent

A leaf that splits hands its keys to two children, two leaves that merge hand theirs to one. The
other keys go where they went before.
-/

namespace RdbRs

section Route

variable {es pre post : List InternalEntry} {rightmost old left right : PageId} {k s s' : BTreeKey}

lemma childFor_append : childFor rightmost k (pre ++ es) = childFor (childFor rightmost k es) k pre := by
  induction pre with
  | nil => rfl
  | cons e rest ih =>
    rw [List.cons_append, childFor, childFor, ih]

lemma childFor_mem : childFor rightmost k es ∈ childIds es rightmost := by
  induction es with
  | nil => simp [childFor, childIds]
  | cons e rest ih =>
    unfold childFor
    by_cases hle : k ≤ e.separatorKey
    · rw [if_pos hle]
      exact List.mem_cons_self
    · rw [if_neg hle]
      exact List.mem_cons_of_mem _ ih

/-- A key passes all the entries, or it stops at one of them whatever stands behind. -/
lemma childFor_cases (k : BTreeKey) (pre : List InternalEntry) :
    (∀ c, childFor c k pre = c) ∨ ∃ e ∈ pre, ∀ c, childFor c k pre = e.leftChild := by
  induction pre with
  | nil => exact .inl fun _ => rfl
  | cons e rest ih =>
    by_cases hle : k ≤ e.separatorKey
    · right
      apply Exists.intro e
      apply And.intro List.mem_cons_self
      intro c
      rw [childFor, if_pos hle]
    · rcases ih with hpass | ⟨e', he', hstop⟩
      · left
        intro c
        rw [childFor, if_neg hle, hpass]
      · right
        apply Exists.intro e'
        apply And.intro (List.mem_cons_of_mem _ he')
        intro c
        rw [childFor, if_neg hle, hstop]

/-- The keys of a child that is no rightmost one, after it has become two. -/
lemma childFor_replaced_inner (hpre : ∀ e ∈ pre, e.leftChild ≠ old)
    (hpost : old ∉ childIds post rightmost) (hle : s ≤ s') :
    childFor rightmost k (pre ++ ⟨left, s⟩ :: ⟨right, s'⟩ :: post) =
      if childFor rightmost k (pre ++ ⟨old, s'⟩ :: post) = old then if k ≤ s then left else right
      else childFor rightmost k (pre ++ ⟨old, s'⟩ :: post) := by
  rw [childFor_append, childFor_append]
  rcases childFor_cases k pre with hpass | ⟨e, he, hstop⟩
  · rw [hpass, hpass]
    simp only [childFor]
    by_cases hk : k ≤ s'
    · rw [if_pos hk, if_pos hk, if_pos rfl]
    · have hks : ¬ k ≤ s := fun h => hk (h.trans hle)
      have hother : childFor rightmost k post ≠ old := fun h => hpost (h ▸ childFor_mem)
      rw [if_neg hk, if_neg hks, if_neg hk, if_neg hother]
  · rw [hstop, hstop, if_neg (hpre e he)]

/-- The same for the rightmost child. -/
lemma childFor_replaced_last (hes : ∀ e ∈ es, e.leftChild ≠ old) :
    childFor right k (es ++ [⟨left, s⟩]) =
      if childFor old k es = old then if k ≤ s then left else right else childFor old k es := by
  rw [childFor_append]
  rcases childFor_cases k es with hpass | ⟨e, he, hstop⟩
  · rw [hpass, hpass, if_pos rfl]
    rfl
  · rw [hstop, hstop, if_neg (hes e he)]

/-- The keys of two neighbours, after the right one has gone. -/
lemma childFor_merged_inner (hpre : ∀ e ∈ pre, e.leftChild ≠ left ∧ e.leftChild ≠ right)
    (hpost : left ∉ childIds post rightmost ∧ right ∉ childIds post rightmost) (hle : s ≤ s') :
    childFor rightmost k (pre ++ ⟨left, s'⟩ :: post) =
      if childFor rightmost k (pre ++ ⟨left, s⟩ :: ⟨right, s'⟩ :: post) = left ∨
          childFor rightmost k (pre ++ ⟨left, s⟩ :: ⟨right, s'⟩ :: post) = right then left
      else childFor rightmost k (pre ++ ⟨left, s⟩ :: ⟨right, s'⟩ :: post) := by
  rw [childFor_append, childFor_append]
  rcases childFor_cases k pre with hpass | ⟨e, he, hstop⟩
  · rw [hpass, hpass]
    simp only [childFor]
    by_cases hk : k ≤ s
    · rw [if_pos (hk.trans hle), if_pos hk, if_pos (.inl rfl)]
    · by_cases hk' : k ≤ s'
      · rw [if_pos hk', if_neg hk, if_pos hk', if_pos (.inr rfl)]
      · have hother : ¬ (childFor rightmost k post = left ∨ childFor rightmost k post = right) := by
          rintro (h | h)
          · exact hpost.1 (h ▸ childFor_mem)
          · exact hpost.2 (h ▸ childFor_mem)
        rw [if_neg hk', if_neg hk, if_neg hk', if_neg hother]
  · have hother : ¬ (e.leftChild = left ∨ e.leftChild = right) := not_or.mpr (hpre e he)
    rw [hstop, hstop, if_neg hother]

lemma childFor_merged_last (hpre : ∀ e ∈ pre, e.leftChild ≠ left ∧ e.leftChild ≠ right) :
    childFor left k pre =
      if childFor right k (pre ++ [⟨left, s⟩]) = left ∨ childFor right k (pre ++ [⟨left, s⟩]) = right
        then left
      else childFor right k (pre ++ [⟨left, s⟩]) := by
  rw [childFor_append]
  rcases childFor_cases k pre with hpass | ⟨e, he, hstop⟩
  · rw [hpass, hpass, childFor, childFor]
    by_cases hk : k ≤ s
    · rw [if_pos hk, if_pos (.inl rfl)]
    · rw [if_neg hk, if_pos (.inr rfl)]
  · have hother : ¬ (e.leftChild = left ∨ e.leftChild = right) := not_or.mpr (hpre e he)
    rw [hstop, hstop, if_neg hother]

end Route

/-! ### The two edits -/

/-- Every key that `p` sends to `c` is sent to `f k c` by `q`. -/
def Reroutes (t : BTreeKeyType) (p q : Page) (f : BTreeKey → PageId → PageId) : Prop :=
  ∀ k, k.keyType = t → ∃ c, findInternalChild p t k = .ok c ∧ findInternalChild q t k = .ok (f k c)

section Edits

variable {t : BTreeKeyType} {es es' : List InternalEntry} {rightmost rightmost' old left right : PageId}
  {p q : Page} {s : BTreeKey} {i : Nat}

lemma HoldsInternal.reroutes {f : BTreeKey → PageId → PageId} (h : HoldsInternal t es rightmost p)
    (h' : HoldsInternal t es' rightmost' q)
    (hf : ∀ k, childFor rightmost' k es' = f k (childFor rightmost k es)) : Reroutes t p q f := by
  intro k hk
  apply Exists.intro (childFor rightmost k es)
  apply And.intro (h.findInternalChild_eq hk)
  rw [h'.findInternalChild_eq hk, hf]

/-- A replacement that succeeds has written the new entries. -/
lemma HoldsInternal.replaceChild_holds (h : HoldsInternal t es rightmost p)
    (hr : ReplacedChild old left right s es rightmost es' rightmost') (hs : s.keyType = t)
    (hrun : (replaceChildAfterLeafSplit t old left right s).run p = .ok () q) :
    HoldsInternal t es' rightmost' q := by
  have htypes : ∀ e ∈ es', e.separatorKey.keyType = t := by
    intro e he
    cases hr with
    | @inner pre post k _ _ =>
      have hk := h.keyType_eq (e := ⟨old, k⟩) (by simp)
      simp only [List.mem_append, List.mem_cons] at he
      rcases he with he | rfl | rfl | he
      · exact h.keyType_eq (by simp [he])
      · exact hs
      · exact hk
      · exact h.keyType_eq (by simp [he])
    | last _ =>
      rcases List.mem_append.mp he with he | he
      · exact h.keyType_eq he
      · rw [List.mem_singleton.mp he]
        exact hs
  rw [h.replaceChild_run hr] at hrun
  by_cases hfits : (∀ e ∈ es', (internalFormat.toBytes e).isSome) ∧ internalSize es' ≤ pageSize
  · have ⟨q', happend, hq'⟩ := appendInternalEntries_ok (t := t) rightmost' es'
      (fun e he => ⟨htypes e he, hfits.1 e he⟩) hfits.2
    rw [happend] at hrun
    cases hrun
    exact hq'
  · have ⟨err, q', happend⟩ := (holdsInternal_emptyInternal t rightmost').appendEntries_err
      (internalFormat_lawful t) es' htypes hfits
    rw [appendInternalEntries, happend] at hrun
    cases hrun

/-- The entry of a child, unless it is the rightmost one. -/
lemma childIds_getElem (hchild : (childIds es rightmost)[i]? = some old) :
    (∃ pre s post, es = pre ++ ⟨old, s⟩ :: post ∧ pre.length = i) ∨ old = rightmost := by
  rcases Nat.lt_or_ge i es.length with hlt | hge
  · left
    rw [childIds, List.getElem?_append_left (by simpa using hlt), List.getElem?_map,
      List.getElem?_eq_getElem hlt] at hchild
    refine ⟨es.take i, es[i].separatorKey, es.drop (i + 1), ?_, List.length_take_of_le hlt.le⟩
    have hentry : (⟨old, es[i].separatorKey⟩ : InternalEntry) = es[i] := by
      rw [← Option.some.inj hchild]
    rw [hentry, List.getElem_cons_drop, List.take_append_drop]
  · right
    rw [childIds, List.getElem?_append_right (by simpa using hge)] at hchild
    exact (List.mem_singleton.mp (List.mem_of_getElem? hchild))

/-- The child of an entry stands neither before nor behind it. -/
lemma apart_of_nodup {pre post : List InternalEntry} {c : PageId} {s : BTreeKey}
    (h : (childIds (pre ++ ⟨c, s⟩ :: post) rightmost).Nodup) :
    (∀ e ∈ pre, e.leftChild ≠ c) ∧ c ∉ childIds post rightmost := by
  rw [childIds_append, childIds, List.append_assoc] at h
  obtain ⟨_, hrest, hapart⟩ := List.nodup_append.mp h
  constructor
  · intro e he
    exact hapart e.leftChild (List.mem_map_of_mem he) c (by simp)
  · exact (List.nodup_cons.mp hrest).1

lemma apart_of_nodup_last (h : (childIds es rightmost).Nodup) :
    ∀ e ∈ es, e.leftChild ≠ rightmost := by
  intro e he
  exact (List.nodup_append.mp h).2.2 e.leftChild (List.mem_map_of_mem he) rightmost (by simp)

/-- A child that has become two hands each of them its keys. -/
lemma HoldsInternal.replaceChild_reroutes (h : HoldsInternal t es rightmost p)
    (hdistinct : (childIds es rightmost).Nodup) (hchild : (childIds es rightmost)[i]? = some old)
    (hbetween : Between es i s) (hs : s.keyType = t)
    (hrun : (replaceChildAfterLeafSplit t old left right s).run p = .ok () q) :
    Reroutes t p q fun k c => if c = old then if k ≤ s then left else right else c := by
  rcases childIds_getElem hchild with ⟨pre, s', post, rfl, rfl⟩ | rfl
  · have ⟨hpre, hpost⟩ := apart_of_nodup hdistinct
    have hle : s ≤ s' := hbetween.2 ⟨old, s'⟩ (by simp)
    apply h.reroutes (h.replaceChild_holds (.inner hpre) hs hrun)
    intro k
    exact childFor_replaced_inner hpre hpost hle
  · have hes := apart_of_nodup_last hdistinct
    apply h.reroutes (h.replaceChild_holds (.last hes) hs hrun)
    intro k
    exact childFor_replaced_last hes

/-- What a merge of two leaves asks of their parent. -/
structure MergesPair (t : BTreeKeyType) (es : List InternalEntry) (rightmost c : PageId) (p : Page)
    (left right : PageId) (q : Page) : Prop where
  found : findLeafMergePair p t c = .ok (some (left, right))
  adjacent : [left, right] <:+: childIds es rightmost
  mem : c = left ∨ c = right
  removed : (removeRightChildAfterLeafMerge left right t).run p = .ok () q
  reroutes : Reroutes t p q fun _ d => if d = left ∨ d = right then left else d

/-- An entry and the one behind it. -/
lemma HoldsInternal.mergesPair_inner {pre post : List InternalEntry} {s s' : BTreeKey}
    (h : HoldsInternal t (pre ++ ⟨left, s⟩ :: ⟨right, s'⟩ :: post) rightmost p) (hle : s ≤ s')
    (hdistinct : (childIds (pre ++ ⟨left, s⟩ :: ⟨right, s'⟩ :: post) rightmost).Nodup) :
    ∃ q, MergesPair t (pre ++ ⟨left, s⟩ :: ⟨right, s'⟩ :: post) rightmost left p left right q := by
  obtain ⟨hpre, hpost⟩ := apart_of_nodup hdistinct
  have hassoc : pre ++ ⟨left, s⟩ :: ⟨right, s'⟩ :: post =
      (pre ++ [⟨left, s⟩]) ++ ⟨right, s'⟩ :: post := by simp
  obtain ⟨hpre', hpost'⟩ := apart_of_nodup (hassoc ▸ hdistinct)
  have hne : rightmost ≠ right := by
    intro heq
    apply hpost'
    simp [childIds, heq]
  have hleft : left ∉ childIds post rightmost := fun hmem => hpost (List.mem_cons_of_mem _ hmem)
  obtain ⟨q, hrun, hq⟩ := h.removeRightChild_ok (.inner hpre hne)
  apply Exists.intro q
  constructor
  · exact h.findLeafMergePair_inner hpre
  · exact ⟨pre.map InternalEntry.leftChild, childIds post rightmost, by simp [childIds]⟩
  · exact .inl rfl
  · exact hrun
  · apply h.reroutes hq
    intro k
    apply childFor_merged_inner _ ⟨hleft, hpost'⟩ hle
    intro e he
    exact ⟨hpre e he, hpre' e (List.mem_append_left _ he)⟩

/-- The last entry and the rightmost child. -/
lemma HoldsInternal.mergesPair_last {pre : List InternalEntry} {s : BTreeKey} {c : PageId}
    (h : HoldsInternal t (pre ++ [⟨left, s⟩]) right p) (hc : c = left ∨ c = right)
    (hdistinct : (childIds (pre ++ [⟨left, s⟩]) right).Nodup) :
    ∃ q, MergesPair t (pre ++ [⟨left, s⟩]) right c p left right q := by
  have ⟨hpre, _⟩ := apart_of_nodup hdistinct
  have hes := apart_of_nodup_last hdistinct
  have ⟨q, hrun, hq⟩ := h.removeRightChild_ok (.last hpre)
  apply Exists.intro q
  constructor
  · rcases hc with rfl | rfl
    · exact h.findLeafMergePair_inner hpre
    · exact h.findLeafMergePair_last hes
  · exact ⟨pre.map InternalEntry.leftChild, [], by simp [childIds]⟩
  · exact hc
  · exact hrun
  · apply h.reroutes hq
    intro k
    apply childFor_merged_last
    intro e he
    exact ⟨hpre e he, hes e (List.mem_append_left _ he)⟩

/-- A child that has a sibling is found a neighbour to merge with. -/
lemma HoldsInternal.exists_mergesPair {c : PageId} (h : HoldsInternal t es rightmost p)
    (hsorted : (es.map InternalEntry.separatorKey).Pairwise (· ≤ ·))
    (hdistinct : (childIds es rightmost).Nodup) (hc : c ∈ childIds es rightmost)
    (hsibling : 1 < (childIds es rightmost).length) :
    ∃ left right q, MergesPair t es rightmost c p left right q := by
  have hne : es ≠ [] := by
    intro hnil
    rw [hnil] at hsibling
    exact absurd hsibling (by simp [childIds])
  obtain ⟨i, hi⟩ := List.mem_iff_getElem?.mp hc
  rcases childIds_getElem hi with ⟨pre, s, post, rfl, _⟩ | rfl
  · cases post with
    | nil =>
      obtain ⟨q, hq⟩ := h.mergesPair_last (.inl rfl) hdistinct
      exact ⟨c, rightmost, q, hq⟩
    | cons e post =>
      have hle : s ≤ e.separatorKey := by
        rw [List.map_append] at hsorted
        exact List.rel_of_pairwise_cons (List.pairwise_append.mp hsorted).2.1 (by simp)
      obtain ⟨q, hq⟩ := h.mergesPair_inner hle hdistinct
      exact ⟨c, e.leftChild, q, hq⟩
  · obtain ⟨pre, last, heq⟩ := List.eq_nil_or_concat' es |>.resolve_left hne
    subst heq
    obtain ⟨q, hq⟩ := h.mergesPair_last (.inr rfl) hdistinct
    exact ⟨last.leftChild, c, q, hq⟩

/-- The edits of a parent reroute exactly the keys of the children they replace or remove. -/
theorem parentEdits_reroute (hnode : nodeOf t p = .internal es rightmost)
    (hsorted : (es.map InternalEntry.separatorKey).Pairwise (· ≤ ·))
    (hdistinct : (childIds es rightmost).Nodup) :
    (∀ i old left right s q, (childIds es rightmost)[i]? = some old → Between es i s →
      s.keyType = t → (replaceChildAfterLeafSplit t old left right s).run p = .ok () q →
      Reroutes t p q fun k c => if c = old then if k ≤ s then left else right else c) ∧
    ∀ c ∈ childIds es rightmost, 1 < (childIds es rightmost).length →
      ∃ left right q, MergesPair t es rightmost c p left right q := by
  have h := holdsInternal_of_nodeOf hnode
  constructor
  · intro i old left right s q hchild hbetween hs hrun
    exact h.replaceChild_reroutes hdistinct hchild hbetween hs hrun
  · intro c hc hsibling
    exact h.exists_mergesPair hsorted hdistinct hc hsibling

/-- The middle one of three children becomes two, and each of the three has a neighbour. -/
theorem parentEdits_reroute_three : ∃ p q,
    nodeOf .boolean p = .internal [⟨PageId.new 1, .boolean false⟩, ⟨PageId.new 2, .boolean true⟩]
      (PageId.new 3) ∧
    (replaceChildAfterLeafSplit .boolean (PageId.new 2) (PageId.new 4) (PageId.new 5)
      (.boolean false)).run p = .ok () q ∧
    (Reroutes .boolean p q fun k c => if c = PageId.new 2 then
      if k ≤ .boolean false then PageId.new 4 else PageId.new 5 else c) ∧
    ∃ left right q', MergesPair .boolean
      [⟨PageId.new 1, .boolean false⟩, ⟨PageId.new 2, .boolean true⟩] (PageId.new 3) (PageId.new 3) p
      left right q' := by
  let es : List InternalEntry := [⟨PageId.new 1, .boolean false⟩, ⟨PageId.new 2, .boolean true⟩]
  have hes : ∀ e ∈ es, InternalStorable .boolean e := by
    intro e he
    apply internalStorable_iff.mpr
    simp only [es, List.mem_cons, List.not_mem_nil, or_false] at he
    rcases he with rfl | rfl
    · exact ⟨rfl, by decide⟩
    · exact ⟨rfl, by decide⟩
  have ⟨p, _, h⟩ := appendInternalEntries_ok (PageId.new 3) es hes (by decide)
  have hinner : ReplacedChild (PageId.new 2) (PageId.new 4) (PageId.new 5) (.boolean false)
      ([⟨PageId.new 1, .boolean false⟩] ++ ⟨PageId.new 2, .boolean true⟩ :: []) (PageId.new 3) _ _ :=
    .inner (by decide)
  have ⟨q, hrun, _⟩ := HoldsInternal.replaceChild_ok h hinner ⟨rfl, by decide⟩ (by decide)
  have ⟨hreplace, hmerge⟩ := parentEdits_reroute h.nodeOf_eq (by decide) (by decide)
  have hbetween : Between es 1 (.boolean false) := by
    constructor
    · intro e _ he
      rw [← Option.some.inj he]
    · intro e he
      rw [← Option.some.inj he]
      decide
  exact ⟨p, q, h.nodeOf_eq, hrun, hreplace 1 _ _ _ _ q rfl hbetween rfl hrun,
    hmerge (PageId.new 3) (by decide) (by decide)⟩

end Edits

end RdbRs
