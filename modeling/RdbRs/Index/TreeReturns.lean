import RdbRs.Index.TreeTermination
import RdbRs.Storage.StoreReturns

/-!
# Calls on a tree return

Every call on a tree that its calls have led to returns `Ok` or `Err`. The calls on its pages return whatever the
pages hold.
-/

namespace RdbRs

open Exec

/-! ### Calls on pages -/

section Pages

variable {E : Type} (f : EntryFormat E)

lemma Exec.Total.onLeft {ε α : Type} {x : Exec ε Page α} (h : Exec.Total x) : Exec.Total (RdbRs.onLeft x) := h.zoom _ _

lemma Exec.Total.onRight {ε α : Type} {x : Exec ε Page α} (h : Exec.Total x) : Exec.Total (RdbRs.onRight x) := h.zoom _ _

lemma EntryFormat.total_appendEntry (entry : E) : Total (f.appendEntry entry) := by
  apply Total.bind (total_gets _)
  intro header
  split
  · exact total_throw
  · apply total_throw.ite
    split
    · exact total_throw
    · apply total_throw.ite
      apply total_throw.ite
      split
      · exact total_throw
      · exact Total.bind (total_modify _) fun _ => total_modify _

lemma EntryFormat.total_appendEntries (entries : List E) : Total (f.appendEntries entries) := by
  induction entries with
  | nil => exact total_pure
  | cons entry rest ih => exact Total.bind (f.total_appendEntry entry) fun _ => ih

lemma total_initializeLeafPage : Total initializeLeafPage := total_modify _

lemma total_initializeInternalPage (child : PageId) : Total (initializeInternalPage child) := total_modify _

lemma total_appendLeafEntries (entries : List LeafEntry) : Total (appendLeafEntries entries) :=
  leafFormat.total_appendEntries entries

lemma total_appendInternalEntries (entries : List InternalEntry) : Total (appendInternalEntries entries) :=
  internalFormat.total_appendEntries entries

lemma total_setNextLeafPageId (next : Option PageId) : Total (setNextLeafPageId next) := by
  apply Total.bind (total_gets _)
  intro header
  split
  · exact total_throw
  · exact total_modify _

lemma total_deleteLeafEntry (keyType : BTreeKeyType) (target : BTreeKey) (rowId : RowId) :
    Total (deleteLeafEntry keyType target rowId) := by
  apply Total.bind (total_query _)
  intro entries
  split
  · exact total_pure
  · apply Total.bind
    · apply total_withLocal
      exact (Total.bind total_initializeLeafPage fun _ => total_appendLeafEntries _) _
    intro rewritten
    exact Total.bind (total_modify _) fun _ => total_pure

lemma total_internalSplit (keyType : BTreeKeyType) : Total (internalSplit keyType) := by
  apply Total.bind (total_query _)
  intro entries
  apply Total.bind (total_gets _)
  intro rightmost
  simp only
  split
  · exact total_throw
  · split
    · exact total_throw
    · apply Total.bind (total_initializeInternalPage _).onLeft
      intro _
      apply Total.bind (total_appendInternalEntries _).onLeft
      intro _
      apply Total.bind (total_initializeInternalPage _).onRight
      intro _
      apply Total.bind (total_appendInternalEntries _).onRight
      exact fun _ => total_pure

/-- The end of a change of an internal page, which writes its entries anew. -/
lemma total_rewriteInternalPage (page : Page) (entries : List InternalEntry) (rightmost : PageId) : Total (do
    let (_, rewritten) ← Exec.withLocal page do
      initializeInternalPage rightmost
      appendInternalEntries entries
    Exec.modify fun _ => rewritten : Exec InternalPageError Page Unit) := by
  apply Total.bind
  · apply total_withLocal
    exact (Total.bind (total_initializeInternalPage _) fun _ => total_appendInternalEntries _) _
  exact fun _ => total_modify _

lemma total_replaceChildAfterLeafSplit (keyType : BTreeKeyType) (old left right : PageId) (separator : BTreeKey) :
    Total (replaceChildAfterLeafSplit keyType old left right separator) := by
  apply Total.bind (total_query _)
  intro entries
  apply Total.bind (total_query _)
  intro rightmost
  simp only
  split
  · next i hi =>
    -- the position of an entry is one of the list
    have hlt : i < entries.length := (List.findIdx?_eq_some_iff_getElem.mp hi).1
    rw [List.getElem?_eq_getElem hlt]
    exact total_pure.bind fun edited => total_rewriteInternalPage _ edited.1 edited.2
  · apply Total.ite
    · exact total_pure.bind fun edited => total_rewriteInternalPage _ edited.1 edited.2
    · exact total_throw.bind fun edited => total_rewriteInternalPage _ edited.1 edited.2

lemma total_removeRightChildAfterLeafMerge (left right : PageId) (keyType : BTreeKeyType) :
    Total (removeRightChildAfterLeafMerge left right keyType) := by
  apply Total.bind (total_query _)
  intro entries
  apply Total.bind (total_query _)
  intro rightmost
  split
  · exact total_throw
  · simp only
    apply Total.ite
    · exact total_pure.bind fun edited => total_rewriteInternalPage _ edited.1 edited.2
    split
    · exact total_throw.bind fun edited => total_rewriteInternalPage _ edited.1 edited.2
    · apply Total.ite
      · exact total_pure.bind fun edited => total_rewriteInternalPage _ edited.1 edited.2
      · exact total_throw.bind fun edited => total_rewriteInternalPage _ edited.1 edited.2

variable [UnstableSort]

lemma total_leafSplit (rightPageId : PageId) (keyType : BTreeKeyType) (newEntry : LeafEntry) :
    Total (leafSplit rightPageId keyType newEntry) := by
  apply Total.bind (total_query _)
  intro entries
  apply total_throw.ite
  simp only
  split
  · exact total_throw
  · apply Total.bind (total_query _)
    intro oldNext
    apply Total.bind total_initializeLeafPage.onLeft
    intro _
    apply Total.bind (total_appendLeafEntries _).onLeft
    intro _
    apply Total.bind (total_setNextLeafPageId _).onLeft
    intro _
    apply Total.bind total_initializeLeafPage.onRight
    intro _
    apply Total.bind (total_appendLeafEntries _).onRight
    intro _
    apply Total.bind (total_setNextLeafPageId _).onRight
    exact fun _ => total_pure

lemma total_leafMerge (keyType : BTreeKeyType) : Total (leafMerge keyType) := by
  apply Total.bind (total_query _)
  intro leftEntries
  apply Total.bind (total_query _)
  intro rightEntries
  apply Total.bind
  · apply total_withLocal
    exact (Total.bind total_initializeLeafPage fun _ => total_appendLeafEntries _) _
  intro merged
  apply Total.bind (Total.onLeft (total_modify _))
  intro _
  apply Total.bind (total_query _)
  intro oldNext
  apply Total.bind (total_setNextLeafPageId _).onLeft
  exact fun _ => total_initializeLeafPage.onRight

end Pages

namespace BTree

section Calls

variable {σ : Type} [PageStore σ] {F : Prop} {P : σ → Prop} (tree : BTree)

lemma total_fetchPage (pageId : PageId) : Total (tree.fetchPage pageId : Exec BTreeError σ Page) :=
  (PageStore.total_fetchPage _).mapErr _

lemma total_allocatePage : Total (tree.allocatePage : Exec BTreeError σ PageId) :=
  (PageStore.total_allocatePage _).mapErr _

lemma halts_flushPage (pageId : PageId) : Halts F (fun s => PageStore.Cached s (tree.pageKey pageId))
    (tree.flushPage pageId : Exec BTreeError σ Unit) fun _ _ => True :=
  (PageStore.halts_flushPage _).mapErr _

lemma total_fetchAndFlushPage (pageId : PageId) (bytes : Page) :
    Total (tree.fetchAndFlushPage pageId bytes : Exec BTreeError σ Unit) := by
  have hwrite := (PageStore.halts_writePage (σ := σ) (F := False) (P := fun _ => True) (tree.pageKey pageId)
    bytes).mapErr BTreeError.storage
  exact (hwrite.bind fun _ => tree.halts_flushPage pageId).total

/-- A call on a page, and what its result is for. -/
lemma halts_onPage {ε α β : Type} {call : Exec ε Page α} {f : Outcome ε Page α → Exec BTreeError σ β}
    {R : β → σ → Prop} {pageId : PageId} (hcall : Total call)
    (hok : ∀ a q, Halts F (fun s => PageStore.Cached s (tree.pageKey pageId)) (f (.ok a q)) R)
    (herr : ∀ e q, Halts F (fun _ => True) (f (.err e q)) R) :
    Halts F P (tree.onPage pageId call >>= f) R := by
  apply Halts.bind ((PageStore.halts_withPageMut _ call).mapErr _)
  rintro o s ⟨⟨p, rfl⟩, hs⟩
  obtain ⟨q, ⟨a, hrun⟩ | ⟨e, hrun⟩⟩ := hcall p
  · rw [hrun]
    exact hok a q s hs
  · rw [hrun]
    exact herr e q s trivial

lemma total_create (indexId : IndexId) (keyType : BTreeKeyType) :
    Total (create indexId keyType : Exec BTreeError σ BTree) := by
  apply Total.bind ((PageStore.total_allocatePage _).mapErr _)
  intro pageId
  apply Halts.total (Q := fun _ _ => True)
  apply (open' indexId pageId keyType).halts_onPage total_initializeLeafPage
  · intro a q
    apply ((open' indexId pageId keyType).halts_flushPage pageId).bind
    exact fun _ => total_pure.halts
  · exact fun e q => halts_throw

omit [PageStore σ] in
lemma total_rootInternalSplit (left right : PageId) (separator : BTreeKey) :
    Total (rootInternalSplit left right separator : Exec BTreeError σ Page) := by
  apply Total.bind (Total.mapErr (total_withLocal _) _) fun _ => total_pure
  exact (Total.bind (total_initializeInternalPage _) fun _ => internalFormat.total_appendEntry _) _

lemma total_rootInternalPageSplit (parent : Page) (oldChild leftPageId rightPageId : PageId)
    (separator : BTreeKey) (leftPage rightPage : Page) : Total (tree.rootInternalPageSplit parent oldChild
      leftPageId rightPageId separator leftPage rightPage : Exec BTreeError σ Unit) := by
  apply Total.bind tree.total_allocatePage
  intro leftInternalId
  apply Total.bind tree.total_allocatePage
  intro rightInternalId
  apply Total.bind (Total.mapErr (total_withLocal (total_internalSplit _ _)) _)
  rintro ⟨rootSeparator, internalPages⟩
  have hwrite (leftInternalPage rightInternalPage : Page) : Total (do
      let newRoot ← rootInternalSplit leftInternalId rightInternalId rootSeparator
      tree.fetchAndFlushPage leftPageId leftPage
      tree.fetchAndFlushPage rightPageId rightPage
      tree.fetchAndFlushPage leftInternalId leftInternalPage
      tree.fetchAndFlushPage rightInternalId rightInternalPage
      tree.fetchAndFlushPage tree.rootPageId newRoot : Exec BTreeError σ Unit) := by
    apply Total.bind (total_rootInternalSplit _ _ _)
    intro newRoot
    apply Total.bind (tree.total_fetchAndFlushPage _ _)
    intro _
    apply Total.bind (tree.total_fetchAndFlushPage _ _)
    intro _
    apply Total.bind (tree.total_fetchAndFlushPage _ _)
    intro _
    apply Total.bind (tree.total_fetchAndFlushPage _ _)
    exact fun _ => tree.total_fetchAndFlushPage _ _
  have hreplace := total_replaceChildAfterLeafSplit tree.keyType oldChild leftPageId rightPageId separator
  simp only
  split
  · apply Total.bind (Total.mapErr (total_withLocal (hreplace.onRight _)) _)
    exact fun replaced => hwrite replaced.2.1 replaced.2.2
  · apply Total.bind (Total.mapErr (total_withLocal (hreplace.onLeft _)) _)
    exact fun replaced => hwrite replaced.2.1 replaced.2.2
  · exact total_throw.bind fun replaced => hwrite replaced.2.1 replaced.2.2

variable [UnstableSort]

lemma total_rootLeafSplit (rootBytes : Page) (newEntry : LeafEntry) :
    Total (tree.rootLeafSplit rootBytes newEntry : Exec BTreeError σ Unit) := by
  apply Total.bind tree.total_allocatePage
  intro leftPageId
  apply Total.bind tree.total_allocatePage
  intro rightPageId
  apply Total.bind (Total.mapErr (total_withLocal (total_leafSplit _ _ _ _)) _)
  intro split
  apply Total.bind (tree.total_fetchAndFlushPage _ _)
  intro _
  apply Total.bind (tree.total_fetchAndFlushPage _ _)
  intro _
  apply Total.bind (total_rootInternalSplit _ _ _)
  exact fun rootPage => tree.total_fetchAndFlushPage _ _

lemma total_childLeafSplit (leafBytes : Page) (oldChild : PageId) (newEntry : LeafEntry) :
    Total (tree.childLeafSplit leafBytes oldChild newEntry : Exec BTreeError σ Unit) := by
  apply Total.bind (tree.total_fetchPage _)
  intro parent
  apply Total.bind tree.total_allocatePage
  intro leftPageId
  apply Total.bind tree.total_allocatePage
  intro rightPageId
  apply Total.bind (Total.mapErr (total_withLocal (total_leafSplit _ _ _ _)) _)
  intro split
  have hreplace := total_replaceChildAfterLeafSplit tree.keyType oldChild leftPageId rightPageId split.1
  apply Total.bind (total_withLocal (hreplace.attempt _))
  rintro ⟨result, parent⟩
  cases result with
  | ok _ =>
    apply Total.bind (tree.total_fetchAndFlushPage _ _)
    intro _
    apply Total.bind (tree.total_fetchAndFlushPage _ _)
    exact fun _ => tree.total_fetchAndFlushPage _ _
  | error e =>
    cases e with
    | pageFull => exact tree.total_rootInternalPageSplit _ _ _ _ _ _ _
    | invalidPage => exact total_throw

lemma total_mergeUnderfullLeaf (parent pageId : PageId) :
    Total (tree.mergeUnderfullLeaf parent pageId : Exec BTreeError σ Unit) := by
  apply Total.bind (tree.total_fetchPage _)
  intro parentPage
  apply Total.bind ((total_liftExcept _).mapErr _)
  intro pair
  split
  · exact total_pure
  · apply Total.bind (tree.total_fetchPage _)
    intro leftPage
    apply Total.bind (tree.total_fetchPage _)
    intro rightPage
    apply Total.bind (Total.mapErr (total_withLocal (total_leafMerge _ _)) _)
    intro merged
    apply Total.bind (Total.mapErr (total_withLocal (total_removeRightChildAfterLeafMerge _ _ _ _)) _)
    intro removed
    apply Total.bind (tree.total_fetchAndFlushPage _ _)
    intro _
    apply Total.bind (tree.total_fetchAndFlushPage _ _)
    exact fun _ => tree.total_fetchAndFlushPage _ _

end Calls

/-! ### Calls that search first -/

section Searches

variable {σ : Type} [PageStore σ] [UnstableSort] {F : Prop} {tree : BTree} (k : BTreeKey)

omit [UnstableSort] in
/-- A search in a sound tree returns. -/
lemma halts_search : Halts F tree.Sound (tree.search k : Exec BTreeError σ (List RowId)) fun _ _ => True := by
  intro s hs
  by_cases hk : k.keyType = tree.keyType
  · obtain ⟨d, parent, x, ps, hends⟩ := hs.searchEnds hk
    obtain ⟨s', hrun⟩ := hends.search
    rw [hrun]
    trivial
  · rw [search, if_pos]
    · trivial
    · rw [acceptsKey, decide_eq_true_iff]
      exact Ne.symm hk

/-- An insertion into a sound tree returns: the descent ends, and after it there is no loop. -/
lemma halts_insert (rowId : RowId) :
    Halts F tree.Sound (tree.insert k rowId : Exec BTreeError σ Unit) fun _ _ => True := by
  unfold insert
  by_cases hk : k.keyType = tree.keyType
  · have haccepts : ¬ ¬ tree.acceptsKey k := not_not.mpr (decide_eq_true hk.symm)
    rw [if_neg haccepts]
    have hfind : Halts F tree.Sound (tree.findLeafPageId k : Exec BTreeError σ PageId) fun _ _ => True := by
      intro s hs
      obtain ⟨d, parent, x, ps, hends⟩ := hs.searchEnds hk
      obtain ⟨s', hrun⟩ := hends.findLeaf
      rw [hrun]
      trivial
    apply hfind.bind
    intro pageId
    apply tree.halts_onPage (leafFormat.total_appendEntry _)
    · exact fun a q => tree.halts_flushPage pageId
    · intro e q
      cases e with
      | pageFull =>
        exact Halts.ite (tree.total_rootLeafSplit q ⟨k, rowId⟩).halts
          (tree.total_childLeafSplit q pageId ⟨k, rowId⟩).halts
      | invalidPage => exact halts_throw
  · have haccepts : ¬ tree.acceptsKey k := by
      rw [acceptsKey, decide_eq_true_iff]
      exact Ne.symm hk
    rw [if_pos haccepts]
    exact halts_throw

/-- So does a deletion. -/
lemma halts_delete (rowId : RowId) :
    Halts F tree.Sound (tree.delete k rowId : Exec BTreeError σ Bool) fun _ _ => True := by
  unfold delete
  by_cases hk : k.keyType = tree.keyType
  · have haccepts : ¬ ¬ tree.acceptsKey k := not_not.mpr (decide_eq_true hk.symm)
    rw [if_neg haccepts]
    have hfind : Halts F tree.Sound (tree.findLeafAndParentPageIds k : Exec BTreeError σ _)
        fun _ _ => True := by
      intro s hs
      obtain ⟨d, parent, x, ps, hends⟩ := hs.searchEnds hk
      obtain ⟨s', hrun⟩ := hends.findLeafAndParent
      rw [hrun]
      trivial
    apply hfind.bind
    rintro ⟨parent, pageId⟩
    apply tree.halts_onPage
    · apply Total.bind (total_deleteLeafEntry _ _ _)
      intro deleted
      exact Total.bind (total_query _) fun _ => total_pure
    · rintro ⟨deleted, isUnderfull⟩ q
      cases deleted with
      | false => exact total_pure.halts
      | true =>
        apply (tree.halts_flushPage pageId).bind
        intro _
        cases parent with
        | none => exact total_pure.halts
        | some parent =>
          apply Total.halts
          apply Total.ite _ total_pure
          exact (tree.total_mergeUnderfullLeaf parent pageId).bind fun _ => total_pure
    · exact fun e q => halts_throw
  · have haccepts : ¬ tree.acceptsKey k := by
      rw [acceptsKey, decide_eq_true_iff]
      exact Ne.symm hk
    rw [if_pos haccepts]
    exact halts_throw

end Searches

end BTree

end RdbRs
