import RdbRs.Index.BTree
import RdbRs.Storage.SamePages

/-!
# Trees over the same pages

Every call on a tree returns the same from two managers that show the same pages.
-/

namespace RdbRs

open Exec ReliableManager

namespace BTree

section Reads

variable (tree : BTree)

lemma matches_fetchPage (pageId : PageId) :
    Matches SamePages (tree.fetchPage pageId : Exec BTreeError ReliableManager Page) (tree.fetchPage pageId) :=
  (ReliableManager.matches_fetchPage _).mapErr _

lemma matches_linkFuel :
    Matches SamePages (tree.linkFuel : Exec BTreeError ReliableManager Nat) tree.linkFuel := by
  apply matches_gets
  intro s t hst
  rw [show PageStore.pages s = PageStore.pages t from hst]

lemma matches_findLeafLoop (target : BTreeKey) (fuel : Nat) (pageId : PageId) :
    Matches SamePages (tree.findLeafLoop target fuel pageId : Exec BTreeError ReliableManager PageId)
      (tree.findLeafLoop target fuel pageId) := by
  induction fuel generalizing pageId with
  | zero => exact couples_diverge
  | succ fuel ih =>
    apply Matches.bind (tree.matches_fetchPage pageId)
    intro page
    split
    · exact matches_throw _
    · apply (matches_pure _).ite
      apply Matches.bind ((matches_liftExcept _).mapErr _)
      intro child
      exact ih child

lemma matches_findLeafPageId (target : BTreeKey) :
    Matches SamePages (tree.findLeafPageId target : Exec BTreeError ReliableManager PageId)
      (tree.findLeafPageId target) := by
  apply Matches.bind tree.matches_linkFuel
  intro fuel
  exact tree.matches_findLeafLoop target fuel _

lemma matches_findLeafAndParentLoop (target : BTreeKey) (fuel : Nat) (parent : Option PageId)
    (pageId : PageId) : Matches SamePages
      (tree.findLeafAndParentLoop target fuel parent pageId : Exec BTreeError ReliableManager _)
      (tree.findLeafAndParentLoop target fuel parent pageId) := by
  induction fuel generalizing parent pageId with
  | zero => exact couples_diverge
  | succ fuel ih =>
    apply Matches.bind (tree.matches_fetchPage pageId)
    intro page
    split
    · exact matches_throw _
    · apply (matches_pure _).ite
      apply Matches.bind ((matches_liftExcept _).mapErr _)
      intro child
      exact ih _ child

lemma matches_searchLoop (target : BTreeKey) (fuel : Nat) (pageId : PageId) (results : List RowId) :
    Matches SamePages (tree.searchLoop target fuel pageId results : Exec BTreeError ReliableManager _)
      (tree.searchLoop target fuel pageId results) := by
  induction fuel generalizing pageId results with
  | zero => exact couples_diverge
  | succ fuel ih =>
    apply Matches.bind (tree.matches_fetchPage pageId)
    intro page
    apply Matches.bind ((matches_liftExcept _).mapErr _)
    intro found
    apply (matches_pure _).ite
    split
    · exact matches_throw _
    · split
      · exact ih _ _
      · exact matches_pure _

lemma matches_search (target : BTreeKey) :
    Matches SamePages (tree.search target : Exec BTreeError ReliableManager _) (tree.search target) := by
  apply (matches_throw _).ite
  apply Matches.bind (tree.matches_findLeafPageId target)
  intro leafPageId
  apply Matches.bind tree.matches_linkFuel
  intro fuel
  exact tree.matches_searchLoop target fuel leafPageId []

end Reads

/-! ### Changes -/

section Changes

variable (tree : BTree)

lemma matches_allocatePage :
    Matches SamePages (tree.allocatePage : Exec BTreeError ReliableManager PageId) tree.allocatePage :=
  (ReliableManager.matches_allocatePage _).mapErr _

lemma matches_flushPage (pageId : PageId) : Couples (Held (tree.pageKey pageId)) SamePages SamePages
    (tree.flushPage pageId : Exec BTreeError ReliableManager Unit) (tree.flushPage pageId) :=
  (ReliableManager.matches_flushPage _).mapErr _

lemma matches_onPage {ε α : Type} (pageId : PageId) (call : Exec ε Page α) :
    Couples SamePages (Held (tree.pageKey pageId)) SamePages
      (tree.onPage pageId call : Exec BTreeError ReliableManager _) (tree.onPage pageId call) :=
  (matches_withPageMut _ call).mapErr _

lemma matches_fetchAndFlushPage (pageId : PageId) (bytes : Page) : Matches SamePages
    (tree.fetchAndFlushPage pageId bytes : Exec BTreeError ReliableManager Unit)
    (tree.fetchAndFlushPage pageId bytes) := by
  apply Couples.bind ((matches_access _ _).mapErr _)
  intro _
  exact tree.matches_flushPage pageId

lemma matches_create (indexId : IndexId) (keyType : BTreeKeyType) : Matches SamePages
    (create indexId keyType : Exec BTreeError ReliableManager BTree) (create indexId keyType) := by
  apply Matches.bind ((ReliableManager.matches_allocatePage _).mapErr _)
  intro pageId
  apply Couples.bind ((open' indexId pageId keyType).matches_onPage pageId initializeLeafPage)
  intro o
  cases o with
  | ok a q =>
    apply Couples.bind ((open' indexId pageId keyType).matches_flushPage pageId)
    exact fun _ => matches_pure _
  | err e q => exact (matches_throw _).pre fun _ _ hst => hst.samePages
  | panic => exact couples_panic
  | diverge => exact couples_diverge

lemma matches_rootInternalSplit (left right : PageId) (separator : BTreeKey) : Matches SamePages
    (rootInternalSplit left right separator : Exec BTreeError ReliableManager Page)
    (rootInternalSplit left right separator) := by
  apply Matches.bind ((matches_withLocal _ _).mapErr _)
  exact fun _ => matches_pure _

lemma matches_rootInternalPageSplit (parent : Page) (oldChild leftPageId rightPageId : PageId)
    (separator : BTreeKey) (leftPage rightPage : Page) : Matches SamePages
      (tree.rootInternalPageSplit parent oldChild leftPageId rightPageId separator leftPage rightPage :
        Exec BTreeError ReliableManager Unit)
      (tree.rootInternalPageSplit parent oldChild leftPageId rightPageId separator leftPage rightPage) := by
  apply Matches.bind tree.matches_allocatePage
  intro leftInternalId
  apply Matches.bind tree.matches_allocatePage
  intro rightInternalId
  apply Matches.bind ((matches_withLocal _ _).mapErr _)
  rintro ⟨rootSeparator, internalPages⟩
  have hwrite (leftInternalPage rightInternalPage : Page) : Matches SamePages (do
      let newRoot ← rootInternalSplit leftInternalId rightInternalId rootSeparator
      tree.fetchAndFlushPage leftPageId leftPage
      tree.fetchAndFlushPage rightPageId rightPage
      tree.fetchAndFlushPage leftInternalId leftInternalPage
      tree.fetchAndFlushPage rightInternalId rightInternalPage
      tree.fetchAndFlushPage tree.rootPageId newRoot : Exec BTreeError ReliableManager Unit) (do
      let newRoot ← rootInternalSplit leftInternalId rightInternalId rootSeparator
      tree.fetchAndFlushPage leftPageId leftPage
      tree.fetchAndFlushPage rightPageId rightPage
      tree.fetchAndFlushPage leftInternalId leftInternalPage
      tree.fetchAndFlushPage rightInternalId rightInternalPage
      tree.fetchAndFlushPage tree.rootPageId newRoot) := by
    apply Matches.bind (matches_rootInternalSplit _ _ _)
    intro newRoot
    apply Matches.bind (tree.matches_fetchAndFlushPage _ _)
    intro _
    apply Matches.bind (tree.matches_fetchAndFlushPage _ _)
    intro _
    apply Matches.bind (tree.matches_fetchAndFlushPage _ _)
    intro _
    apply Matches.bind (tree.matches_fetchAndFlushPage _ _)
    intro _
    exact tree.matches_fetchAndFlushPage _ _
  simp only
  split
  · apply Matches.bind ((matches_withLocal _ _).mapErr _)
    intro replaced
    exact hwrite replaced.2.1 replaced.2.2
  · apply Matches.bind ((matches_withLocal _ _).mapErr _)
    intro replaced
    exact hwrite replaced.2.1 replaced.2.2
  · exact (matches_throw _).bind fun replaced => hwrite replaced.2.1 replaced.2.2

variable [UnstableSort]

lemma matches_rootLeafSplit (rootBytes : Page) (newEntry : LeafEntry) : Matches SamePages
    (tree.rootLeafSplit rootBytes newEntry : Exec BTreeError ReliableManager Unit)
    (tree.rootLeafSplit rootBytes newEntry) := by
  apply Matches.bind tree.matches_allocatePage
  intro leftPageId
  apply Matches.bind tree.matches_allocatePage
  intro rightPageId
  apply Matches.bind ((matches_withLocal _ _).mapErr _)
  intro split
  apply Matches.bind (tree.matches_fetchAndFlushPage _ _)
  intro _
  apply Matches.bind (tree.matches_fetchAndFlushPage _ _)
  intro _
  apply Matches.bind (matches_rootInternalSplit _ _ _)
  intro rootPage
  exact tree.matches_fetchAndFlushPage _ _

lemma matches_childLeafSplit (leafBytes : Page) (oldChild : PageId) (newEntry : LeafEntry) :
    Matches SamePages (tree.childLeafSplit leafBytes oldChild newEntry : Exec BTreeError ReliableManager Unit)
      (tree.childLeafSplit leafBytes oldChild newEntry) := by
  apply Matches.bind (tree.matches_fetchPage _)
  intro parent
  apply Matches.bind tree.matches_allocatePage
  intro leftPageId
  apply Matches.bind tree.matches_allocatePage
  intro rightPageId
  apply Matches.bind ((matches_withLocal _ _).mapErr _)
  intro split
  apply Matches.bind (matches_withLocal _ _)
  rintro ⟨result, parent⟩
  cases result with
  | ok _ =>
    apply Matches.bind (tree.matches_fetchAndFlushPage _ _)
    intro _
    apply Matches.bind (tree.matches_fetchAndFlushPage _ _)
    intro _
    exact tree.matches_fetchAndFlushPage _ _
  | error e =>
    cases e with
    | pageFull => exact tree.matches_rootInternalPageSplit _ _ _ _ _ _ _
    | invalidPage => exact matches_throw _

lemma matches_insert (key : BTreeKey) (rowId : RowId) : Matches SamePages
    (tree.insert key rowId : Exec BTreeError ReliableManager Unit) (tree.insert key rowId) := by
  apply (matches_throw _).ite
  apply Matches.bind (tree.matches_findLeafPageId key)
  intro pageId
  apply Couples.bind (tree.matches_onPage pageId (appendLeafEntry ⟨key, rowId⟩))
  intro o
  cases o with
  | ok a q => exact tree.matches_flushPage pageId
  | err e q =>
    apply Couples.pre _ fun _ _ hst => Held.samePages hst
    cases e with
    | pageFull =>
      exact (tree.matches_rootLeafSplit q ⟨key, rowId⟩).ite (tree.matches_childLeafSplit q pageId ⟨key, rowId⟩)
    | invalidPage => exact matches_throw _
  | panic => exact couples_panic
  | diverge => exact couples_diverge

lemma matches_mergeUnderfullLeaf (parent pageId : PageId) : Matches SamePages
    (tree.mergeUnderfullLeaf parent pageId : Exec BTreeError ReliableManager Unit)
    (tree.mergeUnderfullLeaf parent pageId) := by
  apply Matches.bind (tree.matches_fetchPage _)
  intro parentPage
  apply Matches.bind ((matches_liftExcept _).mapErr _)
  intro pair
  split
  · exact matches_pure _
  · apply Matches.bind (tree.matches_fetchPage _)
    intro leftPage
    apply Matches.bind (tree.matches_fetchPage _)
    intro rightPage
    apply Matches.bind ((matches_withLocal _ _).mapErr _)
    intro merged
    apply Matches.bind ((matches_withLocal _ _).mapErr _)
    intro removed
    apply Matches.bind (tree.matches_fetchAndFlushPage _ _)
    intro _
    apply Matches.bind (tree.matches_fetchAndFlushPage _ _)
    intro _
    exact tree.matches_fetchAndFlushPage _ _

lemma matches_delete (key : BTreeKey) (rowId : RowId) : Matches SamePages
    (tree.delete key rowId : Exec BTreeError ReliableManager Bool) (tree.delete key rowId) := by
  apply (matches_throw _).ite
  apply Matches.bind
  · apply Matches.bind tree.matches_linkFuel
    intro fuel
    exact tree.matches_findLeafAndParentLoop key fuel none _
  intro found
  apply Couples.bind (tree.matches_onPage found.2 _)
  intro o
  cases o with
  | ok a q =>
    obtain ⟨deleted, isUnderfull⟩ := a
    cases deleted with
    | false => exact (matches_pure _).pre fun _ _ hst => hst.samePages
    | true =>
      apply Couples.bind (tree.matches_flushPage found.2)
      intro _
      simp only
      split
      · apply Matches.ite _ (matches_pure _)
        apply Matches.bind (tree.matches_mergeUnderfullLeaf _ _)
        exact fun _ => matches_pure _
      · exact matches_pure _
  | err e q => exact (matches_throw _).pre fun _ _ hst => hst.samePages
  | panic => exact couples_panic
  | diverge => exact couples_diverge

end Changes

end BTree

end RdbRs
