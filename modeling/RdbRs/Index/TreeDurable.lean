import RdbRs.Index.TreeCalls
import RdbRs.Storage.Durability

/-!
# Trees are durable

Every call on a tree flushes the pages it changes, each before the next one is changed.
-/

namespace RdbRs

open Exec ReliableManager

/-- Any bytes of an index page are alike to themselves only. -/
lemma ChangesIf.honest {ε α : Type} {changed : α → Bool} {call : Exec ε Page α} (h : ChangesIf changed call)
    (i : IndexId) (pageId : PageId) : Honest ⟨.index i, pageId⟩ changed call := by
  constructor
  · intro p q a _ _
    exact alike_index.mpr rfl
  · intro p q a _ hrun hchanged
    exact alike_index.mpr (h.same hrun hchanged)
  · intro p q e _ hrun
    exact alike_index.mpr (h.err hrun)

namespace BTree

section Keeps

variable (i : IndexId) (root : PageId) (keyType : BTreeKeyType)

/-- A page that was changed is pending until it is flushed. -/
lemma settledRules : (open' i root keyType).CallRules Settled fun pageId => Pending ⟨.index i, pageId⟩ where
  fetchPage _ := (keeps_fetchPage _).mapErr _
  allocatePage := (keeps_allocatePage _).mapErr _
  writePage pageId bytes := (triple_writePage ⟨.index i, pageId⟩ bytes (alike_index.mpr rfl)).mapErr _
  flushPage _ := (triple_flushPage _).mapErr _
  onPage pageId h := (triple_withPageMut (h.honest i pageId)).mapErr _

end Keeps

section Agree

variable (i : IndexId) (root : PageId) (keyType : BTreeKeyType)

lemma agree_fetch (pageId : PageId) : Agree Mirrors Eq
    ((open' i root keyType).fetchPage pageId : Exec BTreeError ReliableManager Page)
    ((open' i root keyType).fetchPage pageId) :=
  (agree_fetchPage ⟨.index i, pageId⟩).mapErr _

lemma agree_linkFuel : Agree Mirrors Eq
    ((open' i root keyType).linkFuel : Exec BTreeError ReliableManager Nat)
    (open' i root keyType).linkFuel := by
  apply agree_gets
  intro s t hst
  rw [length_pages, length_pages, hst.lengths_eq]

lemma agree_findLeafLoop (target : BTreeKey) (fuel : Nat) (pageId : PageId) : Agree Mirrors Eq
    ((open' i root keyType).findLeafLoop target fuel pageId : Exec BTreeError ReliableManager PageId)
    ((open' i root keyType).findLeafLoop target fuel pageId) := by
  induction fuel generalizing pageId with
  | zero => exact agree_diverge
  | succ fuel ih =>
    apply Agree.bind (agree_fetch i root keyType pageId)
    intro page page' hpage
    subst hpage
    split
    · exact agree_throw _
    · split
      · exact agree_pure rfl
      · apply Agree.bind ((agree_liftExcept _).mapErr _)
        intro child child' hchild
        subst hchild
        exact ih child

lemma agree_searchLoop (target : BTreeKey) (fuel : Nat) (pageId : PageId) (results : List RowId) :
    Agree Mirrors Eq
      ((open' i root keyType).searchLoop target fuel pageId results :
        Exec BTreeError ReliableManager (List RowId))
      ((open' i root keyType).searchLoop target fuel pageId results) := by
  induction fuel generalizing pageId results with
  | zero => exact agree_diverge
  | succ fuel ih =>
    apply Agree.bind (agree_fetch i root keyType pageId)
    intro page page' hpage
    subst hpage
    apply Agree.bind ((agree_liftExcept _).mapErr _)
    intro found found' hfound
    subst hfound
    simp only
    split
    · exact agree_pure rfl
    · split
      · exact agree_throw _
      · split
        · exact ih _ _
        · exact agree_pure rfl

/-- A search on a manager opened on the files returns the same. -/
lemma agree_search (target : BTreeKey) : Agree Mirrors Eq
    ((open' i root keyType).search target : Exec BTreeError ReliableManager (List RowId))
    ((open' i root keyType).search target) := by
  unfold search
  split
  · exact agree_throw _
  · apply Agree.bind
    · apply Agree.bind (agree_linkFuel i root keyType)
      intro fuel fuel' hfuel
      subst hfuel
      exact agree_findLeafLoop i root keyType target fuel _
    intro leafPageId leafPageId' hleaf
    subst hleaf
    apply Agree.bind (agree_linkFuel i root keyType)
    intro fuel fuel' hfuel
    subst hfuel
    exact agree_searchLoop i root keyType target fuel leafPageId []

end Agree

end BTree

end RdbRs
