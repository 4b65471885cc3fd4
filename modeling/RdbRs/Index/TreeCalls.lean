import RdbRs.Index.LeafSpec
import RdbRs.Index.BTree
import RdbRs.Lib.Triple

/-!
# Rules for the calls of a tree

What a tree does to its store goes through five calls on its pages. A property of the store that these
keep is kept by every call of the tree.
-/

namespace RdbRs

open Exec

/-- A call that has changed its page only if the result says so. -/
structure ChangesIf {ε α : Type} (changed : α → Bool) (call : Exec ε Page α) : Prop where
  same {p q : Page} {a : α} : call.run p = .ok a q → changed a = false → p = q
  err {p q : Page} {e : ε} : call.run p = .err e q → p = q

section ChangesIf

/-- An entry that is not appended leaves the page alone. -/
lemma EntryFormat.appendEntry_err {E : Type} {f : EntryFormat E} {entry : E} {p q : Page}
    {e : EntryPageError} (h : (f.appendEntry entry).run p = .err e q) : p = q := by
  simp only [appendEntry, Exec.run_bind, Exec.run_gets, Outcome.andThen_ok] at h
  split at h
  · cases h
    rfl
  · split at h
    · cases h
      rfl
    · split at h
      · cases h
        rfl
      · split at h
        · cases h
          rfl
        · split at h
          · cases h
            rfl
          · split at h
            · cases h
              rfl
            · cases h

lemma changesIf_appendLeafEntry (entry : LeafEntry) :
    ChangesIf (fun _ => true) (appendLeafEntry entry) := by
  constructor
  · intro p q a _ hchanged
    cases hchanged
  · intro p q e hrun
    exact EntryFormat.appendEntry_err hrun

lemma changesIf_initializeLeafPage : ChangesIf (fun _ => true) initializeLeafPage := by
  constructor
  · intro p q a _ hchanged
    cases hchanged
  · intro p q e hrun
    cases hrun

lemma changesIf_deleteLeafEntry (t : BTreeKeyType) (key : BTreeKey) (rowId : RowId) :
    ChangesIf Prod.fst (do
      let deleted ← deleteLeafEntry t key rowId
      let isUnderfull ← Exec.query leafIsUnderfull
      pure (deleted, isUnderfull)) := by
  have hcall (p : Page) :
      (∃ e, readLeafEntries p t = .error e) ∨ (∃ q, (deleteLeafEntry t key rowId).run p = .ok true q ∧
        ∃ b, leafIsUnderfull q = .ok b) ∨
      (deleteLeafEntry t key rowId).run p = .ok false p ∧ ∃ b, leafIsUnderfull p = .ok b := by
    cases hread : readLeafEntries p t with
    | error e => exact .inl ⟨e, rfl⟩
    | ok es =>
      have ⟨next, hleaf⟩ := exists_holdsLeaf hread
      by_cases hm : ⟨key, rowId⟩ ∈ es
      · have ⟨q, hrun, hq⟩ := hleaf.deleteLeafEntry_ok hm
        exact .inr (.inl ⟨q, hrun, _, hq.leafIsUnderfull_eq⟩)
      · exact .inr (.inr ⟨hleaf.deleteLeafEntry_absent hm, _, hleaf.leafIsUnderfull_eq⟩)
  constructor
  · intro p q a hrun hchanged
    rcases hcall p with ⟨e, hread⟩ | ⟨q', hdelete, b, hunder⟩ | ⟨hdelete, b, hunder⟩
    · simp only [deleteLeafEntry, Exec.run_bind, Exec.run_query, hread, Outcome.andThen_err] at hrun
      cases hrun
    · simp only [Exec.run_bind, hdelete, Outcome.andThen_ok, Exec.run_query, hunder, Exec.run_pure] at hrun
      cases hrun
      cases hchanged
    · simp only [Exec.run_bind, hdelete, Outcome.andThen_ok, Exec.run_query, hunder, Exec.run_pure] at hrun
      cases hrun
      rfl
  · intro p q e hrun
    rcases hcall p with ⟨e, hread⟩ | ⟨q', hdelete, b, hunder⟩ | ⟨hdelete, b, hunder⟩
    · simp only [deleteLeafEntry, Exec.run_bind, Exec.run_query, hread, Outcome.andThen_err] at hrun
      cases hrun
      rfl
    · simp only [Exec.run_bind, hdelete, Outcome.andThen_ok, Exec.run_query, hunder, Exec.run_pure] at hrun
      cases hrun
    · simp only [Exec.run_bind, hdelete, Outcome.andThen_ok, Exec.run_query, hunder, Exec.run_pure] at hrun
      cases hrun

end ChangesIf

namespace BTree

variable {σ : Type} [PageStore σ] {tree : BTree} {P : σ → Prop} {Dirty : PageId → σ → Prop}

/-- What a call behind a guard leaves, if only some of its results stand for a change. -/
def AfterCall {ε α : Type} (P Dirty : σ → Prop) (changed : α → Bool) (o : Outcome ε Page α) (s : σ) : Prop :=
  match o with
  | .ok a _ => if changed a then Dirty s else P s
  | _ => P s

/-- The five calls on the pages of a tree keep `P`, where `Dirty` holds of a page that has been changed and
not flushed yet. -/
structure CallRules (tree : BTree) (P : σ → Prop) (Dirty : PageId → σ → Prop) : Prop where
  fetchPage (pageId : PageId) : Keeps P (tree.fetchPage pageId)
  allocatePage : Keeps P tree.allocatePage
  writePage (pageId : PageId) (bytes : Page) : Triple P
    (Exec.mapErr BTreeError.storage (PageStore.writePage (tree.pageKey pageId) bytes))
    (fun _ => Dirty pageId) P
  flushPage (pageId : PageId) : Triple (Dirty pageId) (tree.flushPage pageId) (fun _ => P) P
  onPage {ε α : Type} {changed : α → Bool} {call : Exec ε Page α} (pageId : PageId) :
    ChangesIf changed call → Triple P (tree.onPage pageId call) (AfterCall P (Dirty pageId) changed) P

/-! ### Reads -/

section Reads

variable (hfetch : ∀ pageId, Keeps P (tree.fetchPage pageId : Exec BTreeError σ Page))

include hfetch

lemma keeps_findLeafLoop (target : BTreeKey) (fuel : Nat) (pageId : PageId) :
    Keeps P (tree.findLeafLoop target fuel pageId : Exec BTreeError σ PageId) := by
  induction fuel generalizing pageId with
  | zero => exact triple_diverge
  | succ fuel ih =>
    apply Keeps.bind (hfetch pageId)
    intro page
    split
    · exact keeps_throw
    · apply keeps_pure.ite
      apply Keeps.bind ((keeps_liftExcept _).mapErr _)
      intro child
      exact ih child

lemma keeps_findLeafAndParentLoop (target : BTreeKey) (fuel : Nat) (parent : Option PageId)
    (pageId : PageId) : Keeps P (tree.findLeafAndParentLoop target fuel parent
      pageId : Exec BTreeError σ (Option PageId × PageId)) := by
  induction fuel generalizing parent pageId with
  | zero => exact triple_diverge
  | succ fuel ih =>
    apply Keeps.bind (hfetch pageId)
    intro page
    split
    · exact keeps_throw
    · apply keeps_pure.ite
      apply Keeps.bind ((keeps_liftExcept _).mapErr _)
      intro child
      exact ih _ child

lemma keeps_searchLoop (target : BTreeKey) (fuel : Nat) (pageId : PageId) (results : List RowId) :
    Keeps P (tree.searchLoop target fuel pageId results : Exec BTreeError σ (List RowId)) := by
  induction fuel generalizing pageId results with
  | zero => exact triple_diverge
  | succ fuel ih =>
    apply Keeps.bind (hfetch pageId)
    intro page
    apply Keeps.bind ((keeps_liftExcept _).mapErr _)
    intro found
    apply keeps_pure.ite
    split
    · exact keeps_throw
    · split
      · exact ih _ _
      · exact keeps_pure

lemma keeps_findLeafPageId (target : BTreeKey) : Keeps P
    (tree.findLeafPageId target : Exec BTreeError σ PageId) := by
  apply Keeps.bind (keeps_gets _)
  intro fuel
  exact keeps_findLeafLoop hfetch target fuel _

lemma keeps_search (target : BTreeKey) : Keeps P
    (tree.search target : Exec BTreeError σ (List RowId)) := by
  apply keeps_throw.ite
  apply Keeps.bind (keeps_findLeafPageId hfetch target)
  intro leafPageId
  apply Keeps.bind (keeps_gets _)
  intro fuel
  exact keeps_searchLoop hfetch target fuel leafPageId []

end Reads

/-! ### Changes -/

section Changes

lemma CallRules.fetchAndFlushPage (rules : tree.CallRules P Dirty) (pageId : PageId) (bytes : Page) :
    Keeps P (tree.fetchAndFlushPage pageId bytes : Exec BTreeError σ Unit) := by
  apply Triple.bind (rules.writePage pageId bytes)
  intro _
  exact rules.flushPage pageId

lemma CallRules.create {indexId : IndexId} {keyType : BTreeKeyType}
    (rules : ∀ root, (open' indexId root keyType).CallRules P Dirty) :
    Keeps P (create indexId keyType : Exec BTreeError σ BTree) := by
  apply Keeps.bind (rules (PageId.new 0)).allocatePage
  intro pageId
  apply Triple.bind ((rules pageId).onPage pageId changesIf_initializeLeafPage)
  intro o
  cases o with
  | ok a q =>
    apply Triple.bind ((rules pageId).flushPage pageId)
    intro _
    exact keeps_pure
  | err e q => exact keeps_throw
  | panic => exact triple_panic
  | diverge => exact triple_diverge

omit [PageStore σ] in
lemma keeps_rootInternalSplit (left right : PageId) (separator : BTreeKey) : Keeps P
    (rootInternalSplit left right separator : Exec BTreeError σ Page) := by
  apply Keeps.bind ((keeps_withLocal _ _).mapErr _)
  intro rootPage
  exact keeps_pure

lemma CallRules.rootInternalPageSplit (rules : tree.CallRules P Dirty) (parent : Page)
    (oldChild leftPageId rightPageId : PageId)
    (separator : BTreeKey) (leftPage rightPage : Page) : Keeps P
    (tree.rootInternalPageSplit parent oldChild leftPageId rightPageId separator
      leftPage rightPage : Exec BTreeError σ Unit) := by
  apply Keeps.bind (rules.allocatePage)
  intro leftInternalId
  apply Keeps.bind (rules.allocatePage)
  intro rightInternalId
  apply Keeps.bind ((keeps_withLocal _ _).mapErr _)
  intro halves
  obtain ⟨rootSeparator, internalPages⟩ := halves
  have hwrite (leftInternalPage rightInternalPage : Page) : Keeps P (do
      let newRoot ← rootInternalSplit leftInternalId rightInternalId rootSeparator
      tree.fetchAndFlushPage leftPageId leftPage
      tree.fetchAndFlushPage rightPageId rightPage
      tree.fetchAndFlushPage leftInternalId leftInternalPage
      tree.fetchAndFlushPage rightInternalId rightInternalPage
      tree.fetchAndFlushPage tree.rootPageId newRoot : Exec BTreeError σ Unit) := by
    apply Keeps.bind (keeps_rootInternalSplit _ _ _)
    intro newRoot
    apply Keeps.bind (rules.fetchAndFlushPage _ _)
    intro _
    apply Keeps.bind (rules.fetchAndFlushPage _ _)
    intro _
    apply Keeps.bind (rules.fetchAndFlushPage _ _)
    intro _
    apply Keeps.bind (rules.fetchAndFlushPage _ _)
    intro _
    exact rules.fetchAndFlushPage _ _
  simp only
  split
  · apply Keeps.bind ((keeps_withLocal _ _).mapErr _)
    intro replaced
    exact hwrite replaced.2.1 replaced.2.2
  · apply Keeps.bind ((keeps_withLocal _ _).mapErr _)
    intro replaced
    exact hwrite replaced.2.1 replaced.2.2
  · exact Keeps.bind keeps_throw fun replaced => hwrite replaced.2.1 replaced.2.2

variable [UnstableSort]

lemma CallRules.rootLeafSplit (rules : tree.CallRules P Dirty) (rootBytes : Page) (newEntry : LeafEntry) :
    Keeps P (tree.rootLeafSplit rootBytes newEntry : Exec BTreeError σ Unit) := by
  apply Keeps.bind (rules.allocatePage)
  intro leftPageId
  apply Keeps.bind (rules.allocatePage)
  intro rightPageId
  apply Keeps.bind ((keeps_withLocal _ _).mapErr _)
  intro split
  apply Keeps.bind (rules.fetchAndFlushPage _ _)
  intro _
  apply Keeps.bind (rules.fetchAndFlushPage _ _)
  intro _
  apply Keeps.bind (keeps_rootInternalSplit _ _ _)
  intro rootPage
  exact rules.fetchAndFlushPage _ _

lemma CallRules.childLeafSplit (rules : tree.CallRules P Dirty) (leafBytes : Page) (oldChild : PageId)
    (newEntry : LeafEntry) : Keeps P (tree.childLeafSplit leafBytes oldChild newEntry :
      Exec BTreeError σ Unit) := by
  apply Keeps.bind (rules.fetchPage _)
  intro parent
  apply Keeps.bind (rules.allocatePage)
  intro leftPageId
  apply Keeps.bind (rules.allocatePage)
  intro rightPageId
  apply Keeps.bind ((keeps_withLocal _ _).mapErr _)
  intro split
  apply Keeps.bind (keeps_withLocal _ _)
  intro replaced
  obtain ⟨result, parent⟩ := replaced
  cases result with
  | ok _ =>
    apply Keeps.bind (rules.fetchAndFlushPage _ _)
    intro _
    apply Keeps.bind (rules.fetchAndFlushPage _ _)
    intro _
    exact rules.fetchAndFlushPage _ _
  | error e =>
    cases e with
    | pageFull => exact rules.rootInternalPageSplit _ _ _ _ _ _ _
    | invalidPage => exact keeps_throw

lemma CallRules.insert (rules : tree.CallRules P Dirty) (key : BTreeKey) (rowId : RowId) : Keeps P
    (tree.insert key rowId : Exec BTreeError σ Unit) := by
  apply keeps_throw.ite
  apply Keeps.bind (keeps_findLeafPageId rules.fetchPage key)
  intro pageId
  apply Triple.bind (rules.onPage pageId (changesIf_appendLeafEntry ⟨key, rowId⟩))
  intro o
  cases o with
  | ok a q => exact rules.flushPage pageId
  | err e q =>
    cases e with
    | pageFull =>
      exact (rules.rootLeafSplit q ⟨key, rowId⟩).ite
        (rules.childLeafSplit q pageId ⟨key, rowId⟩)
    | invalidPage => exact keeps_throw
  | panic => exact triple_panic
  | diverge => exact triple_diverge

lemma CallRules.mergeUnderfullLeaf (rules : tree.CallRules P Dirty) (parent pageId : PageId) : Keeps P
    (tree.mergeUnderfullLeaf parent pageId : Exec BTreeError σ Unit) := by
  apply Keeps.bind (rules.fetchPage _)
  intro parentPage
  apply Keeps.bind ((keeps_liftExcept _).mapErr _)
  intro pair
  split
  · exact keeps_pure
  · apply Keeps.bind (rules.fetchPage _)
    intro leftPage
    apply Keeps.bind (rules.fetchPage _)
    intro rightPage
    apply Keeps.bind ((keeps_withLocal _ _).mapErr _)
    intro merged
    apply Keeps.bind ((keeps_withLocal _ _).mapErr _)
    intro removed
    apply Keeps.bind (rules.fetchAndFlushPage _ _)
    intro _
    apply Keeps.bind (rules.fetchAndFlushPage _ _)
    intro _
    exact rules.fetchAndFlushPage _ _

lemma CallRules.delete (rules : tree.CallRules P Dirty) (key : BTreeKey) (rowId : RowId) : Keeps P
    (tree.delete key rowId : Exec BTreeError σ Bool) := by
  apply keeps_throw.ite
  apply Keeps.bind
  · apply Keeps.bind (keeps_gets _)
    intro fuel
    exact keeps_findLeafAndParentLoop rules.fetchPage key fuel none _
  intro found
  apply Triple.bind (rules.onPage found.2 (changesIf_deleteLeafEntry tree.keyType key rowId))
  intro o
  cases o with
  | ok a q =>
    obtain ⟨deleted, isUnderfull⟩ := a
    cases deleted with
    | false => exact keeps_pure
    | true =>
      apply Triple.bind (rules.flushPage found.2)
      intro _
      simp only
      split
      · apply Keeps.ite _ keeps_pure
        apply Keeps.bind (rules.mergeUnderfullLeaf _ _)
        intro _
        exact keeps_pure
      · exact keeps_pure
  | err e q => exact keeps_throw
  | panic => exact triple_panic
  | diverge => exact triple_diverge

end Changes

end BTree

end RdbRs
