import RdbRs.Index.Internal
import RdbRs.Index.Leaf
import RdbRs.Storage.PageStore

/-!
# The B+Tree

`index::btree::tree` over any page store. A loop of the source that follows page links gets as
much fuel as the relation has pages: a walk of more pages has come back to one it has passed, and
since it writes nothing it never ends.
-/

namespace RdbRs

inductive BTreeError where
  | invalidKeyType
  | invalidPage (pageId : PageId)
  | storage (error : StorageError)
  | leaf (error : LeafPageError)
  | internal (error : InternalPageError)
  deriving DecidableEq

structure BTree where
  relationId : RelationId
  rootPageId : PageId
  keyType : BTreeKeyType
  deriving DecidableEq

namespace BTree

section Pages

variable {σ : Type} [PageStore σ] (tree : BTree)

def pageKey (pageId : PageId) : PageKey := ⟨tree.relationId, pageId⟩

def fetchPage (pageId : PageId) : Exec BTreeError σ Page :=
  Exec.mapErr .storage (PageStore.fetchPage (tree.pageKey pageId))

def flushPage (pageId : PageId) : Exec BTreeError σ Unit :=
  Exec.mapErr .storage (PageStore.flushPage (tree.pageKey pageId))

def allocatePage : Exec BTreeError σ PageId :=
  Exec.mapErr .storage (PageStore.allocatePage tree.relationId)

def fetchAndFlushPage (pageId : PageId) (bytes : Page) : Exec BTreeError σ Unit := do
  Exec.mapErr .storage (PageStore.writePage (tree.pageKey pageId) bytes)
  tree.flushPage pageId

/-- A call on the page behind the guard of `fetch_page`. -/
def onPage {ε α : Type} (pageId : PageId) (call : Exec ε Page α) :
    Exec BTreeError σ (Outcome ε Page α) :=
  Exec.mapErr .storage (PageStore.withPageMut (tree.pageKey pageId) call)

/-- One more than the number of pages of the relation. -/
def linkFuel : Exec BTreeError σ Nat :=
  Exec.gets fun s => ((PageStore.pages s tree.relationId).getD []).length + 1

end Pages

def acceptsKey (tree : BTree) (key : BTreeKey) : Bool := decide (tree.keyType = key.keyType)

def open' (indexId : IndexId) (rootPageId : PageId) (keyType : BTreeKeyType) : BTree :=
  ⟨.index indexId, rootPageId, keyType⟩

section Tree

variable {σ : Type} [PageStore σ]

def create (indexId : IndexId) (keyType : BTreeKeyType) : Exec BTreeError σ BTree := do
  let pageId ← Exec.mapErr .storage (PageStore.allocatePage (.index indexId))
  let btree := open' indexId pageId keyType
  match ← btree.onPage pageId initializeLeafPage with
  | .ok _ _ => do
    btree.flushPage pageId
    pure btree
  | .err e _ => Exec.throw (.leaf e)
  | .panic => Exec.panic
  | .diverge => Exec.diverge

variable (tree : BTree)

/-! ### Search -/

/-- The loop of `find_leaf_and_parent_page_ids`. -/
def findLeafAndParentLoop (target : BTreeKey) :
    Nat → Option PageId → PageId → Exec BTreeError σ (Option PageId × PageId)
  | 0, _, _ => Exec.diverge
  | fuel + 1, parent, currentPageId => do
    let page ← tree.fetchPage currentPageId
    match BTreePageHeader.readFromPage page with
    | none => Exec.throw (.invalidPage currentPageId)
    | some header =>
      if header.isLeaf then pure (parent, currentPageId)
      else do
        let child ← Exec.mapErr .internal
          (Exec.liftExcept (findInternalChild page tree.keyType target))
        findLeafAndParentLoop target fuel (some currentPageId) child

def findLeafAndParentPageIds (target : BTreeKey) :
    Exec BTreeError σ (Option PageId × PageId) := do
  tree.findLeafAndParentLoop target (← tree.linkFuel) none tree.rootPageId

/-- The loop of `find_leaf_page_id`. -/
def findLeafLoop (target : BTreeKey) : Nat → PageId → Exec BTreeError σ PageId
  | 0, _ => Exec.diverge
  | fuel + 1, currentPageId => do
    let page ← tree.fetchPage currentPageId
    match BTreePageHeader.readFromPage page with
    | none => Exec.throw (.invalidPage currentPageId)
    | some header =>
      if header.isLeaf then pure currentPageId
      else do
        let child ← Exec.mapErr .internal
          (Exec.liftExcept (findInternalChild page tree.keyType target))
        findLeafLoop target fuel child

def findLeafPageId (target : BTreeKey) : Exec BTreeError σ PageId := do
  tree.findLeafLoop target (← tree.linkFuel) tree.rootPageId

/-- The loop of `search` over the next-leaf links. -/
def searchLoop (target : BTreeKey) : Nat → PageId → List RowId → Exec BTreeError σ (List RowId)
  | 0, _, _ => Exec.diverge
  | fuel + 1, currentPageId, results => do
    let page ← tree.fetchPage currentPageId
    let (rowIds, hasGreaterKey) ← Exec.mapErr .leaf
      (Exec.liftExcept (findLeafRowIds page tree.keyType target))
    let results := results ++ rowIds
    if hasGreaterKey then pure results
    else
      match BTreePageHeader.readFromPage page with
      | none => Exec.throw (.invalidPage currentPageId)
      | some header =>
        match header.nextLeafPageId with
        | some next => searchLoop target fuel next results
        | none => pure results

def search (target : BTreeKey) : Exec BTreeError σ (List RowId) := do
  if ¬ tree.acceptsKey target then Exec.throw .invalidKeyType
  else
    let leafPageId ← tree.findLeafPageId target
    tree.searchLoop target (← tree.linkFuel) leafPageId []

/-! ### Insertion -/

section Insert

def rootInternalSplit (leftInternalPageId rightInternalPageId : PageId) (rootSeparator : BTreeKey) :
    Exec BTreeError σ Page := do
  let (_, rootPage) ← Exec.mapErr .internal <| Exec.withLocal Page.newRaw do
    initializeInternalPage rightInternalPageId
    appendInternalEntry ⟨leftInternalPageId, rootSeparator⟩
  pure rootPage

variable [UnstableSort]

def rootLeafSplit (rootBytes : Page) (newEntry : LeafEntry) : Exec BTreeError σ Unit := do
  let leftPageId ← tree.allocatePage
  let rightPageId ← tree.allocatePage
  let (separator, leftPage, rightPage) ← Exec.mapErr .leaf
    (Exec.withLocal (rootBytes, Page.newRaw) (leafSplit rightPageId tree.keyType newEntry))
  tree.fetchAndFlushPage leftPageId leftPage
  tree.fetchAndFlushPage rightPageId rightPage
  let rootPage ← rootInternalSplit leftPageId rightPageId separator
  tree.fetchAndFlushPage tree.rootPageId rootPage

/-- The part of `child_leaf_split` that splits a full root as well. -/
def rootInternalPageSplit (parent : Page) (oldChild leftPageId rightPageId : PageId)
    (separator : BTreeKey) (leftPage rightPage : Page) : Exec BTreeError σ Unit := do
  let leftInternalId ← tree.allocatePage
  let rightInternalId ← tree.allocatePage
  let (rootSeparator, internalPages) ← Exec.mapErr .internal
    (Exec.withLocal (parent, Page.newRaw) (internalSplit tree.keyType))
  let replace := replaceChildAfterLeafSplit tree.keyType oldChild leftPageId rightPageId separator
  let (_, leftInternalPage, rightInternalPage) ←
    match separator.compare rootSeparator with
    | some .gt => Exec.mapErr .internal (Exec.withLocal internalPages (onRight replace))
    | some _ => Exec.mapErr .internal (Exec.withLocal internalPages (onLeft replace))
    | none => Exec.throw .invalidKeyType
  let newRoot ← rootInternalSplit leftInternalId rightInternalId rootSeparator
  tree.fetchAndFlushPage leftPageId leftPage
  tree.fetchAndFlushPage rightPageId rightPage
  tree.fetchAndFlushPage leftInternalId leftInternalPage
  tree.fetchAndFlushPage rightInternalId rightInternalPage
  tree.fetchAndFlushPage tree.rootPageId newRoot

def childLeafSplit (leafBytes : Page) (oldChild : PageId) (newEntry : LeafEntry) :
    Exec BTreeError σ Unit := do
  let parent ← tree.fetchPage tree.rootPageId
  let leftPageId ← tree.allocatePage
  let rightPageId ← tree.allocatePage
  let (separator, leftPage, rightPage) ← Exec.mapErr .leaf
    (Exec.withLocal (leafBytes, Page.newRaw) (leafSplit rightPageId tree.keyType newEntry))
  let (replaceResult, parent) ← Exec.withLocal parent (Exec.attempt
    (replaceChildAfterLeafSplit tree.keyType oldChild leftPageId rightPageId separator))
  match replaceResult with
  | .ok _ => do
    tree.fetchAndFlushPage leftPageId leftPage
    tree.fetchAndFlushPage rightPageId rightPage
    tree.fetchAndFlushPage tree.rootPageId parent
  | .error .pageFull =>
    tree.rootInternalPageSplit parent oldChild leftPageId rightPageId separator leftPage rightPage
  | .error e => Exec.throw (.internal e)

def insert (key : BTreeKey) (rowId : RowId) : Exec BTreeError σ Unit := do
  if ¬ tree.acceptsKey key then Exec.throw .invalidKeyType
  else
    let pageId ← tree.findLeafPageId key
    let newEntry : LeafEntry := ⟨key, rowId⟩
    match ← tree.onPage pageId (appendLeafEntry newEntry) with
    | .ok _ _ => tree.flushPage pageId
    | .err .pageFull page =>
      if pageId = tree.rootPageId then tree.rootLeafSplit page newEntry
      else tree.childLeafSplit page pageId newEntry
    | .err e _ => Exec.throw (.leaf e)
    | .panic => Exec.panic
    | .diverge => Exec.diverge

end Insert

/-! ### Deletion -/

section Delete

variable [UnstableSort]

/-- The end of `delete`, for a leaf that has become underfull. -/
def mergeUnderfullLeaf (parent pageId : PageId) : Exec BTreeError σ Unit := do
  let parentPage ← tree.fetchPage parent
  match ← Exec.mapErr .internal
    (Exec.liftExcept (findLeafMergePair parentPage tree.keyType pageId)) with
  | none => pure ()
  | some (left, right) => do
    let leftPage ← tree.fetchPage left
    let rightPage ← tree.fetchPage right
    let (_, leftPage, rightPage) ← Exec.mapErr .leaf
      (Exec.withLocal (leftPage, rightPage) (leafMerge tree.keyType))
    let (_, parentPage) ← Exec.mapErr .internal
      (Exec.withLocal parentPage (removeRightChildAfterLeafMerge left right tree.keyType))
    tree.fetchAndFlushPage left leftPage
    tree.fetchAndFlushPage right rightPage
    tree.fetchAndFlushPage parent parentPage

def delete (key : BTreeKey) (rowId : RowId) : Exec BTreeError σ Bool := do
  if ¬ tree.acceptsKey key then Exec.throw .invalidKeyType
  else
    let (parent, pageId) ← tree.findLeafAndParentPageIds key
    let outcome ← tree.onPage pageId do
      let deleted ← deleteLeafEntry tree.keyType key rowId
      let isUnderfull ← Exec.query leafIsUnderfull
      pure (deleted, isUnderfull)
    match outcome with
    | .ok (deleted, isUnderfull) _ =>
      if deleted then
        tree.flushPage pageId
        match parent with
        | some parent => if isUnderfull then tree.mergeUnderfullLeaf parent pageId
        | none => pure ()
      pure deleted
    | .err e _ => Exec.throw (.leaf e)
    | .panic => Exec.panic
    | .diverge => Exec.diverge

end Delete

end Tree

end BTree

end RdbRs
