import RdbRs.Index.EntryPage
import RdbRs.Index.Key
import RdbRs.Storage.SlottedPage

/-!
# Internal pages

An entry is a child with the separator to its right; the rightmost child stands in the header.
-/

namespace RdbRs

abbrev InternalPageError : Type := EntryPageError

structure InternalEntry where
  leftChild : PageId
  separatorKey : BTreeKey
  deriving DecidableEq

namespace InternalEntry

def toBytes (e : InternalEntry) : Option (List UInt8) :=
  let keyBytes := e.separatorKey.toBytes
  if keyBytes.length > u16Max then none
  else some (e.leftChild.toBytes ++ (beBytes 2 keyBytes.length ++ keyBytes))

def fromBytes (keyType : BTreeKeyType) (bytes : List UInt8) : Option InternalEntry :=
  if bytes.length < 10 then none
  else
    let keyLen := beNat ((bytes.drop 8).take 2)
    if bytes.length ≠ keyLen + 10 then none
    else do
      let separatorKey ← BTreeKey.fromBytes keyType (bytes.drop 10)
      some ⟨PageId.fromBytes (bytes.take 8), separatorKey⟩

end InternalEntry

/-- Eight bytes of child, two bytes of key length, the key. -/
def internalFormat : EntryFormat InternalEntry where
  nodeType := .internal
  prefixSize := 10
  fixedSize := 10
  toBytes := InternalEntry.toBytes

/-- Clears the page. -/
def initializeInternalPage (rightmostChild : PageId) : Exec InternalPageError Page Unit :=
  Exec.modify fun _ => (BTreePageHeader.newInternal rightmostChild).writeToPage Page.newRaw

def appendInternalEntry (entry : InternalEntry) : Exec InternalPageError Page Unit :=
  internalFormat.appendEntry entry

/-- `for entry in entries { append_internal_entry(page, entry)?; }`. -/
def appendInternalEntries (entries : List InternalEntry) : Exec InternalPageError Page Unit :=
  internalFormat.appendEntries entries

def readInternalEntries (p : Page) (keyType : BTreeKeyType) :
    Except InternalPageError (List InternalEntry) :=
  internalFormat.readEntries (InternalEntry.fromBytes keyType) p

/-- `read_from_page(page).and_then(|h| h.rightmost_child()).ok_or(InvalidPage)?`. -/
def readRightmostChild (p : Page) : Except InternalPageError PageId :=
  match (BTreePageHeader.readFromPage p).bind (·.rightmostChild) with
  | none => .error .invalidPage
  | some child => .ok child

/-- The loop of `find_internal_child`. -/
def findChildIn (target : BTreeKey) (rightmostChild : Option PageId) :
    List InternalEntry → Except InternalPageError PageId
  | [] =>
    match rightmostChild with
    | none => .error .invalidPage
    | some child => .ok child
  | entry :: rest =>
    match entry.separatorKey.compare target with
    | some .eq => .ok entry.leftChild
    | some .gt => .ok entry.leftChild
    | some .lt => findChildIn target rightmostChild rest
    | none => .error .invalidPage

def findInternalChild (p : Page) (keyType : BTreeKeyType) (target : BTreeKey) :
    Except InternalPageError PageId :=
  match BTreePageHeader.readFromPage p with
  | none => .error .invalidPage
  | some header =>
    if header.isLeaf then .error .invalidPage
    else do
      let entries ← readInternalEntries p keyType
      findChildIn target header.rightmostChild entries

/-- The left and the right page of a split. -/
def internalSplit (keyType : BTreeKeyType) : Exec InternalPageError (Page × Page) BTreeKey := do
  let entries ← Exec.query fun pages => readInternalEntries pages.1 keyType
  let rightmostChild ← Exec.gets fun pages =>
    (BTreePageHeader.readFromPage pages.1).bind (·.rightmostChild)
  let splitEntries := entries.drop (entries.length / 2)
  let entries := entries.take (entries.length / 2)
  match splitEntries with
  | [] => Exec.throw .invalidPage
  | promoted :: splitEntries =>
    match rightmostChild with
    | none => Exec.throw .invalidPage
    | some oldRightmost => do
      let leftRightmost := promoted.leftChild
      onLeft (initializeInternalPage leftRightmost)
      onLeft (appendInternalEntries entries)
      onRight (initializeInternalPage oldRightmost)
      onRight (appendInternalEntries splitEntries)
      pure promoted.separatorKey

def replaceChildAfterLeafSplit (keyType : BTreeKeyType) (oldChild leftChild rightChild : PageId)
    (separator : BTreeKey) : Exec InternalPageError Page Unit := do
  let entries ← Exec.query (readInternalEntries · keyType)
  let rightmost ← Exec.query readRightmostChild
  let (entries, newRightmost) ←
    match entries.findIdx? (·.leftChild = oldChild) with
    | some index =>
      match entries[index]? with
      | none => Exec.panic
      | some entry =>
        let entries := entries.set index ⟨leftChild, separator⟩
        pure (entries.insertIdx (index + 1) ⟨rightChild, entry.separatorKey⟩, rightmost)
    | none =>
      if rightmost = oldChild then pure (entries ++ [⟨leftChild, separator⟩], rightChild)
      else Exec.throw .invalidPage
  let (_, rewritten) ← Exec.withLocal Page.newRaw do
    initializeInternalPage newRightmost
    appendInternalEntries entries
  Exec.modify fun _ => rewritten

def removeRightChildAfterLeafMerge (leftChild rightChild : PageId) (keyType : BTreeKeyType) :
    Exec InternalPageError Page Unit := do
  let entries ← Exec.query (readInternalEntries · keyType)
  let rightmost ← Exec.query readRightmostChild
  match entries.findIdx? (·.leftChild = leftChild) with
  | none => Exec.throw .invalidPage
  | some leftIndex => do
    let (entries, newRightmost) ←
      if rightmost = rightChild ∧ leftIndex + 1 = entries.length then
        pure (entries.eraseIdx leftIndex, leftChild)
      else
        match entries[leftIndex + 1]? with
        | none => Exec.throw .invalidPage
        | some next =>
          if next.leftChild = rightChild then
            let entries := entries.eraseIdx (leftIndex + 1)
            pure (entries.modify leftIndex fun entry =>
              { entry with separatorKey := next.separatorKey }, rightmost)
          else Exec.throw .invalidPage
    let (_, tempPage) ← Exec.withLocal Page.new do
      initializeInternalPage newRightmost
      appendInternalEntries entries
    Exec.modify fun _ => tempPage

def findLeafMergePair (parent : Page) (keyType : BTreeKeyType) (target : PageId) :
    Except InternalPageError (Option (PageId × PageId)) := do
  let entries ← readInternalEntries parent keyType
  let rightmost ← readRightmostChild parent
  match entries.findIdx? (·.leftChild = target) with
  | some index =>
    match entries[index + 1]? with
    | some next => .ok (some (target, next.leftChild))
    | none => .ok (some (target, rightmost))
  | none =>
    if target = rightmost then
      match entries.getLast? with
      | some last => .ok (some (last.leftChild, target))
      | none => .ok none
    else .error .invalidPage

end RdbRs
