import RdbRs.Index.EntryPage
import RdbRs.Index.Key
import RdbRs.Lib.Sort
import RdbRs.Storage.SlottedPage

/-!
# Leaf pages

The entries of a leaf stand in the order in which they were appended; only a split or a merge
sorts them.
-/

namespace RdbRs

abbrev LeafPageError : Type := EntryPageError

structure LeafEntry where
  key : BTreeKey
  rowId : RowId
  deriving DecidableEq

namespace LeafEntry

def toBytes (e : LeafEntry) : Option (List UInt8) :=
  let keyBytes := e.key.toBytes
  if keyBytes.length > u16Max then none
  else some (beBytes 2 keyBytes.length ++ (keyBytes ++ e.rowId.toBytes))

def fromBytes (keyType : BTreeKeyType) (bytes : List UInt8) : Option LeafEntry :=
  if bytes.length < 2 then none
  else
    let keyLen := beNat (bytes.take 2)
    if bytes.length ≠ 2 + keyLen + 10 then none
    else do
      let key ← BTreeKey.fromBytes keyType ((bytes.drop 2).take keyLen)
      some ⟨key, RowId.fromBytes (bytes.drop (2 + keyLen))⟩

end LeafEntry

/-- Two bytes of key length, the key, ten bytes of row id. -/
def leafFormat : EntryFormat LeafEntry where
  nodeType := .leaf
  prefixSize := 2
  fixedSize := 12
  toBytes := LeafEntry.toBytes

/-- Clears the page. -/
def initializeLeafPage : Exec LeafPageError Page Unit :=
  Exec.modify fun _ => BTreePageHeader.newLeaf.writeToPage Page.newRaw

def appendLeafEntry (entry : LeafEntry) : Exec LeafPageError Page Unit :=
  leafFormat.appendEntry entry

/-- `for entry in entries { append_leaf_entry(page, entry)?; }`. -/
def appendLeafEntries (entries : List LeafEntry) : Exec LeafPageError Page Unit :=
  leafFormat.appendEntries entries

def readLeafEntries (p : Page) (keyType : BTreeKeyType) : Except LeafPageError (List LeafEntry) :=
  leafFormat.readEntries (LeafEntry.fromBytes keyType) p

def leafIsUnderfull (p : Page) : Except LeafPageError Bool :=
  match BTreePageHeader.readFromPage p with
  | none => .error .invalidPage
  | some header =>
    if ¬ header.isLeaf then .error .invalidPage
    else .ok (decide (header.entryEnd ≤ pageSize / 2))

def deleteLeafEntry (keyType : BTreeKeyType) (target : BTreeKey) (rowId : RowId) :
    Exec LeafPageError Page Bool := do
  let entries ← Exec.query (readLeafEntries · keyType)
  match entries.findIdx? (fun entry => entry.key = target ∧ entry.rowId = rowId) with
  | none => pure false
  | some index => do
    let (_, rewritten) ← Exec.withLocal Page.newRaw do
      initializeLeafPage
      appendLeafEntries (entries.eraseIdx index)
    Exec.modify fun _ => rewritten
    pure true

/-- The row ids of the key, and whether the leaf has a greater key. -/
def findLeafRowIds (p : Page) (keyType : BTreeKeyType) (target : BTreeKey) :
    Except LeafPageError (List RowId × Bool) := do
  let entries ← readLeafEntries p keyType
  let results := (entries.filter fun entry => entry.key.compare target = some .eq).map (·.rowId)
  .ok (results, entries.any fun entry => entry.key.compare target = some .gt)

/-- Rewrites the next leaf in the header of a leaf. -/
def setNextLeafPageId (next : Option PageId) : Exec LeafPageError Page Unit := do
  match ← Exec.gets BTreePageHeader.readFromPage with
  | none => Exec.throw .invalidPage
  | some header => Exec.modify { header with nextLeafPageId := next }.writeToPage

/-- `read_from_page(page).ok_or(InvalidPage)?.next_leaf_page_id()`. -/
def readNextLeafPageId (p : Page) : Except LeafPageError (Option PageId) :=
  match BTreePageHeader.readFromPage p with
  | none => .error .invalidPage
  | some header => .ok header.nextLeafPageId

section Split

variable [UnstableSort]

/-- `sort_unstable_by` on the key. The entries have one key type, so they compare. -/
def sortLeafEntries (entries : List LeafEntry) : List LeafEntry :=
  UnstableSort.sortUnstableBy (fun left right => (left.key.compare right.key).getD .eq) entries

def leafSplit (rightPageId : PageId) (keyType : BTreeKeyType) (newEntry : LeafEntry) :
    Exec LeafPageError PagePair BTreeKey := do
  let entries ← Exec.query fun pages => readLeafEntries pages.1 keyType
  let entries := entries ++ [newEntry]
  if entries.any (fun entry => entry.key.keyType ≠ keyType) then Exec.throw .invalidPage
  else
    let entries := sortLeafEntries entries
    let splitEntries := entries.drop (entries.length / 2)
    let entries := entries.take (entries.length / 2)
    match entries.getLast? with
    | none => Exec.throw .invalidPage
    | some last => do
      let oldNext ← Exec.query fun pages => readNextLeafPageId pages.1
      onLeft initializeLeafPage
      onLeft (appendLeafEntries entries)
      onLeft (setNextLeafPageId (some rightPageId))
      onRight initializeLeafPage
      onRight (appendLeafEntries splitEntries)
      onRight (setNextLeafPageId oldNext)
      pure last.key

def leafMerge (keyType : BTreeKeyType) : Exec LeafPageError PagePair Unit := do
  let leftEntries ← Exec.query fun pages => readLeafEntries pages.1 keyType
  let rightEntries ← Exec.query fun pages => readLeafEntries pages.2 keyType
  let leftEntries := sortLeafEntries (leftEntries ++ rightEntries)
  let (_, tempPage) ← Exec.withLocal Page.new do
    initializeLeafPage
    appendLeafEntries leftEntries
  onLeft (Exec.modify fun _ => tempPage)
  let oldNext ← Exec.query fun pages => readNextLeafPageId pages.2
  onLeft (setNextLeafPageId oldNext)
  onRight initializeLeafPage

end Split

end RdbRs
