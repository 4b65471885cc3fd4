import RdbRs.Storage.PageStore

/-!
# Heap tables

`table::heap` over any page store. A row goes to the first page that takes it.
-/

namespace RdbRs

inductive TableError where
  | page (error : PageError)
  | storage (error : StorageError)
  deriving DecidableEq

structure HeapTable where
  relationId : RelationId

namespace HeapTable

def new (tableId : TableId) : HeapTable := ⟨.heap tableId⟩

section Pages

variable {σ : Type} [PageStore σ] (table : HeapTable)

def pageKey (pageId : PageId) : PageKey := ⟨table.relationId, pageId⟩

def fetchPage (pageId : PageId) : Exec TableError σ Page :=
  Exec.mapErr .storage (PageStore.fetchPage (table.pageKey pageId))

def flushPage (pageId : PageId) : Exec TableError σ Unit :=
  Exec.mapErr .storage (PageStore.flushPage (table.pageKey pageId))

def pageCount : Exec TableError σ Nat := Exec.mapErr .storage (PageStore.pageCount table.relationId)

/-- A call on the page behind the guard of `fetch_page`. -/
def onPage {α : Type} (pageId : PageId) (call : PageM α) : Exec TableError σ (Outcome PageError Page α) :=
  Exec.mapErr .storage (PageStore.withPageMut (table.pageKey pageId) call)

/-- The page id of the key that `add_page` returns. -/
def addPage : Exec TableError σ PageId := Exec.mapErr .storage (PageStore.allocatePage table.relationId)

/-- A change of a row on its page, and the flush of the page. -/
def changeRow (pageId : PageId) (call : PageM Unit) : Exec TableError σ Unit := do
  match ← table.onPage pageId call with
  | .ok _ _ => table.flushPage pageId
  | .err e _ => Exec.throw (.page e)
  | .panic => Exec.panic
  | .diverge => Exec.diverge

end Pages

section Rows

variable {σ : Type} [PageStore σ] (table : HeapTable)

/-- The loop of `insert` over the pages `i, i + 1, ..` that remain. -/
def insertLoop (row : Row) : Nat → Nat → Exec TableError σ (Option RowId)
  | _, 0 => pure none
  | i, remaining + 1 => do
    let pageId := PageId.new i
    match ← table.onPage pageId (Page.insertRow row) with
    | .ok slotId _ => do
      table.flushPage pageId
      return some ⟨pageId, slotId⟩
    | .err .storageFull _ => insertLoop row (i + 1) remaining
    | .err e _ => Exec.throw (.page e)
    | .panic => Exec.panic
    | .diverge => Exec.diverge

/-- The end of `insert`, when no page has taken the row. -/
def insertNewPage (row : Row) : Exec TableError σ RowId := do
  let pageId ← table.addPage
  match ← table.onPage pageId (Page.insertRow row) with
  | .ok slotId _ => do
    table.flushPage pageId
    return ⟨pageId, slotId⟩
  | .err e _ => Exec.throw (.page e)
  | .panic => Exec.panic
  | .diverge => Exec.diverge

def insert (row : Row) : Exec TableError σ RowId := do
  let count ← table.pageCount
  match ← table.insertLoop row 0 count with
  | some rowId => pure rowId
  | none => table.insertNewPage row

def get (rowId : RowId) : Exec TableError σ Row := do
  let page ← table.fetchPage rowId.pageId
  Exec.liftExcept ((page.readRow rowId.slotId).mapError .page)

def update (rowId : RowId) (row : Row) : Exec TableError σ Unit :=
  table.changeRow rowId.pageId (Page.updateRow rowId.slotId row)

def delete (rowId : RowId) : Exec TableError σ Unit :=
  table.changeRow rowId.pageId (Page.deleteRow rowId.slotId)

/-- The loop of `scan` over the pages `i, i + 1, ..` that remain. -/
def scanLoop : Nat → Nat → List (RowId × Row) → Exec TableError σ (List (RowId × Row))
  | _, 0, scans => pure scans
  | i, remaining + 1, scans => do
    let pageId := PageId.new i
    let page ← table.fetchPage pageId
    let rows ← Exec.liftExcept (page.scanRows.mapError .page)
    scanLoop (i + 1) remaining (scans ++ rows.map fun (slotId, row) => (⟨pageId, slotId⟩, row))

def scan : Exec TableError σ (List (RowId × Row)) := do
  let count ← table.pageCount
  if count = 0 then return []
  else table.scanLoop 0 count []

end Rows

end HeapTable

end RdbRs
