import RdbRs.Storage.BufferPool

/-!
# The storage manager

Pages are read into the buffer pool on demand and written back by flushes and evictions. A file is
an array of pages. Each call on a file may fail, as `faults` has it, and then changes nothing.
-/

namespace RdbRs

/-- The files in the data directory, the relations registered, and which of the coming calls on the
files fail. -/
structure RelationFileManager where
  data : FileStore
  registeredRelations : RelationId → Bool
  faults : Nat → Bool

namespace RelationFileManager

def new (data : FileStore) (faults : Nat → Bool) : RelationFileManager where
  data := data
  registeredRelations := fun _ => false
  faults := faults

/-- One call on a file has been made. -/
def next (m : RelationFileManager) : RelationFileManager :=
  { m with faults := fun n => m.faults (n + 1) }

def register (m : RelationFileManager) (r : RelationId) : RelationFileManager :=
  { m with registeredRelations := Function.update m.registeredRelations r true }

def registerRelation (r : RelationId) : Exec RelationFileManagerError RelationFileManager Unit := ⟨fun m =>
  match m.data.files r, m.faults 0 with
  | some _, false => .ok () (m.next.register r)
  | _, _ => .err .io m.next⟩

/-- `open_rw_create` leaves a file that is there as it is. -/
def createRelation (r : RelationId) : Exec RelationFileManagerError RelationFileManager Unit := ⟨fun m =>
  match m.faults 0 with
  | true => .err .io m.next
  | false =>
    match m.data.files r with
    | some _ => .ok () (m.next.register r)
    | none => .ok () { m.next.register r with data := m.data.put r [] (Nat.zero_le _) }⟩

/-- The pages of the file that is opened. The failure may also be one of the call that follows. -/
def openRelationFile (r : RelationId) : Exec RelationFileManagerError RelationFileManager (List Page) :=
  ⟨fun m =>
    if m.registeredRelations r then
      match m.data.files r, m.faults 0 with
      | some pages, false => .ok pages m.next
      | _, _ => .err .io m.next
    else .err (.relationNotRegistered r) m⟩

/-- `page_offset` and `read_exact`. -/
def readFilePage (pages : List Page) (pageId : PageId) : Except PagerError Page :=
  if maxFilePages ≤ pageId.index then .error (.pageOffsetOverflow pageId)
  else match pages[pageId.index]? with
    | some page => .ok page
    | none => .error .io

def readPage (key : PageKey) : Exec RelationFileManagerError RelationFileManager Page := do
  let pages ← openRelationFile key.relationId
  Exec.liftExcept ((readFilePage pages key.pageId).mapError .pager)

/-- The pages of a file are replaced by as many others. -/
def putPages (m : RelationFileManager) (r : RelationId) (pages : List Page)
    (h : pages.length ≤ maxFilePages) : RelationFileManager := { m with data := m.data.put r pages h }

def writePage (key : PageKey) (page : Page) : Exec RelationFileManagerError RelationFileManager Unit := do
  let pages ← openRelationFile key.relationId
  if pages.length ≤ key.pageId.index then Exec.throw (.pager (.pageNotAllocated key.pageId))
  else ⟨fun m =>
    if h : (pages.set key.pageId.index page).length ≤ maxFilePages then
      .ok () (m.putPages key.relationId (pages.set key.pageId.index page) h)
    else .err .io m⟩

def allocatePage (r : RelationId) : Exec RelationFileManagerError RelationFileManager PageId := do
  let pages ← openRelationFile r
  ⟨fun m =>
    if h : (pages ++ [Page.new]).length ≤ maxFilePages then
      .ok (PageId.new pages.length) (m.putPages r (pages ++ [Page.new]) h)
    else .err (.pager .io) m⟩

def pageCount (r : RelationId) : Exec RelationFileManagerError RelationFileManager Nat := do
  let pages ← openRelationFile r
  return pages.length

end RelationFileManager

structure StorageManager where
  bufferPool : BufferPool
  relationFileManager : RelationFileManager
  pageCounts : RelationId → Option Nat

namespace StorageManager

def withCapacity (data : FileStore) (faults : Nat → Bool) (bufferPoolCapacity : Nat) :
    StorageManager where
  bufferPool := .new bufferPoolCapacity
  relationFileManager := .new data faults
  pageCounts := fun _ => none

/-- A call on the buffer pool. -/
def pool {α : Type} (call : Exec BufferPoolError BufferPool α) : Exec StorageError StorageManager α :=
  (call.mapErr .bufferPool).zoom bufferPool fun p s => { s with bufferPool := p }

/-- A call on the files. -/
def file {α : Type} (call : Exec RelationFileManagerError RelationFileManager α) :
    Exec StorageError StorageManager α :=
  (call.mapErr .relationFileManager).zoom relationFileManager fun m s =>
    { s with relationFileManager := m }

/-- The guard is dropped also when the page is not written. -/
def flushPage (key : PageKey) : Exec StorageError StorageManager Unit := do
  let dirty ← pool (Exec.query fun p => p.isDirty key)
  if dirty then
    let guard ← pool (BufferPool.fetchCachedPage key)
    let frame ← pool (Exec.query fun p => p.getFrame guard)
    let written ← (file (RelationFileManager.writePage key frame.page)).attempt
    pool (BufferPool.useGuard guard fun _ => ((), none))
    Exec.liftExcept written
    pool (BufferPool.cleanFrame key)
  else pure ()

def evictOne : Exec StorageError StorageManager Unit := do
  let victim ← pool BufferPool.selectClockVictim
  match victim with
  | none => Exec.throw (.bufferPool .noFreeFrame)
  | some key =>
    flushPage key
    pool (BufferPool.removePage key)

def fetchPage (key : PageKey) : Exec StorageError StorageManager FrameId := do
  let cached ← Exec.gets fun s : StorageManager => s.bufferPool.containsPage key
  if cached then pool (BufferPool.fetchCachedPage key)
  else
    let full ← Exec.gets fun s : StorageManager => s.bufferPool.isFull
    if full then evictOne else pure ()
    let page ← file (RelationFileManager.readPage key)
    pool (BufferPool.insertPage key page)

/-- `fetch_page`, a use of the guard and its drop. -/
def access {α : Type} (key : PageKey) (body : Page → α × Option Page) :
    Exec StorageError StorageManager α := do
  let guard ← fetchPage key
  pool (BufferPool.useGuard guard body)

def createRelation (r : RelationId) : Exec StorageError StorageManager Unit :=
  file (RelationFileManager.createRelation r)

def registerRelation (r : RelationId) : Exec StorageError StorageManager Unit :=
  file (RelationFileManager.registerRelation r)

def allocatePage (r : RelationId) : Exec StorageError StorageManager PageId := do
  let pageId ← file (RelationFileManager.allocatePage r)
  Exec.modify fun s =>
    { s with pageCounts := Function.update s.pageCounts r ((s.pageCounts r).map (· + 1)) }
  return pageId

def pageCount (r : RelationId) : Exec StorageError StorageManager Nat := do
  let cached ← Exec.gets fun s : StorageManager => s.pageCounts r
  match cached with
  | some count => return count
  | none =>
    let count ← file (RelationFileManager.pageCount r)
    Exec.modify fun s => { s with pageCounts := Function.update s.pageCounts r (some count) }
    return count

end StorageManager

end RdbRs
