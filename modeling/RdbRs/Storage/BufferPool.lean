import RdbRs.Storage.PageStore

/-!
# The buffer pool

A fixed number of frames, a table from page keys to frames, and the hand of the clock that selects
the frame to give up. A `FrameGuard` is the number of the frame it borrows: it pins the frame, and
its drop unpins it.
-/

namespace RdbRs

structure FrameId where
  id : Nat
  deriving DecidableEq

inductive BufferFrameError where
  | alreadyUnpinned
  deriving DecidableEq

structure BufferFrame where
  pageKey : PageKey
  page : Page
  pinCount : Nat
  isDirty : Bool
  referenced : Bool

namespace BufferFrame

def new (pageKey : PageKey) (page : Page) : BufferFrame where
  pageKey := pageKey
  page := page
  pinCount := 1
  isDirty := false
  referenced := true

def pin (f : BufferFrame) : BufferFrame := { f with pinCount := f.pinCount + 1, referenced := true }

def unpin (f : BufferFrame) : Except BufferFrameError BufferFrame :=
  if f.pinCount = 0 then .error .alreadyUnpinned else .ok { f with pinCount := f.pinCount - 1 }

def markClean (f : BufferFrame) : BufferFrame := { f with isDirty := false }

def unreferenced (f : BufferFrame) : BufferFrame := { f with referenced := false }

/-- `*frame.page_mut() = page`. -/
def pageMut (f : BufferFrame) (page : Page) : BufferFrame := { f with isDirty := true, page := page }

/-- `FrameGuard::drop`: an error of `unpin` is ignored. -/
def dropGuard (f : BufferFrame) : BufferFrame :=
  match f.unpin with
  | .ok f' => f'
  | .error _ => f

end BufferFrame

inductive PageTableError where
  | alreadyExistsPageId
  deriving DecidableEq

structure PageTable where
  table : PageKey → Option FrameId

namespace PageTable

def new : PageTable := ⟨fun _ => none⟩

def insert (t : PageTable) (pageKey : PageKey) (frameId : FrameId) : Except PageTableError PageTable :=
  if (t.table pageKey).isSome then .error .alreadyExistsPageId
  else .ok ⟨Function.update t.table pageKey (some frameId)⟩

def get (t : PageTable) (pageKey : PageKey) : Option FrameId := t.table pageKey

def remove (t : PageTable) (pageKey : PageKey) : PageTable := ⟨Function.update t.table pageKey none⟩

end PageTable

structure BufferPool where
  frames : List (Option BufferFrame)
  pageTable : PageTable
  handIndex : Nat

namespace BufferPool

def new (capacity : Nat) : BufferPool where
  frames := List.replicate capacity none
  pageTable := .new
  handIndex := 0

/-- `self.frames.get(frame_id.index())` and the frame in this slot. -/
def frame? (p : BufferPool) (frameId : FrameId) : Option BufferFrame := p.frames[frameId.id]?.join

/-- Writes through a reference to a frame. -/
def setFrame (p : BufferPool) (frameId : FrameId) (f : BufferFrame) : BufferPool :=
  { p with frames := p.frames.set frameId.id (some f) }

def containsPage (p : BufferPool) (pageKey : PageKey) : Bool := (p.pageTable.get pageKey).isSome

def isFull (p : BufferPool) : Bool := p.frames.all Option.isSome

def getFrameId (p : BufferPool) (pageKey : PageKey) : Except BufferPoolError FrameId :=
  match p.pageTable.get pageKey with
  | some frameId => .ok frameId
  | none => .error .pageNotCached

def getFrame (p : BufferPool) (frameId : FrameId) : Except BufferPoolError BufferFrame :=
  match p.frame? frameId with
  | some f => .ok f
  | none => .error .pageNotCached

def isDirty (p : BufferPool) (pageKey : PageKey) : Except BufferPoolError Bool := do
  let frameId ← p.getFrameId pageKey
  let frame ← p.getFrame frameId
  return frame.isDirty

/-- `fetch_cached_page` and, in it, `fetch_cached_frame`. -/
def fetchCachedPage (pageKey : PageKey) : Exec BufferPoolError BufferPool FrameId := ⟨fun p =>
  match p.pageTable.get pageKey with
  | none => .err .pageNotCached p
  | some frameId =>
    match p.frame? frameId with
    | none => .err .pageNotCached p
    | some frame => .ok frameId (p.setFrame frameId frame.pin)⟩

/-- The loop stops at the first empty slot. -/
def insertFrame (frame : BufferFrame) : Exec BufferPoolError BufferPool FrameId := ⟨fun p =>
  match p.frames.findIdx? Option.isNone with
  | none => .err .noFreeFrame p
  | some index =>
    match p.pageTable.insert frame.pageKey ⟨index⟩ with
    | .error _ => .err .pageAlreadyCached p
    | .ok table => .ok ⟨index⟩ { p with frames := p.frames.set index (some frame), pageTable := table }⟩

def insertPage (pageKey : PageKey) (page : Page) : Exec BufferPoolError BufferPool FrameId := do
  let frameId ← insertFrame (.new pageKey page)
  let _ ← Exec.query fun p => p.getFrame frameId
  return frameId

def removePage (pageKey : PageKey) : Exec BufferPoolError BufferPool Unit := do
  let frameId ← Exec.query fun p => p.getFrameId pageKey
  let frame ← Exec.query fun p => p.getFrame frameId
  if frame.pinCount > 0 then Exec.throw .pagePinned
  else if frame.isDirty then Exec.throw .pageDirty
  else Exec.modify fun p =>
    { p with frames := p.frames.set frameId.id none, pageTable := p.pageTable.remove pageKey }

/-- The loop of `select_clock_frame` with `n` rounds left. -/
def clockLoop : Nat → BufferPool → Option FrameId × BufferPool
  | 0, p => (none, p)
  | n + 1, p =>
    let index := p.handIndex
    let p := { p with handIndex := (index + 1) % p.frames.length }
    match p.frame? ⟨index⟩ with
    | none => clockLoop n p
    | some frame =>
      if frame.pinCount > 0 then clockLoop n p
      else if frame.referenced then clockLoop n (p.setFrame ⟨index⟩ frame.unreferenced)
      else (some ⟨index⟩, p)

def selectClockFrame (p : BufferPool) : Option FrameId × BufferPool :=
  if p.frames.isEmpty then (none, p) else clockLoop (p.frames.length * 2) p

def selectClockVictim : Exec BufferPoolError BufferPool (Option PageKey) := ⟨fun p =>
  match p.selectClockFrame with
  | (none, p) => .ok none p
  | (some frameId, p) =>
    match p.getFrame frameId with
    | .ok frame => .ok (some frame.pageKey) p
    | .error e => .err e p⟩

def cleanFrame (pageKey : PageKey) : Exec BufferPoolError BufferPool Unit := ⟨fun p =>
  match p.getFrameId pageKey with
  | .error e => .err e p
  | .ok frameId =>
    match p.getFrame frameId with
    | .error e => .err e p
    | .ok frame => .ok () (p.setFrame frameId frame.markClean)⟩

/-- A use of a guard: the body reads the page and may write it, then the guard is dropped. -/
def useGuard {α : Type} (guard : FrameId) (body : Page → α × Option Page) :
    Exec BufferPoolError BufferPool α := ⟨fun p =>
  match p.frame? guard with
  | none => .panic
  | some frame =>
    let (a, written) := body frame.page
    let frame := match written with
      | some page => frame.pageMut page
      | none => frame
    .ok a (p.setFrame guard frame.dropGuard)⟩

end BufferPool

end RdbRs
