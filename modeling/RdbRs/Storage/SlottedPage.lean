import RdbRs.Storage.Page
import RdbRs.Storage.Types

/-!
# The slotted page

Header, slot directory, free list and rows of `storage::page`, function by function. All of them
live in the same 8192 bytes.
-/

namespace RdbRs

def headerSize : Nat := 8
def slotSize : Nat := 4
def freeBlockSize : Nat := 4

/-- A call on `&mut Page`. -/
abbrev PageM (α : Type) : Type := Exec PageError Page α

/-- The bytes a row takes: its length rounded up to a positive multiple of four. -/
def rowAllocationSize (rowLen : Nat) : Nat :=
  let remainder := rowLen % freeBlockSize
  if remainder = 0 then
    if rowLen = 0 then freeBlockSize else rowLen
  else rowLen + freeBlockSize - remainder

namespace Page

/-! ### Header -/

def slotCount (p : Page) : Nat := p.u16At 0
def freeStart (p : Page) : Nat := p.u16At 2
def freeEnd (p : Page) : Nat := p.u16At 4
def freeListHead (p : Page) : Nat := p.u16At 6

def setSlotCount (value : Nat) (p : Page) : Page := p.write 0 (beBytes 2 value)
def setFreeStart (value : Nat) (p : Page) : Page := p.write 2 (beBytes 2 value)
def setFreeEnd (value : Nat) (p : Page) : Page := p.write 4 (beBytes 2 value)
def setFreeListHead (value : Nat) (p : Page) : Page := p.write 6 (beBytes 2 value)

/-- `Page::new`. -/
def new : Page :=
  setFreeListHead u16Max (setFreeEnd (asU16 pageSize) (setFreeStart (asU16 headerSize) newRaw))

end Page

/-! ### Slot directory -/

structure Slot where
  offset : Nat
  length : Nat
  deriving DecidableEq

namespace Slot

def fromBytes (bytes : List UInt8) : Slot := ⟨beNat (bytes.take 2), beNat (bytes.drop 2)⟩

def toBytes (s : Slot) : List UInt8 := beBytes 2 s.offset ++ beBytes 2 s.length

def tombstone : Slot := ⟨0, 0⟩

def isDeleted (s : Slot) : Bool := decide (s.offset = 0 ∧ s.length = 0)

end Slot

def slotOffset (slotId : SlotId) : Except PageError Nat :=
  let offset := headerSize + slotSize * slotId.index
  if offset > pageSize ∨ offset + slotSize > pageSize then .error .slotOffsetOutOfBounds
  else .ok offset

namespace Page

def readSlot (p : Page) (slotId : SlotId) : Except PageError Slot := do
  if slotId.index ≥ p.slotCount then .error .slotNotFound
  else
    let offset ← slotOffset slotId
    let slot := Slot.fromBytes (p.slice offset slotSize)
    if slot.isDeleted then .error .slotNotFound else .ok slot

def writeSlot (slotId : SlotId) (slot : Slot) : PageM Unit := do
  let offset ← Exec.liftExcept (slotOffset slotId)
  Exec.modify (·.write offset slot.toBytes)

def addSlot (slot : Slot) : PageM SlotId := do
  let freeStart ← Exec.gets freeStart
  let freeEnd ← Exec.gets freeEnd
  let nextFreeStart := freeStart + slotSize
  if nextFreeStart > u16Max then Exec.throw .freeStartOverflow
  else if nextFreeStart > freeEnd then Exec.throw .storageFull
  else
    let slotCount ← Exec.gets slotCount
    let currentSlotId := SlotId.new slotCount
    writeSlot currentSlotId slot
    if slotCount + 1 > u16Max then Exec.panic
    else
      Exec.modify (setSlotCount (slotCount + 1))
      Exec.modify (setFreeStart nextFreeStart)
      pure currentSlotId

/-- The search of `find_tombstone_slot_id` over the slots `idx, idx + 1, ..` that remain. -/
def findTombstoneFrom (p : Page) (idx : Nat) : Nat → Except PageError (Option SlotId)
  | 0 => .ok none
  | remaining + 1 => do
    let offset ← slotOffset (SlotId.new idx)
    let found := Slot.fromBytes (p.slice offset slotSize)
    if found.isDeleted then .ok (some (SlotId.new idx))
    else findTombstoneFrom p (idx + 1) remaining

def findTombstoneSlotId (p : Page) : Except PageError (Option SlotId) :=
  findTombstoneFrom p 0 p.slotCount

/-! ### Free list -/

end Page

structure FreeBlock where
  next : Nat
  length : Nat
  deriving DecidableEq

namespace FreeBlock

def fromBytes (bytes : List UInt8) : FreeBlock := ⟨beNat (bytes.take 2), beNat (bytes.drop 2)⟩

def toBytes (b : FreeBlock) : List UInt8 := beBytes 2 b.next ++ beBytes 2 b.length

end FreeBlock

namespace Page

def freeSpace (p : Page) : Except PageError Nat :=
  if p.freeStart > p.freeEnd then .error .invalidFreeSpaceBounds
  else .ok (p.freeEnd - p.freeStart)

def freeBlockOffset (p : Page) (offset : Nat) : Except PageError Nat :=
  if offset < p.freeEnd ∨ offset + freeBlockSize > pageSize ∨ offset = u16Max then
    .error .invalidFreeBlockBounds
  else .ok offset

def readFreeBlock (p : Page) (offset : Nat) : Except PageError FreeBlock := do
  let offset ← p.freeBlockOffset offset
  .ok (FreeBlock.fromBytes (p.slice offset freeBlockSize))

def writeFreeBlock (offset : Nat) (block : FreeBlock) : PageM Unit := do
  let offset ← Exec.query (freeBlockOffset · offset)
  Exec.modify (·.write offset block.toBytes)

def addFreeBlock (offset length : Nat) : PageM Unit := do
  let head ← Exec.gets freeListHead
  writeFreeBlock offset ⟨head, length⟩
  Exec.modify (setFreeListHead offset)

/-- The `while` loop of `find_free_block`. -/
def findFreeBlockLoop (requiredLen : Nat) :
    Nat → Nat → Option Nat → PageM (Option (Nat × Option Nat × FreeBlock))
  | 0, _, _ => Exec.diverge
  | fuel + 1, currentOffset, prevOffset =>
    if currentOffset = u16Max then pure none
    else do
      let block ← Exec.query (readFreeBlock · currentOffset)
      if block.length ≥ requiredLen then pure (some (currentOffset, prevOffset, block))
      else findFreeBlockLoop requiredLen fuel block.next (some currentOffset)

/-- A block starts inside the page, so a walk of more than `pageSize` blocks has come back to
one it has already passed and never ends. -/
def findFreeBlock (requiredLen : Nat) : PageM (Option (Nat × Option Nat × FreeBlock)) := do
  let head ← Exec.gets freeListHead
  findFreeBlockLoop requiredLen pageSize head none

def replaceFreeBlockLink (prevOffset : Option Nat) (nextOffset : Nat) : PageM Unit :=
  match prevOffset with
  | some prev => do
    let prevBlock ← Exec.query (readFreeBlock · prev)
    writeFreeBlock prev { prevBlock with next := nextOffset }
  | none => Exec.modify (setFreeListHead nextOffset)

def tryAllocateFromFreeEnd (allocateLen : Nat) : PageM (Option Nat) := do
  let freeSpace ← Exec.query freeSpace
  if allocateLen > freeSpace then pure none
  else
    let freeEnd ← Exec.gets freeEnd
    if freeEnd < asU16 allocateLen then Exec.panic
    else
      let rowStart := freeEnd - asU16 allocateLen
      Exec.modify (setFreeEnd rowStart)
      pure (some rowStart)

def tryAllocateFromFreeBlock (allocateLen : Nat) : PageM (Option Nat) := do
  match ← findFreeBlock (asU16 allocateLen) with
  | none => pure none
  | some (currentOffset, prevOffset, block) =>
    if block.length > allocateLen then
      let remainingLength := asU16 (block.length - allocateLen)
      let remainingOffset := asU16 (currentOffset + allocateLen)
      writeFreeBlock remainingOffset ⟨block.next, remainingLength⟩
      replaceFreeBlockLink prevOffset remainingOffset
      pure (some currentOffset)
    else if block.length = allocateLen then
      replaceFreeBlockLink prevOffset block.next
      pure (some currentOffset)
    else pure (some currentOffset)

/-! ### Rows -/

def readRow (p : Page) (slotId : SlotId) : Except PageError Row := do
  let slot ← p.readSlot slotId
  let rowEnd := slot.offset + slot.length
  if rowEnd > pageSize ∨ slot.offset < p.freeEnd then .error .invalidRowBounds
  else .ok ⟨p.slice slot.offset slot.length⟩

/-- The rows of the slots `idx, idx + 1, ..` that remain, tombstones skipped. -/
def scanFrom (p : Page) (idx : Nat) : Nat → Except PageError (List (SlotId × Row))
  | 0 => .ok []
  | remaining + 1 =>
    match p.readRow (SlotId.new idx) with
    | .ok row => do .ok ((SlotId.new idx, row) :: (← scanFrom p (idx + 1) remaining))
    | .error .slotNotFound => scanFrom p (idx + 1) remaining
    | .error e => .error e

def scanRows (p : Page) : Except PageError (List (SlotId × Row)) := scanFrom p 0 p.slotCount

def writeRowBytesAt (offset : Nat) (rowBytes : List UInt8) : PageM Unit :=
  if offset + rowBytes.length > pageSize then Exec.panic
  else Exec.modify (·.write offset rowBytes)

/-- The loop of `compact` that puts the live rows back, one below the other. -/
def placeRows : List (SlotId × Row) → PageM Unit
  | [] => pure ()
  | (slotId, row) :: rest => do
    let allocationLen := rowAllocationSize row.data.length
    let freeEnd ← Exec.gets freeEnd
    if freeEnd < allocationLen then Exec.panic
    else
      let newOffset := freeEnd - allocationLen
      writeRowBytesAt newOffset row.data
      writeSlot slotId ⟨asU16 newOffset, asU16 row.data.length⟩
      Exec.modify (setFreeEnd (asU16 newOffset))
      placeRows rest

def compact : PageM Unit := do
  let liveSlots ← Exec.query scanRows
  Exec.modify (setFreeListHead u16Max)
  Exec.modify (setFreeEnd (asU16 pageSize))
  placeRows liveSlots

def writeRowAt (offset : Nat) (rowBytes : List UInt8) (tombstoneSlotId : Option SlotId) :
    PageM SlotId := do
  let slot : Slot := ⟨offset, asU16 rowBytes.length⟩
  let slotId ← match tombstoneSlotId with
    | some slotId => do
      writeSlot slotId slot
      pure slotId
    | none => addSlot slot
  writeRowBytesAt offset rowBytes
  pure slotId

def tryInsertFromFreeBlock (rowBytes : List UInt8) (allocateLen : Nat)
    (tombstoneSlotId : Option SlotId) : PageM (Option SlotId) := do
  let directoryFull ←
    if tombstoneSlotId.isNone then do pure (decide (slotSize > (← Exec.query freeSpace)))
    else pure false
  if directoryFull then pure none
  else
    match ← tryAllocateFromFreeBlock allocateLen with
    | some offset => do pure (some (← writeRowAt offset rowBytes tombstoneSlotId))
    | none => pure none

def insertFromFreeEnd (rowBytes : List UInt8) (allocateLen : Nat)
    (tombstoneSlotId : Option SlotId) : PageM SlotId := do
  let freeSpace ← Exec.query freeSpace
  if tombstoneSlotId.isSome ∧ allocateLen > freeSpace then Exec.throw .storageFull
  else if tombstoneSlotId.isNone ∧ slotSize + allocateLen > freeSpace then
    Exec.throw .storageFull
  else
    let freeEnd ← Exec.gets freeEnd
    if freeEnd < asU16 allocateLen then Exec.panic
    else
      let rowStart := freeEnd - asU16 allocateLen
      let slotId ← writeRowAt rowStart rowBytes tombstoneSlotId
      Exec.modify (setFreeEnd rowStart)
      pure slotId

def insertRow (row : Row) : PageM SlotId := do
  let rowBytes := row.data
  let allocateLen := rowAllocationSize rowBytes.length
  let tombstoneSlotId ← Exec.query findTombstoneSlotId
  if allocateLen > pageSize - headerSize - slotSize then Exec.throw .rowTooLarge
  else
    match ← tryInsertFromFreeBlock rowBytes allocateLen tombstoneSlotId with
    | some slotId => pure slotId
    | none =>
      match ← Exec.attempt (insertFromFreeEnd rowBytes allocateLen tombstoneSlotId) with
      | .ok slotId => pure slotId
      | .error .storageFull => do
        compact
        insertFromFreeEnd rowBytes allocateLen tombstoneSlotId
      | .error e => Exec.throw e

def updateSlotForRow (slotId : SlotId) (slot : Slot) (rowLen : Nat) : PageM Unit :=
  writeSlot slotId { slot with length := asU16 rowLen }

def updateAllocateLenEqual (slotOffset : Nat) (rowBytes : List UInt8) (slotId : SlotId)
    (slot : Slot) : PageM Unit := do
  updateSlotForRow slotId slot rowBytes.length
  writeRowBytesAt (asU16 slotOffset) rowBytes

def updateAllocateLenLess (slotOffset : Nat) (rowBytes : List UInt8) (slotId : SlotId)
    (slot : Slot) (oldAllocateLen newAllocateLen : Nat) : PageM Unit := do
  writeRowBytesAt slot.offset rowBytes
  updateSlotForRow slotId slot rowBytes.length
  let freeBlockLength := oldAllocateLen - newAllocateLen
  let freeBlockOffset := slotOffset + newAllocateLen
  addFreeBlock (asU16 freeBlockOffset) (asU16 freeBlockLength)

/-- The end of `update_allocate_len_greater`, once a place for the new row has been found. -/
def moveRow (rowBytes : List UInt8) (slotId : SlotId) (slot : Slot) (oldAllocateLen newOffset : Nat) :
    PageM Unit := do
  writeRowBytesAt newOffset rowBytes
  updateSlotForRow slotId { slot with offset := newOffset } rowBytes.length
  addFreeBlock slot.offset (asU16 oldAllocateLen)

def updateAllocateLenGreater (rowBytes : List UInt8) (slotId : SlotId) (slot : Slot)
    (oldAllocateLen newAllocateLen : Nat) : PageM Unit := do
  match ← tryAllocateFromFreeBlock newAllocateLen with
  | some offset => moveRow rowBytes slotId slot oldAllocateLen offset
  | none =>
    match ← tryAllocateFromFreeEnd newAllocateLen with
    | some offset => moveRow rowBytes slotId slot oldAllocateLen offset
    | none => do
      compact
      let slot ← Exec.query (readSlot · slotId)
      let oldAllocateLen := rowAllocationSize slot.length
      match ← tryAllocateFromFreeEnd newAllocateLen with
      | some offset => moveRow rowBytes slotId slot oldAllocateLen offset
      | none => Exec.throw .storageFull

def updateRow (slotId : SlotId) (row : Row) : PageM Unit := do
  let slot ← Exec.query (readSlot · slotId)
  let rowBytes := row.data
  let oldAllocateLen := rowAllocationSize slot.length
  let newAllocateLen := rowAllocationSize rowBytes.length
  let freeEnd ← Exec.gets freeEnd
  if slot.offset + oldAllocateLen > pageSize ∨ slot.offset < freeEnd then
    Exec.throw .invalidRowBounds
  else
    match compare newAllocateLen oldAllocateLen with
    | .eq => updateAllocateLenEqual slot.offset rowBytes slotId slot
    | .lt => updateAllocateLenLess slot.offset rowBytes slotId slot oldAllocateLen newAllocateLen
    | .gt => updateAllocateLenGreater rowBytes slotId slot oldAllocateLen newAllocateLen

def deleteRow (slotId : SlotId) : PageM Unit := do
  let slot ← Exec.query (readSlot · slotId)
  let allocateLen := rowAllocationSize slot.length
  addFreeBlock slot.offset (asU16 allocateLen)
  writeSlot slotId .tombstone

end Page

end RdbRs
