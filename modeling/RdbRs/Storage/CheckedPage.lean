import RdbRs.Lib.Loop
import RdbRs.Storage.SlottedPage

/-!
# Reading a slotted page access by access

The functions that read or write slots, free blocks and rows at an offset taken from the page, with
every slice checked: one out of range panics. None is, whatever the bytes of the page are.
-/

namespace RdbRs

namespace Page

/-- `self.data[start..start + len]`. -/
def sliceIn (start len : Nat) : PageM (List UInt8) :=
  if start + len > pageSize then Exec.panic else Exec.gets fun p => p.slice start len

def checkedReadSlot (slotId : SlotId) : PageM Slot := do
  let slotCount ← Exec.gets slotCount
  if slotId.index ≥ slotCount then Exec.throw .slotNotFound
  else
    let offset ← Exec.liftExcept (slotOffset slotId)
    let bytes ← sliceIn offset slotSize
    let slot := Slot.fromBytes bytes
    if slot.isDeleted then Exec.throw .slotNotFound else pure slot

def checkedWriteSlot (slotId : SlotId) (slot : Slot) : PageM Unit := do
  let offset ← Exec.liftExcept (slotOffset slotId)
  writeRowBytesAt offset slot.toBytes

def checkedFindTombstoneFrom (idx : Nat) : Nat → PageM (Option SlotId)
  | 0 => pure none
  | remaining + 1 => do
    let offset ← Exec.liftExcept (slotOffset (SlotId.new idx))
    let bytes ← sliceIn offset slotSize
    if (Slot.fromBytes bytes).isDeleted then pure (some (SlotId.new idx))
    else checkedFindTombstoneFrom (idx + 1) remaining

def checkedReadFreeBlock (offset : Nat) : PageM FreeBlock := do
  let offset ← Exec.query (freeBlockOffset · offset)
  let bytes ← sliceIn offset freeBlockSize
  pure (FreeBlock.fromBytes bytes)

def checkedWriteFreeBlock (offset : Nat) (block : FreeBlock) : PageM Unit := do
  let offset ← Exec.query (freeBlockOffset · offset)
  writeRowBytesAt offset block.toBytes

def checkedReadRow (slotId : SlotId) : PageM Row := do
  let slot ← checkedReadSlot slotId
  let rowEnd := slot.offset + slot.length
  let freeEnd ← Exec.gets freeEnd
  if rowEnd > pageSize ∨ slot.offset < freeEnd then Exec.throw .invalidRowBounds
  else
    let bytes ← sliceIn slot.offset (rowEnd - slot.offset)
    pure ⟨bytes⟩

def checkedScanFrom (idx : Nat) : Nat → PageM (List (SlotId × Row))
  | 0 => pure []
  | remaining + 1 => do
    match ← Exec.attempt (checkedReadRow (SlotId.new idx)) with
    | .ok row => do pure ((SlotId.new idx, row) :: (← checkedScanFrom (idx + 1) remaining))
    | .error .slotNotFound => checkedScanFrom (idx + 1) remaining
    | .error e => Exec.throw e

def checkedScanRows : PageM (List (SlotId × Row)) := do
  let slotCount ← Exec.gets slotCount
  checkedScanFrom 0 slotCount

section Slices

variable {p : Page} {slotId : SlotId} {slot : Slot} {block : FreeBlock} {offset start len : Nat}

lemma sliceIn_eq (h : start + len ≤ pageSize) : sliceIn start len = Exec.gets fun p => p.slice start len := by
  unfold sliceIn
  rw [if_neg (Nat.not_lt.mpr h)]

lemma slotOffset_le (h : slotOffset slotId = .ok offset) : offset + slotSize ≤ pageSize := by
  unfold slotOffset at h
  dsimp only at h
  split at h
  · cases h
  · cases h
    omega

lemma freeBlockOffset_le (h : p.freeBlockOffset start = .ok offset) :
    offset = start ∧ start + freeBlockSize ≤ pageSize := by
  unfold freeBlockOffset at h
  split at h
  · cases h
  · cases h
    exact ⟨rfl, by omega⟩

theorem checkedReadSlot_eq : checkedReadSlot slotId = Exec.query (readSlot · slotId) := by
  apply Exec.ext_run
  intro p
  rw [checkedReadSlot, Exec.run_bind, Exec.run_gets, Outcome.andThen_ok, Exec.run_query, readSlot]
  by_cases hid : slotId.index ≥ p.slotCount
  · rw [if_pos hid, if_pos hid, Exec.run_throw]
  · rw [if_neg hid, if_neg hid]
    cases hoffset : slotOffset slotId with
    | error e => rfl
    | ok offset =>
      rw [Exec.liftExcept_ok, Exec.pure_bind, sliceIn_eq (slotOffset_le hoffset), Exec.run_bind,
        Exec.run_gets, Outcome.andThen_ok, except_bind_ok]
      dsimp only
      by_cases hdeleted : (Slot.fromBytes (p.slice offset slotSize)).isDeleted = true
      · rw [if_pos hdeleted, if_pos hdeleted, Exec.run_throw]
      · rw [if_neg hdeleted, if_neg hdeleted, Exec.run_pure]

theorem checkedWriteSlot_eq : checkedWriteSlot slotId slot = writeSlot slotId slot := by
  unfold checkedWriteSlot writeSlot
  cases hoffset : slotOffset slotId with
  | error e => rfl
  | ok offset =>
    have hle := slotOffset_le hoffset
    rw [Exec.liftExcept_ok, Exec.pure_bind, Exec.pure_bind, writeRowBytesAt, if_neg]
    simp only [Slot.toBytes, List.length_append, length_beBytes]
    exact Nat.not_lt.mpr hle

theorem checkedFindTombstoneFrom_eq {idx remaining : Nat} :
    checkedFindTombstoneFrom idx remaining = Exec.query (findTombstoneFrom · idx remaining) := by
  induction remaining generalizing idx with
  | zero => rfl
  | succ remaining ih =>
    apply Exec.ext_run
    intro p
    rw [checkedFindTombstoneFrom, Exec.run_query, findTombstoneFrom]
    cases hoffset : slotOffset (SlotId.new idx) with
    | error e => rfl
    | ok offset =>
      rw [Exec.liftExcept_ok, Exec.pure_bind, sliceIn_eq (slotOffset_le hoffset), Exec.run_bind,
        Exec.run_gets, Outcome.andThen_ok, except_bind_ok]
      dsimp only
      by_cases hdeleted : (Slot.fromBytes (p.slice offset slotSize)).isDeleted = true
      · rw [if_pos hdeleted, if_pos hdeleted, Exec.run_pure]
      · rw [if_neg hdeleted, if_neg hdeleted, ih, Exec.run_query]

theorem checkedReadFreeBlock_eq : checkedReadFreeBlock start = Exec.query (readFreeBlock · start) := by
  apply Exec.ext_run
  intro p
  rw [checkedReadFreeBlock, Exec.run_bind, Exec.run_query, Exec.run_query, readFreeBlock]
  cases hoffset : p.freeBlockOffset start with
  | error e => rfl
  | ok offset =>
    have ⟨heq, hle⟩ := freeBlockOffset_le hoffset
    rw [Outcome.andThen_ok, sliceIn_eq (by rw [heq]; exact hle)]
    rfl

theorem checkedWriteFreeBlock_eq : checkedWriteFreeBlock start block = writeFreeBlock start block := by
  apply Exec.ext_run
  intro p
  rw [checkedWriteFreeBlock, writeFreeBlock, Exec.run_bind, Exec.run_bind, Exec.run_query]
  cases hoffset : p.freeBlockOffset start with
  | error e => rfl
  | ok offset =>
    have ⟨heq, hle⟩ := freeBlockOffset_le hoffset
    rw [Outcome.andThen_ok, Outcome.andThen_ok, writeRowBytesAt, if_neg]
    simp only [FreeBlock.toBytes, List.length_append, length_beBytes, heq]
    exact Nat.not_lt.mpr hle

theorem checkedReadRow_eq : checkedReadRow slotId = Exec.query (readRow · slotId) := by
  apply Exec.ext_run
  intro p
  rw [checkedReadRow, checkedReadSlot_eq, Exec.run_bind, Exec.run_query, Exec.run_query, readRow]
  cases hslot : p.readSlot slotId with
  | error e => rfl
  | ok slot =>
    rw [Outcome.andThen_ok, Exec.run_bind, Exec.run_gets, Outcome.andThen_ok, except_bind_ok]
    dsimp only
    by_cases hbounds : slot.offset + slot.length > pageSize ∨ slot.offset < p.freeEnd
    · rw [if_pos hbounds, if_pos hbounds, Exec.run_throw]
    · have hsum : slot.offset + slot.length - slot.offset = slot.length := Nat.add_sub_cancel_left _ _
      rw [if_neg hbounds, if_neg hbounds, hsum, sliceIn_eq (by omega)]
      rfl

theorem checkedScanFrom_eq {idx remaining : Nat} :
    checkedScanFrom idx remaining = Exec.query (scanFrom · idx remaining) := by
  induction remaining generalizing idx with
  | zero => rfl
  | succ remaining ih =>
    apply Exec.ext_run
    intro p
    rw [checkedScanFrom, Exec.run_query, scanFrom, checkedReadRow_eq, Exec.run_bind, Exec.run_attempt,
      Exec.run_query]
    cases hread : p.readRow (SlotId.new idx) with
    | ok row =>
      simp only [Outcome.attempt_ok, Outcome.andThen_ok, ih, Exec.run_bind, Exec.run_query]
      cases p.scanFrom (idx + 1) remaining with
      | ok rows => rfl
      | error e => rfl
    | error e =>
      simp only [Outcome.attempt_err, Outcome.andThen_ok]
      cases e with
      | slotNotFound => simp only [ih, Exec.run_query]
      | _ => rfl

theorem checkedScanRows_eq : checkedScanRows = Exec.query scanRows := by
  apply Exec.ext_run
  intro p
  rw [checkedScanRows, Exec.run_bind, Exec.run_gets, Outcome.andThen_ok, checkedScanFrom_eq]
  rfl

end Slices

end Page

end RdbRs
