import RdbRs.Lib.BigEndian

namespace RdbRs

/-- The number of a page in its file. -/
structure PageId where
  id : UInt64
  deriving DecidableEq

/-- The number of a slot in its page. -/
structure SlotId where
  id : UInt16
  deriving DecidableEq

/-- Where a row is stored. -/
structure RowId where
  pageId : PageId
  slotId : SlotId
  deriving DecidableEq

/-- The encoded bytes of a tuple. -/
structure Row where
  data : List UInt8
  deriving DecidableEq

namespace PageId

def new (n : Nat) : PageId := ⟨UInt64.ofNat n⟩

def toBytes (p : PageId) : List UInt8 := beBytes 8 p.id.toNat

def fromBytes (bytes : List UInt8) : PageId := ⟨UInt64.ofNat (beNat bytes)⟩

@[simp] lemma length_toBytes (p : PageId) : p.toBytes.length = 8 := by simp [toBytes]

@[simp] lemma fromBytes_toBytes (p : PageId) : fromBytes p.toBytes = p := by
  have h : p.id.toNat < 256 ^ 8 := p.id.toNat_lt
  simp only [fromBytes, toBytes, beNat_beBytes_of_lt h, UInt64.ofNat_toNat]

lemma toBytes_fromBytes {bytes : List UInt8} (h : bytes.length = 8) :
    (fromBytes bytes).toBytes = bytes := by
  have hlt : beNat bytes < 2 ^ 64 := by
    have := beNat_lt bytes
    rwa [h] at this
  rw [fromBytes, toBytes, UInt64.toNat_ofNat_of_lt' hlt, ← h, beBytes_beNat]

/-- The page number as an index into the pages of its file. -/
def index (p : PageId) : Nat := p.id.toNat

lemma index_lt (p : PageId) : p.index < 2 ^ 64 := p.id.toNat_lt

lemma index_new {n : Nat} (h : n < 2 ^ 64) : (new n).index = n := UInt64.toNat_ofNat_of_lt' h

lemma index_injective {p q : PageId} (h : p.index = q.index) : p = q := by
  obtain ⟨p⟩ := p
  obtain ⟨q⟩ := q
  exact congrArg _ (UInt64.toNat_inj.mp h)

lemma new_ne {m n : Nat} (hm : m < 2 ^ 64) (hn : n < 2 ^ 64) (hne : m ≠ n) : new m ≠ new n := by
  intro heq
  have := index_new hm
  rw [heq, index_new hn] at this
  exact hne this.symm

end PageId

namespace SlotId

def new (n : Nat) : SlotId := ⟨UInt16.ofNat n⟩

/-- The slot number as an index into the slot directory. -/
def index (s : SlotId) : Nat := s.id.toNat

lemma index_lt (s : SlotId) : s.index < 65536 := s.id.toNat_lt

lemma index_new {n : Nat} (h : n < 65536) : (new n).index = n := UInt16.toNat_ofNat_of_lt' h

@[simp] lemma new_index (s : SlotId) : new s.index = s := by
  simp only [new, index, UInt16.ofNat_toNat]

lemma index_injective {s t : SlotId} (h : s.index = t.index) : s = t := by
  rw [← new_index s, h, new_index]

end SlotId

namespace RowId

/-- A row of the first page. -/
def ofSlot (n : Nat) : RowId := ⟨PageId.new 0, SlotId.new n⟩

def toBytes (r : RowId) : List UInt8 := r.pageId.toBytes ++ beBytes 2 r.slotId.index

def fromBytes (bytes : List UInt8) : RowId :=
  ⟨PageId.fromBytes (bytes.take 8), SlotId.new (beNat (bytes.drop 8))⟩

@[simp] lemma length_toBytes (r : RowId) : r.toBytes.length = 10 := by simp [toBytes]

@[simp] lemma fromBytes_toBytes (r : RowId) : fromBytes r.toBytes = r := by
  have h : r.slotId.index < 256 ^ 2 := r.slotId.index_lt
  simp only [fromBytes, toBytes, List.take_left' r.pageId.length_toBytes,
    List.drop_left' r.pageId.length_toBytes, PageId.fromBytes_toBytes, beNat_beBytes_of_lt h,
    SlotId.new_index]

lemma toBytes_fromBytes {bytes : List UInt8} (h : bytes.length = 10) :
    (fromBytes bytes).toBytes = bytes := by
  have hd : (bytes.drop 8).length = 2 := by simp [h]
  have hlt : beNat (bytes.drop 8) < 65536 := by
    have := beNat_lt (bytes.drop 8)
    rwa [hd] at this
  simp only [fromBytes, toBytes, PageId.toBytes_fromBytes (show (bytes.take 8).length = 8 by simp [h]),
    SlotId.index_new hlt]
  rw [← hd, beBytes_beNat, List.take_append_drop]

end RowId

/-- `PageError`. -/
inductive PageError where
  | rowTooLarge
  | storageFull
  | slotNotFound
  | invalidRowBounds
  | invalidFreeSpaceBounds
  | invalidFreeBlockBounds
  | freeStartOverflow
  | slotOffsetOutOfBounds
  deriving DecidableEq

end RdbRs
