import RdbRs.Lib.Tiling
import RdbRs.Storage.SlottedPage

/-!
# What a slotted page stores

A `Layout` is the content of a slotted page without its bytes: the entry of every slot, the free
list and the lower end of the row area. `Stores` relates it to the bytes; `Fits` says that the
rows and the free blocks tile the row area. The lemmas here say what each write of the page
module does to the two.
-/

namespace RdbRs

/-- The content of a slot: nothing for a tombstone, else where its row starts and the row. -/
abbrev SlotEntry : Type := Option (Nat × Row)

/-- The live rows of a slot directory with their offsets. -/
def entries (slots : List SlotEntry) : List (Nat × Row) := slots.filterMap id

/-- The bytes a live row occupies, as a block. -/
def allocation (x : Nat × Row) : Nat × Nat := (x.1, rowAllocationSize x.2.data.length)

def slotOf : SlotEntry → Slot
  | none => .tombstone
  | some (offset, row) => ⟨offset, row.data.length⟩

section RowAllocationSize

lemma rowAllocationSize_eq (n : Nat) :
    rowAllocationSize n = if n = 0 then 4 else (n + 3) / 4 * 4 := by
  unfold rowAllocationSize freeBlockSize
  dsimp only
  split
  · split <;> omega
  · split <;> omega

lemma rowAllocationSize_dvd (n : Nat) : 4 ∣ rowAllocationSize n := by
  rw [rowAllocationSize_eq]
  split <;> omega

lemma le_rowAllocationSize (n : Nat) : n ≤ rowAllocationSize n := by
  rw [rowAllocationSize_eq]
  split <;> omega

lemma rowAllocationSize_pos (n : Nat) : 0 < rowAllocationSize n := by
  rw [rowAllocationSize_eq]
  split <;> omega

end RowAllocationSize

section Entries

variable {slots : List SlotEntry} {i : Nat} {x : Nat × Row}

lemma mem_entries : x ∈ entries slots ↔ some x ∈ slots := by
  simp [entries]

lemma entries_append_some : entries (slots ++ [some x]) = entries slots ++ [x] := by
  simp [entries]

/-- Taking a live row out of its slot. -/
lemma entries_perm_set_none (h : slots[i]? = some (some x)) :
    (entries slots).Perm (x :: entries (slots.set i none)) := by
  induction slots generalizing i with
  | nil => simp at h
  | cons s rest ih =>
    cases i with
    | zero =>
      obtain rfl : s = some x := by simpa using h
      simp [entries]
    | succ i =>
      have := ih (by simpa using h)
      cases s with
      | none => simpa [entries] using this
      | some y =>
        simp only [entries, List.filterMap_cons, id, List.set_cons_succ] at this ⊢
        exact (this.cons y).trans (List.Perm.swap x y _)

/-- Putting a row into a slot. -/
lemma entries_set_some_perm (h : i < slots.length) :
    (entries (slots.set i (some x))).Perm (x :: entries (slots.set i none)) := by
  have hget : (slots.set i (some x))[i]? = some (some x) := by
    simp [h]
  have := entries_perm_set_none hget
  rwa [List.set_set] at this

lemma set_none_eq_self (h : slots[i]? = some none) : slots.set i none = slots := by
  apply List.ext_getElem? 
  intro j
  by_cases hj : i = j
  · subst hj
    rw [h, List.getElem?_set_self]
    exact (List.getElem?_eq_some_iff.mp h).1
  · rw [List.getElem?_set_ne hj]

end Entries

/-! ### Free list -/

/-- Where a list of blocks starts, `last` being the mark after its last block. -/
def headOr : List (Nat × Nat) → Nat → Nat
  | [], last => last
  | (offset, _) :: _, _ => offset

/-- Each block of the list carries its length and the offset of the next one. -/
def LinkedTo (p : Page) : List (Nat × Nat) → Nat → Prop
  | [], _ => True
  | (offset, length) :: rest, last =>
    FreeBlock.fromBytes (p.slice offset freeBlockSize) = ⟨headOr rest last, length⟩ ∧
      LinkedTo p rest last

section Linked

variable {p : Page} {as bs : List (Nat × Nat)} {last : Nat}

lemma headOr_append : headOr (as ++ bs) last = headOr as (headOr bs last) := by
  cases as with
  | nil => rfl
  | cons x as => rfl

lemma linkedTo_append : LinkedTo p (as ++ bs) last ↔
    LinkedTo p as (headOr bs last) ∧ LinkedTo p bs last := by
  induction as with
  | nil => simp [LinkedTo]
  | cons x as ih => simp only [List.cons_append, LinkedTo, headOr_append, ih, and_assoc]

/-- The free list only depends on the first four bytes of each block. -/
lemma LinkedTo.write {start : Nat} {bytes : List UInt8} (h : LinkedTo p as last)
    (hd : ∀ b ∈ as, b.1 + 4 ≤ start ∨ start + bytes.length ≤ b.1) :
    LinkedTo (p.write start bytes) as last := by
  induction as with
  | nil => trivial
  | cons x as ih =>
    have hx := hd x List.mem_cons_self
    refine ⟨?_, ih h.2 (fun b hb => hd b (List.mem_cons_of_mem _ hb))⟩
    rw [Page.slice_write_of_disjoint p bytes (by simpa [freeBlockSize] using hx)]
    exact h.1

end Linked

/-! ### Slots and blocks as bytes -/

lemma Slot.length_toBytes (s : Slot) : s.toBytes.length = 4 := by simp [Slot.toBytes]

lemma Slot.fromBytes_toBytes {s : Slot} (ho : s.offset < 65536) (hl : s.length < 65536) :
    Slot.fromBytes s.toBytes = s := by
  have h2 : (beBytes 2 s.offset).length = 2 := length_beBytes 2 _
  simp only [Slot.fromBytes, Slot.toBytes, List.take_left' h2, List.drop_left' h2,
    beNat_beBytes_of_lt (show s.offset < 256 ^ 2 by simpa using ho),
    beNat_beBytes_of_lt (show s.length < 256 ^ 2 by simpa using hl)]

lemma FreeBlock.length_toBytes (b : FreeBlock) : b.toBytes.length = 4 := by
  simp [FreeBlock.toBytes]

lemma FreeBlock.fromBytes_toBytes {b : FreeBlock} (hn : b.next < 65536) (hl : b.length < 65536) :
    FreeBlock.fromBytes b.toBytes = b := by
  have h2 : (beBytes 2 b.next).length = 2 := length_beBytes 2 _
  simp only [FreeBlock.fromBytes, FreeBlock.toBytes, List.take_left' h2, List.drop_left' h2,
    beNat_beBytes_of_lt (show b.next < 256 ^ 2 by simpa using hn),
    beNat_beBytes_of_lt (show b.length < 256 ^ 2 by simpa using hl)]

/-- The bytes of a page hold the slot directory `slots`, the rows `es`, the free list `blocks`
and the lower end `freeEnd` of the row area. The rows are listed apart from the directory because
an operation rewrites the two at different moments. -/
structure Stores (p : Page) (slots : List SlotEntry) (es : List (Nat × Row))
    (blocks : List (Nat × Nat)) (freeEnd : Nat) : Prop where
  slotCount : p.slotCount = slots.length
  freeStart : p.freeStart = headerSize + slotSize * slots.length
  freeEnd : p.freeEnd = freeEnd
  slot : ∀ i s, slots[i]? = some s →
    Slot.fromBytes (p.slice (headerSize + slotSize * i) slotSize) = slotOf s
  row : ∀ x ∈ es, p.slice x.1 x.2.data.length = x.2.data
  head : p.freeListHead = headOr blocks u16Max
  linked : LinkedTo p blocks u16Max

/-- The slot directory of `n` slots ends below `freeEnd`, and the blocks `regions` tile the row
area. -/
structure Fits (n : Nat) (regions : List (Nat × Nat)) (freeEnd : Nat) : Prop where
  directory : headerSize + slotSize * n ≤ freeEnd
  tiles : Tiles freeEnd regions pageSize
  aligned : ∀ b ∈ regions, 4 ∣ b.2

namespace Fits

variable {n : Nat} {regions regions' : List (Nat × Nat)} {freeEnd : Nat} {b : Nat × Nat}

lemma perm (h : Fits n regions freeEnd) (hp : regions.Perm regions') : Fits n regions' freeEnd :=
  ⟨h.directory, h.tiles.perm hp, fun b hb => h.aligned b (hp.mem_iff.mpr hb)⟩

lemma bounds (h : Fits n regions freeEnd) (hb : b ∈ regions) :
    headerSize + slotSize * n ≤ b.1 ∧ freeEnd ≤ b.1 ∧ 4 ≤ b.2 ∧ b.1 + b.2 ≤ pageSize := by
  have ht := h.tiles.mem_bounds hb
  have ha := h.aligned b hb
  have hd := h.directory
  have : 4 ≤ b.2 := Nat.le_of_dvd ht.2.1 ha
  omega

lemma freeEnd_le (h : Fits n regions freeEnd) : freeEnd ≤ pageSize := h.tiles.le

/-- The first region lies apart from all the others. -/
lemma apart (h : Fits n (b :: regions) freeEnd) {x : Nat × Nat} (hx : x ∈ regions) :
    b.1 + b.2 ≤ x.1 ∨ x.1 + x.2 ≤ b.1 := h.tiles.apart_of_cons hx

/-- The row area grows downwards. -/
lemma cons_front (h : Fits n regions freeEnd) {m : Nat} (h4 : 4 ∣ m) (hpos : 0 < m)
    (hroom : headerSize + slotSize * n + m ≤ freeEnd) :
    Fits n ((freeEnd - m, m) :: regions) (freeEnd - m) := by
  refine ⟨by omega, h.tiles.cons_front hpos (by omega), fun b hb => ?_⟩
  rcases List.mem_cons.mp hb with rfl | hb
  · exact h4
  · exact h.aligned b hb

/-- A region cut in two. -/
lemma split {o m k : Nat} (h : Fits n ((o, m + k) :: regions) freeEnd) (h4 : 4 ∣ m) (hm : 0 < m)
    (hk : 0 < k) : Fits n ((o, m) :: (o + m, k) :: regions) freeEnd := by
  have hk4 : 4 ∣ k := (Nat.dvd_add_right h4).mp (h.aligned _ List.mem_cons_self)
  refine ⟨h.directory, h.tiles.split hm hk, fun b hb => ?_⟩
  rcases List.mem_cons.mp hb with rfl | hb
  · exact h4
  rcases List.mem_cons.mp hb with rfl | hb
  · exact hk4
  · exact h.aligned b (List.mem_cons_of_mem _ hb)

lemma headOr_lt {blocks : List (Nat × Nat)} (h : Fits n regions freeEnd) (hs : blocks ⊆ regions) :
    headOr blocks u16Max < 65536 := by
  cases blocks with
  | nil => decide
  | cons b rest =>
    have hb := h.bounds (hs List.mem_cons_self)
    simp only [headOr, pageSize] at hb ⊢
    omega

end Fits

/-- The regions of a page: its live rows and its free blocks. -/
def regionsOf (es : List (Nat × Row)) (blocks : List (Nat × Nat)) : List (Nat × Nat) :=
  es.map allocation ++ blocks

section Regions

variable {es : List (Nat × Row)} {blocks : List (Nat × Nat)} {x : Nat × Row} {b : Nat × Nat}

lemma allocation_mem_regionsOf (h : x ∈ es) : allocation x ∈ regionsOf es blocks :=
  List.mem_append_left _ (List.mem_map_of_mem h)

lemma block_mem_regionsOf (es : List (Nat × Row)) (h : b ∈ blocks) : b ∈ regionsOf es blocks :=
  List.mem_append_right _ h

lemma regionsOf_perm {es' : List (Nat × Row)} {blocks' : List (Nat × Nat)} (he : es.Perm es')
    (hb : blocks.Perm blocks') : (regionsOf es blocks).Perm (regionsOf es' blocks') :=
  (he.map allocation).append hb

lemma regionsOf_cons_block : (regionsOf es (b :: blocks)).Perm (b :: regionsOf es blocks) :=
  List.perm_middle

end Regions

/-! ### What the writes of the page module do to the content -/

namespace Stores

variable {p : Page} {slots : List SlotEntry} {es : List (Nat × Row)} {blocks : List (Nat × Nat)}
  {regions : List (Nat × Nat)} {freeEnd lo : Nat}

/-- Bytes written above the slot directory and off the rows, which may relink the free list
behind its head. -/
lemma write_linked {a : Nat} {bytes : List UInt8} {blocks' : List (Nat × Nat)}
    (h : Stores p slots es blocks freeEnd) (ha : headerSize + slotSize * slots.length ≤ a)
    (hr : ∀ x ∈ es, x.1 + x.2.data.length ≤ a ∨ a + bytes.length ≤ x.1)
    (hh : headOr blocks' u16Max = headOr blocks u16Max)
    (hl : LinkedTo (p.write a bytes) blocks' u16Max) :
    Stores (p.write a bytes) slots es blocks' freeEnd := by
  simp only [headerSize, slotSize] at ha
  have hhead (c : Nat) (hc : c + 2 ≤ 8) : (p.write a bytes).u16At c = p.u16At c :=
    Page.u16At_write_of_disjoint p bytes (by omega)
  refine ⟨(hhead 0 (by omega)).trans h.slotCount, (hhead 2 (by omega)).trans h.freeStart,
    (hhead 4 (by omega)).trans h.freeEnd, ?_, ?_,
    ((hhead 6 (by omega)).trans h.head).trans hh.symm, hl⟩
  · intro i s hs
    have hi : i < slots.length := (List.getElem?_eq_some_iff.mp hs).1
    rw [Page.slice_write_of_disjoint p bytes (by simp only [headerSize, slotSize]; omega)]
    exact h.slot i s hs
  · intro x hx
    rw [Page.slice_write_of_disjoint p bytes (hr x hx)]
    exact h.row x hx

/-- Bytes written above the slot directory, off the rows and off the heads of the free blocks. -/
lemma write_above {a : Nat} {bytes : List UInt8} (h : Stores p slots es blocks freeEnd)
    (ha : headerSize + slotSize * slots.length ≤ a)
    (hr : ∀ x ∈ es, x.1 + x.2.data.length ≤ a ∨ a + bytes.length ≤ x.1)
    (hb : ∀ b ∈ blocks, b.1 + 4 ≤ a ∨ a + bytes.length ≤ b.1) :
    Stores (p.write a bytes) slots es blocks freeEnd :=
  h.write_linked ha hr rfl (h.linked.write hb)

/-- Bytes written into a region that holds neither a row nor a free block. -/
lemma write_region {o n : Nat} {bytes : List UInt8} (h : Stores p slots es blocks freeEnd)
    (hf : Fits slots.length ((o, n) :: regionsOf es blocks) lo) (hn : bytes.length ≤ n) :
    Stores (p.write o bytes) slots es blocks freeEnd := by
  refine h.write_above (hf.bounds List.mem_cons_self).1 (fun x hx => ?_) (fun b hb => ?_)
  · have hap := hf.apart (allocation_mem_regionsOf hx)
    have hle := le_rowAllocationSize x.2.data.length
    simp only [allocation] at hap
    omega
  · have hap := hf.apart (block_mem_regionsOf _ hb)
    have hb4 := (hf.bounds (List.mem_cons_of_mem _ (block_mem_regionsOf _ hb))).2.2.1
    simp only at hap
    omega

/-- A row written into a region of its own. -/
lemma write_row {o n : Nat} {row : Row} (h : Stores p slots es blocks freeEnd)
    (hf : Fits slots.length ((o, n) :: regionsOf es blocks) lo)
    (hn : row.data.length ≤ n) :
    Stores (p.write o row.data) slots ((o, row) :: es) blocks freeEnd := by
  have hw := h.write_region hf hn
  have ho := hf.bounds List.mem_cons_self
  refine ⟨hw.slotCount, hw.freeStart, hw.freeEnd, hw.slot, ?_, hw.head, hw.linked⟩
  intro x hx
  rcases List.mem_cons.mp hx with rfl | hx
  · exact Page.slice_write_self p row.data (by simp only at ho; omega)
  · exact hw.row x hx

/-- Bytes written below every row and every block leave these alone. -/
lemma rows_of_write_below (a : Nat) (bytes : List UInt8) (h : Stores p slots es blocks freeEnd)
    (hf : Fits slots.length regions lo) (hs : regionsOf es blocks ⊆ regions)
    (ha : a + bytes.length ≤ headerSize + slotSize * slots.length) :
    (∀ x ∈ es, (p.write a bytes).slice x.1 x.2.data.length = x.2.data) ∧
      LinkedTo (p.write a bytes) blocks u16Max := by
  constructor
  · intro x hx
    have hb := hf.bounds (hs (allocation_mem_regionsOf hx))
    simp only [allocation] at hb
    rw [Page.slice_write_of_disjoint p bytes (by omega)]
    exact h.row x hx
  · refine h.linked.write (fun b hb => ?_)
    have hb := hf.bounds (hs (block_mem_regionsOf _ hb))
    omega

lemma write_slot {i : Nat} {s : SlotEntry} (h : Stores p slots es blocks freeEnd)
    (hf : Fits slots.length regions lo) (hs : regionsOf es blocks ⊆ regions)
    (hi : i < slots.length) (ho : (slotOf s).offset < 65536) (hl : (slotOf s).length < 65536) :
    Stores (p.write (headerSize + slotSize * i) (slotOf s).toBytes) (slots.set i s) es blocks
      freeEnd := by
  have hlen := Slot.length_toBytes (slotOf s)
  have hdir := hf.directory
  have hend := hf.freeEnd_le
  have hbelow := h.rows_of_write_below (headerSize + slotSize * i) (slotOf s).toBytes hf hs
    (by simp only [slotSize, hlen]; omega)
  have hhead (a : Nat) (ha : a + 2 ≤ 8) :
      (p.write (headerSize + slotSize * i) (slotOf s).toBytes).u16At a = p.u16At a :=
    Page.u16At_write_of_disjoint p _ (by simp only [headerSize]; omega)
  refine ⟨?_, ?_, ?_, ?_, hbelow.1, ?_, hbelow.2⟩
  · rw [Page.slotCount, hhead 0 (by omega), List.length_set]
    exact h.slotCount
  · rw [Page.freeStart, hhead 2 (by omega), List.length_set]
    exact h.freeStart
  · rw [Page.freeEnd, hhead 4 (by omega)]
    exact h.freeEnd
  · intro j t ht
    by_cases hij : i = j
    · subst hij
      rw [List.getElem?_set_self hi, Option.some.injEq] at ht
      subst ht
      have hself := Page.slice_write_self p (slotOf s).toBytes (a := headerSize + slotSize * i)
        (by simp only [headerSize, slotSize] at hdir ⊢; omega)
      rw [hlen] at hself
      change Slot.fromBytes (Page.slice _ _ 4) = _
      rw [hself, Slot.fromBytes_toBytes ho hl]
    · rw [List.getElem?_set_ne hij] at ht
      rw [Page.slice_write_of_disjoint p _ (by simp only [headerSize, slotSize, hlen]; omega)]
      exact h.slot j t ht
  · rw [Page.freeListHead, hhead 6 (by omega)]
    exact h.head

lemma setFreeEnd {v : Nat} (h : Stores p slots es blocks freeEnd)
    (hf : Fits slots.length regions lo) (hs : regionsOf es blocks ⊆ regions)
    (hv : v < 65536) : Stores (Page.setFreeEnd v p) slots es blocks v := by
  have hbelow := h.rows_of_write_below 4 (beBytes 2 v) hf hs
    (by simp only [length_beBytes, headerSize]; omega)
  have hhead (a : Nat) (ha : a + 2 ≤ 4 ∨ 6 ≤ a) :
      (p.write 4 (beBytes 2 v)).u16At a = p.u16At a :=
    Page.u16At_write_of_disjoint p _ (by simp only [length_beBytes]; omega)
  refine ⟨(hhead 0 (by omega)).trans h.slotCount, (hhead 2 (by omega)).trans h.freeStart,
    Page.u16At_write_self p hv (by decide), ?_, hbelow.1, (hhead 6 (by omega)).trans h.head,
    hbelow.2⟩
  intro i s hi
  rw [Page.setFreeEnd, Page.slice_write_of_disjoint p _
    (by simp only [length_beBytes, headerSize]; omega)]
  exact h.slot i s hi

/-- The head of the free list moved to another list of blocks that is linked in the page. -/
lemma setFreeListHead (blocks' : List (Nat × Nat)) (h : Stores p slots es blocks freeEnd)
    (hf : Fits slots.length regions lo) (hs : regionsOf es blocks' ⊆ regions)
    (hl : LinkedTo p blocks' u16Max) :
    Stores (Page.setFreeListHead (headOr blocks' u16Max) p) slots es blocks' freeEnd := by
  have hv : headOr blocks' u16Max < 65536 :=
    hf.headOr_lt fun _ hb => hs (block_mem_regionsOf _ hb)
  have hhead (a : Nat) (ha : a + 2 ≤ 6) :
      (p.write 6 (beBytes 2 (headOr blocks' u16Max))).u16At a = p.u16At a :=
    Page.u16At_write_of_disjoint p _ (by omega)
  refine ⟨(hhead 0 (by omega)).trans h.slotCount, (hhead 2 (by omega)).trans h.freeStart,
    (hhead 4 (by omega)).trans h.freeEnd, ?_, ?_, Page.u16At_write_self p hv (by decide), ?_⟩
  · intro i s hi
    rw [Page.setFreeListHead, Page.slice_write_of_disjoint p _
      (by simp only [length_beBytes, headerSize]; omega)]
    exact h.slot i s hi
  · intro x hx
    have hb := hf.bounds (hs (allocation_mem_regionsOf hx))
    simp only [allocation, headerSize] at hb
    rw [Page.setFreeListHead, Page.slice_write_of_disjoint p _ (by simp only [length_beBytes]; omega)]
    exact h.row x hx
  · refine hl.write (fun b hb => ?_)
    have hb := hf.bounds (hs (block_mem_regionsOf _ hb))
    simp only [headerSize] at hb
    simp only [length_beBytes]
    omega

/-- A slot appended to the directory. -/
lemma add_slot {s : SlotEntry} (h : Stores p slots es blocks freeEnd)
    (hf : Fits (slots.length + 1) regions lo) (hs : regionsOf es blocks ⊆ regions)
    (ho : (slotOf s).offset < 65536) (hl : (slotOf s).length < 65536) :
    Stores (Page.setFreeStart (headerSize + slotSize * slots.length + slotSize)
      (Page.setSlotCount (slots.length + 1)
        (p.write (headerSize + slotSize * slots.length) (slotOf s).toBytes)))
      (slots ++ [s]) es blocks freeEnd := by
  have hdir := hf.directory
  have hend := hf.freeEnd_le
  simp only [headerSize, slotSize, pageSize] at hdir hend
  have hlen := Slot.length_toBytes (slotOf s)
  let q := p.write (headerSize + slotSize * slots.length) (slotOf s).toBytes
  have hu (a : Nat) (ha : 4 ≤ a) (ha' : a + 2 ≤ 8) :
      (Page.setFreeStart (headerSize + slotSize * slots.length + slotSize)
        (Page.setSlotCount (slots.length + 1) q)).u16At a = p.u16At a := by
    rw [Page.setFreeStart, Page.u16At_write_of_disjoint _ _ (by simp only [length_beBytes]; omega),
      Page.setSlotCount, Page.u16At_write_of_disjoint _ _ (by simp only [length_beBytes]; omega)]
    exact Page.u16At_write_of_disjoint p _ (by simp only [headerSize, slotSize]; omega)
  have hslice (a n : Nat) (ha : 8 ≤ a) :
      (Page.setFreeStart (headerSize + slotSize * slots.length + slotSize)
        (Page.setSlotCount (slots.length + 1) q)).slice a n = q.slice a n := by
    rw [Page.setFreeStart, Page.slice_write_of_disjoint _ _ (by simp only [length_beBytes]; omega),
      Page.setSlotCount, Page.slice_write_of_disjoint _ _ (by simp only [length_beBytes]; omega)]
  refine ⟨?_, ?_, (hu 4 (by omega) (by omega)).trans h.freeEnd, ?_, ?_,
    (hu 6 (by omega) (by omega)).trans h.head, ?_⟩
  · rw [Page.slotCount, Page.setFreeStart,
      Page.u16At_write_of_disjoint _ _ (by simp only [length_beBytes]; omega), Page.setSlotCount,
      Page.u16At_write_self _ (by omega) (by decide), List.length_append, List.length_singleton]
  · rw [Page.freeStart, Page.setFreeStart,
      Page.u16At_write_self _ (by simp only [headerSize, slotSize]; omega) (by decide),
      List.length_append, List.length_singleton, Nat.mul_add, Nat.mul_one, Nat.add_assoc]
  · intro i t ht
    rw [hslice _ _ (by simp only [headerSize]; omega)]
    by_cases hi : i < slots.length
    · rw [List.getElem?_append_left hi] at ht
      rw [Page.slice_write_of_disjoint p _ (by simp only [headerSize, slotSize]; omega)]
      exact h.slot i t ht
    · obtain rfl : i = slots.length := by
        have := (List.getElem?_eq_some_iff.mp ht).1
        simp only [List.length_append, List.length_singleton] at this
        omega
      obtain rfl : s = t := by simpa using ht
      have hself := Page.slice_write_self p (slotOf s).toBytes
        (a := headerSize + slotSize * slots.length)
        (by simp only [headerSize, slotSize, pageSize, hlen]; omega)
      rw [hlen] at hself
      change Slot.fromBytes (Page.slice _ _ 4) = _
      rw [hself, Slot.fromBytes_toBytes ho hl]
  · intro x hx
    have hb := hf.bounds (hs (allocation_mem_regionsOf hx))
    simp only [allocation, headerSize, slotSize] at hb
    rw [hslice _ _ (by omega),
      Page.slice_write_of_disjoint p _ (by simp only [headerSize, slotSize, hlen]; omega)]
    exact h.row x hx
  · refine LinkedTo.write (LinkedTo.write (LinkedTo.write h.linked ?_) ?_) ?_ <;>
    · intro b hb
      have hb := hf.bounds (hs (block_mem_regionsOf _ hb))
      simp only [headerSize, slotSize] at hb
      simp only [headerSize, slotSize, length_beBytes, hlen]
      omega

lemma mono (es' : List (Nat × Row)) (h : Stores p slots es blocks freeEnd) (hs : es' ⊆ es) :
    Stores p slots es' blocks freeEnd :=
  ⟨h.slotCount, h.freeStart, h.freeEnd, h.slot, fun x hx => h.row x (hs hx), h.head, h.linked⟩

end Stores

end RdbRs
