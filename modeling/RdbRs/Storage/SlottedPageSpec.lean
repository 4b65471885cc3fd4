import RdbRs.Storage.PageLayout

/-!
# Specifications of the page operations

One lemma for each function of the slotted page: what it returns and what it leaves in the page,
in terms of the layout the page holds.
-/

namespace RdbRs

/-- The rows of a slot directory, without their offsets. -/
def rowsOf (slots : List SlotEntry) : List (Option Row) := slots.map (Option.map Prod.snd)

/-- The slot directory with its rows, the free list and the lower end of the row area. -/
structure Layout where
  slots : List SlotEntry
  blocks : List (Nat × Nat)
  freeEnd : Nat

namespace Layout

def regions (L : Layout) : List (Nat × Nat) := regionsOf (entries L.slots) L.blocks

/-- The page as a map from slots to rows. -/
def rows (L : Layout) : List (Option Row) := rowsOf L.slots

@[simp] lemma length_rows (L : Layout) : L.rows.length = L.slots.length := by simp [rows, rowsOf]

lemma getElem?_rows (L : Layout) (i : Nat) :
    L.rows[i]? = L.slots[i]?.map (Option.map Prod.snd) := by
  simp [rows, rowsOf]

end Layout

/-- The page invariant: the bytes store the layout, and its rows and free blocks tile the row
area. -/
structure Holds (p : Page) (L : Layout) : Prop where
  stores : Stores p L.slots (entries L.slots) L.blocks L.freeEnd
  fits : Fits L.slots.length L.regions L.freeEnd

namespace Holds

variable {p : Page} {L : Layout}

lemma slotOffset_eq (h : Holds p L) {s : SlotId} (hs : s.index < L.slots.length) :
    slotOffset s = .ok (headerSize + slotSize * s.index) := by
  have hd := h.fits.directory
  have he := h.fits.freeEnd_le
  simp only [headerSize, slotSize, pageSize] at hd he
  unfold slotOffset
  exact if_neg (by simp only [headerSize, slotSize, pageSize]; omega)

lemma entry_bounds (h : Holds p L) {i o : Nat} {row : Row} (hi : L.slots[i]? = some (some (o, row))) :
    headerSize + slotSize * L.slots.length ≤ o ∧ L.freeEnd ≤ o ∧
      o + rowAllocationSize row.data.length ≤ pageSize := by
  have hm : (o, row) ∈ entries L.slots := mem_entries.mpr (List.mem_of_getElem? hi)
  have hb := h.fits.bounds (allocation_mem_regionsOf hm)
  exact ⟨hb.1, hb.2.1, hb.2.2.2⟩

lemma readSlot_live (h : Holds p L) {s : SlotId} {o : Nat} {row : Row}
    (hs : L.slots[s.index]? = some (some (o, row))) :
    p.readSlot s = .ok ⟨o, row.data.length⟩ := by
  have hlt : s.index < L.slots.length := (List.getElem?_eq_some_iff.mp hs).1
  have hb := h.entry_bounds hs
  unfold Page.readSlot
  rw [if_neg (by rw [h.stores.slotCount]; omega), h.slotOffset_eq hlt]
  simp only [except_bind_ok, h.stores.slot _ _ hs, slotOf]
  rw [if_neg (by
    simp only [headerSize] at hb
    simp only [Slot.isDeleted, decide_eq_true_eq]
    omega)]

lemma readSlot_dead (h : Holds p L) {s : SlotId} (hs : ∀ x, L.slots[s.index]? ≠ some (some x)) :
    p.readSlot s = .error .slotNotFound := by
  unfold Page.readSlot
  by_cases hlt : s.index < L.slots.length
  · rw [if_neg (by rw [h.stores.slotCount]; omega), h.slotOffset_eq hlt]
    obtain ⟨t, ht⟩ : ∃ t, L.slots[s.index]? = some t := ⟨_, List.getElem?_eq_getElem hlt⟩
    cases t with
    | none =>
      simp only [except_bind_ok, h.stores.slot _ _ ht, slotOf, Slot.tombstone, Slot.isDeleted,
        and_self, decide_true, if_true]
    | some x => exact absurd ht (hs x)
  · rw [if_pos (by rw [h.stores.slotCount]; omega)]

lemma readRow_live (h : Holds p L) {s : SlotId} {o : Nat} {row : Row}
    (hs : L.slots[s.index]? = some (some (o, row))) : p.readRow s = .ok row := by
  have hb := h.entry_bounds hs
  have hle := le_rowAllocationSize row.data.length
  have hm : (o, row) ∈ entries L.slots := mem_entries.mpr (List.mem_of_getElem? hs)
  unfold Page.readRow
  rw [h.readSlot_live hs]
  simp only [except_bind_ok]
  rw [if_neg (by rw [h.stores.freeEnd]; omega),
    h.stores.row _ hm]

lemma readRow_dead (h : Holds p L) {s : SlotId} (hs : ∀ x, L.slots[s.index]? ≠ some (some x)) :
    p.readRow s = .error .slotNotFound := by
  unfold Page.readRow
  rw [h.readSlot_dead hs]
  rfl

/-- Reading a slot is looking it up in the layout. -/
lemma readRow_eq (h : Holds p L) (s : SlotId) :
    p.readRow s = match L.rows[s.index]? with
      | some (some row) => .ok row
      | _ => .error .slotNotFound := by
  rw [Layout.getElem?_rows]
  rcases hs : L.slots[s.index]? with _ | _ | x
  · exact h.readRow_dead (by simp [hs])
  · exact h.readRow_dead (by simp [hs])
  · exact h.readRow_live hs

lemma length_slots_lt (h : Holds p L) : L.slots.length < 2047 := by
  have hd := h.fits.directory
  have he := h.fits.freeEnd_le
  simp only [headerSize, slotSize, pageSize] at hd he
  omega

end Holds

/-- The live rows of the slots from `idx` on, in slot order. -/
def liveFrom (idx : Nat) : List (Option Row) → List (SlotId × Row)
  | [] => []
  | none :: rest => liveFrom (idx + 1) rest
  | some row :: rest => (SlotId.new idx, row) :: liveFrom (idx + 1) rest

namespace Holds

variable {p : Page} {L : Layout}

lemma scanFrom_eq (h : Holds p L) (idx : Nat) (todo : List (Option Row))
    (ht : L.rows.drop idx = todo) : p.scanFrom idx todo.length = .ok (liveFrom idx todo) := by
  have hn := h.length_slots_lt
  induction todo generalizing idx with
  | nil => rfl
  | cons r rest ih =>
    have hidx : L.rows[idx]? = some r := by
      rw [← List.head?_drop, ht]
      rfl
    have hlt : idx < L.slots.length := by
      have := (List.getElem?_eq_some_iff.mp hidx).1
      simpa using this
    have hrest : L.rows.drop (idx + 1) = rest := by
      rw [← List.drop_drop, ht]
      rfl
    have hread := h.readRow_eq (SlotId.new idx)
    rw [SlotId.index_new (by omega), hidx] at hread
    rw [List.length_cons, Page.scanFrom, hread]
    cases r with
    | none => exact ih (idx + 1) hrest
    | some row =>
      simp only [ih (idx + 1) hrest]
      rfl

lemma scanRows_eq (h : Holds p L) : p.scanRows = .ok (liveFrom 0 L.rows) := by
  rw [Page.scanRows, h.stores.slotCount, ← L.length_rows]
  exact h.scanFrom_eq 0 L.rows rfl

/-- The first tombstone of the slots from `idx` on. -/
lemma findTombstoneFrom_eq (h : Holds p L) (idx : Nat) (todo : List SlotEntry)
    (ht : L.slots.drop idx = todo) :
    p.findTombstoneFrom idx todo.length =
      .ok ((todo.findIdx? (· == none)).map fun i => SlotId.new (idx + i)) := by
  have hn := h.length_slots_lt
  induction todo generalizing idx with
  | nil => rfl
  | cons s rest ih =>
    have hidx : L.slots[idx]? = some s := by
      rw [← List.head?_drop, ht]
      rfl
    have hlt : idx < L.slots.length := (List.getElem?_eq_some_iff.mp hidx).1
    have hrest : L.slots.drop (idx + 1) = rest := by
      rw [← List.drop_drop, ht]
      rfl
    have hi : (SlotId.new idx).index = idx := SlotId.index_new (by omega)
    have hslot := h.stores.slot _ _ hidx
    rw [List.length_cons, Page.findTombstoneFrom, h.slotOffset_eq (by rw [hi]; exact hlt), hi]
    simp only [except_bind_ok, hslot]
    cases s with
    | none => simp [slotOf, Slot.tombstone, Slot.isDeleted, List.findIdx?_cons]
    | some x =>
      obtain ⟨o, row⟩ := x
      have hb := h.entry_bounds hidx
      have ho : o ≠ 0 := by
        simp only [headerSize] at hb
        omega
      rw [if_neg (by simp [slotOf, Slot.isDeleted, ho]), ih (idx + 1) hrest]
      simp [List.findIdx?_cons, Nat.add_assoc, Nat.add_comm 1, Function.comp_def]

end Holds

/-! ### Free list -/

section FreeList

variable {p : Page} {slots : List SlotEntry} {es : List (Nat × Row)} {blocks : List (Nat × Nat)}
  {regions : List (Nat × Nat)} {freeEnd : Nat}

lemma Stores.freeSpace_eq (h : Stores p slots es blocks freeEnd)
    (hf : Fits slots.length regions freeEnd) :
    p.freeSpace = .ok (freeEnd - (headerSize + slotSize * slots.length)) := by
  have hd := hf.directory
  rw [Page.freeSpace, h.freeStart, h.freeEnd, if_neg (by omega)]

lemma Stores.freeBlockOffset_eq (h : Stores p slots es blocks freeEnd) {o n : Nat}
    (hf : Fits slots.length ((o, n) :: regions) freeEnd) : p.freeBlockOffset o = .ok o := by
  have hb := hf.bounds List.mem_cons_self
  simp only [pageSize] at hb
  rw [Page.freeBlockOffset, h.freeEnd, if_neg (by simp only [freeBlockSize, pageSize, u16Max]; omega)]

lemma Fits.of_mem {n : Nat} {b : Nat × Nat} (hf : Fits n regions freeEnd) (hb : b ∈ regions) :
    ∃ rest, Fits n (b :: rest) freeEnd := by
  obtain ⟨pre, post, rfl⟩ := List.append_of_mem hb
  exact ⟨pre ++ post, hf.perm List.perm_middle⟩

lemma Stores.readFreeBlock_eq {pre post : List (Nat × Nat)} {o n : Nat}
    (h : Stores p slots es (pre ++ (o, n) :: post) freeEnd)
    (hf : Fits slots.length (regionsOf es (pre ++ (o, n) :: post)) freeEnd) :
    p.readFreeBlock o = .ok ⟨headOr post u16Max, n⟩ := by
  obtain ⟨rest, hrest⟩ := hf.of_mem (block_mem_regionsOf _ (b := (o, n)) (by simp))
  rw [Page.readFreeBlock, h.freeBlockOffset_eq hrest]
  exact congrArg Except.ok (linkedTo_append.mp h.linked).2.1

/-- The offset of the last block of a list. -/
def lastOffset (pre : List (Nat × Nat)) : Option Nat := pre.getLast?.map Prod.fst

/-- The walk finds the first block that is large enough, with its predecessor, or reaches the end
of the list. -/
lemma Stores.findFreeBlockLoop_eq (pre : List (Nat × Nat)) {todo : List (Nat × Nat)}
    {required fuel : Nat}
    (h : Stores p slots es (pre ++ todo) freeEnd)
    (hf : Fits slots.length (regionsOf es (pre ++ todo)) freeEnd) (hfuel : todo.length < fuel) :
    ((Page.findFreeBlockLoop required fuel (headOr todo u16Max) (lastOffset pre)).run p = .ok none p ∧
      ∀ b ∈ todo, b.2 < required) ∨
    ∃ mid o n post, todo = mid ++ (o, n) :: post ∧ required ≤ n ∧ (∀ b ∈ mid, b.2 < required) ∧
      (Page.findFreeBlockLoop required fuel (headOr todo u16Max) (lastOffset pre)).run p =
        .ok (some (o, lastOffset (pre ++ mid), ⟨headOr post u16Max, n⟩)) p := by
  induction todo generalizing pre fuel with
  | nil =>
    obtain ⟨fuel, rfl⟩ : ∃ k, fuel = k + 1 := ⟨fuel - 1, by simp at hfuel; omega⟩
    left
    simp [Page.findFreeBlockLoop, headOr]
  | cons b rest ih =>
    obtain ⟨o, n⟩ := b
    obtain ⟨fuel, rfl⟩ : ∃ k, fuel = k + 1 := ⟨fuel - 1, by omega⟩
    have hread := h.readFreeBlock_eq hf
    have ho : o ≠ u16Max := by
      have hb := hf.bounds (block_mem_regionsOf _ (b := (o, n)) (by simp))
      simp only [pageSize, u16Max] at hb ⊢
      omega
    have hstep : (Page.findFreeBlockLoop required (fuel + 1) o (lastOffset pre)).run p =
        if required ≤ n then .ok (some (o, lastOffset pre, ⟨headOr rest u16Max, n⟩)) p
        else (Page.findFreeBlockLoop required fuel (headOr rest u16Max) (some o)).run p := by
      simp only [Page.findFreeBlockLoop, if_neg ho, Exec.run_bind, Exec.run_query, hread,
        Outcome.andThen_ok, Exec.run_ite, Exec.run_pure, ge_iff_le]
    have hhead : headOr ((o, n) :: rest) u16Max = o := rfl
    rw [hhead, hstep]
    by_cases hn : required ≤ n
    · right
      exact ⟨[], o, n, rest, rfl, hn, by simp, by simp [if_pos hn]⟩
    · rw [if_neg hn]
      have hlast : some o = lastOffset (pre ++ [(o, n)]) := by simp [lastOffset]
      have happ : pre ++ (o, n) :: rest = (pre ++ [(o, n)]) ++ rest := by simp
      rw [happ] at h hf
      rw [hlast]
      rcases ih _ h hf (by simpa using hfuel) with ⟨hnone, hall⟩ | ⟨mid, o', n', post, hr, hn', hm, hrun⟩
      · left
        refine ⟨hnone, fun b hb => ?_⟩
        rcases List.mem_cons.mp hb with rfl | hb
        · omega
        · exact hall b hb
      · right
        refine ⟨(o, n) :: mid, o', n', post, by simp [hr], hn', ?_, by simpa using hrun⟩
        intro b hb
        rcases List.mem_cons.mp hb with rfl | hb
        · omega
        · exact hm b hb

/-- There are fewer blocks than bytes. -/
lemma Fits.length_lt {n : Nat} (hf : Fits n regions freeEnd) : regions.length < pageSize := by
  have hsum := hf.tiles.sum_eq
  have hd := hf.directory
  have hle : regions.length * 4 ≤ (regions.map Prod.snd).sum := by
    have h4 : ∀ b ∈ regions, 4 ≤ b.2 := fun b hb => (hf.bounds hb).2.2.1
    clear hsum hf
    induction regions with
    | nil => simp
    | cons b rest ih =>
      have := ih (fun c hc => h4 c (List.mem_cons_of_mem _ hc))
      have := h4 b List.mem_cons_self
      simp only [List.length_cons, List.map_cons, List.sum_cons]
      omega
  simp only [headerSize, pageSize] at *
  omega

/-- The first block of at least `required` bytes. -/
lemma Stores.findFreeBlock_eq (required : Nat) (h : Stores p slots es blocks freeEnd)
    (hf : Fits slots.length (regionsOf es blocks) freeEnd) :
    ((Page.findFreeBlock required).run p = .ok none p ∧ ∀ b ∈ blocks, b.2 < required) ∨
    ∃ pre o n post, blocks = pre ++ (o, n) :: post ∧ required ≤ n ∧ (∀ b ∈ pre, b.2 < required) ∧
      (Page.findFreeBlock required).run p =
        .ok (some (o, lastOffset pre, ⟨headOr post u16Max, n⟩)) p := by
  have hlen : blocks.length < pageSize := by
    have := hf.length_lt
    rw [regionsOf, List.length_append] at this
    omega
  have hrun : (Page.findFreeBlock required).run p =
      (Page.findFreeBlockLoop required pageSize (headOr blocks u16Max) (lastOffset [])).run p := by
    simp only [Page.findFreeBlock, Exec.run_bind, Exec.run_gets, Outcome.andThen_ok, h.head]
    rfl
  rw [hrun]
  exact Stores.findFreeBlockLoop_eq [] h hf hlen

end FreeList

end RdbRs
