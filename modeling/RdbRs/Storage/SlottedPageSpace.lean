import RdbRs.Storage.SlottedPageRuns
import RdbRs.Tuple.Tuple

/-!
# The space of a slotted page

When a row finds room. An insertion uses every byte that is not taken by the header, the slot
directory or a live row. An update needs room for the new row beside the old one, unless it takes
the place of the old one. The length of a row of 64 KiB or more is truncated on its way to the
free list.
-/

namespace RdbRs

/-- The bytes the slot directory assigns to the live rows. -/
def Page.liveSpace (p : Page) : Nat := ((allocations p).map Prod.snd).sum

/-- Whether a slot of the directory holds no row. -/
def Page.hasDeletedSlot (p : Page) : Bool :=
  (List.range p.slotCount).any fun i =>
    match p.readSlot (SlotId.new i) with
    | .error .slotNotFound => true
    | _ => false

section Layouts

variable {p : Page} {L : Layout}

lemma Holds.liveSpace_eq (h : Holds p L) : p.liveSpace = rowSpace L.slots := by
  rw [Page.liveSpace, h.allocations_eq, List.map_map]
  rfl

lemma Holds.room_iff (h : Holds p L) (n : Nat) :
    L.Room L.slots.length n ↔ n + p.liveSpace ≤ pageSize - p.freeStart := by
  have hd := h.fits.directory
  have hend := h.fits.freeEnd_le
  rw [h.liveSpace_eq, h.stores.freeStart]
  unfold Layout.Room
  omega

lemma Holds.hasDeletedSlot_iff (h : Holds p L) : p.hasDeletedSlot = true ↔ none ∈ L.slots := by
  have hn := h.length_slots_lt
  rw [Page.hasDeletedSlot, List.any_eq_true, h.stores.slotCount, List.mem_iff_getElem?]
  constructor
  · intro ⟨i, hi, hdeleted⟩
    have hlt := List.mem_range.mp hi
    have hidx : (SlotId.new i).index = i := SlotId.index_new (by omega)
    refine ⟨i, ?_⟩
    cases hs : L.slots[i] with
    | none => rw [List.getElem?_eq_getElem hlt, hs]
    | some x =>
      have hlive : L.slots[(SlotId.new i).index]? = some (some x) := by
        rw [hidx, List.getElem?_eq_getElem hlt, hs]
      rw [h.readSlot_live hlive] at hdeleted
      cases hdeleted
  · intro ⟨i, hi⟩
    have hlt := (List.getElem?_eq_some_iff.mp hi).1
    have hidx : (SlotId.new i).index = i := SlotId.index_new (by omega)
    refine ⟨i, List.mem_range.mpr hlt, ?_⟩
    rw [h.readSlot_dead (by simp [hidx, hi])]

end Layouts

/-! ### Insertion -/

/-- Whether a row finds room beside the live rows, with a slot of its own if none is deleted. -/
def Page.InsertFits (p : Page) (row : Row) : Prop :=
  rowAllocationSize row.data.length ≤ 8180 ∧
    rowAllocationSize row.data.length + (if p.hasDeletedSlot then 0 else slotSize) ≤
      pageSize - p.freeStart - p.liveSpace

section Insert

variable {p : Page} {m : SlotId → Option Row} {L : Layout} {t : Option SlotId}

lemma Holds.insertFits_iff (row : Row) (h : Holds p L) (ht : t.isSome ↔ none ∈ L.slots) :
    p.InsertFits row ↔ rowAllocationSize row.data.length ≤ pageSize - headerSize - slotSize ∧
      L.Room (slotsAfter L.slots t) (rowAllocationSize row.data.length) := by
  have hd := h.fits.directory
  have hend := h.fits.freeEnd_le
  have hspace := h.fits.rowSpace_add
  have hpos := rowAllocationSize_pos row.data.length
  have hslots : headerSize + slotSize * slotsAfter L.slots t =
      headerSize + slotSize * L.slots.length + if p.hasDeletedSlot then 0 else slotSize := by
    rw [slotsAfter]
    by_cases hsome : t.isSome
    · rw [if_pos hsome, if_pos (h.hasDeletedSlot_iff.mpr (ht.mp hsome)), Nat.add_zero]
    · have hnot : ¬ p.hasDeletedSlot := fun hdeleted => hsome (ht.mpr (h.hasDeletedSlot_iff.mp hdeleted))
      rw [if_neg hsome, if_neg hnot, Nat.mul_add, Nat.mul_one, Nat.add_assoc]
  rw [Page.InsertFits, Layout.Room, hslots, h.liveSpace_eq, h.stores.freeStart]
  simp only [pageSize, headerSize, slotSize] at *
  constructor
  · rintro ⟨hlen, hroom⟩
    exact ⟨hlen, by omega⟩
  · rintro ⟨hlen, hroom⟩
    exact ⟨hlen, by omega⟩

/-- A row of at most 8180 bytes is stored, or the page is full. -/
lemma PageRun.insertRow_short {row : Row} (h : PageRun p m) (hlen : rowAllocationSize row.data.length ≤ 8180) :
    (∃ s q, (Page.insertRow row).run p = .ok s q) ∨ ∃ q, (Page.insertRow row).run p = .err .storageFull q := by
  obtain ⟨L, hL, -⟩ := h.holds
  obtain ⟨t, hfind, ht, -⟩ := hL.findTombstoneSlotId_eq
  apply (hL.insertRow_cases row ht hfind hlen).imp
  · rintro ⟨-, s, q, -, hrun, -⟩
    exact ⟨s, q, hrun⟩
  · rintro ⟨-, q, -, hrun, -⟩
    exact ⟨q, hrun⟩

/-- A new page takes every such row. -/
lemma insertRow_new {row : Row} (h : rowAllocationSize row.data.length ≤ 8180) :
    ∃ s q, (Page.insertRow row).run Page.new = .ok s q := by
  obtain ⟨t, hfind, ht, hsome⟩ := holds_new.findTombstoneSlotId_eq
  cases holds_new.insertRow_cases row ht hfind h with
  | inl hok =>
    obtain ⟨-, s, q, -, hrun, -⟩ := hok
    exact ⟨s, q, hrun⟩
  | inr hfull =>
    have hnone : ¬ t.isSome := fun ht => by simpa using hsome.mp ht
    have hspace : rowSpace [] = 0 := rfl
    apply absurd _ hfull.1
    rw [slotsAfter, if_neg hnone]
    simp only [Layout.Room, List.length_nil, hspace, pageSize, headerSize, slotSize]
    omega

/-- An insertion succeeds exactly if there is room for the row, and an insertion that does not
changes no row. -/
theorem insertRow_ok_iff_fits (h : PageRun p m) (row : Row) :
    ((∃ s q, (Page.insertRow row).run p = .ok s q) ↔ p.InsertFits row) ∧
    (¬ p.InsertFits row → ∃ e q, (Page.insertRow row).run p = .err e q ∧
      (e = .rowTooLarge ∨ e = .storageFull) ∧ ∀ s, q.readRow s = p.readRow s) := by
  have ⟨L, hL, hm⟩ := h.holds
  have ⟨t, hfind, ht, hsome⟩ := hL.findTombstoneSlotId_eq
  rw [hL.insertFits_iff row hsome]
  by_cases hlen : rowAllocationSize row.data.length ≤ pageSize - headerSize - slotSize
  · cases hL.insertRow_cases row ht hfind hlen with
    | inl hok =>
      have ⟨hroom, s, q, L', hrun, _⟩ := hok
      constructor
      · exact iff_of_true ⟨s, q, hrun⟩ ⟨hlen, hroom⟩
      · intro hnot
        exact absurd ⟨hlen, hroom⟩ hnot
    | inr hfull =>
      have ⟨hroom, q, L', hrun, hq, hrows⟩ := hfull
      constructor
      · apply iff_of_false
        · intro ⟨s, q', hok⟩
          rw [hrun] at hok
          cases hok
        · exact fun hfits => hroom hfits.2
      · intro _
        refine ⟨.storageFull, q, hrun, .inr rfl, fun s => ?_⟩
        rw [hq.readRow_eq, hL.readRow_eq, hrows]
  · have hrun := hL.insertRow_tooLarge (Nat.not_le.mp hlen)
    constructor
    · apply iff_of_false
      · intro ⟨s, q', hok⟩
        rw [hrun] at hok
        cases hok
      · exact fun hfits => hlen hfits.1
    · intro _
      exact ⟨.rowTooLarge, p, hrun, .inl rfl, fun s => rfl⟩

/-- A new page has room for a row of 8180 bytes and for none of 8181. -/
theorem insertRow_ok_iff_fits_new :
    (∃ s q, (Page.insertRow ⟨List.replicate 8180 1⟩).run Page.new = .ok s q) ∧
    ∃ e q, (Page.insertRow ⟨List.replicate 8181 1⟩).run Page.new = .err e q ∧
      (e = .rowTooLarge ∨ e = .storageFull) ∧ ∀ s, q.readRow s = Page.new.readRow s := by
  have hsome : (none : Option SlotId).isSome ↔ none ∈ (⟨[], [], pageSize⟩ : Layout).slots := by simp
  constructor
  · apply (insertRow_ok_iff_fits PageRun.new _).1.mpr
    rw [holds_new.insertFits_iff _ hsome, List.length_replicate]
    decide
  · apply (insertRow_ok_iff_fits PageRun.new _).2
    rw [holds_new.insertFits_iff _ hsome, List.length_replicate]
    decide

end Insert

/-! ### Update -/

/-- Whether an update finds room for a row, in the place of the old one or beside it. -/
def Page.UpdateFits (p : Page) (old row : Row) : Prop :=
  rowAllocationSize row.data.length ≤ rowAllocationSize old.data.length ∨
    rowAllocationSize row.data.length + p.liveSpace ≤ pageSize - p.freeStart

section Update

variable {p : Page} {m : SlotId → Option Row} {L : Layout} {s : SlotId} {old row : Row}

lemma slot_of_lookup (h : lookup L.rows s = some old) : ∃ o, L.slots[s.index]? = some (some (o, old)) := by
  rw [lookup, Layout.getElem?_rows] at h
  cases hs : L.slots[s.index]? with
  | none => simp [hs] at h
  | some entry =>
    cases entry with
    | none => simp [hs] at h
    | some x =>
      rw [hs] at h
      cases h
      exact ⟨x.1, rfl⟩

lemma not_truncated_of_length_le (h : row.data.length ≤ 8180) : ¬ Truncated L row := by
  apply not_truncated_of_le
  rw [rowAllocationSize_eq, u16Max]
  split <;> omega

/-- An update that has room for its row succeeds, and one that has not changes no row. -/
theorem updateRow_ok_iff_fits (h : PageRun p m) (hs : m s = some old) (hlen : row.data.length ≤ 8180) :
    ((∃ q, (Page.updateRow s row).run p = .ok () q ∧ q.readRow s = .ok row) ↔ p.UpdateFits old row) ∧
    (¬ p.UpdateFits old row → ∃ q, (Page.updateRow s row).run p = .err .storageFull q ∧
      ∀ t, q.readRow t = p.readRow t) := by
  have ⟨L, hL, hm⟩ := h.holds
  rw [← hm] at hs
  have ⟨o, hslot⟩ := slot_of_lookup hs
  rw [Page.UpdateFits, ← hL.room_iff]
  cases hL.updateRow_cases row hslot with
  | inl hpanic => exact absurd hpanic.1 (not_truncated_of_length_le hlen)
  | inr hcases =>
    cases hcases.2 with
    | inl hok =>
      have ⟨hfits, q, hrun, L', hq, hrows⟩ := hok
      constructor
      · apply iff_of_true _ hfits
        refine ⟨q, hrun, ?_⟩
        rw [hq.readRow_eq_lookup, hrows, Function.update_self]
      · intro hnot
        exact absurd hfits hnot
    | inr hfull =>
      have ⟨hnot, q, L', hrun, hq, hrows⟩ := hfull
      constructor
      · apply iff_of_false _ hnot
        intro ⟨q', hok, _⟩
        rw [hrun] at hok
        cases hok
      · intro _
        refine ⟨q, hrun, fun t => ?_⟩
        rw [hq.readRow_eq, hL.readRow_eq, hrows]

/-- A row of three bytes becomes one of five. -/
theorem updateRow_ok_iff_fits_inserted : ∃ p q,
    (PageCall.insertRow ⟨[1, 2, 3]⟩).exec.run Page.new = .ok (some (SlotId.new 0)) p ∧
    (Page.updateRow (SlotId.new 0) ⟨[1, 2, 3, 4, 5]⟩).run p = .ok () q ∧
      q.readRow (SlotId.new 0) = .ok ⟨[1, 2, 3, 4, 5]⟩ := by
  have h : PageRun _ _ := @PageRun.ok _ _ _ (.insertRow ⟨[1, 2, 3]⟩) _ PageRun.new rfl
  have hold : ((PageCall.insertRow ⟨[1, 2, 3]⟩).after (some (SlotId.new Page.new.slotCount))
      fun _ => none) (SlotId.new 0) = some ⟨[1, 2, 3]⟩ := rfl
  have hlen : (⟨[1, 2, 3, 4, 5]⟩ : Row).data.length ≤ 8180 := by decide
  have ⟨q, hrun, hread⟩ := (updateRow_ok_iff_fits h hold hlen).1.mpr (.inr (by decide))
  exact ⟨_, q, rfl, hrun, hread⟩

/-- A row of 4100 bytes alone on a page cannot become one of 4104 bytes: there is room for either of
them, but not for both. -/
theorem updateRow_keepsOldRow :
    let old : Row := ⟨List.replicate 4100 1⟩
    let row : Row := ⟨List.replicate 4104 1⟩
    ∃ (p : Page) (m : SlotId → Option Row) (s : SlotId), PageRun p m ∧ m s = some old ∧
      row.data.length ≤ 8180 ∧
      rowAllocationSize row.data.length + (p.liveSpace - rowAllocationSize old.data.length) ≤
        pageSize - p.freeStart ∧
      ∀ q, (Page.updateRow s row).run p ≠ .ok () q := by
  intro old row
  have hold : rowAllocationSize old.data.length = 4100 := by rw [List.length_replicate]; rfl
  have hlen : row.data.length ≤ 8180 := by rw [List.length_replicate]; omega
  have hrow : rowAllocationSize row.data.length = 4104 := by rw [List.length_replicate]; rfl
  clear_value old row
  have ht : IsTombstone (⟨[], [], pageSize⟩ : Layout).slots none := by
    intro s hs
    cases hs
  have hroom : (⟨[], [], pageSize⟩ : Layout).Room (slotsAfter [] none) (rowAllocationSize old.data.length) := by
    rw [hold]
    decide
  have hinsert := holds_new.insertRow_cases old ht rfl (by rw [hold]; decide)
  cases hinsert with
  | inr hfull => exact absurd hroom hfull.1
  | inl hok =>
    obtain ⟨_, s, p, L, hrun, hL, hgrown⟩ := hok
    have hexec : (PageCall.insertRow old).exec.run Page.new = .ok (some s) p := by
      rw [PageCall.exec, Exec.run_bind, hrun]
      rfl
    have hslots : L.slots.length ≤ 1 := hgrown.slots
    have hspace : rowSpace L.slots = 4100 := by
      rw [hgrown.space, hold]
      rfl
    have hlookup : lookup L.rows s = some old := by rw [hgrown.rows, Function.update_self]
    obtain ⟨o, hslot⟩ := slot_of_lookup hlookup
    refine ⟨p, _, s, PageRun.ok PageRun.new hexec, ?_, hlen, ?_, ?_⟩
    · rw [after_some, Function.update_self]
      rfl
    · rw [hL.liveSpace_eq, hL.stores.freeStart, hspace, hold, hrow]
      simp only [pageSize, headerSize, slotSize]
      omega
    · intro q hq
      cases hL.updateRow_cases row hslot with
      | inl hpanic =>
        rw [hpanic.2] at hq
        cases hq
      | inr hcases =>
        cases hcases.2 with
        | inl hfits =>
          have hnot := hfits.1
          rw [hrow, hold, Layout.Room, hspace] at hnot
          simp only [pageSize, headerSize] at hnot
          omega
        | inr hfull =>
          obtain ⟨_, q', _, herr, _⟩ := hfull
          rw [herr] at hq
          cases hq

/-! ### Lengths of 64 KiB and more -/

lemma FreeList.unique {offset : Nat} {blocks blocks' : List (Nat × Nat)} (h : FreeList p offset blocks)
    (h' : FreeList p offset blocks') : blocks = blocks' := by
  induction h generalizing blocks' with
  | nil =>
    cases h' with
    | nil => rfl
    | cons hne => exact absurd rfl hne
  | cons hne hread _ _ ih =>
    cases h' with
    | nil => exact absurd rfl hne
    | cons _ hread' hrest _ =>
      rw [hread] at hread'
      cases hread'
      rw [ih hrest]

lemma Holds.freeList_iff (h : Holds p L) (blocks : List (Nat × Nat)) :
    FreeList p p.freeListHead blocks ↔ blocks = L.blocks := by
  have hlist : FreeList p p.freeListHead L.blocks := by
    rw [h.stores.head]
    exact Stores.freeList [] L.blocks h.stores h.fits
  constructor
  · intro hblocks
    exact hblocks.unique hlist
  · intro heq
    rw [heq]
    exact hlist

/-- The search of the free list finds for the narrowed length what it would find for the length. -/
def SameSearch (p : Page) (row : Row) : Prop :=
  (Page.findFreeBlock (asU16 (rowAllocationSize row.data.length))).run p =
    (Page.findFreeBlock (rowAllocationSize row.data.length)).run p

lemma Holds.sameSearch (h : Holds p L) (hnot : ¬ Truncated L row) : SameSearch p row := by
  unfold SameSearch
  by_cases hle : rowAllocationSize row.data.length ≤ u16Max
  · rw [asU16, Nat.mod_eq_of_lt (by rw [u16Max] at hle; omega)]
  · have hgt := Nat.not_le.mp hle
    have hnone : (Page.findFreeBlock (asU16 (rowAllocationSize row.data.length))).run p = .ok none p := by
      cases h.stores.findFreeBlock_eq (asU16 (rowAllocationSize row.data.length)) h.fits with
      | inl hnone => exact hnone.1
      | inr hsome =>
        obtain ⟨pre, o, n, post, hblocks, hn, _⟩ := hsome
        exact absurd ⟨hgt, (o, n), by simp [hblocks], hn⟩ hnot
    rw [hnone]
    cases h.stores.findFreeBlock_eq (rowAllocationSize row.data.length) h.fits with
    | inl hnone' => exact hnone'.1.symm
    | inr hsome =>
      obtain ⟨pre, o, n, post, hblocks, hn, _⟩ := hsome
      have hb := h.fits.bounds (block_mem_regionsOf (entries L.slots) (b := (o, n)) (by simp [hblocks]))
      simp only [pageSize, u16Max] at hb hgt
      omega

/-- An update of a live row returns unless the length of the new row, truncated to sixteen bits, fits
a free block. -/
theorem updateRow_returns_iff (h : PageRun p m) (hs : m s = some old) (row : Row) :
    ((∃ q, (Page.updateRow s row).run p = .ok () q ∨ ∃ e, (Page.updateRow s row).run p = .err e q) ∧
      SameSearch p row) ↔
    (rowAllocationSize row.data.length ≤ u16Max ∨
      ∀ blocks, FreeList p p.freeListHead blocks →
        ∀ b ∈ blocks, b.2 < asU16 (rowAllocationSize row.data.length)) := by
  have ⟨L, hL, hm⟩ := h.holds
  rw [← hm] at hs
  have ⟨o, hslot⟩ := slot_of_lookup hs
  have hcondition : (rowAllocationSize row.data.length ≤ u16Max ∨
      ∀ blocks, FreeList p p.freeListHead blocks →
        ∀ b ∈ blocks, b.2 < asU16 (rowAllocationSize row.data.length)) ↔ ¬ Truncated L row := by
    rw [Truncated, not_and_or, Nat.not_lt]
    simp only [hL.freeList_iff, forall_eq, not_exists, not_and, Nat.not_le]
  rw [hcondition]
  cases hL.updateRow_cases row hslot with
  | inl hpanic =>
    apply iff_of_false
    · intro ⟨⟨q, hreturns⟩, _⟩
      rw [hpanic.2] at hreturns
      cases hreturns with
      | inl hok => cases hok
      | inr herr =>
        have ⟨e, herr⟩ := herr
        cases herr
    · exact fun hnot => hnot hpanic.1
  | inr hcases =>
    apply iff_of_true _ hcases.1
    refine ⟨?_, hL.sameSearch hcases.1⟩
    cases hcases.2 with
    | inl hok =>
      have ⟨_, q, hrun, _⟩ := hok
      exact ⟨q, .inl hrun⟩
    | inr hfull =>
      have ⟨_, q, _, hrun, _⟩ := hfull
      exact ⟨q, .inr ⟨_, hrun⟩⟩

/-- A row of five bytes on a page with a row of three. -/
theorem updateRow_returns_iff_inserted : ∃ p,
    (PageCall.insertRow ⟨[1, 2, 3]⟩).exec.run Page.new = .ok (some (SlotId.new 0)) p ∧
    (∃ q, (Page.updateRow (SlotId.new 0) ⟨[1, 2, 3, 4, 5]⟩).run p = .ok () q ∨
      ∃ e, (Page.updateRow (SlotId.new 0) ⟨[1, 2, 3, 4, 5]⟩).run p = .err e q) ∧
        SameSearch p ⟨[1, 2, 3, 4, 5]⟩ := by
  have h : PageRun _ _ := @PageRun.ok _ _ _ (.insertRow ⟨[1, 2, 3]⟩) _ PageRun.new rfl
  have hold : ((PageCall.insertRow ⟨[1, 2, 3]⟩).after (some (SlotId.new Page.new.slotCount))
      fun _ => none) (SlotId.new 0) = some ⟨[1, 2, 3]⟩ := rfl
  exact ⟨_, rfl, (updateRow_returns_iff h hold ⟨[1, 2, 3, 4, 5]⟩).mpr (.inl (by decide))⟩

/-- The row of one text. -/
lemma encode_text {text name : String} {id : ColumnId} (h : (utf8Bytes text).length ≤ u16Max) :
    Tuple.encode [.varchar text] [⟨id, name, .varchar⟩] =
      .ok ⟨Tuple.notNullMarker :: (beBytes 2 (utf8Bytes text).length ++ utf8Bytes text)⟩ := by
  rw [Tuple.encode, if_neg (by simp)]
  simp [Tuple.encodeValues, Tuple.encodeValue, h]

/-- A text of 65535 bytes is a row of 65538, for which any free block is large enough. -/
theorem updateRow_truncatedLength : ∃ (p : Page) (m : SlotId → Option Row) (row : Row),
    PageRun p m ∧ m (SlotId.new 1) = some ⟨[2]⟩ ∧
    Tuple.encode [.varchar (String.ofList (List.replicate 65535 'x'))] [⟨⟨1⟩, "name", .varchar⟩] =
      .ok row ∧
    (Page.updateRow (SlotId.new 1) row).run p = .panic := by
  have hbytes : (utf8Bytes (String.ofList (List.replicate 65535 'x'))).length = 65535 :=
    length_utf8Bytes_replicate (by decide) _
  have hfits : (utf8Bytes (String.ofList (List.replicate 65535 'x'))).length ≤ u16Max := by
    rw [hbytes]
    rfl
  have h0 : PageRun _ _ := @PageRun.ok _ _ _ (.insertRow ⟨[1]⟩) _ PageRun.new rfl
  have h1 : PageRun _ _ := @PageRun.ok _ _ _ (.insertRow ⟨[2]⟩) _ h0 rfl
  have h2 : PageRun _ _ := @PageRun.ok _ _ _ (.deleteRow (SlotId.new 0)) _ h1 rfl
  refine ⟨_, _, _, h2, rfl, encode_text hfits, ?_⟩
  have ⟨L, hL, hm⟩ := h2.holds
  have hold : lookup L.rows (SlotId.new 1) = some ⟨[2]⟩ := by
    rw [hm]
    rfl
  have ⟨o, hslot⟩ := slot_of_lookup hold
  have hlen : (⟨Tuple.notNullMarker :: (beBytes 2 65535 ++ utf8Bytes
      (String.ofList (List.replicate 65535 'x')))⟩ : Row).data.length = 65538 := by
    rw [List.length_cons, List.length_append, length_beBytes, hbytes]
  rw [hbytes]
  cases hL.updateRow_cases _ hslot with
  | inl hpanic => exact hpanic.2
  | inr hcases =>
    apply absurd _ hcases.1
    have hblocks : L.blocks ≠ [] := by
      intro hnil
      have hhead := hL.stores.head
      rw [hnil] at hhead
      revert hhead
      decide
    cases hfirst : L.blocks with
    | nil => exact absurd hfirst hblocks
    | cons b rest =>
      have hb := hL.fits.bounds (block_mem_regionsOf (entries L.slots) (b := b) (by simp [hfirst]))
      refine ⟨?_, b, by simp [hfirst], ?_⟩
      · rw [hlen]
        decide
      · rw [hlen]
        exact hb.2.2.1

end Update

end RdbRs
