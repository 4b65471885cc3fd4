import RdbRs.Storage.SlottedPageOps

/-!
# The slotted page as a map

`insert_row`, `update_row`, `delete_row` and `compact` on a page that holds a layout: whatever
they return, they leave a page that holds a layout, and its rows are those the call promises.
-/

namespace RdbRs

/-- The bytes the live rows of a slot directory occupy. -/
def rowSpace (slots : List SlotEntry) : Nat := ((entries slots).map fun x => (allocation x).2).sum

/-- `n` bytes fit beside the live rows of a page with that many slots. -/
def Layout.Room (L : Layout) (slots n : Nat) : Prop :=
  headerSize + slotSize * slots + rowSpace L.slots + n ≤ pageSize

instance (L : Layout) (slots n : Nat) : Decidable (L.Room slots n) :=
  inferInstanceAs (Decidable (headerSize + slotSize * slots + rowSpace L.slots + n ≤ pageSize))

section Room

variable {L L' : Layout}

lemma rowSpace_eq (slots : List SlotEntry) : rowSpace slots =
    (((rowsOf slots).filterMap id).map fun row => rowAllocationSize row.data.length).sum := by
  rw [rowSpace, entries, rowsOf, List.filterMap_map, List.map_filterMap, List.map_filterMap]
  congr 2
  funext s
  cases s <;> rfl

lemma rowSpace_of_rows (h : L'.rows = L.rows) : rowSpace L'.slots = rowSpace L.slots := by
  unfold Layout.rows at h
  rw [rowSpace_eq, rowSpace_eq, h]

/-- The rows, the free blocks and the middle of the page share it. -/
lemma Fits.rowSpace_add {n freeEnd : Nat} {blocks : List (Nat × Nat)}
    (hf : Fits n (regionsOf (entries L.slots) blocks) freeEnd) :
    rowSpace L.slots + (blocks.map Prod.snd).sum + freeEnd = pageSize := by
  have hsum := hf.tiles.sum_eq
  rw [regionsOf, List.map_append, List.sum_append, List.map_map] at hsum
  exact hsum

/-- A region that is reserved for a row shows that there is room for it. -/
lemma Fits.room {n m o freeEnd : Nat} {blocks : List (Nat × Nat)}
    (hf : Fits n ((o, m) :: regionsOf (entries L.slots) blocks) freeEnd) : L.Room n m := by
  have hd := hf.directory
  have hsum := hf.tiles.sum_eq
  rw [regionsOf, List.map_cons, List.sum_cons, List.map_append, List.sum_append, List.map_map] at hsum
  have hrows : (List.map (Prod.snd ∘ allocation) (entries L.slots)).sum = rowSpace L.slots := rfl
  unfold Layout.Room
  omega

/-- Without free blocks the room is in the middle of the page. -/
lemma Fits.room_iff {n m k freeEnd : Nat} (hf : Fits n (regionsOf (entries L.slots) []) freeEnd) :
    L.Room k m ↔ headerSize + slotSize * k + m ≤ freeEnd := by
  have hspace := hf.rowSpace_add
  rw [List.map_nil, List.sum_nil] at hspace
  unfold Layout.Room
  omega

lemma length_slots_of_rows (h : L'.rows = L.rows) : L'.slots.length = L.slots.length := by
  rw [← L'.length_rows, h, L.length_rows]

end Room

section Compact

variable {p : Page} {freeEnd : Nat}

/-- Placing the rows of the slots `todo` below those of `done`. -/
lemma Stores.placeRows_eq (done todo : List SlotEntry)
    (h : Stores p (done ++ todo) (entries done) [] freeEnd)
    (hf : Fits (done ++ todo).length (regionsOf (entries done) []) freeEnd)
    (hroom : headerSize + slotSize * (done ++ todo).length + rowSpace todo ≤ freeEnd) :
    ∃ q placed freeEnd', (Page.placeRows (liveFrom done.length (rowsOf todo))).run p = .ok () q ∧
      rowsOf placed = rowsOf todo ∧ Stores q (done ++ placed) (entries (done ++ placed)) [] freeEnd' ∧
      Fits (done ++ placed).length (regionsOf (entries (done ++ placed)) []) freeEnd' := by
  induction todo generalizing p done freeEnd with
  | nil => exact ⟨p, [], freeEnd, rfl, rfl, by simpa using h, by simpa using hf⟩
  | cons e rest ih =>
    have hassoc (e : SlotEntry) : done ++ e :: rest = (done ++ [e]) ++ rest := by simp
    cases e with
    | none =>
      have hent : entries done = entries (done ++ [none]) := by simp [entries]
      rw [hassoc, hent] at h hf
      obtain ⟨q, placed, fe, hrun, hrows, hq, hfq⟩ := ih _ h hf (by simpa [rowSpace, entries] using hroom)
      refine ⟨q, none :: placed, fe, ?_, by simpa [rowsOf] using hrows, ?_, ?_⟩
      · simpa [rowsOf, liveFrom] using hrun
      · simpa using hq
      · simpa using hfq
    | some x =>
      obtain ⟨o, row⟩ := x
      have hd := hf.directory
      have hend := hf.freeEnd_le
      have hi : (SlotId.new done.length).index = done.length := by
        refine SlotId.index_new ?_
        simp only [headerSize, slotSize, pageSize, List.length_append] at hd hend
        omega
      have hspace : rowSpace (some (o, row) :: rest) =
          rowAllocationSize row.data.length + rowSpace rest := by
        simp [rowSpace, entries, allocation]
      rw [hspace] at hroom
      -- the region the row moves to
      let start := freeEnd - rowAllocationSize row.data.length
      have hregion : Fits (done ++ some (o, row) :: rest).length
          ((start, rowAllocationSize row.data.length) :: regionsOf (entries done) []) start :=
        hf.cons_front (rowAllocationSize_dvd _) (rowAllocationSize_pos _) (by omega)
      have hle := le_rowAllocationSize row.data.length
      have hlt := hregion.slotOf_lt hle
      simp only [slotOf] at hlt
      obtain ⟨p1, hrun1, h1⟩ := h.writeRowBytesAt_eq hregion hle
      have hmem : regionsOf ((start, row) :: entries done) [] ⊆
          (start, rowAllocationSize row.data.length) :: regionsOf (entries done) [] := by
        simp [regionsOf, allocation]
      obtain ⟨p2, hrun2, h2⟩ := h1.writeSlot_eq (s := SlotId.new done.length)
        (e := some (start, row)) hregion hmem (by simp [hi]) hlt.1 hlt.2
      have h3 := h2.setFreeEnd (by simpa using hregion) hmem hlt.1
      have hset : (done ++ some (o, row) :: rest).set (SlotId.new done.length).index
          (some (start, row)) = (done ++ [some (start, row)]) ++ rest := by
        rw [hi]
        simp
      have hent : entries (done ++ [some (start, row)]) = entries done ++ [(start, row)] :=
        entries_append_some
      rw [hset] at h3
      have h4 := h3.mono (entries (done ++ [some (start, row)])) (by simp [hent])
      have hf4 : Fits ((done ++ [some (start, row)]) ++ rest).length
          (regionsOf (entries (done ++ [some (start, row)])) []) start := by
        rw [← hassoc, hent]
        simp only [List.length_append, List.length_cons] at hregion ⊢
        refine hregion.perm ?_
        simp only [regionsOf, List.map_append, List.map_cons, List.map_nil, List.append_nil]
        exact (List.perm_append_singleton _ _).symm
      obtain ⟨q, placed, fe, hrun, hrows, hq, hfq⟩ := ih _ h4 hf4 (by
        rw [← hassoc]
        simp only [List.length_append, List.length_cons, start] at hroom ⊢
        omega)
      refine ⟨q, some (start, row) :: placed, fe, ?_, by simpa [rowsOf] using hrows, ?_, ?_⟩
      · have hlive : liveFrom done.length (rowsOf (some (o, row) :: rest)) =
            (SlotId.new done.length, row) :: liveFrom (done.length + 1) (rowsOf rest) := rfl
        have hfe : ¬ freeEnd < rowAllocationSize row.data.length := by omega
        have hc1 : asU16 start = start := Nat.mod_eq_of_lt hlt.1
        have hc2 : asU16 row.data.length = row.data.length := Nat.mod_eq_of_lt hlt.2
        rw [hlive, Page.placeRows]
        simp only [slotOf] at hrun2
        simp only [Exec.run_bind, Exec.run_gets, Outcome.andThen_ok, h.freeEnd, if_neg hfe]
        simp only [start] at hc1 hrun1 hrun2 hrun
        simp only [hrun1, Outcome.andThen_ok, hc1, hc2, hrun2, Exec.run_modify]
        simpa using hrun
      · simpa using hq
      · simpa using hfq

/-- Compaction keeps the rows and gives all free space back to the middle of the page. -/
lemma Holds.compact_eq {L : Layout} (h : Holds p L) :
    ∃ q L', Page.compact.run p = .ok () q ∧ Holds q L' ∧ L'.rows = L.rows ∧ L'.blocks = [] := by
  have hd := h.fits.directory
  have hsum := h.fits.tiles.sum_eq
  have hempty : Fits L.slots.length (regionsOf (entries []) []) pageSize :=
    ⟨hd.trans h.fits.freeEnd_le, Tiles.nil _, by simp [regionsOf, entries]⟩
  have h1 := h.stores.setFreeListHead [] h.fits
    (fun b hb => List.mem_append_left _ (by simpa [regionsOf] using hb)) trivial
  have h2 := (h1.mono (entries []) (by simp [entries])).setFreeEnd (v := pageSize) hempty
    (List.Subset.refl _) (by decide)
  obtain ⟨q, placed, fe, hrun, hrows, hq, hfq⟩ := Stores.placeRows_eq [] L.slots
    h2 hempty (by
      simp only [Layout.regions, regionsOf, List.map_append, List.sum_append, List.map_map] at hsum
      simp only [rowSpace, List.nil_append]
      have : (List.map (Prod.snd ∘ allocation) (entries L.slots)).sum =
        ((entries L.slots).map fun x => (allocation x).2).sum := rfl
      omega)
  refine ⟨q, ⟨placed, [], fe⟩, ?_, ⟨hq, hfq⟩, hrows, rfl⟩
  simp only [Page.compact, Exec.run_bind, Exec.run_query, h.scanRows_eq, Outcome.andThen_ok,
    Exec.run_modify]
  exact hrun

end Compact

/-! ### The rows by their slots -/

/-- The row a slot holds. -/
def lookup (rows : List (Option Row)) (s : SlotId) : Option Row := (rows[s.index]?).join

lemma Placed.lookup_eq {slots slots' : List SlotEntry} {s : SlotId} {x : Nat × Row}
    (h : Placed slots s x slots') :
    lookup (rowsOf slots) s = none ∧
      lookup (rowsOf slots') = Function.update (lookup (rowsOf slots)) s (some x.2) := by
  constructor
  · have hfree := h.free
    simp only [lookup, rowsOf, List.getElem?_map]
    rcases hs : slots[s.index]? with _ | _ | y
    · rfl
    · rfl
    · exact absurd hs (hfree y)
  · funext t
    simp only [lookup, rowsOf, List.getElem?_map, h.get]
    by_cases ht : t = s
    · subst ht
      simp
    · have hi : t.index ≠ s.index := fun heq => ht (SlotId.index_injective heq)
      simp [Function.update_of_ne ht, if_neg hi, lookup]

lemma lookup_set {slots : List SlotEntry} {s : SlotId} {e : SlotEntry}
    (hs : s.index < slots.length) :
    lookup (rowsOf (slots.set s.index e)) =
      Function.update (lookup (rowsOf slots)) s (e.map Prod.snd) := by
  funext t
  by_cases ht : t = s
  · subst ht
    simp [lookup, rowsOf, hs]
  · have hi : s.index ≠ t.index := fun heq => ht (SlotId.index_injective heq).symm
    simp [lookup, rowsOf, Function.update_of_ne ht, List.getElem?_set_ne hi]

/-- What a call may do to a page with the rows `m`: an error keeps them, a success leaves what
`after` says. -/
def Outcome.KeepsPage {α : Type} (m : SlotId → Option Row)
    (after : α → (SlotId → Option Row) → Prop) : Outcome PageError Page α → Prop
  | .ok a q => ∃ L, Holds q L ∧ after a (lookup L.rows)
  | .err _ q => ∃ L, Holds q L ∧ lookup L.rows = m
  | .panic => True
  | .diverge => False

lemma Outcome.KeepsPage.andThen_ok {α β : Type} {o : Outcome PageError Page α}
    {m : SlotId → Option Row} {after : α → (SlotId → Option Row) → Prop}
    {after' : β → (SlotId → Option Row) → Prop} (f : α → β) (h : o.KeepsPage m after)
    (hf : ∀ a m', after a m' → after' (f a) m') :
    (o.andThen fun a q => .ok (f a) q).KeepsPage m after' := by
  cases o with
  | ok a q =>
    obtain ⟨L, hq, ha⟩ := h
    exact ⟨L, hq, hf a _ ha⟩
  | err e q => exact h
  | panic => trivial
  | diverge => exact h

/-! ### Insertion -/

section Insert

variable {p : Page} {L : Layout} {row : Row} {t : Option SlotId}

/-- The outcome of a successful insertion: the row is in a slot that held none. -/
def Inserted (L : Layout) (row : Row) (s : SlotId) (q : Page) : Prop :=
  ∃ L' o, Holds q L' ∧ Placed L.slots s (o, row) L'.slots

lemma Holds.writeRowAt_eq {o : Nat} {blocks : List (Nat × Nat)} {q : Page} {freeEnd : Nat}
    (h : Stores q L.slots (entries L.slots) blocks freeEnd) (ht : IsTombstone L.slots t)
    (hf : Fits (slotsAfter L.slots t)
      ((o, rowAllocationSize row.data.length) :: regionsOf (entries L.slots) blocks) freeEnd) :
    ∃ s q', (Page.writeRowAt o row.data t).run q = .ok s q' ∧ Inserted L row s q' := by
  obtain ⟨s, q', slots', hrun, hplaced, hlen, hstores⟩ := h.writeRowAt_eq ht (Nat.le_refl _) hf
  refine ⟨s, q', hrun, ⟨slots', blocks, freeEnd⟩, o, ⟨?_, ?_⟩, hplaced⟩
  · exact hstores.mono _ fun x hx => hplaced.entries.mem_iff.mp hx
  · rw [hlen]
    exact hf.perm (regionsOf_perm hplaced.entries.symm (List.Perm.refl blocks))

/-- With an entry for the row, or room for one, the free list is searched. -/
lemma Page.run_tryInsertFromFreeBlock {bytes : List UInt8} {n : Nat}
    (hsearches : t = none → ∃ space, p.freeSpace = .ok space ∧ slotSize ≤ space) :
    (Page.tryInsertFromFreeBlock bytes n t).run p =
      ((Page.tryAllocateFromFreeBlock n).run p).andThen fun found q => match found with
        | some offset => ((Page.writeRowAt offset bytes t).run q).andThen fun s q => .ok (some s) q
        | none => .ok none q := by
  unfold Page.tryInsertFromFreeBlock
  cases t with
  | some s =>
    simp only [Exec.run_bind, Option.isNone_some, Bool.false_eq_true, if_false, Exec.run_pure,
      Outcome.andThen_ok]
    congr 1
    funext found q
    cases found <;> rfl
  | none =>
    obtain ⟨space, hspace, hle⟩ := hsearches rfl
    have hroom : ¬ slotSize > space := Nat.not_lt_of_le hle
    simp only [Exec.run_bind, Option.isNone_none, if_true, Exec.run_query, hspace, Outcome.andThen_ok,
      Exec.run_pure, hroom, decide_false, Bool.false_eq_true, if_false]
    congr 1
    funext found q
    cases found <;> rfl

lemma Holds.tryInsertFromFreeBlock_eq (h : Holds p L) (ht : IsTombstone L.slots t)
    (hn : rowAllocationSize row.data.length < 65536) :
    (Page.tryInsertFromFreeBlock row.data (rowAllocationSize row.data.length) t).run p =
      .ok none p ∨
    L.Room (slotsAfter L.slots t) (rowAllocationSize row.data.length) ∧
    ∃ s q, (Page.tryInsertFromFreeBlock row.data (rowAllocationSize row.data.length) t).run p =
      .ok (some s) q ∧ Inserted L row s q := by
  have hspace := h.stores.freeSpace_eq h.fits
  have hd := h.fits.directory
  by_cases hfull : t = none ∧ L.freeEnd - (headerSize + slotSize * L.slots.length) < slotSize
  · left
    simp only [Page.tryInsertFromFreeBlock, Exec.run_bind, hfull.1, Option.isNone_none, if_true,
      Exec.run_query, hspace, Outcome.andThen_ok, Exec.run_pure, gt_iff_lt, hfull.2, decide_true]
  · have hslots {regions : List (Nat × Nat)} (hf : Fits L.slots.length regions L.freeEnd) :
        Fits (slotsAfter L.slots t) regions L.freeEnd := by
      refine ⟨?_, hf.tiles, hf.aligned⟩
      cases t with
      | some s => exact hd
      | none =>
        simp only [true_and, slotSize] at hfull
        simp only [slotsAfter, Option.isSome_none, headerSize, slotSize] at hd hfull ⊢
        simp only [Bool.false_eq_true, if_false]
        omega
    have hdir := @Page.run_tryInsertFromFreeBlock p t row.data (rowAllocationSize row.data.length)
      fun hnone => ⟨_, hspace, Nat.le_of_not_lt fun hlt => hfull ⟨hnone, hlt⟩⟩
    rcases h.stores.tryAllocateFromFreeBlock_eq h.fits (rowAllocationSize_dvd _)
      (rowAllocationSize_pos _) hn with ⟨hnone, -⟩ | ⟨o, q, blocks', halloc, hq, hfq⟩
    · left
      rw [hdir, hnone]
      rfl
    · right
      obtain ⟨s, q', hrun, hins⟩ := Holds.writeRowAt_eq hq ht (hslots hfq)
      refine ⟨(hslots hfq).room, s, q', ?_, hins⟩
      rw [hdir, halloc]
      simp only [Outcome.andThen_ok, hrun]

lemma Holds.insertFromFreeEnd_eq (row : Row) (h : Holds p L) (ht : IsTombstone L.slots t) :
    (Page.insertFromFreeEnd row.data (rowAllocationSize row.data.length) t).run p =
        .err .storageFull p ∧
      L.freeEnd < headerSize + slotSize * slotsAfter L.slots t + rowAllocationSize row.data.length ∨
    L.Room (slotsAfter L.slots t) (rowAllocationSize row.data.length) ∧
    ∃ s q, (Page.insertFromFreeEnd row.data (rowAllocationSize row.data.length) t).run p =
      .ok s q ∧ Inserted L row s q := by
  have hspace := h.stores.freeSpace_eq h.fits
  have hd := h.fits.directory
  have hend := h.fits.freeEnd_le
  simp only [pageSize] at hend
  let n := rowAllocationSize row.data.length
  let directory := headerSize + slotSize * slotsAfter L.slots t
  have hrun : (Page.insertFromFreeEnd row.data n t).run p =
      if L.freeEnd < directory + n then .err .storageFull p
      else if L.freeEnd < asU16 n then .panic
      else ((Page.writeRowAt (L.freeEnd - asU16 n) row.data t).run p).andThen fun s q =>
        .ok s (Page.setFreeEnd (L.freeEnd - asU16 n) q) := by
    simp only [Page.insertFromFreeEnd, Exec.run_bind, Exec.run_query, hspace, Outcome.andThen_ok]
    cases t with
    | some s =>
      have hiff : L.freeEnd - (headerSize + slotSize * L.slots.length) < n ↔
          L.freeEnd < directory + n := by
        simp only [directory, slotsAfter, Option.isSome_some, if_true]
        omega
      simp [hiff, h.stores.freeEnd, apply_ite (fun y => Exec.run y p)]
    | none =>
      have hiff : L.freeEnd - (headerSize + slotSize * L.slots.length) < slotSize + n ↔
          L.freeEnd < directory + n := by
        simp only [directory, slotsAfter, Option.isSome_none, Bool.false_eq_true, if_false,
          slotSize] at hd ⊢
        omega
      simp [hiff, h.stores.freeEnd, apply_ite (fun y => Exec.run y p)]
  by_cases hfull : L.freeEnd < directory + n
  · left
    rw [hrun, if_pos hfull]
    exact ⟨rfl, hfull⟩
  · right
    have hu : asU16 n = n := Nat.mod_eq_of_lt (by omega)
    have hfit : Fits (slotsAfter L.slots t) ((L.freeEnd - n, n) :: L.regions) (L.freeEnd - n) := by
      have hn : Fits (slotsAfter L.slots t) L.regions L.freeEnd :=
        ⟨by simp only [directory] at hfull; omega, h.fits.tiles, h.fits.aligned⟩
      refine hn.cons_front (rowAllocationSize_dvd _) (rowAllocationSize_pos _) ?_
      simp only [directory] at hfull
      omega
    obtain ⟨s, q, slots', hwrite, hplaced, hlen, hstores⟩ :=
      h.stores.writeRowAt_eq ht (Nat.sub_le L.freeEnd n) hfit
    have hperm := (regionsOf_perm hplaced.entries (List.Perm.refl L.blocks)).symm
    have hfit' : Fits slots'.length (regionsOf (entries slots') L.blocks) (L.freeEnd - n) := by
      rw [hlen]
      exact hfit.perm hperm
    have hstores' := (hstores.mono _ fun x hx => hplaced.entries.mem_iff.mp hx).setFreeEnd hfit'
      (List.Subset.refl _) (show L.freeEnd - n < 65536 by omega)
    refine ⟨hfit.room, s, _, ?_, ⟨slots', L.blocks, L.freeEnd - n⟩, L.freeEnd - n,
      ⟨hstores', hfit'⟩, hplaced⟩
    rw [hrun, if_neg hfull, hu, if_neg (by omega), hwrite, Outcome.andThen_ok]

lemma isTombstone_of_rows {L' : Layout} (hrows : L'.rows = L.rows) (ht : IsTombstone L.slots t) :
    IsTombstone L'.slots t := by
  intro s hs
  have hmap : L'.rows[s.index]? = some none := by
    rw [hrows, Layout.getElem?_rows, ht s hs]
    rfl
  rw [Layout.getElem?_rows] at hmap
  rcases hget : L'.slots[s.index]? with _ | _ | x
  · simp [hget] at hmap
  · rfl
  · simp [hget] at hmap

lemma Holds.findTombstoneSlotId_eq (h : Holds p L) :
    ∃ t, p.findTombstoneSlotId = .ok t ∧ IsTombstone L.slots t ∧ (t.isSome ↔ none ∈ L.slots) := by
  have hn := h.length_slots_lt
  refine ⟨(L.slots.findIdx? (· == none)).map fun i => SlotId.new (0 + i), ?_, ?_, ?_⟩
  · rw [Page.findTombstoneSlotId, h.stores.slotCount]
    exact h.findTombstoneFrom_eq 0 L.slots rfl
  · intro s hs
    obtain ⟨i, hi, rfl⟩ := Option.map_eq_some_iff.mp hs
    obtain ⟨hlt, hget, -⟩ := List.findIdx?_eq_some_iff_getElem.mp hi
    rw [Nat.zero_add, SlotId.index_new (by omega), List.getElem?_eq_getElem hlt]
    simpa using hget
  · rw [Option.isSome_map, List.findIdx?_isSome, List.any_eq_true]
    simp

/-- What a successful insertion leaves: the row in a slot that held none, and one slot more if
there was no tombstone. -/
structure Grown (L L' : Layout) (s : SlotId) (row : Row) : Prop where
  free : lookup L.rows s = none
  rows : lookup L'.rows = Function.update (lookup L.rows) s (some row)
  slots : L'.slots.length ≤ L.slots.length + 1
  space : rowSpace L'.slots = rowAllocationSize row.data.length + rowSpace L.slots

lemma Placed.length_le {slots slots' : List SlotEntry} {s : SlotId} {x : Nat × Row}
    (h : Placed slots s x slots') : slots'.length ≤ slots.length + 1 := by
  by_contra hlong
  have hnew (i : Nat) (hi : slots.length ≤ i) (hi' : i < slots'.length) : i = s.index := by
    by_contra hne
    have hget := h.get i
    rw [if_neg hne, List.getElem?_eq_none hi, List.getElem?_eq_none_iff] at hget
    omega
  have hfirst := hnew slots.length le_rfl (by omega)
  have hsecond := hnew (slots.length + 1) (by omega) (by omega)
  omega

lemma Placed.grown {L' : Layout} {s : SlotId} {o : Nat} (h : Placed L.slots s (o, row) L'.slots) :
    Grown L L' s row := by
  refine ⟨h.lookup_eq.1, h.lookup_eq.2, h.length_le, ?_⟩
  rw [rowSpace, (h.entries.map _).sum_nat, List.map_cons, List.sum_cons]
  rfl

lemma Grown.of_rows {L' L2 : Layout} {s : SlotId} (h : Grown L' L2 s row) (hrows : L'.rows = L.rows) :
    Grown L L2 s row := by
  constructor
  · rw [← hrows]
    exact h.free
  · rw [← hrows]
    exact h.rows
  · rw [← length_slots_of_rows hrows]
    exact h.slots
  · rw [← rowSpace_of_rows hrows]
    exact h.space

/-- An insertion succeeds exactly if there is room: if not before compaction, then after it. -/
lemma Holds.insertRow_cases (h : Holds p L) (row : Row) (ht : IsTombstone L.slots t)
    (hfind : p.findTombstoneSlotId = .ok t)
    (hlen : rowAllocationSize row.data.length ≤ pageSize - headerSize - slotSize) :
    (L.Room (slotsAfter L.slots t) (rowAllocationSize row.data.length) ∧ ∃ s q L',
      (Page.insertRow row).run p = .ok s q ∧ Holds q L' ∧ Grown L L' s row) ∨
    ¬ L.Room (slotsAfter L.slots t) (rowAllocationSize row.data.length) ∧ ∃ q L',
      (Page.insertRow row).run p = .err .storageFull q ∧ Holds q L' ∧ L'.rows = L.rows := by
  have hn : rowAllocationSize row.data.length < 65536 := by
    simp only [pageSize, headerSize, slotSize] at hlen
    omega
  simp only [Page.insertRow, Exec.run_bind, Exec.run_query, hfind, Outcome.andThen_ok]
  rw [if_neg (Nat.not_lt.mpr hlen)]
  rcases h.tryInsertFromFreeBlock_eq ht hn with hnone | ⟨hroom, s, q, hs, L', o, hq, hplaced⟩
  · rcases h.insertFromFreeEnd_eq row ht with ⟨hfull, -⟩ | ⟨hroom, s, q, hs, L', o, hq, hplaced⟩
    · obtain ⟨q, L', hcompact, hq, hrows, hblocks⟩ := h.compact_eq
      have hslots : slotsAfter L'.slots t = slotsAfter L.slots t := by
        rw [slotsAfter, slotsAfter, length_slots_of_rows hrows]
      have hsame (n k : Nat) : L'.Room n k ↔ L.Room n k := by
        rw [Layout.Room, Layout.Room, rowSpace_of_rows hrows]
      have hfits := hq.fits
      rw [Layout.regions, hblocks] at hfits
      simp only [hnone, hfull, Outcome.andThen_ok, Exec.run_bind, Exec.run_attempt,
        Outcome.attempt_err, hcompact]
      rcases hq.insertFromFreeEnd_eq row (isTombstone_of_rows hrows ht)
        with ⟨hfull', hlt⟩ | ⟨hroom, s, q', hs, L2, o, hq', hplaced⟩
      · right
        refine ⟨?_, q, L', hfull', hq, hrows⟩
        rw [← hsame, hfits.room_iff, ← hslots]
        exact Nat.not_le.mpr hlt
      · left
        rw [hslots, hsame] at hroom
        exact ⟨hroom, s, q', L2, hs, hq', hplaced.grown.of_rows hrows⟩
    · left
      simp only [hnone, hs, Outcome.andThen_ok, Exec.run_bind, Exec.run_attempt, Outcome.attempt_ok,
        Exec.run_pure]
      exact ⟨hroom, s, q, L', rfl, hq, hplaced.grown⟩
  · left
    simp only [hs, Outcome.andThen_ok, Exec.run_bind, Exec.run_pure]
    exact ⟨hroom, s, q, L', rfl, hq, hplaced.grown⟩

lemma Holds.insertRow_tooLarge (h : Holds p L)
    (hlen : pageSize - headerSize - slotSize < rowAllocationSize row.data.length) :
    (Page.insertRow row).run p = .err .rowTooLarge p := by
  obtain ⟨t, hfind, -⟩ := h.findTombstoneSlotId_eq
  simp only [Page.insertRow, Exec.run_bind, Exec.run_query, hfind, Outcome.andThen_ok]
  rw [if_pos hlen, Exec.run_throw]

lemma Holds.insertRow_keepsPage (h : Holds p L) (row : Row) :
    ((Page.insertRow row).run p).KeepsPage (lookup L.rows) fun s m =>
      lookup L.rows s = none ∧ m = Function.update (lookup L.rows) s (some row) := by
  obtain ⟨t, hfind, ht, -⟩ := h.findTombstoneSlotId_eq
  by_cases hlen : rowAllocationSize row.data.length ≤ pageSize - headerSize - slotSize
  · rcases h.insertRow_cases row ht hfind hlen with
      ⟨-, s, q, L', hrun, hq, hgrown⟩ | ⟨-, q, L', hrun, hq, hrows⟩
    · rw [hrun]
      exact ⟨L', hq, hgrown.free, hgrown.rows⟩
    · rw [hrun]
      exact ⟨L', hq, by rw [hrows]⟩
  · rw [h.insertRow_tooLarge (Nat.not_le.mp hlen)]
    exact ⟨L, h, rfl⟩

end Insert

/-! ### Update and deletion -/

section Update

variable {p q : Page} {L : Layout} {s : SlotId} {o : Nat} {old row : Row}

/-- A live row taken out of the layout leaves its region free. -/
lemma Holds.remove (h : Holds p L) (hs : L.slots[s.index]? = some (some (o, old))) :
    Stores p L.slots (entries (L.slots.set s.index none)) L.blocks L.freeEnd ∧
    Fits L.slots.length ((o, rowAllocationSize old.data.length) ::
      regionsOf (entries (L.slots.set s.index none)) L.blocks) L.freeEnd := by
  have hp := entries_perm_set_none hs
  refine ⟨h.stores.mono _ fun x hx => hp.mem_iff.mpr (List.mem_cons_of_mem _ hx), ?_⟩
  exact h.fits.perm (regionsOf_perm hp (List.Perm.refl _))

/-- A row put into the slot it was taken from. -/
lemma holds_of_put {blocks : List (Nat × Nat)} {freeEnd o' : Nat} (hi : s.index < L.slots.length)
    (hst : Stores q (L.slots.set s.index (some (o', row)))
      ((o', row) :: entries (L.slots.set s.index none)) blocks freeEnd)
    (hf : Fits L.slots.length ((o', rowAllocationSize row.data.length) ::
      regionsOf (entries (L.slots.set s.index none)) blocks) freeEnd) :
    Holds q ⟨L.slots.set s.index (some (o', row)), blocks, freeEnd⟩ := by
  have hp := entries_set_some_perm (x := (o', row)) hi
  refine ⟨hst.mono _ fun x hx => hp.mem_iff.mp hx, ?_⟩
  simp only [List.length_set]
  exact hf.perm (regionsOf_perm hp.symm (List.Perm.refl _))

lemma slotOf_some (o : Nat) (row : Row) : slotOf (some (o, row)) = ⟨o, row.data.length⟩ := rfl

/-- The row of `s` written into a new region, its old one given back. -/
lemma moveRow_eq {slots : List SlotEntry} {blocks : List (Nat × Nat)} {freeEnd o' : Nat}
    (hs : slots[s.index]? = some (some (o, old)))
    (hst : Stores q slots (entries slots) blocks freeEnd)
    (hf : Fits slots.length ((o', rowAllocationSize row.data.length) ::
      regionsOf (entries slots) blocks) freeEnd) :
    ∃ q', (Page.moveRow row.data s ⟨o, old.data.length⟩ (rowAllocationSize old.data.length) o').run q =
        .ok () q' ∧
      Holds q' ⟨slots.set s.index (some (o', row)), (o, rowAllocationSize old.data.length) :: blocks,
        freeEnd⟩ := by
  have hi : s.index < slots.length := (List.getElem?_eq_some_iff.mp hs).1
  have hle := le_rowAllocationSize row.data.length
  have hlt := hf.slotOf_lt hle
  simp only [slotOf_some] at hlt
  have hp := entries_perm_set_none hs
  obtain ⟨p1, hrun1, h1⟩ := hst.writeRowBytesAt_eq hf hle
  obtain ⟨p2, hrun2, h2⟩ := h1.writeSlot_eq (e := some (o', row)) hf (List.Subset.refl _) hi
    hlt.1 hlt.2
  have h3 := h2.mono ((o', row) :: entries (slots.set s.index none))
    (List.cons_subset_cons _ fun x hx => hp.mem_iff.mpr (List.mem_cons_of_mem _ hx))
  have hf3 : Fits slots.length ((o, rowAllocationSize old.data.length) ::
      regionsOf ((o', row) :: entries (slots.set s.index none)) blocks) freeEnd := by
    refine hf.perm ?_
    refine (List.Perm.cons _ (regionsOf_perm hp (List.Perm.refl blocks))).trans ?_
    exact List.Perm.swap _ _ _
  obtain ⟨p3, hrun3, h4, hf4⟩ := h3.addFreeBlock_eq (by simpa using hf3)
  refine ⟨p3, ?_, ?_⟩
  · have hc1 : asU16 row.data.length = row.data.length := Nat.mod_eq_of_lt hlt.2
    have hc2 : asU16 (rowAllocationSize old.data.length) = rowAllocationSize old.data.length := by
      have hb := hf3.bounds List.mem_cons_self
      simp only [pageSize] at hb
      exact Nat.mod_eq_of_lt (by omega)
    rw [slotOf_some] at hrun2
    simp only [Page.moveRow, Exec.run_bind, hrun1, Outcome.andThen_ok, Page.updateSlotForRow, hc1,
      hrun2, hc2, hrun3]
  · rw [List.length_set] at hf4
    exact holds_of_put (L := ⟨slots, blocks, freeEnd⟩) hi h4 hf4

/-- What an update that returns `Ok` leaves. -/
def Updated (L : Layout) (s : SlotId) (row : Row) (q : Page) : Prop :=
  ∃ L', Holds q L' ∧ lookup L'.rows = Function.update (lookup L.rows) s (some row)

lemma updated_of_set {blocks : List (Nat × Nat)} {freeEnd o' : Nat} (hi : s.index < L.slots.length)
    (h : Holds q ⟨L.slots.set s.index (some (o', row)), blocks, freeEnd⟩) : Updated L s row q :=
  ⟨_, h, lookup_set hi⟩

lemma Holds.updateAllocateLenEqual_eq (h : Holds p L)
    (hs : L.slots[s.index]? = some (some (o, old)))
    (heq : rowAllocationSize row.data.length = rowAllocationSize old.data.length) :
    ∃ q, (Page.updateAllocateLenEqual o row.data s ⟨o, old.data.length⟩).run p = .ok () q ∧
      Updated L s row q := by
  have hi : s.index < L.slots.length := (List.getElem?_eq_some_iff.mp hs).1
  obtain ⟨hst, hf⟩ := h.remove hs
  rw [← heq] at hf
  have hle := le_rowAllocationSize row.data.length
  have hlt := hf.slotOf_lt hle
  simp only [slotOf_some] at hlt
  obtain ⟨p1, hrun1, h1⟩ := hst.writeSlot_eq (e := some (o, row)) hf (List.subset_cons_self _ _) hi
    hlt.1 hlt.2
  obtain ⟨p2, hrun2, h2⟩ := h1.writeRowBytesAt_eq (by simpa using hf) hle
  have hc1 : asU16 row.data.length = row.data.length := Nat.mod_eq_of_lt hlt.2
  have hc2 : asU16 o = o := Nat.mod_eq_of_lt hlt.1
  refine ⟨p2, ?_, updated_of_set hi (holds_of_put hi h2 (by simpa using hf))⟩
  rw [slotOf_some] at hrun1
  simp only [Page.updateAllocateLenEqual, Page.updateSlotForRow, Exec.run_bind, hc1, hc2, hrun1,
    Outcome.andThen_ok, hrun2]

lemma Holds.updateAllocateLenLess_eq (h : Holds p L)
    (hs : L.slots[s.index]? = some (some (o, old)))
    (hlt : rowAllocationSize row.data.length < rowAllocationSize old.data.length) :
    ∃ q, (Page.updateAllocateLenLess o row.data s ⟨o, old.data.length⟩
        (rowAllocationSize old.data.length) (rowAllocationSize row.data.length)).run p = .ok () q ∧
      Updated L s row q := by
  have hi : s.index < L.slots.length := (List.getElem?_eq_some_iff.mp hs).1
  obtain ⟨hst, hf⟩ := h.remove hs
  obtain ⟨k, hk⟩ : ∃ k, rowAllocationSize old.data.length = rowAllocationSize row.data.length + k :=
    ⟨_, (Nat.add_sub_cancel' hlt.le).symm⟩
  rw [hk] at hf hlt ⊢
  have hle := le_rowAllocationSize row.data.length
  have hb := hf.bounds List.mem_cons_self
  simp only [pageSize] at hb
  -- the region keeps the new row in front and gives its tail to the free list
  have hcut := hf.split (rowAllocationSize_dvd _) (rowAllocationSize_pos _) (by omega)
  have hrow := hcut.slotOf_lt hle
  simp only [slotOf_some] at hrow
  have htail : Fits L.slots.length ((o + rowAllocationSize row.data.length, k) ::
      regionsOf ((o, row) :: entries (L.slots.set s.index none)) L.blocks) L.freeEnd :=
    hcut.perm (List.Perm.swap _ _ _)
  obtain ⟨p1, hrun1, h1⟩ := hst.writeRowBytesAt_eq hf (hle.trans (Nat.le_add_right _ k))
  obtain ⟨p2, hrun2, h2⟩ := h1.writeSlot_eq (e := some (o, row)) htail (List.subset_cons_self _ _) hi
    hrow.1 hrow.2
  obtain ⟨p3, hrun3, h3, hf3⟩ := h2.addFreeBlock_eq (by simpa using htail)
  have hc1 : asU16 row.data.length = row.data.length := Nat.mod_eq_of_lt hrow.2
  have hc2 : asU16 (o + rowAllocationSize row.data.length) = o + rowAllocationSize row.data.length :=
    Nat.mod_eq_of_lt (by omega)
  have hc3 : asU16 (rowAllocationSize row.data.length + k - rowAllocationSize row.data.length) = k := by
    rw [Nat.add_sub_cancel_left]
    exact Nat.mod_eq_of_lt (by omega)
  rw [List.length_set] at hf3
  refine ⟨p3, ?_, updated_of_set hi (holds_of_put hi h3 hf3)⟩
  rw [slotOf_some] at hrun2
  simp only [Page.updateAllocateLenLess, Page.updateSlotForRow, Exec.run_bind, hrun1, hc1, hrun2,
    Outcome.andThen_ok, hc2, hc3, hrun3]

lemma Holds.moveToFreeEnd_eq (row : Row) (h : Holds p L)
    (hs : L.slots[s.index]? = some (some (o, old))) :
    (Page.tryAllocateFromFreeEnd (rowAllocationSize row.data.length)).run p = .ok none p ∧
      L.freeEnd < headerSize + slotSize * L.slots.length + rowAllocationSize row.data.length ∨
    L.Room L.slots.length (rowAllocationSize row.data.length) ∧ ∃ o' p1 q,
      (Page.tryAllocateFromFreeEnd (rowAllocationSize row.data.length)).run p = .ok (some o') p1 ∧
      (Page.moveRow row.data s ⟨o, old.data.length⟩ (rowAllocationSize old.data.length) o').run p1 =
        .ok () q ∧ Updated L s row q := by
  have hi : s.index < L.slots.length := (List.getElem?_eq_some_iff.mp hs).1
  rcases h.stores.tryAllocateFromFreeEnd_eq h.fits (rowAllocationSize_dvd row.data.length)
    (rowAllocationSize_pos _) with hnone | ⟨o', p1, halloc, -, h1, hf1⟩
  · exact .inl hnone
  · obtain ⟨q, hmove, hq⟩ := moveRow_eq hs h1 hf1
    exact .inr ⟨hf1.room, o', p1, q, halloc, hmove, updated_of_set hi hq⟩

/-- How a call that moves a longer row ends, short of a panic: it succeeds exactly if there is
room for the new row beside all live rows, its own old one among them. -/
def Moved (L : Layout) (s : SlotId) (row : Row) (outcome : Outcome PageError Page Unit) : Prop :=
  (L.Room L.slots.length (rowAllocationSize row.data.length) ∧
    ∃ q, outcome = .ok () q ∧ Updated L s row q) ∨
  ¬ L.Room L.slots.length (rowAllocationSize row.data.length) ∧
    ∃ q L', outcome = .err .storageFull q ∧ Holds q L' ∧ L'.rows = L.rows

/-- The end of `update_allocate_len_greater`: the middle of the page, then compaction. -/
lemma Holds.moveOrCompact_moved (row : Row) (h : Holds p L)
    (hs : L.slots[s.index]? = some (some (o, old)))
    (hblock : (Page.tryAllocateFromFreeBlock (rowAllocationSize row.data.length)).run p =
      .ok none p) :
    Moved L s row ((Page.updateAllocateLenGreater row.data s ⟨o, old.data.length⟩
        (rowAllocationSize old.data.length) (rowAllocationSize row.data.length)).run p) := by
  simp only [Page.updateAllocateLenGreater, Exec.run_bind, hblock, Outcome.andThen_ok]
  rcases h.moveToFreeEnd_eq row hs with ⟨hnone, -⟩ | ⟨hroom, o', p1, q, halloc, hmove, hq⟩
  · obtain ⟨p2, L2, hcompact, h2, hrows, hblocks⟩ := h.compact_eq
    obtain ⟨o2, hs2⟩ : ∃ o2, L2.slots[s.index]? = some (some (o2, old)) := by
      have hmap : L2.rows[s.index]? = some (some old) := by
        rw [hrows, Layout.getElem?_rows, hs]
        rfl
      rw [Layout.getElem?_rows] at hmap
      rcases hget : L2.slots[s.index]? with _ | _ | ⟨o2, row2⟩
      · simp [hget] at hmap
      · simp [hget] at hmap
      · obtain rfl : row2 = old := by simpa [hget] using hmap
        exact ⟨o2, rfl⟩
    have hsame (n : Nat) : L2.Room L2.slots.length n ↔ L.Room L.slots.length n := by
      rw [Layout.Room, Layout.Room, rowSpace_of_rows hrows, length_slots_of_rows hrows]
    have hfits := h2.fits
    rw [Layout.regions, hblocks] at hfits
    simp only [hnone, hcompact, Outcome.andThen_ok, Exec.run_bind, Exec.run_query,
      h2.readSlot_live hs2]
    rcases h2.moveToFreeEnd_eq row hs2 with
      ⟨hnone2, hlt⟩ | ⟨hroom, o', p3, q, halloc, hmove, L', hq, hL'⟩
    · simp only [hnone2, Outcome.andThen_ok, Exec.run_throw]
      right
      refine ⟨?_, p2, L2, rfl, h2, hrows⟩
      rw [← hsame, hfits.room_iff]
      exact Nat.not_le.mpr hlt
    · simp only [halloc, hmove, Outcome.andThen_ok]
      left
      exact ⟨(hsame _).mp hroom, q, rfl, L', hq, by rw [hL', hrows]⟩
  · simp only [halloc, hmove, Outcome.andThen_ok]
    exact .inl ⟨hroom, q, rfl, hq⟩

/-- The free list answers the truncated length of a row that does not fit in sixteen bits. -/
def Truncated (L : Layout) (row : Row) : Prop :=
  u16Max < rowAllocationSize row.data.length ∧
    ∃ b ∈ L.blocks, asU16 (rowAllocationSize row.data.length) ≤ b.2

lemma not_truncated_of_le (h : rowAllocationSize row.data.length ≤ u16Max) : ¬ Truncated L row :=
  fun htruncated => absurd htruncated.1 (Nat.not_lt.mpr h)

lemma Holds.updateAllocateLenGreater_cases (row : Row) (h : Holds p L)
    (hs : L.slots[s.index]? = some (some (o, old))) :
    (Truncated L row ∧ (Page.updateAllocateLenGreater row.data s ⟨o, old.data.length⟩
        (rowAllocationSize old.data.length) (rowAllocationSize row.data.length)).run p = .panic) ∨
    ¬ Truncated L row ∧ Moved L s row ((Page.updateAllocateLenGreater row.data s ⟨o, old.data.length⟩
        (rowAllocationSize old.data.length) (rowAllocationSize row.data.length)).run p) := by
  have hi : s.index < L.slots.length := (List.getElem?_eq_some_iff.mp hs).1
  by_cases hlarge : pageSize < rowAllocationSize row.data.length
  · rcases h.stores.tryAllocateFromFreeBlock_large h.fits hlarge with
      ⟨hnone, hall⟩ | ⟨o', m, hmem, hm, ho', hsome⟩
    · right
      refine ⟨?_, h.moveOrCompact_moved row hs hnone⟩
      intro ⟨_, b, hb, hle⟩
      exact absurd (hall b hb) (Nat.not_lt.mpr hle)
    · -- the truncated request found a block, but the row does not end inside the page
      left
      have hb := h.fits.bounds (block_mem_regionsOf _ hmem)
      have hmax : u16Max < rowAllocationSize row.data.length := by
        by_contra hle
        simp only [asU16, u16Max, pageSize] at hle hm hb hlarge
        omega
      have hlen : rowAllocationSize row.data.length < row.data.length + 8 := by
        rw [rowAllocationSize_eq]
        split <;> omega
      simp only [headerSize] at ho'
      have hpanic : (Page.writeRowBytesAt o' row.data).run p = .panic := by
        rw [Page.writeRowBytesAt, if_pos (by omega), Exec.run_panic]
      refine ⟨⟨hmax, (o', m), hmem, hm⟩, ?_⟩
      simp only [Page.updateAllocateLenGreater, Exec.run_bind, hsome, Outcome.andThen_ok,
        Page.moveRow, hpanic, Outcome.andThen_panic]
  · have hn : rowAllocationSize row.data.length < 65536 := by
      simp only [pageSize] at hlarge
      omega
    right
    refine ⟨not_truncated_of_le (by simp only [u16Max]; omega), ?_⟩
    rcases h.stores.tryAllocateFromFreeBlock_eq h.fits (rowAllocationSize_dvd row.data.length)
      (rowAllocationSize_pos _) hn with ⟨hnone, -⟩ | ⟨o', p1, blocks', halloc, h1, hf1⟩
    · exact h.moveOrCompact_moved row hs hnone
    · obtain ⟨q, hmove, hq⟩ := moveRow_eq hs h1 hf1
      simp only [Page.updateAllocateLenGreater, Exec.run_bind, halloc, Outcome.andThen_ok, hmove]
      exact .inl ⟨hf1.room, q, rfl, updated_of_set hi hq⟩

/-- An update of a live row succeeds exactly if the new row takes the place of the old one or
there is room for both, unless it panics. -/
lemma Holds.updateRow_cases (row : Row) (h : Holds p L)
    (hs : L.slots[s.index]? = some (some (o, old))) :
    (Truncated L row ∧ (Page.updateRow s row).run p = .panic) ∨
    ¬ Truncated L row ∧
      (((rowAllocationSize row.data.length ≤ rowAllocationSize old.data.length ∨
          L.Room L.slots.length (rowAllocationSize row.data.length)) ∧
        ∃ q, (Page.updateRow s row).run p = .ok () q ∧ Updated L s row q) ∨
      ¬ (rowAllocationSize row.data.length ≤ rowAllocationSize old.data.length ∨
          L.Room L.slots.length (rowAllocationSize row.data.length)) ∧
        ∃ q L', (Page.updateRow s row).run p = .err .storageFull q ∧ Holds q L' ∧ L'.rows = L.rows) := by
  have hb := h.entry_bounds hs
  have hsmall (hle : rowAllocationSize row.data.length ≤ rowAllocationSize old.data.length) :
      ¬ Truncated L row :=
    not_truncated_of_le (by simp only [pageSize, u16Max] at hb ⊢; omega)
  simp only [Page.updateRow, Exec.run_bind, Exec.run_query, h.readSlot_live hs, Outcome.andThen_ok,
    Exec.run_gets, h.stores.freeEnd]
  rw [if_neg (by omega)]
  rcases hcmp : compare (rowAllocationSize row.data.length) (rowAllocationSize old.data.length)
    with _ | _ | _
  · have hlt := Nat.compare_eq_lt.mp hcmp
    obtain ⟨q, hrun, hq⟩ := h.updateAllocateLenLess_eq hs hlt
    exact .inr ⟨hsmall hlt.le, .inl ⟨.inl hlt.le, q, hrun, hq⟩⟩
  · have heq := Nat.compare_eq_eq.mp hcmp
    obtain ⟨q, hrun, hq⟩ := h.updateAllocateLenEqual_eq hs heq
    exact .inr ⟨hsmall heq.le, .inl ⟨.inl heq.le, q, hrun, hq⟩⟩
  · have hgt : ¬ rowAllocationSize row.data.length ≤ rowAllocationSize old.data.length :=
      Nat.not_le.mpr (Nat.compare_eq_gt.mp hcmp)
    rcases h.updateAllocateLenGreater_cases row hs with hpanic | ⟨hnot, ⟨hroom, hok⟩ | ⟨hfull, herr⟩⟩
    · exact .inl hpanic
    · exact .inr ⟨hnot, .inl ⟨.inr hroom, hok⟩⟩
    · exact .inr ⟨hnot, .inr ⟨not_or.mpr ⟨hgt, hfull⟩, herr⟩⟩

lemma Holds.updateRow_keepsPage (h : Holds p L) (s : SlotId) (row : Row) :
    ((Page.updateRow s row).run p).KeepsPage (lookup L.rows) fun _ m =>
      m = Function.update (lookup L.rows) s (some row) := by
  by_cases hlive : ∃ o old, L.slots[s.index]? = some (some (o, old))
  · obtain ⟨o, old, hs⟩ := hlive
    rcases h.updateRow_cases row hs with
      ⟨-, hrun⟩ | ⟨-, ⟨-, q, hrun, L', hq, hL'⟩ | ⟨-, q, L', hrun, hq, hrows⟩⟩
    · rw [hrun]
      trivial
    · rw [hrun]
      exact ⟨L', hq, hL'⟩
    · rw [hrun]
      exact ⟨L', hq, by rw [hrows]⟩
  · have hdead : p.readSlot s = .error .slotNotFound :=
      h.readSlot_dead fun x hx => hlive ⟨x.1, x.2, hx⟩
    simp only [Page.updateRow, Exec.run_bind, Exec.run_query, hdead, Outcome.andThen_err]
    exact ⟨L, h, rfl⟩

lemma Holds.deleteRow_eq (h : Holds p L) (hs : L.slots[s.index]? = some (some (o, old))) :
    ∃ q L', (Page.deleteRow s).run p = .ok () q ∧ Holds q L' ∧
      lookup L'.rows = Function.update (lookup L.rows) s none := by
  have hi : s.index < L.slots.length := (List.getElem?_eq_some_iff.mp hs).1
  obtain ⟨hst, hf⟩ := h.remove hs
  have hb := hf.bounds List.mem_cons_self
  simp only [pageSize] at hb
  have hc : asU16 (rowAllocationSize old.data.length) = rowAllocationSize old.data.length :=
    Nat.mod_eq_of_lt (by omega)
  obtain ⟨p1, hrun1, h1, hf1⟩ := hst.addFreeBlock_eq hf
  obtain ⟨p2, hrun2, h2⟩ := h1.writeSlot_eq (e := none) hf1 (List.Subset.refl _) hi (by decide)
    (by decide)
  refine ⟨p2, ⟨_, _, _⟩, ?_, ⟨h2, ?_⟩, lookup_set hi⟩
  · have hnone : slotOf none = Slot.tombstone := rfl
    rw [hnone] at hrun2
    simp only [Page.deleteRow, Exec.run_bind, Exec.run_query, h.readSlot_live hs, Outcome.andThen_ok,
      hc, hrun1, hrun2]
  · rw [List.length_set]
    exact hf1

lemma Holds.deleteRow_keepsPage (h : Holds p L) (s : SlotId) :
    ((Page.deleteRow s).run p).KeepsPage (lookup L.rows) fun _ m =>
      m = Function.update (lookup L.rows) s none := by
  by_cases hlive : ∃ o old, L.slots[s.index]? = some (some (o, old))
  · obtain ⟨o, old, hs⟩ := hlive
    obtain ⟨q, L', hrun, hq, hL'⟩ := h.deleteRow_eq hs
    rw [hrun]
    exact ⟨L', hq, hL'⟩
  · have hdead : p.readSlot s = .error .slotNotFound :=
      h.readSlot_dead fun x hx => hlive ⟨x.1, x.2, hx⟩
    simp only [Page.deleteRow, Exec.run_bind, Exec.run_query, hdead, Outcome.andThen_err]
    exact ⟨L, h, rfl⟩

end Update

/-- The empty page. -/
lemma holds_new : Holds Page.new ⟨[], [], pageSize⟩ := by
  have hcount : Page.new.slotCount = 0 := by
    rw [Page.slotCount, Page.new, Page.setFreeListHead, Page.setFreeEnd, Page.setFreeStart,
      Page.u16At_write_of_disjoint _ _ (by decide), Page.u16At_write_of_disjoint _ _ (by decide),
      Page.u16At_write_of_disjoint _ _ (by decide)]
    rfl
  have hstart : Page.new.freeStart = 8 := by
    rw [Page.freeStart, Page.new, Page.setFreeListHead, Page.setFreeEnd, Page.setFreeStart,
      Page.u16At_write_of_disjoint _ _ (by decide), Page.u16At_write_of_disjoint _ _ (by decide)]
    exact Page.u16At_write_self _ (by decide) (by decide)
  have hend : Page.new.freeEnd = pageSize := by
    rw [Page.freeEnd, Page.new, Page.setFreeListHead, Page.setFreeEnd,
      Page.u16At_write_of_disjoint _ _ (by decide)]
    exact Page.u16At_write_self _ (by decide) (by decide)
  have hhead : Page.new.freeListHead = u16Max := Page.u16At_write_self _ (by decide) (by decide)
  refine ⟨⟨hcount, hstart, hend, by simp, by simp [entries], hhead, trivial⟩, ⟨by decide, ?_, ?_⟩⟩
  · exact Tiles.nil _
  · simp [Layout.regions, regionsOf, entries]

end RdbRs
