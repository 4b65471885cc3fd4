import RdbRs.Storage.SlottedPageSpec

/-!
# What the allocating and row-moving operations do

Each operation on the free list, on the row area or on a slot takes a page that stores some
content to a page that stores the content one expects, and keeps the tiling of the row area.
-/

namespace RdbRs

section FreeList

variable {p : Page} {slots : List SlotEntry} {es : List (Nat × Row)} {blocks : List (Nat × Nat)}
  {freeEnd : Nat}

lemma Stores.freeBlockOffset_of_bounds (h : Stores p slots es blocks freeEnd) {o : Nat}
    (hlo : freeEnd ≤ o) (hhi : o + 4 ≤ pageSize) : p.freeBlockOffset o = .ok o := by
  simp only [pageSize] at hhi
  rw [Page.freeBlockOffset, h.freeEnd,
    if_neg (by simp only [freeBlockSize, pageSize, u16Max]; omega)]

/-- Linking out the blocks between `pre` and `tail`. -/
lemma Stores.replaceFreeBlockLink_eq {pre old tail : List (Nat × Nat)} {b : Nat × Nat}
    (h : Stores p slots es (pre ++ old) freeEnd)
    (hf : Fits slots.length (b :: regionsOf es (pre ++ tail)) freeEnd)
    (ht : LinkedTo p tail u16Max) :
    ∃ q, (Page.replaceFreeBlockLink (lastOffset pre) (headOr tail u16Max)).run p = .ok () q ∧
      Stores q slots es (pre ++ tail) freeEnd := by
  rcases List.eq_nil_or_concat pre with rfl | ⟨front, ⟨o, n⟩, rfl⟩
  · refine ⟨_, rfl, ?_⟩
    exact h.setFreeListHead _ hf (List.subset_cons_self _ _) ht
  · have hsplit : (front ++ [(o, n)]) ++ tail = front ++ (o, n) :: tail := by simp
    have hold : (front ++ [(o, n)]) ++ old = front ++ (o, n) :: old := by simp
    rw [List.concat_eq_append, hsplit] at hf ⊢
    rw [List.concat_eq_append, hold] at h
    have hfo : Fits slots.length ((o, n) :: b :: regionsOf es (front ++ tail)) freeEnd := by
      refine hf.perm ?_
      refine (List.Perm.cons b ?_).trans (List.Perm.swap _ _ _)
      exact (regionsOf_perm (List.Perm.refl es) List.perm_middle).trans regionsOf_cons_block
    have hbo := hfo.bounds List.mem_cons_self
    simp only at hbo
    have hoff : p.freeBlockOffset o = .ok o := h.freeBlockOffset_of_bounds hbo.2.1 (by omega)
    have hlink := linkedTo_append.mp h.linked
    have hread : p.readFreeBlock o = .ok ⟨headOr old u16Max, n⟩ := by
      rw [Page.readFreeBlock, hoff]
      exact congrArg Except.ok hlink.2.1
    have hlen := FreeBlock.length_toBytes ⟨headOr tail u16Max, n⟩
    have hlast : lastOffset (front ++ [(o, n)]) = some o := by simp [lastOffset]
    refine ⟨p.write o (FreeBlock.toBytes ⟨headOr tail u16Max, n⟩), ?_, ?_⟩
    · simp only [hlast, Page.replaceFreeBlockLink, Page.writeFreeBlock, Exec.run_bind,
        Exec.run_query, hread, hoff, Outcome.andThen_ok, Exec.run_modify]
    · have hapart {c : Nat × Nat} (hc : c ∈ front ++ tail) : c.1 + 4 ≤ o ∨ o + 4 ≤ c.1 := by
        have hm := List.mem_cons_of_mem b (block_mem_regionsOf es hc)
        have hap := hfo.apart hm
        have hc4 := hfo.bounds (List.mem_cons_of_mem _ hm)
        simp only at hap
        omega
      have hrow {x : Nat × Row} (hx : x ∈ es) : x.1 + x.2.data.length ≤ o ∨ o + 4 ≤ x.1 := by
        have hap := hfo.apart (List.mem_cons_of_mem b (allocation_mem_regionsOf hx))
        have hle := le_rowAllocationSize x.2.data.length
        simp only [allocation] at hap
        omega
      refine h.write_linked hbo.1 (fun x hx => by rw [hlen]; exact hrow hx)
        (by rw [headOr_append, headOr_append]; rfl) (linkedTo_append.mpr ⟨?_, ?_, ?_⟩)
      · refine LinkedTo.write hlink.1 (fun c hc => ?_)
        rw [hlen]
        exact hapart (List.mem_append_left _ hc)
      · have hself := Page.slice_write_self p (a := o)
          (FreeBlock.toBytes ⟨headOr tail u16Max, n⟩) (by rw [hlen]; omega)
        rw [hlen] at hself
        have htail : headOr tail u16Max < 65536 := hf.headOr_lt fun c hc =>
          List.mem_cons_of_mem b (block_mem_regionsOf _ (by simp [hc]))
        have hn : n < 65536 := by
          simp only [pageSize] at hbo
          omega
        change FreeBlock.fromBytes (Page.slice _ _ 4) = _
        rw [hself, FreeBlock.fromBytes_toBytes htail hn]
      · refine LinkedTo.write ht (fun c hc => ?_)
        rw [hlen]
        exact hapart (List.mem_append_right _ hc)

/-- The first block of the list that is large enough gives its front part. -/
lemma Stores.tryAllocateFromFreeBlock_eq {n : Nat} (h : Stores p slots es blocks freeEnd)
    (hf : Fits slots.length (regionsOf es blocks) freeEnd) (h4 : 4 ∣ n) (hpos : 0 < n)
    (hn : n < 65536) :
    ((Page.tryAllocateFromFreeBlock n).run p = .ok none p ∧ ∀ b ∈ blocks, b.2 < n) ∨
    ∃ o q blocks', (Page.tryAllocateFromFreeBlock n).run p = .ok (some o) q ∧
      Stores q slots es blocks' freeEnd ∧
      Fits slots.length ((o, n) :: regionsOf es blocks') freeEnd := by
  have hu : asU16 n = n := Nat.mod_eq_of_lt hn
  rcases h.findFreeBlock_eq n hf with ⟨hnone, hall⟩ | ⟨pre, o, m, post, rfl, hm, -, hfind⟩
  · left
    refine ⟨?_, hall⟩
    simp only [Page.tryAllocateFromFreeBlock, Exec.run_bind, hu, hnone, Outcome.andThen_ok,
      Exec.run_pure]
  right
  have hfo : Fits slots.length ((o, m) :: regionsOf es (pre ++ post)) freeEnd :=
    hf.perm ((regionsOf_perm (List.Perm.refl es) List.perm_middle).trans regionsOf_cons_block)
  have hbo := hfo.bounds List.mem_cons_self
  simp only [pageSize] at hbo
  have hlink := (linkedTo_append.mp h.linked).2
  rcases Nat.lt_or_eq_of_le hm with hlt | rfl
  · -- the block is larger: its rear part takes its place in the list
    obtain ⟨k, rfl⟩ : ∃ k, m = n + k := ⟨m - n, by omega⟩
    have hk4 : 4 ∣ k := (Nat.dvd_add_right h4).mp (hfo.aligned _ List.mem_cons_self)
    have hcut : Fits slots.length ((o, n) :: regionsOf es (pre ++ (o + n, k) :: post)) freeEnd := by
      refine (hfo.split h4 hpos (by omega)).perm (List.Perm.cons _ ?_)
      exact regionsOf_cons_block.symm.trans
        (regionsOf_perm (List.Perm.refl es) List.perm_middle.symm)
    let rear : FreeBlock := ⟨headOr post u16Max, k⟩
    have hlen : rear.toBytes.length = 4 := FreeBlock.length_toBytes rear
    have hw : Stores (p.write (o + n) rear.toBytes) slots es (pre ++ (o, n + k) :: post) freeEnd := by
      have hn4 := Nat.le_of_dvd hpos h4
      have hk := Nat.le_of_dvd (by omega) hk4
      refine h.write_above (by omega) (fun x hx => ?_) (fun c hc => ?_)
      · have hap := hfo.apart (allocation_mem_regionsOf hx)
        have hle := le_rowAllocationSize x.2.data.length
        simp only [allocation] at hap
        omega
      · rcases List.mem_cons.mp (List.perm_middle.mem_iff.mp hc) with rfl | hc
        · left
          simp only
          omega
        · have hm := block_mem_regionsOf es hc
          have hap := hfo.apart hm
          have hc4 := hfo.bounds (List.mem_cons_of_mem _ hm)
          simp only at hap
          omega
    have hbr := hcut.bounds
      (List.mem_cons_of_mem _ (block_mem_regionsOf es (b := (o + n, k)) (by simp)))
    simp only [pageSize] at hbr
    have htail : LinkedTo (p.write (o + n) rear.toBytes) ((o + n, k) :: post) u16Max := by
      refine ⟨?_, (linkedTo_append.mp hw.linked).2.2⟩
      have hself := Page.slice_write_self p rear.toBytes (a := o + n)
        (by simp only [hlen, pageSize]; omega)
      rw [hlen] at hself
      have hpost : headOr post u16Max < 65536 := hfo.headOr_lt fun c hc =>
        List.mem_cons_of_mem _ (block_mem_regionsOf _ (by simp [hc]))
      have hk : k < 65536 := by omega
      change FreeBlock.fromBytes (Page.slice _ _ 4) = _
      rw [hself, FreeBlock.fromBytes_toBytes hpost hk]
    obtain ⟨q, hrun, hq⟩ := hw.replaceFreeBlockLink_eq hcut htail
    refine ⟨o, q, pre ++ (o + n, k) :: post, ?_, hq, hcut⟩
    have hoff : p.freeBlockOffset (o + n) = .ok (o + n) :=
      h.freeBlockOffset_of_bounds hbr.2.1 (by simp only [pageSize]; omega)
    have hrest : asU16 (n + k - n) = k := by
      rw [Nat.add_sub_cancel_left, asU16]
      omega
    have hcast : asU16 (o + n) = o + n := by
      rw [asU16]
      omega
    simp only [Page.tryAllocateFromFreeBlock, Exec.run_bind, hu, hfind, Outcome.andThen_ok, hlt,
      gt_iff_lt, if_true, hrest, hcast, Page.writeFreeBlock, Exec.run_query, hoff, Exec.run_modify]
    rw [show (p.write (o + n) (FreeBlock.toBytes ⟨headOr post u16Max, k⟩)) =
      p.write (o + n) rear.toBytes from rfl]
    simp only [headOr] at hrun
    simp only [hrun, Outcome.andThen_ok, Exec.run_pure]
  · -- the block fits exactly: it leaves the list
    obtain ⟨q, hrun, hq⟩ := h.replaceFreeBlockLink_eq hfo hlink.2
    refine ⟨o, q, pre ++ post, ?_, hq, hfo⟩
    simp only [Page.tryAllocateFromFreeBlock, Exec.run_bind, hu, hfind, Outcome.andThen_ok,
      Nat.lt_irrefl, gt_iff_lt, if_false, if_true, Exec.run_pure, hrun]

/-- A request that does not fit in sixteen bits leaves the page alone, whichever way its
truncated length is answered. -/
lemma Stores.tryAllocateFromFreeBlock_large {n : Nat} (h : Stores p slots es blocks freeEnd)
    (hf : Fits slots.length (regionsOf es blocks) freeEnd) (hn : pageSize < n) :
    ((Page.tryAllocateFromFreeBlock n).run p = .ok none p ∧ ∀ b ∈ blocks, b.2 < asU16 n) ∨
      ∃ o m, (o, m) ∈ blocks ∧ asU16 n ≤ m ∧ headerSize ≤ o ∧
        (Page.tryAllocateFromFreeBlock n).run p = .ok (some o) p := by
  rcases h.findFreeBlock_eq (asU16 n) hf with ⟨hnone, hall⟩ | ⟨pre, o, m, post, rfl, hm, -, hfind⟩
  · left
    refine ⟨?_, hall⟩
    simp only [Page.tryAllocateFromFreeBlock, Exec.run_bind, hnone, Outcome.andThen_ok,
      Exec.run_pure]
  · right
    have hb := hf.bounds (block_mem_regionsOf _ (b := (o, m)) (by simp))
    simp only at hb
    refine ⟨o, m, by simp, hm, by omega, ?_⟩
    simp only [Page.tryAllocateFromFreeBlock, Exec.run_bind, hfind, Outcome.andThen_ok]
    rw [if_neg (by omega), if_neg (by omega), Exec.run_pure]

/-- A region that holds nothing becomes the first block of the free list. -/
lemma Stores.addFreeBlock_eq {o n : Nat} (h : Stores p slots es blocks freeEnd)
    (hf : Fits slots.length ((o, n) :: regionsOf es blocks) freeEnd) :
    ∃ q, (Page.addFreeBlock o n).run p = .ok () q ∧ Stores q slots es ((o, n) :: blocks) freeEnd ∧
      Fits slots.length (regionsOf es ((o, n) :: blocks)) freeEnd := by
  have hb := hf.bounds List.mem_cons_self
  simp only [pageSize] at hb
  have hoff : p.freeBlockOffset o = .ok o :=
    h.freeBlockOffset_of_bounds hb.2.1 (by simp only [pageSize]; omega)
  have hfit : Fits slots.length (regionsOf es ((o, n) :: blocks)) freeEnd :=
    hf.perm regionsOf_cons_block.symm
  let block : FreeBlock := ⟨headOr blocks u16Max, n⟩
  have hlen : block.toBytes.length = 4 := FreeBlock.length_toBytes block
  have hw : Stores (p.write o block.toBytes) slots es blocks freeEnd :=
    h.write_region hf (by omega)
  have hlink : LinkedTo (p.write o block.toBytes) ((o, n) :: blocks) u16Max := by
    refine ⟨?_, hw.linked⟩
    have hself := Page.slice_write_self p block.toBytes (a := o)
      (by simp only [hlen, pageSize]; omega)
    rw [hlen] at hself
    have hhead : headOr blocks u16Max < 65536 := hf.headOr_lt fun c hc =>
      List.mem_cons_of_mem _ (block_mem_regionsOf _ hc)
    have hn : n < 65536 := by omega
    change FreeBlock.fromBytes (Page.slice _ _ 4) = _
    rw [hself, FreeBlock.fromBytes_toBytes hhead hn]
  refine ⟨Page.setFreeListHead o (p.write o block.toBytes), ?_,
    hw.setFreeListHead _ hfit (List.Subset.refl _) hlink, hfit⟩
  simp only [Page.addFreeBlock, Exec.run_bind, Exec.run_gets, h.head, Outcome.andThen_ok,
    Page.writeFreeBlock, Exec.run_query, hoff, Exec.run_modify]
  rfl

/-- The row area grows downwards, if the slot directory leaves the room. -/
lemma Stores.tryAllocateFromFreeEnd_eq {n : Nat} (h : Stores p slots es blocks freeEnd)
    (hf : Fits slots.length (regionsOf es blocks) freeEnd) (h4 : 4 ∣ n) (hpos : 0 < n) :
    ((Page.tryAllocateFromFreeEnd n).run p = .ok none p ∧
      freeEnd < headerSize + slotSize * slots.length + n) ∨
    ∃ o q, (Page.tryAllocateFromFreeEnd n).run p = .ok (some o) q ∧ n ≤ pageSize ∧
      Stores q slots es blocks o ∧ Fits slots.length ((o, n) :: regionsOf es blocks) o := by
  have hspace := h.freeSpace_eq hf
  have hd := hf.directory
  have hend := hf.freeEnd_le
  simp only [Page.tryAllocateFromFreeEnd, Exec.run_bind, Exec.run_query, hspace,
    Outcome.andThen_ok, gt_iff_lt]
  by_cases hn : freeEnd - (headerSize + slotSize * slots.length) < n
  · left
    rw [if_pos hn, Exec.run_pure]
    exact ⟨rfl, by omega⟩
  · right
    simp only [pageSize] at hend
    have hu : asU16 n = n := Nat.mod_eq_of_lt (by omega)
    have hfit : Fits slots.length ((freeEnd - n, n) :: regionsOf es blocks) (freeEnd - n) :=
      hf.cons_front h4 hpos (by omega)
    refine ⟨freeEnd - n, Page.setFreeEnd (freeEnd - n) p, ?_, by simp only [pageSize]; omega,
      h.setFreeEnd hfit (List.subset_cons_self _ _) (by omega), hfit⟩
    rw [if_neg hn]
    simp only [Exec.run_bind, Exec.run_gets, Outcome.andThen_ok, h.freeEnd, hu]
    rw [if_neg (by omega)]
    rfl

end FreeList

/-! ### Rows -/

section Rows

variable {p : Page} {slots : List SlotEntry} {es : List (Nat × Row)} {blocks : List (Nat × Nat)}
  {freeEnd lo : Nat}

lemma SlotId.slotOffset_eq {s : SlotId} (h : headerSize + slotSize * (s.index + 1) ≤ pageSize) :
    slotOffset s = .ok (headerSize + slotSize * s.index) := by
  simp only [headerSize, slotSize, pageSize] at h
  unfold slotOffset
  exact if_neg (by simp only [headerSize, slotSize, pageSize]; omega)

/-- A row region has an entry that fits a slot. -/
lemma Fits.slotOf_lt {n o m : Nat} {regions : List (Nat × Nat)} {row : Row}
    (hf : Fits n ((o, m) :: regions) lo) (hm : row.data.length ≤ m) :
    (slotOf (some (o, row))).offset < 65536 ∧ (slotOf (some (o, row))).length < 65536 := by
  have hb := hf.bounds List.mem_cons_self
  simp only [pageSize] at hb
  simp only [slotOf]
  omega

lemma Stores.writeRowBytesAt_eq {o m : Nat} {row : Row} (h : Stores p slots es blocks freeEnd)
    (hf : Fits slots.length ((o, m) :: regionsOf es blocks) lo) (hm : row.data.length ≤ m) :
    ∃ q, (Page.writeRowBytesAt o row.data).run p = .ok () q ∧
      Stores q slots ((o, row) :: es) blocks freeEnd := by
  have hb := hf.bounds List.mem_cons_self
  simp only at hb
  refine ⟨p.write o row.data, ?_, h.write_row hf hm⟩
  rw [Page.writeRowBytesAt, if_neg (by omega), Exec.run_modify]

lemma Stores.writeSlot_eq {s : SlotId} {e : SlotEntry} {regions : List (Nat × Nat)}
    (h : Stores p slots es blocks freeEnd) (hf : Fits slots.length regions lo)
    (hs : regionsOf es blocks ⊆ regions) (hi : s.index < slots.length)
    (ho : (slotOf e).offset < 65536) (hl : (slotOf e).length < 65536) :
    ∃ q, (Page.writeSlot s (slotOf e)).run p = .ok () q ∧
      Stores q (slots.set s.index e) es blocks freeEnd := by
  have hd := hf.directory
  have hend := hf.freeEnd_le
  have hoff : slotOffset s = .ok (headerSize + slotSize * s.index) :=
    SlotId.slotOffset_eq (by simp only [headerSize, slotSize] at hd ⊢; omega)
  refine ⟨_, ?_, h.write_slot hf hs hi ho hl⟩
  simp only [Page.writeSlot, Exec.run_bind, Exec.run_liftExcept, hoff, Outcome.andThen_ok,
    Exec.run_modify]

lemma Stores.addSlot_eq {e : SlotEntry} {regions : List (Nat × Nat)}
    (h : Stores p slots es blocks freeEnd) (hf : Fits (slots.length + 1) regions lo)
    (hs : regionsOf es blocks ⊆ regions) (hlo : lo ≤ freeEnd)
    (ho : (slotOf e).offset < 65536) (hl : (slotOf e).length < 65536) :
    ∃ q, (Page.addSlot (slotOf e)).run p = .ok (SlotId.new slots.length) q ∧
      Stores q (slots ++ [e]) es blocks freeEnd := by
  have hd := hf.directory
  have hend := hf.freeEnd_le
  simp only [headerSize, slotSize, pageSize] at hd hend
  have hi : (SlotId.new slots.length).index = slots.length := SlotId.index_new (by omega)
  have hoff : slotOffset (SlotId.new slots.length) = .ok (headerSize + slotSize * slots.length) := by
    have := SlotId.slotOffset_eq (s := SlotId.new slots.length)
      (by simp only [hi, headerSize, slotSize, pageSize]; omega)
    rwa [hi] at this
  refine ⟨_, ?_, h.add_slot hf hs ho hl⟩
  simp only [Page.addSlot, Exec.run_bind, Exec.run_gets, Outcome.andThen_ok, h.freeStart, h.freeEnd]
  rw [if_neg (by simp only [headerSize, slotSize, u16Max]; omega),
    if_neg (by simp only [headerSize, slotSize]; omega)]
  simp only [Exec.run_bind, Exec.run_gets, Outcome.andThen_ok, h.slotCount, Page.writeSlot,
    Exec.run_liftExcept, hoff, Exec.run_modify]
  rw [if_neg (by simp only [u16Max]; omega)]
  rfl

/-- `slots'` is `slots` with the row `x` in the slot `s`, which held none. -/
structure Placed (slots : List SlotEntry) (s : SlotId) (x : Nat × Row) (slots' : List SlotEntry) :
    Prop where
  free : ∀ y, slots[s.index]? ≠ some (some y)
  get : ∀ i, slots'[i]? = if i = s.index then some (some x) else slots[i]?
  entries : (entries slots').Perm (x :: entries slots)

lemma Placed.set {s : SlotId} {x : Nat × Row} (hs : slots[s.index]? = some none) :
    Placed slots s x (slots.set s.index (some x)) := by
  have hi : s.index < slots.length := (List.getElem?_eq_some_iff.mp hs).1
  refine ⟨by simp [hs], fun i => ?_, ?_⟩
  · by_cases h : i = s.index
    · rw [if_pos h, h, List.getElem?_set_self hi]
    · rw [if_neg h, List.getElem?_set_ne (Ne.symm h)]
  · have hp := entries_set_some_perm (x := x) hi
    rwa [set_none_eq_self hs] at hp

lemma Placed.concat {x : Nat × Row} (hn : slots.length < 65536) :
    Placed slots (SlotId.new slots.length) x (slots ++ [some x]) := by
  have hi : (SlotId.new slots.length).index = slots.length := SlotId.index_new hn
  refine ⟨by simp [hi], fun i => ?_, ?_⟩
  · rw [hi]
    rcases Nat.lt_trichotomy i slots.length with h | rfl | h
    · rw [if_neg (by omega), List.getElem?_append_left h]
    · simp
    · rw [if_neg (by omega), List.getElem?_eq_none (by simp; omega),
        List.getElem?_eq_none (by omega)]
  · rw [entries_append_some]
    exact List.perm_append_comm

/-- The tombstone an insertion is to reuse is one. -/
def IsTombstone (slots : List SlotEntry) (t : Option SlotId) : Prop :=
  ∀ s, t = some s → slots[s.index]? = some none

/-- The length of the slot directory after an insertion. -/
def slotsAfter (slots : List SlotEntry) (t : Option SlotId) : Nat :=
  if t.isSome then slots.length else slots.length + 1

/-- A row and its slot, written into a region that is reserved for them. -/
lemma Stores.writeRowAt_eq {o : Nat} {row : Row} {t : Option SlotId}
    (h : Stores p slots es blocks freeEnd) (ht : IsTombstone slots t) (hlo : lo ≤ freeEnd)
    (hf : Fits (slotsAfter slots t) ((o, rowAllocationSize row.data.length) :: regionsOf es blocks)
      lo) :
    ∃ s q slots', (Page.writeRowAt o row.data t).run p = .ok s q ∧
      Placed slots s (o, row) slots' ∧ slots'.length = slotsAfter slots t ∧
      Stores q slots' ((o, row) :: es) blocks freeEnd := by
  have hle := le_rowAllocationSize row.data.length
  have hlt := hf.slotOf_lt hle
  have hlen : asU16 row.data.length = row.data.length := Nat.mod_eq_of_lt hlt.2
  have hsub := List.subset_cons_self (o, rowAllocationSize row.data.length) (regionsOf es blocks)
  cases t with
  | some s =>
    have hs := ht s rfl
    have hi : s.index < slots.length := (List.getElem?_eq_some_iff.mp hs).1
    have hfs : Fits slots.length ((o, rowAllocationSize row.data.length) :: regionsOf es blocks) lo :=
      hf
    obtain ⟨p1, hrun1, h1⟩ := h.writeSlot_eq hfs hsub hi hlt.1 hlt.2
    obtain ⟨q, hrun2, hq⟩ := h1.writeRowBytesAt_eq (by simpa using hfs) hle
    refine ⟨s, q, _, ?_, Placed.set hs, by simp [slotsAfter], hq⟩
    simp only [Page.writeRowAt, hlen, Exec.run_bind]
    simp only [slotOf] at hrun1
    simp only [hrun1, hrun2, Outcome.andThen_ok, Exec.run_pure]
  | none =>
    have hfs : Fits (slots.length + 1)
        ((o, rowAllocationSize row.data.length) :: regionsOf es blocks) lo := hf
    have hd := hfs.directory
    have hend := hfs.freeEnd_le
    simp only [headerSize, slotSize, pageSize] at hd hend
    obtain ⟨p1, hrun1, h1⟩ := h.addSlot_eq hfs hsub hlo hlt.1 hlt.2
    obtain ⟨q, hrun2, hq⟩ := h1.writeRowBytesAt_eq (by simpa using hfs) hle
    refine ⟨_, q, _, ?_, Placed.concat (by omega), by simp [slotsAfter], hq⟩
    simp only [Page.writeRowAt, hlen, Exec.run_bind]
    simp only [slotOf] at hrun1
    simp only [hrun1, hrun2, Outcome.andThen_ok, Exec.run_pure]

end Rows

end RdbRs
