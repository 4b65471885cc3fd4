import RdbRs.Storage.SlottedPageMap

/-!
# Runs of a slotted page

The page under any sequence of calls, each of which may fail.
-/

namespace RdbRs

/-- A call that changes the page. -/
inductive PageCall where
  | insertRow (row : Row)
  | updateRow (slotId : SlotId) (row : Row)
  | deleteRow (slotId : SlotId)
  | compact

namespace PageCall

/-- Runs the call and returns the slot it changed. -/
def exec : PageCall → PageM (Option SlotId)
  | insertRow row => do pure (some (← Page.insertRow row))
  | updateRow slotId row => do
    Page.updateRow slotId row
    pure (some slotId)
  | deleteRow slotId => do
    Page.deleteRow slotId
    pure (some slotId)
  | compact => do
    Page.compact
    pure none

/-- What the call leaves in the slot it changed. -/
def stored : PageCall → Option Row
  | insertRow row => some row
  | updateRow _ row => some row
  | deleteRow _ => none
  | compact => none

/-- The rows after a call that returned `Ok`. -/
def after (call : PageCall) (touched : Option SlotId) (m : SlotId → Option Row) :
    SlotId → Option Row :=
  fun s => if touched = some s then call.stored else m s

end PageCall

/-- The pages reached from `Page::new` by calls that return, each with the row last stored in
every slot and not deleted since. -/
inductive PageRun : Page → (SlotId → Option Row) → Prop where
  | new : PageRun Page.new fun _ => none
  | ok {p q : Page} {m : SlotId → Option Row} {call : PageCall} {touched : Option SlotId} :
      PageRun p m → call.exec.run p = .ok touched q → PageRun q (call.after touched m)
  | err {p q : Page} {m : SlotId → Option Row} {call : PageCall} {e : PageError} :
      PageRun p m → call.exec.run p = .err e q → PageRun q m

section Step

variable {p q : Page} {L : Layout} {call : PageCall}

lemma after_some (s : SlotId) (m : SlotId → Option Row) :
    call.after (some s) m = Function.update m s call.stored := by
  funext t
  by_cases ht : t = s
  · subst ht
    simp [PageCall.after]
  · rw [Function.update_of_ne ht, PageCall.after, if_neg (by simpa using Ne.symm ht)]

/-- One call on a page that holds a layout. -/
lemma Holds.exec_keepsPage (h : Holds p L) (call : PageCall) :
    (call.exec.run p).KeepsPage (lookup L.rows) fun touched m =>
      m = call.after touched (lookup L.rows) := by
  cases call with
  | insertRow row =>
    refine (h.insertRow_keepsPage row).andThen_ok some fun s m hm => ?_
    rw [after_some]
    exact hm.2
  | updateRow slotId row =>
    refine (h.updateRow_keepsPage slotId row).andThen_ok (fun _ => some slotId) fun _ m hm => ?_
    rw [after_some]
    exact hm
  | deleteRow slotId =>
    refine (h.deleteRow_keepsPage slotId).andThen_ok (fun _ => some slotId) fun _ m hm => ?_
    rw [after_some]
    exact hm
  | compact =>
    obtain ⟨q, L', hrun, hq, hrows, -⟩ := h.compact_eq
    rw [PageCall.exec, Exec.run_bind, hrun]
    exact ⟨L', hq, by rw [hrows]; rfl⟩

end Step

/-- Every page of a run holds a layout with the rows of the run. -/
lemma PageRun.holds {p : Page} {m : SlotId → Option Row} (h : PageRun p m) :
    ∃ L, Holds p L ∧ lookup L.rows = m := by
  induction h with
  | new => exact ⟨_, holds_new, rfl⟩
  | @ok p q m call touched _ hrun ih =>
    obtain ⟨L, hL, rfl⟩ := ih
    have hstep := hL.exec_keepsPage call
    rw [hrun] at hstep
    exact hstep
  | @err p q m call e _ hrun ih =>
    obtain ⟨L, hL, rfl⟩ := ih
    have hstep := hL.exec_keepsPage call
    rw [hrun] at hstep
    exact hstep

/-! ### The page as a map -/

section Map

variable {p : Page} {m : SlotId → Option Row}

lemma Holds.readRow_eq_lookup {L : Layout} (h : Holds p L) (s : SlotId) :
    p.readRow s = match lookup L.rows s with
      | some row => .ok row
      | none => .error .slotNotFound := by
  rw [h.readRow_eq, lookup]
  rcases L.rows[s.index]? with _ | _ | row <;> rfl

lemma PageRun.readRow_eq (h : PageRun p m) (s : SlotId) :
    p.readRow s = match m s with
      | some row => .ok row
      | none => .error .slotNotFound := by
  obtain ⟨L, hL, rfl⟩ := h.holds
  exact hL.readRow_eq_lookup s

lemma PageRun.insertRow_free (h : PageRun p m) {row : Row} {s : SlotId} {q : Page}
    (hrun : (Page.insertRow row).run p = .ok s q) : m s = none := by
  obtain ⟨L, hL, rfl⟩ := h.holds
  have hstep := hL.insertRow_keepsPage row
  rw [hrun] at hstep
  obtain ⟨L', -, hfree, -⟩ := hstep
  exact hfree

/-- The slots of `liveFrom` are ascending. -/
lemma liveFrom_pairwise (idx : Nat) (rows : List (Option Row)) (hn : idx + rows.length ≤ 65536) :
    (liveFrom idx rows).Pairwise (fun x y => x.1.index < y.1.index) ∧
      ∀ x ∈ liveFrom idx rows, idx ≤ x.1.index := by
  induction rows generalizing idx with
  | nil => simp [liveFrom]
  | cons r rest ih =>
    rw [List.length_cons] at hn
    obtain ⟨hpair, hge⟩ := ih (idx + 1) (by omega)
    have hi : (SlotId.new idx).index = idx := SlotId.index_new (by omega)
    cases r with
    | none => exact ⟨hpair, fun x hx => by have := hge x hx; omega⟩
    | some row =>
      rw [liveFrom]
      refine ⟨hpair.cons fun y hy => ?_, fun x hx => ?_⟩
      · rw [hi]
        have := hge y hy
        omega
      · rcases List.mem_cons.mp hx with rfl | hx
        · rw [hi]
        · have := hge x hx
          omega

lemma mem_liveFrom {idx : Nat} {rows : List (Option Row)} (hn : idx + rows.length ≤ 65536)
    {s : SlotId} {row : Row} : (s, row) ∈ liveFrom idx rows ↔
      idx ≤ s.index ∧ rows[s.index - idx]? = some (some row) := by
  induction rows generalizing idx with
  | nil => simp [liveFrom]
  | cons r rest ih =>
    rw [List.length_cons] at hn
    have hi : (SlotId.new idx).index = idx := SlotId.index_new (by omega)
    have hrest : (s, row) ∈ liveFrom (idx + 1) rest ↔
        idx + 1 ≤ s.index ∧ rest[s.index - (idx + 1)]? = some (some row) := ih (by omega)
    by_cases hs : s.index = idx
    · have hnew : s = SlotId.new idx := SlotId.index_injective (hs.trans hi.symm)
      have hno : (s, row) ∉ liveFrom (idx + 1) rest := fun hm => by
        have := (hrest.mp hm).1
        omega
      cases r with
      | none => simp [liveFrom, hno, hs]
      | some row' =>
        rw [liveFrom, List.mem_cons, or_iff_left hno, hnew, hi]
        simp [eq_comm]
    · have hne : s ≠ SlotId.new idx := fun heq => hs (by rw [heq, hi])
      have hshift : idx ≤ s.index ∧ (r :: rest)[s.index - idx]? = some (some row) ↔
          idx + 1 ≤ s.index ∧ rest[s.index - (idx + 1)]? = some (some row) := by
        by_cases hle : idx + 1 ≤ s.index
        · have hsub : s.index - idx = s.index - (idx + 1) + 1 := by omega
          rw [hsub, List.getElem?_cons_succ]
          simp only [hle, true_and, and_iff_right_iff_imp]
          omega
        · have : ¬ idx ≤ s.index := by omega
          simp [hle, this]
      rw [hshift, ← hrest]
      cases r with
      | none => rfl
      | some row' => simp [liveFrom, hne]

lemma PageRun.scanRows_eq (h : PageRun p m) : ∃ live, p.scanRows = .ok live ∧
    live.Pairwise (fun x y => x.1.index < y.1.index) ∧
    ∀ s row, (s, row) ∈ live ↔ m s = some row := by
  obtain ⟨L, hL, rfl⟩ := h.holds
  have hn : 0 + L.rows.length ≤ 65536 := by
    have := hL.length_slots_lt
    rw [L.length_rows]
    omega
  refine ⟨_, hL.scanRows_eq, (liveFrom_pairwise 0 _ hn).1, fun s row => ?_⟩
  rw [mem_liveFrom hn, lookup]
  rcases hr : L.rows[s.index]? with _ | _ | row' <;> simp

/-- A slotted page is a map from slots to rows. -/
theorem slottedPage_refines_map (h : PageRun p m) :
    (∀ s, p.readRow s = match m s with
      | some row => .ok row
      | none => .error .slotNotFound) ∧
    (∀ row s q, (Page.insertRow row).run p = .ok s q → m s = none) ∧
    (∀ (call : PageCall) touched q, call.exec.run p = .ok touched q →
      ∀ s, touched ≠ some s → q.readRow s = p.readRow s) ∧
    (∀ (call : PageCall) e q, call.exec.run p = .err e q → ∀ s, q.readRow s = p.readRow s) ∧
    ∃ live, p.scanRows = .ok live ∧ live.Pairwise (fun x y => x.1.index < y.1.index) ∧
      ∀ s row, (s, row) ∈ live ↔ m s = some row := by
  refine ⟨h.readRow_eq, fun row s q => h.insertRow_free, ?_, ?_, h.scanRows_eq⟩
  · intro call touched q hrun s hs
    have hq := PageRun.ok h hrun
    rw [hq.readRow_eq, h.readRow_eq, PageCall.after, if_neg hs]
  · intro call e q hrun s
    have hq := PageRun.err h hrun
    rw [hq.readRow_eq, h.readRow_eq]

/-- The page after two insertions and the deletion of the first row. -/
lemma exists_pageRun_deleted : ∃ (p₁ p₂ p₃ : Page) (m : SlotId → Option Row),
    (PageCall.insertRow ⟨[1, 2, 3]⟩).exec.run Page.new = .ok (some (SlotId.new 0)) p₁ ∧
    (PageCall.insertRow ⟨[4, 5, 6, 7, 8]⟩).exec.run p₁ = .ok (some (SlotId.new 1)) p₂ ∧
    (PageCall.deleteRow (SlotId.new 0)).exec.run p₂ = .ok (some (SlotId.new 0)) p₃ ∧
    PageRun p₃ m ∧ m (SlotId.new 0) = none ∧ m (SlotId.new 1) = some ⟨[4, 5, 6, 7, 8]⟩ ∧
    p₃.freeListHead = 8188 := by
  have h₁ : PageRun _ _ := @PageRun.ok _ _ _ (.insertRow ⟨[1, 2, 3]⟩) _ PageRun.new rfl
  have h₂ : PageRun _ _ := @PageRun.ok _ _ _ (.insertRow ⟨[4, 5, 6, 7, 8]⟩) _ h₁ rfl
  have h₃ : PageRun _ _ := @PageRun.ok _ _ _ (.deleteRow (SlotId.new 0)) _ h₂ rfl
  exact ⟨_, _, _, _, rfl, rfl, rfl, h₃, rfl, rfl, rfl⟩

/-- The row that is left is read and scanned, the deleted one is not. -/
theorem slottedPage_refines_map_deleted : ∃ (p₁ p₂ p₃ : Page) (live : List (SlotId × Row)),
    (PageCall.insertRow ⟨[1, 2, 3]⟩).exec.run Page.new = .ok (some (SlotId.new 0)) p₁ ∧
    (PageCall.insertRow ⟨[4, 5, 6, 7, 8]⟩).exec.run p₁ = .ok (some (SlotId.new 1)) p₂ ∧
    (PageCall.deleteRow (SlotId.new 0)).exec.run p₂ = .ok (some (SlotId.new 0)) p₃ ∧
    p₃.readRow (SlotId.new 0) = .error .slotNotFound ∧ p₃.readRow (SlotId.new 1) = .ok ⟨[4, 5, 6, 7, 8]⟩ ∧
    p₃.scanRows = .ok live ∧ (SlotId.new 1, ⟨[4, 5, 6, 7, 8]⟩) ∈ live ∧ ∀ row, (SlotId.new 0, row) ∉ live := by
  obtain ⟨p₁, p₂, p₃, m, hinsert, hinsert', hdelete, h, hnone, hsome, -⟩ := exists_pageRun_deleted
  obtain ⟨hread, -, -, -, live, hscan, -, hmem⟩ := slottedPage_refines_map h
  refine ⟨p₁, p₂, p₃, live, hinsert, hinsert', hdelete, ?_, ?_, hscan, (hmem _ _).mpr hsome, ?_⟩
  · rw [hread, hnone]
  · rw [hread, hsome]
  · intro row hrow
    rw [(hmem _ _).mp hrow] at hnone
    cases hnone

end Map

/-! ### The page as a tiling -/

section Space

variable {p : Page} {m : SlotId → Option Row}

/-- The blocks of the free list that starts at an offset, in its order. A finite list of distinct
blocks: the links never come back. -/
inductive FreeList (p : Page) : Nat → List (Nat × Nat) → Prop where
  | nil : FreeList p u16Max []
  | cons {offset : Nat} {block : FreeBlock} {rest : List (Nat × Nat)} :
      offset ≠ u16Max → p.readFreeBlock offset = .ok block → FreeList p block.next rest →
      offset ∉ rest.map Prod.fst → FreeList p offset ((offset, block.length) :: rest)

/-- The bytes the slot directory assigns to the live rows. -/
def allocations (p : Page) : List (Nat × Nat) :=
  (List.range p.slotCount).filterMap fun i =>
    match p.readSlot (SlotId.new i) with
    | .ok slot => some (slot.offset, rowAllocationSize slot.length)
    | .error _ => none

lemma Holds.allocations_eq {L : Layout} (h : Holds p L) :
    allocations p = (entries L.slots).map allocation := by
  have hn := h.length_slots_lt
  have hslots : (List.range L.slots.length).map (fun i => L.slots[i]?) = L.slots.map some := by
    apply List.ext_getElem (by simp)
    intro i hi hi'
    simp only [List.length_map, List.length_range] at hi
    simp [hi]
  have hread (i : Nat) (hi : i < L.slots.length) :
      (match p.readSlot (SlotId.new i) with
        | .ok slot => some (slot.offset, rowAllocationSize slot.length)
        | .error _ => none) = (L.slots[i]?).join.map allocation := by
    have hidx : (SlotId.new i).index = i := SlotId.index_new (by omega)
    rcases hs : L.slots[i]? with _ | _ | x
    · rw [h.readSlot_dead (by simp [hidx, hs])]
      rfl
    · rw [h.readSlot_dead (by simp [hidx, hs])]
      rfl
    · rw [h.readSlot_live (by rw [hidx]; exact hs)]
      rfl
  calc allocations p
      = (List.range L.slots.length).filterMap fun i => (L.slots[i]?).join.map allocation := by
        rw [allocations, h.stores.slotCount]
        exact List.filterMap_congr fun i hi => hread i (List.mem_range.mp hi)
    _ = (L.slots.map some).filterMap fun s => s.join.map allocation := by
        rw [← hslots, List.filterMap_map]
        rfl
    _ = (entries L.slots).map allocation := by
        rw [entries, List.filterMap_map, List.map_filterMap]
        rfl

lemma Stores.freeList {slots : List SlotEntry} {es : List (Nat × Row)} {freeEnd : Nat}
    (pre blocks : List (Nat × Nat)) (h : Stores p slots es (pre ++ blocks) freeEnd)
    (hf : Fits slots.length (regionsOf es (pre ++ blocks)) freeEnd) :
    FreeList p (headOr blocks u16Max) blocks := by
  induction blocks generalizing pre with
  | nil => exact FreeList.nil
  | cons b rest ih =>
    obtain ⟨o, n⟩ := b
    have hread := h.readFreeBlock_eq hf
    have hfront : Fits slots.length ((o, n) :: regionsOf es (pre ++ rest)) freeEnd :=
      hf.perm ((regionsOf_perm (List.Perm.refl es) List.perm_middle).trans regionsOf_cons_block)
    have hb := hfront.bounds List.mem_cons_self
    have hne : o ≠ u16Max := by
      simp only [pageSize, u16Max] at hb ⊢
      omega
    refine FreeList.cons hne hread ?_ ?_
    · have hassoc : pre ++ (o, n) :: rest = (pre ++ [(o, n)]) ++ rest := by simp
      rw [hassoc] at h hf
      exact ih _ h hf
    · intro hmem
      obtain ⟨⟨o', k⟩, hk, rfl⟩ := List.mem_map.mp hmem
      have hm := block_mem_regionsOf es (List.mem_append_right pre hk)
      have hap := hfront.apart hm
      have hbk := hfront.bounds (List.mem_cons_of_mem _ hm)
      simp only at hap hb hbk
      omega

/-- No byte of a slotted page is shared or leaked. -/
theorem slottedPage_space_tiled (h : PageRun p m) :
    p.freeStart = 8 + 4 * p.slotCount ∧ p.freeStart ≤ p.freeEnd ∧ p.freeEnd ≤ 8192 ∧
    ∃ blocks, FreeList p p.freeListHead blocks ∧ Tiles p.freeEnd (allocations p ++ blocks) 8192 := by
  obtain ⟨L, hL, -⟩ := h.holds
  have hd := hL.fits.directory
  simp only [headerSize, slotSize] at hd
  rw [hL.stores.freeStart, hL.stores.slotCount, hL.stores.freeEnd, hL.stores.head,
    hL.allocations_eq]
  refine ⟨rfl, hd, hL.fits.freeEnd_le, L.blocks, ?_, hL.fits.tiles⟩
  exact Stores.freeList [] L.blocks hL.stores hL.fits

/-- The bytes of the deleted row are on the free list, those of the other one are not. -/
theorem slottedPage_space_tiled_deleted : ∃ (p₁ p₂ p₃ : Page) (blocks : List (Nat × Nat)),
    (PageCall.insertRow ⟨[1, 2, 3]⟩).exec.run Page.new = .ok (some (SlotId.new 0)) p₁ ∧
    (PageCall.insertRow ⟨[4, 5, 6, 7, 8]⟩).exec.run p₁ = .ok (some (SlotId.new 1)) p₂ ∧
    (PageCall.deleteRow (SlotId.new 0)).exec.run p₂ = .ok (some (SlotId.new 0)) p₃ ∧
    p₃.freeListHead = 8188 ∧ FreeList p₃ 8188 blocks ∧ blocks ≠ [] ∧
    Tiles p₃.freeEnd (allocations p₃ ++ blocks) 8192 := by
  obtain ⟨p₁, p₂, p₃, m, hinsert, hinsert', hdelete, h, -, -, hhead⟩ := exists_pageRun_deleted
  obtain ⟨-, -, -, blocks, hlist, htiles⟩ := slottedPage_space_tiled h
  rw [hhead] at hlist
  refine ⟨p₁, p₂, p₃, blocks, hinsert, hinsert', hdelete, hhead, hlist, ?_, htiles⟩
  rintro rfl
  cases hlist

end Space

end RdbRs
