import RdbRs.Storage.FreeListSearch
import RdbRs.Storage.SlottedPageSpace

/-!
# Damaged pages

What the page operations do on a page of any bytes. Slots and free blocks are checked where they are
read. What is not checked is the length of a free block, an end of the free list, an upper bound of
`free_end` and the sum of the row lengths: from these an operation does not come back.
-/

namespace RdbRs

namespace Page

/-! ### Writing rows -/

/-- There is an entry of the directory to write: the one of a tombstone, or a new one. -/
def SlotRoom (p : Page) : Option SlotId → Prop
  | some slotId => ∃ offset, slotOffset slotId = .ok offset
  | none => p.freeStart + slotSize ≤ p.freeEnd ∧ ∃ offset, slotOffset (SlotId.new p.slotCount) = .ok offset

section Rows

variable {p : Page} {slotId : SlotId} {slot : Slot} {bytes : List UInt8} {tombstone : Option SlotId}
  {offset length n : Nat}

lemma writeRowBytesAt_cases : (offset + bytes.length ≤ pageSize ∧
      ∃ q, (writeRowBytesAt offset bytes).run p = .ok () q) ∨
    (¬offset + bytes.length ≤ pageSize ∧ (writeRowBytesAt offset bytes).run p = .panic) := by
  unfold writeRowBytesAt
  by_cases hle : offset + bytes.length > pageSize
  · rw [if_pos hle]
    exact Or.inr ⟨by omega, rfl⟩
  · rw [if_neg hle]
    exact Or.inl ⟨by omega, _, rfl⟩

lemma writeSlot_cases : (∃ q, (writeSlot slotId slot).run p = .ok () q) ∨
    ∃ e, (writeSlot slotId slot).run p = .err e p := by
  unfold writeSlot
  cases slotOffset slotId with
  | ok o => exact Or.inl ⟨_, rfl⟩
  | error e => exact Or.inr ⟨e, rfl⟩

lemma writeSlot_ok (h : slotOffset slotId = .ok offset) :
    ∃ q, (writeSlot slotId slot).run p = .ok () q := by
  unfold writeSlot
  rw [h]
  exact ⟨_, rfl⟩

lemma slotOffset_eq_ok (h : slotOffset slotId = .ok offset) :
    headerSize + slotSize * slotId.index + slotSize ≤ pageSize := by
  unfold slotOffset at h
  dsimp only at h
  split at h
  · cases h
  · omega

lemma writeSlot_err {e : PageError} (h : slotOffset slotId = .error e) :
    (writeSlot slotId slot).run p = .err e p := by
  unfold writeSlot
  rw [h]
  rfl

lemma slotOffset_error {e : PageError} (h : slotOffset slotId = .error e) : e = .slotOffsetOutOfBounds := by
  unfold slotOffset at h
  dsimp only at h
  split at h
  · cases h
    rfl
  · cases h

lemma freeEnd_lt : p.freeEnd < 65536 := u16At_lt p 4

/-- A slot that is added lies in the page, so there is a number left for the next one. -/
lemma addSlot_cases : (p.SlotRoom none ∧ ∃ s q, (addSlot slot).run p = .ok s q) ∨
    (¬p.SlotRoom none ∧ ∃ e, (addSlot slot).run p = .err e p ∧
      (p.freeStart + slotSize ≤ p.freeEnd → e ≠ .storageFull)) := by
  have hend := @freeEnd_lt p
  unfold addSlot
  simp only [Exec.run_bind, Exec.run_gets, Outcome.andThen_ok]
  by_cases hover : p.freeStart + slotSize > u16Max
  · rw [if_pos hover]
    refine Or.inr ⟨?_, _, rfl, ?_⟩
    · intro hroom
      have := hroom.1
      simp only [u16Max] at hover
      omega
    · intro _ heq
      cases heq
  · rw [if_neg hover]
    by_cases hfull : p.freeStart + slotSize > p.freeEnd
    · rw [if_pos hfull]
      refine Or.inr ⟨?_, _, rfl, ?_⟩
      · intro hroom
        have := hroom.1
        omega
      · intro hle
        omega
    · rw [if_neg hfull]
      simp only [Exec.run_bind, Exec.run_gets, Outcome.andThen_ok]
      cases hoffset : slotOffset (SlotId.new p.slotCount) with
      | error e =>
        rw [writeSlot_err hoffset]
        refine Or.inr ⟨?_, e, rfl, ?_⟩
        · intro hroom
          obtain ⟨o, ho⟩ := hroom.2
          rw [hoffset] at ho
          cases ho
        · intro _ heq
          rw [slotOffset_error hoffset] at heq
          cases heq
      | ok o =>
        obtain ⟨q, hq⟩ := @writeSlot_ok p (SlotId.new p.slotCount) slot o hoffset
        have hcount : ¬p.slotCount + 1 > u16Max := by
          have hle := slotOffset_eq_ok hoffset
          have hlt : p.slotCount < 65536 := u16At_lt p 0
          rw [SlotId.index_new hlt] at hle
          simp only [headerSize, slotSize, pageSize, u16Max] at *
          omega
        rw [hq, Outcome.andThen_ok, if_neg hcount]
        exact Or.inl ⟨⟨by omega, o, hoffset⟩, _, _, rfl⟩

/-- The slot is written first; the row panics if it does not end in the page. -/
lemma writeRowAt_cases : (p.SlotRoom tombstone ∧ offset + bytes.length ≤ pageSize ∧
      ∃ s q, (writeRowAt offset bytes tombstone).run p = .ok s q) ∨
    (p.SlotRoom tombstone ∧ ¬offset + bytes.length ≤ pageSize ∧
      (writeRowAt offset bytes tombstone).run p = .panic) ∨
    (¬p.SlotRoom tombstone ∧ ∃ e, (writeRowAt offset bytes tombstone).run p = .err e p ∧
      ((tombstone = none → p.freeStart + slotSize ≤ p.freeEnd) → e ≠ .storageFull)) := by
  unfold writeRowAt
  cases tombstone with
  | none =>
    simp only [Exec.run_bind]
    cases @addSlot_cases p ⟨offset, asU16 bytes.length⟩ with
    | inl hok =>
      have ⟨hroom, s, q, hq⟩ := hok
      rw [hq, Outcome.andThen_ok]
      cases @writeRowBytesAt_cases q bytes offset with
      | inl hfits =>
        have ⟨hle, q', hq'⟩ := hfits
        rw [hq']
        exact Or.inl ⟨hroom, hle, s, q', rfl⟩
      | inr hpanic =>
        rw [hpanic.2]
        exact Or.inr (Or.inl ⟨hroom, hpanic.1, rfl⟩)
    | inr herr =>
      have ⟨hroom, e, he, hne⟩ := herr
      rw [he]
      exact Or.inr (Or.inr ⟨hroom, e, rfl, fun hle => hne (hle trivial)⟩)
  | some s =>
    simp only [Exec.run_bind]
    cases hoffset : slotOffset s with
    | ok o =>
      have ⟨q, hq⟩ := @writeSlot_ok p s ⟨offset, asU16 bytes.length⟩ o hoffset
      rw [hq, Outcome.andThen_ok]
      simp only [Exec.run_pure, Outcome.andThen_ok]
      cases @writeRowBytesAt_cases q bytes offset with
      | inl hfits =>
        have ⟨hle, q', hq'⟩ := hfits
        rw [hq']
        exact Or.inl ⟨⟨o, hoffset⟩, hle, s, q', rfl⟩
      | inr hpanic =>
        rw [hpanic.2]
        exact Or.inr (Or.inl ⟨⟨o, hoffset⟩, hpanic.1, rfl⟩)
    | error e =>
      rw [writeSlot_err hoffset]
      refine Or.inr (Or.inr ⟨?_, e, rfl, ?_⟩)
      · intro ⟨o, ho⟩
        rw [hoffset] at ho
        cases ho
      · intro _ heq
        rw [slotOffset_error hoffset] at heq
        cases heq

end Rows

/-! ### Compaction -/

/-- What `scan_rows` and `compact` ask of slot `i`. -/
def RowReadable (p : Page) (i : Nat) : Prop :=
  match p.readSlot (SlotId.new i) with
  | .ok slot => slot.offset + slot.length ≤ pageSize ∧ p.freeEnd ≤ slot.offset
  | .error e => e = .slotNotFound

/-- If all rows can be read, they fit the page side by side. -/
def RowsFit (p : Page) : Prop := (∀ i < p.slotCount, p.RowReadable i) → p.liveSpace ≤ pageSize

/-- The bytes a list of rows takes. -/
def rowsSpace (rows : List (SlotId × Row)) : Nat :=
  (rows.map fun x => rowAllocationSize x.2.data.length).sum

/-- What slot `i` adds to `liveSpace`. -/
def slotSpace (p : Page) (i : Nat) : Nat :=
  match p.readSlot (SlotId.new i) with
  | .ok slot => rowAllocationSize slot.length
  | .error _ => 0

section Compaction

variable {p : Page} {idx i n : Nat} {rows : List (SlotId × Row)}

lemma liveSpace_eq : p.liveSpace = ((List.range p.slotCount).map p.slotSpace).sum := by
  unfold liveSpace allocations
  generalize List.range p.slotCount = slots
  induction slots with
  | nil => rfl
  | cons i slots ih =>
    rw [List.filterMap_cons, List.map_cons, List.sum_cons, ← ih]
    unfold slotSpace
    cases p.readSlot (SlotId.new i) with
    | ok slot => rw [List.map_cons, List.sum_cons]
    | error e => rw [Nat.zero_add]

lemma readRow_cases : (p.RowReadable i ∧ ((∃ row, p.readRow (SlotId.new i) = .ok row ∧
        rowAllocationSize row.data.length = p.slotSpace i ∧ ∃ o, slotOffset (SlotId.new i) = .ok o) ∨
      p.readRow (SlotId.new i) = .error .slotNotFound ∧ p.slotSpace i = 0)) ∨
    (¬p.RowReadable i ∧ ∃ e, e ≠ .slotNotFound ∧ p.readRow (SlotId.new i) = .error e) := by
  unfold RowReadable slotSpace readRow
  cases hslot : p.readSlot (SlotId.new i) with
  | error e =>
    dsimp only
    rw [except_bind_error]
    by_cases he : e = .slotNotFound
    · rw [he]
      exact Or.inl ⟨rfl, Or.inr ⟨rfl, rfl⟩⟩
    · exact Or.inr ⟨he, e, he, rfl⟩
  | ok slot =>
    dsimp only
    rw [except_bind_ok]
    by_cases hbounds : slot.offset + slot.length > pageSize ∨ slot.offset < p.freeEnd
    · rw [if_pos hbounds]
      refine Or.inr ⟨by omega, _, ?_, rfl⟩
      intro heq
      cases heq
    · rw [if_neg hbounds]
      refine Or.inl ⟨by omega, Or.inl ⟨_, rfl, by rw [length_slice], ?_⟩⟩
      unfold readSlot at hslot
      split at hslot
      · cases hslot
      · have ⟨o, ho, _⟩ := except_bind_eq_ok.mp hslot
        exact ⟨o, ho⟩

/-- The rows a scan collects. -/
lemma scanFrom_cases : ((∀ i, idx ≤ i → i < idx + n → p.RowReadable i) ∧
      ∃ rows, p.scanFrom idx n = .ok rows ∧
        rowsSpace rows = ((List.range' idx n).map p.slotSpace).sum ∧
        ∀ x ∈ rows, ∃ o, slotOffset x.1 = .ok o) ∨
    (¬(∀ i, idx ≤ i → i < idx + n → p.RowReadable i) ∧ ∃ e, p.scanFrom idx n = .error e) := by
  induction n generalizing idx with
  | zero => exact Or.inl ⟨fun i hle hlt => by omega, [], rfl, rfl, fun x hx => by cases hx⟩
  | succ n ih =>
    have hfirst (h : ∀ i, idx ≤ i → i < idx + (n + 1) → p.RowReadable i) : p.RowReadable idx :=
      h idx (Nat.le_refl _) (by omega)
    have hrest (h : ∀ i, idx ≤ i → i < idx + (n + 1) → p.RowReadable i) :
        ∀ i, idx + 1 ≤ i → i < idx + 1 + n → p.RowReadable i :=
      fun i hle hlt => h i (by omega) (by omega)
    unfold scanFrom
    rw [List.range'_succ, List.map_cons, List.sum_cons]
    cases @readRow_cases p idx with
    | inr hdamaged =>
      obtain ⟨hnot, e, hne, hread⟩ := hdamaged
      refine Or.inr ⟨fun h => hnot (hfirst h), e, ?_⟩
      rw [hread]
      cases e with
      | slotNotFound => exact absurd rfl hne
      | _ => rfl
    | inl hreadable =>
      obtain ⟨hidx, hread⟩ := hreadable
      cases @ih (idx + 1) with
      | inr herr =>
        obtain ⟨hnot, e, hscan⟩ := herr
        refine Or.inr ⟨fun h => hnot (hrest h), e, ?_⟩
        cases hread with
        | inl hrow =>
          obtain ⟨row, hrow, _⟩ := hrow
          rw [hrow, hscan]
          rfl
        | inr hdead => rw [hdead.1, hscan]
      | inl hok =>
        obtain ⟨hall, rows, hscan, hspace, hslots⟩ := hok
        have hall' : ∀ i, idx ≤ i → i < idx + (n + 1) → p.RowReadable i := by
          intro i hle hlt
          cases Nat.eq_or_lt_of_le hle with
          | inl heq => rwa [← heq]
          | inr hgt => exact hall i hgt (by omega)
        refine Or.inl ⟨hall', ?_⟩
        cases hread with
        | inl hrow =>
          obtain ⟨row, hrow, hlen, hoffset⟩ := hrow
          refine ⟨(SlotId.new idx, row) :: rows, by rw [hrow, hscan]; rfl, ?_, ?_⟩
          · rw [← hspace, ← hlen]
            rfl
          · intro x hx
            cases List.mem_cons.mp hx with
            | inl heq =>
              rw [heq]
              exact hoffset
            | inr hmem => exact hslots x hmem
        | inr hdead =>
          exact ⟨rows, by rw [hdead.1, hscan], by rw [hdead.2, Nat.zero_add, hspace], hslots⟩

lemma freeEnd_setFreeEnd {v : Nat} (h : v ≤ pageSize) : (setFreeEnd v p).freeEnd = v :=
  u16At_write_self p (by simp only [pageSize] at h; omega) (by decide)

/-- The rows are put one below the other; the last one must not reach below the page. -/
lemma placeRows_cases (hslots : ∀ x ∈ rows, ∃ o, slotOffset x.1 = .ok o) (hend : p.freeEnd ≤ pageSize) :
    (rowsSpace rows ≤ p.freeEnd ∧ ∃ q, (placeRows rows).run p = .ok () q ∧ q.freeEnd ≤ pageSize) ∨
    (p.freeEnd < rowsSpace rows ∧ (placeRows rows).run p = .panic) := by
  induction rows generalizing p with
  | nil => exact Or.inl ⟨Nat.zero_le _, p, rfl, hend⟩
  | cons x rows ih =>
    obtain ⟨slotId, row⟩ := x
    have hlen := le_rowAllocationSize row.data.length
    have hspace : rowsSpace ((slotId, row) :: rows) =
        rowAllocationSize row.data.length + rowsSpace rows := rfl
    rw [hspace]
    unfold placeRows
    simp only [Exec.run_bind, Exec.run_gets, Outcome.andThen_ok]
    by_cases hlow : p.freeEnd < rowAllocationSize row.data.length
    · rw [if_pos hlow]
      exact Or.inr ⟨by omega, rfl⟩
    · rw [if_neg hlow]
      obtain ⟨o, ho⟩ := hslots _ List.mem_cons_self
      have hplace : asU16 (p.freeEnd - rowAllocationSize row.data.length) =
          p.freeEnd - rowAllocationSize row.data.length :=
        Nat.mod_eq_of_lt (by simp only [pageSize] at hend; omega)
      cases @writeRowBytesAt_cases p row.data (p.freeEnd - rowAllocationSize row.data.length) with
      | inr hpanic => exact absurd (by omega) hpanic.1
      | inl hfits =>
        obtain ⟨_, q, hq⟩ := hfits
        obtain ⟨q', hq'⟩ := @writeSlot_ok q slotId ⟨p.freeEnd - rowAllocationSize row.data.length,
          asU16 row.data.length⟩ o ho
        have hend' := @freeEnd_setFreeEnd q' (p.freeEnd - rowAllocationSize row.data.length) (by omega)
        simp only [Exec.run_bind, hq, Outcome.andThen_ok, hq', Exec.run_modify, hplace]
        have hrest := @ih (setFreeEnd (p.freeEnd - rowAllocationSize row.data.length) q')
          (fun x hx => hslots x (List.mem_cons_of_mem _ hx)) (by rw [hend']; omega)
        rw [hend'] at hrest
        cases hrest with
        | inl hok => exact Or.inl ⟨by omega, hok.2⟩
        | inr hpanic => exact Or.inr ⟨by omega, hpanic.2⟩

/-- A compaction that comes back leaves `free_end` in the page. -/
lemma compact_cases : (p.RowsFit ∧ ((∃ e q, compact.run p = .err e q) ∨
      ∃ q, compact.run p = .ok () q ∧ q.freeEnd ≤ pageSize)) ∨
    (¬p.RowsFit ∧ compact.run p = .panic) := by
  unfold compact RowsFit
  rw [Exec.run_bind, Exec.run_query, scanRows, liveSpace_eq, List.range_eq_range']
  have hscan := @scanFrom_cases p 0 p.slotCount
  simp only [Nat.zero_le, forall_const, Nat.zero_add] at hscan
  cases hscan with
  | inr herr =>
    obtain ⟨hnot, e, hscan⟩ := herr
    rw [hscan]
    exact Or.inl ⟨fun h => absurd h hnot, Or.inl ⟨e, p, rfl⟩⟩
  | inl hok =>
    obtain ⟨hall, rows, hscan, hspace, hslots⟩ := hok
    rw [hscan]
    simp only [Outcome.andThen_ok, Exec.run_bind, Exec.run_modify]
    have hend : (setFreeEnd (asU16 pageSize) (setFreeListHead u16Max p)).freeEnd = pageSize :=
      freeEnd_setFreeEnd (Nat.le_refl _)
    have hplace := placeRows_cases hslots (Nat.le_of_eq hend)
    rw [hend, hspace] at hplace
    cases hplace with
    | inl hfits => exact Or.inl ⟨fun _ => hfits.1, Or.inr hfits.2⟩
    | inr hpanic =>
      refine Or.inr ⟨?_, hpanic.2⟩
      intro hfits
      have := hfits hall
      omega

end Compaction

/-! ### The operations -/

/-- The bytes an insertion takes from the middle of the page. -/
def newSpace (n : Nat) (tombstone : Option SlotId) : Nat :=
  if tombstone.isNone then slotSize + n else n

/-- The free list is searched: there is an entry for the row, or room for one more. -/
def Searches (p : Page) (tombstone : Option SlotId) : Prop :=
  tombstone = none → p.freeStart + slotSize ≤ p.freeEnd

/-- An insertion that gets as far as the free list finds its end or a block in the page. -/
structure ListSafe (p : Page) (row : Row) (n : Nat) (tombstone : Option SlotId) : Prop where
  list_ends : p.Searches tombstone → ∃ result, Search p n p.freeListHead none result
  block_fits {cur : Nat} {before : Option Nat} {block : FreeBlock} {q : Page} : p.Searches tombstone →
    Search p n p.freeListHead none (.ok (some (cur, before, block))) → block.length = n →
    (replaceFreeBlockLink before block.next).run p = .ok () q → q.SlotRoom tombstone →
    cur + row.data.length ≤ pageSize

/-- So does one that finds no block, between the directory and `free_end`. -/
structure InsertSafe (p : Page) (row : Row) (n : Nat) (tombstone : Option SlotId) : Prop
    extends ListSafe p row n tombstone where
  end_fits : Search p n p.freeListHead none (.ok none) → p.freeStart + newSpace n tombstone ≤ p.freeEnd →
    p.SlotRoom tombstone → p.freeEnd - n + row.data.length ≤ pageSize

/-- An update that gets as far as to look for a larger place finds it in the page. -/
structure UpdateSafe (p : Page) (row : Row) (n : Nat) : Prop where
  list_ends : ∃ result, Search p n p.freeListHead none result
  block_fits {cur : Nat} {before : Option Nat} {block : FreeBlock} :
    Search p n p.freeListHead none (.ok (some (cur, before, block))) → block.length = n →
    cur + row.data.length ≤ pageSize

section Operations

variable {p q : Page} {slotId : SlotId} {slot : Slot} {row : Row} {tombstone : Option SlotId}
  {old offset n : Nat}

/-- How an insertion below the rows ends. -/
lemma insertFromFreeEnd_cases (hn : n ≤ u16Max) :
    (∃ e, e ≠ .storageFull ∧ (insertFromFreeEnd row.data n tombstone).run p = .err e p ∧
      (p.freeStart ≤ p.freeEnd → p.freeStart + newSpace n tombstone ≤ p.freeEnd ∧ ¬p.SlotRoom tombstone)) ∨
    (p.freeEnd < p.freeStart + newSpace n tombstone ∧
      (insertFromFreeEnd row.data n tombstone).run p = .err .storageFull p) ∨
    (p.freeStart + newSpace n tombstone ≤ p.freeEnd ∧ p.SlotRoom tombstone ∧
      ((p.freeEnd - n + row.data.length ≤ pageSize ∧
          ∃ s q, (insertFromFreeEnd row.data n tombstone).run p = .ok s q) ∨
        (¬p.freeEnd - n + row.data.length ≤ pageSize ∧
          (insertFromFreeEnd row.data n tombstone).run p = .panic))) := by
  have hnarrow : asU16 n = n := Nat.mod_eq_of_lt (by simp only [u16Max] at hn; omega)
  unfold insertFromFreeEnd
  rw [Exec.run_bind, Exec.run_query, freeSpace]
  by_cases hdamaged : p.freeStart > p.freeEnd
  · rw [if_pos hdamaged]
    refine Or.inl ⟨_, ?_, rfl, fun hle => by omega⟩
    intro heq
    cases heq
  · rw [if_neg hdamaged]
    simp only [Outcome.andThen_ok]
    have hguards : (tombstone.isSome = true ∧ n > p.freeEnd - p.freeStart) ∨
        (tombstone.isNone = true ∧ slotSize + n > p.freeEnd - p.freeStart) ↔
        p.freeEnd < p.freeStart + newSpace n tombstone := by
      unfold newSpace
      cases tombstone with
      | none =>
        simp only [Option.isSome_none, Bool.false_eq_true, false_and, Option.isNone_none, true_and, false_or,
          if_true]
        omega
      | some s =>
        simp only [Option.isSome_some, true_and, Option.isNone_some, Bool.false_eq_true, false_and, or_false,
          if_false]
        omega
    by_cases hfull : p.freeEnd < p.freeStart + newSpace n tombstone
    · refine Or.inr (Or.inl ⟨hfull, ?_⟩)
      cases hguards.mpr hfull with
      | inl h => rw [if_pos h, Exec.run_throw]
      | inr h =>
        rw [if_pos h, Exec.run_ite, Exec.run_throw, ite_self]
    · have hroom : n ≤ p.freeEnd := by
        unfold newSpace at hfull
        split at hfull <;> omega
      rw [if_neg (fun h => hfull (hguards.mp (Or.inl h))), if_neg (fun h => hfull (hguards.mp (Or.inr h)))]
      simp only [Exec.run_bind, Exec.run_gets, Outcome.andThen_ok, hnarrow]
      rw [if_neg (by omega), Exec.run_bind]
      have hslot : tombstone = none → p.freeStart + slotSize ≤ p.freeEnd := by
        intro heq
        rw [heq] at hfull
        simp only [newSpace, Option.isNone_none, if_true] at hfull
        omega
      rcases @writeRowAt_cases p row.data tombstone (p.freeEnd - n) with hok | hpanic | herr
      · obtain ⟨hslots, hle, s, q, hq⟩ := hok
        rw [hq]
        exact Or.inr (Or.inr ⟨by omega, hslots, Or.inl ⟨hle, s, _, rfl⟩⟩)
      · obtain ⟨hslots, hgt, hrun⟩ := hpanic
        rw [hrun]
        exact Or.inr (Or.inr ⟨by omega, hslots, Or.inr ⟨hgt, rfl⟩⟩)
      · obtain ⟨hslots, e, he, hne⟩ := herr
        rw [he]
        exact Or.inl ⟨e, hne hslot, rfl, fun _ => ⟨by omega, hslots⟩⟩

/-- Below an end in the page there is no panic. -/
lemma insertFromFreeEnd_ends (hn : n ≤ u16Max) (hlen : row.data.length ≤ n) (hend : p.freeEnd ≤ pageSize) :
    ((insertFromFreeEnd row.data n tombstone).run p).Ends := by
  rcases @insertFromFreeEnd_cases p row tombstone n hn with herr | hfull | hroom
  · have ⟨e, _, he, _⟩ := herr
    rw [he]
    exact Outcome.ends_err
  · rw [hfull.2]
    exact Outcome.ends_err
  · have ⟨hle, _, hrun⟩ := hroom
    cases hrun with
    | inl hok =>
      have ⟨_, s, q, hq⟩ := hok
      rw [hq]
      exact Outcome.ends_ok
    | inr hpanic =>
      have hspace : n ≤ newSpace n tombstone := by
        unfold newSpace
        split <;> omega
      exact absurd (by omega) hpanic.1

/-- How an insertion into a free block ends. -/
lemma tryInsertFromFreeBlock_cases (hn : n ≤ pageSize) (hlen : row.data.length ≤ n) :
    (ListSafe p row n tombstone ∧
      ((((∃ e q, (tryInsertFromFreeBlock row.data n tombstone).run p = .err e q) ∨
          ∃ s q, (tryInsertFromFreeBlock row.data n tombstone).run p = .ok (some s) q) ∧
        (Search p n p.freeListHead none (.ok none) → p.freeEnd < p.freeStart + newSpace n tombstone)) ∨
      ((tryInsertFromFreeBlock row.data n tombstone).run p = .ok none p ∧
        (Search p n p.freeListHead none (.ok none) ∨ p.freeEnd < p.freeStart + newSpace n tombstone)))) ∨
    (¬ListSafe p row n tombstone ∧ ((tryInsertFromFreeBlock row.data n tombstone).run p = .panic ∨
      (tryInsertFromFreeBlock row.data n tombstone).run p = .diverge)) := by
  by_cases hsearches : p.Searches tombstone
  · have hspace (hnone : tombstone = none) : ∃ space, p.freeSpace = .ok space ∧ slotSize ≤ space := by
      have hroom := hsearches hnone
      refine ⟨p.freeEnd - p.freeStart, ?_, by omega⟩
      rw [freeSpace, if_neg (by omega)]
    have hrun := @run_tryInsertFromFreeBlock p tombstone row.data n hspace
    have hallocates := @tryAllocateFromFreeBlock_allocates p n hn
    rw [hrun]
    generalize (tryAllocateFromFreeBlock n).run p = o at hallocates
    cases hallocates with
    | diverges hnever => exact Or.inr ⟨fun hsafe => hnever (hsafe.list_ends hsearches), Or.inr rfl⟩
    | damaged hsearch =>
      refine Or.inl ⟨⟨fun _ => ⟨_, hsearch⟩, ?_⟩, Or.inl ⟨Or.inl ⟨_, p, rfl⟩, ?_⟩⟩
      · intro cur before block q _ hfound
        cases hsearch.unique hfound
      · intro hnone
        cases hsearch.unique hnone
    | @failed e q cur before block hsearch hlarge =>
      refine Or.inl ⟨⟨fun _ => ⟨_, hsearch⟩, ?_⟩, Or.inl ⟨Or.inl ⟨e, q, rfl⟩, ?_⟩⟩
      · intro cur' before' block' q' _ hfound hexact
        cases hsearch.unique hfound
        omega
      · intro hnone
        cases hsearch.unique hnone
    | none hsearch =>
      refine Or.inl ⟨⟨fun _ => ⟨_, hsearch⟩, ?_⟩, Or.inr ⟨rfl, Or.inl hsearch⟩⟩
      intro cur before block q _ hfound
      cases hsearch.unique hfound
    | @split q cur before block hsearch hlarge hcur =>
      refine Or.inl ⟨⟨fun _ => ⟨_, hsearch⟩, ?_⟩, Or.inl ⟨?_, ?_⟩⟩
      · intro cur' before' block' q' _ hfound hexact
        cases hsearch.unique hfound
        omega
      · rcases @writeRowAt_cases q row.data tombstone cur with hok | hpanic | herr
        · obtain ⟨_, _, s, q', hq'⟩ := hok
          exact Or.inr ⟨s, q', by simp only [Outcome.andThen_ok, hq']⟩
        · exact absurd (by omega) hpanic.2.1
        · obtain ⟨_, e, he, _⟩ := herr
          exact Or.inl ⟨e, q, by simp only [Outcome.andThen_ok, he, Outcome.andThen_err]⟩
      · intro hnone
        cases hsearch.unique hnone
    | @whole q cur before block hsearch hexact hlink =>
      have hnot (hnone : Search p n p.freeListHead none (.ok none)) :
          p.freeEnd < p.freeStart + newSpace n tombstone := by
        cases hsearch.unique hnone
      have hsafe (hle : q.SlotRoom tombstone → cur + row.data.length ≤ pageSize) :
          ListSafe p row n tombstone := by
        refine ⟨fun _ => ⟨_, hsearch⟩, ?_⟩
        intro cur' before' block' q' _ hfound _ hlink' hroom
        cases hsearch.unique hfound
        rw [hlink] at hlink'
        cases hlink'
        exact hle hroom
      rcases @writeRowAt_cases q row.data tombstone cur with hok | hpanic | herr
      · obtain ⟨_, hle, s, q', hq'⟩ := hok
        exact Or.inl ⟨hsafe fun _ => hle, Or.inl ⟨Or.inr ⟨s, q',
          by simp only [Outcome.andThen_ok, hq']⟩, hnot⟩⟩
      · obtain ⟨hroom, hgt, hpanic⟩ := hpanic
        refine Or.inr ⟨?_, Or.inl ?_⟩
        · intro hsafe
          exact hgt (hsafe.block_fits hsearches hsearch hexact hlink hroom)
        · simp only [Outcome.andThen_ok, hpanic, Outcome.andThen_panic]
      · obtain ⟨hroom, e, he, _⟩ := herr
        exact Or.inl ⟨hsafe fun hroom' => absurd hroom' hroom, Or.inl ⟨Or.inl ⟨e, q,
          by simp only [Outcome.andThen_ok, he, Outcome.andThen_err]⟩, hnot⟩⟩
  · -- without an entry for the row and without room for one, the free list is not looked at
    have hsafe : ListSafe p row n tombstone :=
      ⟨fun h => absurd h hsearches, fun h => absurd h hsearches⟩
    unfold Searches at hsearches
    obtain ⟨hnone, hlow⟩ := Classical.not_imp.mp hsearches
    subst hnone
    have hfull : p.freeEnd < p.freeStart + newSpace n none := by
      simp only [newSpace, Option.isNone_none, if_true]
      omega
    refine Or.inl ⟨hsafe, ?_⟩
    unfold tryInsertFromFreeBlock
    simp only [Option.isNone_none, if_true, Exec.run_bind, Exec.run_query, freeSpace]
    by_cases hdamaged : p.freeStart > p.freeEnd
    · rw [if_pos hdamaged]
      exact Or.inl ⟨Or.inl ⟨_, p, rfl⟩, fun _ => hfull⟩
    · rw [if_neg hdamaged]
      simp only [Outcome.andThen_ok, Exec.run_pure]
      rw [decide_eq_true (by omega)]
      exact Or.inr ⟨rfl, Or.inr hfull⟩

/-- On a page whose rows fit, an insertion comes back if and only if it is safe. -/
lemma insertRow_ends_iff (hfit : p.RowsFit) (hlen : row.data.length ≤ 8180) :
    ((insertRow row).run p).Ends ↔ ∀ tombstone, p.findTombstoneSlotId = .ok tombstone →
      InsertSafe p row (rowAllocationSize row.data.length) tombstone := by
  have hle := le_rowAllocationSize row.data.length
  have hsmall : rowAllocationSize row.data.length ≤ 8180 := by
    have hdvd := rowAllocationSize_eq row.data.length
    split at hdvd <;> omega
  generalize hn : rowAllocationSize row.data.length = n at hle hsmall
  unfold insertRow
  simp only [Exec.run_bind, Exec.run_query, hn]
  cases htombstone : p.findTombstoneSlotId with
  | error e =>
    apply iff_of_true Outcome.ends_err
    intro tombstone h
    cases h
  | ok tombstone =>
    simp only [Outcome.andThen_ok, Except.ok.injEq, forall_eq']
    rw [if_neg (by simp only [pageSize, headerSize, slotSize]; omega), Exec.run_bind]
    cases @tryInsertFromFreeBlock_cases p row tombstone n (by simp only [pageSize]; omega) hle with
    | inr hunsafe =>
      apply iff_of_false
      · cases hunsafe.2 with
        | inl hpanic =>
          rw [hpanic]
          exact Outcome.not_ends_panic
        | inr hdiverge =>
          rw [hdiverge]
          exact Outcome.not_ends_diverge
      · exact fun hsafe => hunsafe.1 hsafe.toListSafe
    | inl hsafe =>
      obtain ⟨hlist, hcases⟩ := hsafe
      cases hcases with
      | inl hdone =>
        obtain ⟨hrun, hfull⟩ := hdone
        apply iff_of_true
        · cases hrun with
          | inl herr =>
            obtain ⟨e, q, hq⟩ := herr
            rw [hq]
            exact Outcome.ends_err
          | inr hok =>
            obtain ⟨s, q, hq⟩ := hok
            rw [hq]
            exact Outcome.ends_ok
        · refine ⟨hlist, fun hnone hroom => ?_⟩
          have := hfull hnone
          omega
      | inr hnone =>
        obtain ⟨hrun, hnone⟩ := hnone
        rw [hrun]
        simp only [Outcome.andThen_ok, Exec.run_bind, Exec.run_attempt]
        rcases @insertFromFreeEnd_cases p row tombstone n (by simp only [u16Max]; omega) with
          herr | hfull | hroom
        · obtain ⟨e, hne, he, hno⟩ := herr
          rw [he]
          apply iff_of_true
          · cases e with
            | storageFull => exact absurd rfl hne
            | _ => exact Outcome.ends_err
          · exact ⟨hlist, fun _ hroom hslots => absurd hslots (hno (by omega)).2⟩
        · rw [hfull.2]
          apply iff_of_true
          · simp only [Outcome.attempt_err, Outcome.andThen_ok, Exec.run_bind]
            cases @compact_cases p with
            | inr hpanic => exact absurd hfit hpanic.1
            | inl hok =>
              cases hok.2 with
              | inl herr =>
                obtain ⟨e, q, hq⟩ := herr
                rw [hq]
                exact Outcome.ends_err
              | inr hok =>
                obtain ⟨q, hq, hend⟩ := hok
                rw [hq]
                exact insertFromFreeEnd_ends (by simp only [u16Max]; omega) hle hend
          · exact ⟨hlist, fun _ hroom => by omega⟩
        · obtain ⟨hle', hslots, hplace⟩ := hroom
          cases hplace with
          | inl hok =>
            obtain ⟨hfits, s, q, hq⟩ := hok
            rw [hq]
            exact iff_of_true Outcome.ends_ok ⟨hlist, fun _ _ _ => hfits⟩
          | inr hpanic =>
            rw [hpanic.2]
            apply iff_of_false Outcome.not_ends_panic
            intro hsafe
            cases hnone with
            | inl hsearch => exact hpanic.1 (hsafe.end_fits hsearch hle' hslots)
            | inr hlow => omega

/-- How `try_allocate_from_free_end` ends. -/
lemma tryAllocateFromFreeEnd_cases (hn : n ≤ u16Max) :
    (∃ e, (tryAllocateFromFreeEnd n).run p = .err e p) ∨ (tryAllocateFromFreeEnd n).run p = .ok none p ∨
    ∃ q, (tryAllocateFromFreeEnd n).run p = .ok (some (p.freeEnd - n)) q ∧ n ≤ p.freeEnd := by
  have hnarrow : asU16 n = n := Nat.mod_eq_of_lt (by simp only [u16Max] at hn; omega)
  unfold tryAllocateFromFreeEnd
  rw [Exec.run_bind, Exec.run_query, freeSpace]
  by_cases hdamaged : p.freeStart > p.freeEnd
  · rw [if_pos hdamaged]
    exact Or.inl ⟨_, rfl⟩
  · rw [if_neg hdamaged]
    simp only [Outcome.andThen_ok]
    by_cases hfull : n > p.freeEnd - p.freeStart
    · rw [if_pos hfull]
      exact Or.inr (Or.inl rfl)
    · rw [if_neg hfull]
      simp only [Exec.run_bind, Exec.run_gets, Outcome.andThen_ok, hnarrow]
      rw [if_neg (by omega)]
      exact Or.inr (Or.inr ⟨_, rfl, by omega⟩)

lemma moveRow_ends_iff : ((moveRow row.data slotId slot old offset).run p).Ends ↔
    offset + row.data.length ≤ pageSize := by
  unfold moveRow
  rw [Exec.run_bind]
  cases @writeRowBytesAt_cases p row.data offset with
  | inr hpanic =>
    rw [hpanic.2]
    exact iff_of_false Outcome.not_ends_panic hpanic.1
  | inl hok =>
    obtain ⟨hle, q, hq⟩ := hok
    rw [hq, Outcome.andThen_ok, Exec.run_bind, updateSlotForRow]
    refine iff_of_true ?_ hle
    cases @writeSlot_cases q slotId ⟨offset, asU16 row.data.length⟩ with
    | inl hslot =>
      obtain ⟨q', hq'⟩ := hslot
      rw [hq']
      exact addFreeBlock_ends
    | inr herr =>
      obtain ⟨e, he⟩ := herr
      rw [he]
      exact Outcome.ends_err

/-- A row that does not fit its place is moved; below the rows of the page there is a place for it. -/
lemma updateAllocateLenGreater_ends_iff (hfit : p.RowsFit) (hn : n ≤ pageSize) (hlen : row.data.length ≤ n)
    (hend : p.freeEnd ≤ pageSize) :
    ((updateAllocateLenGreater row.data slotId slot old n).run p).Ends ↔ UpdateSafe p row n := by
  have hmax : n ≤ u16Max := by
    simp only [pageSize, u16Max] at *
    omega
  unfold updateAllocateLenGreater
  rw [Exec.run_bind]
  have hallocates := @tryAllocateFromFreeBlock_allocates p n hn
  generalize (tryAllocateFromFreeBlock n).run p = o at hallocates
  cases hallocates with
  | diverges hnever => exact iff_of_false Outcome.not_ends_diverge fun hsafe => hnever hsafe.list_ends
  | damaged hsearch =>
    refine iff_of_true Outcome.ends_err ⟨⟨_, hsearch⟩, fun hfound => ?_⟩
    cases hsearch.unique hfound
  | failed hsearch hlarge =>
    refine iff_of_true Outcome.ends_err ⟨⟨_, hsearch⟩, fun hfound hexact => ?_⟩
    cases hsearch.unique hfound
    omega
  | split hsearch hlarge hcur =>
    rw [Outcome.andThen_ok]
    refine iff_of_true (moveRow_ends_iff.mpr (by omega)) ⟨⟨_, hsearch⟩, fun hfound hexact => ?_⟩
    cases hsearch.unique hfound
    omega
  | whole hsearch hexact hlink =>
    rw [Outcome.andThen_ok]
    constructor
    · intro hends
      refine ⟨⟨_, hsearch⟩, fun hfound _ => ?_⟩
      cases hsearch.unique hfound
      exact moveRow_ends_iff.mp hends
    · intro hsafe
      exact moveRow_ends_iff.mpr (hsafe.block_fits hsearch hexact)
  | none hsearch =>
    have hsafe : UpdateSafe p row n := by
      refine ⟨⟨_, hsearch⟩, fun hfound => ?_⟩
      cases hsearch.unique hfound
    refine iff_of_true ?_ hsafe
    rw [Outcome.andThen_ok, Exec.run_bind]
    rcases @tryAllocateFromFreeEnd_cases p n hmax with herr | hfull | hok
    · obtain ⟨e, he⟩ := herr
      rw [he]
      exact Outcome.ends_err
    · rw [hfull, Outcome.andThen_ok, Exec.run_bind]
      cases @compact_cases p with
      | inr hpanic => exact absurd hfit hpanic.1
      | inl hcompact =>
        cases hcompact.2 with
        | inl herr =>
          obtain ⟨e, q, hq⟩ := herr
          rw [hq]
          exact Outcome.ends_err
        | inr hok =>
          obtain ⟨q, hq, hend'⟩ := hok
          rw [hq, Outcome.andThen_ok, Exec.run_bind, Exec.run_query]
          cases q.readSlot slotId with
          | error e => exact Outcome.ends_err
          | ok slot' =>
            rw [Outcome.andThen_ok, Exec.run_bind]
            rcases @tryAllocateFromFreeEnd_cases q n hmax with herr | hfull | hok
            · obtain ⟨e, he⟩ := herr
              rw [he]
              exact Outcome.ends_err
            · rw [hfull]
              exact Outcome.ends_err
            · obtain ⟨q', hq', hle⟩ := hok
              rw [hq', Outcome.andThen_ok]
              exact moveRow_ends_iff.mpr (by omega)
    · obtain ⟨q, hq, hle⟩ := hok
      rw [hq, Outcome.andThen_ok]
      exact moveRow_ends_iff.mpr (by omega)

/-- An update that gets as far as to move the row comes back if and only if it is safe. -/
lemma updateRow_ends_iff (hfit : p.RowsFit) (hlen : row.data.length ≤ 8180) :
    ((updateRow slotId row).run p).Ends ↔ ∀ slot, p.readSlot slotId = .ok slot →
      slot.offset + rowAllocationSize slot.length ≤ pageSize → p.freeEnd ≤ slot.offset →
      rowAllocationSize slot.length < rowAllocationSize row.data.length →
      UpdateSafe p row (rowAllocationSize row.data.length) := by
  have hle := le_rowAllocationSize row.data.length
  have hsmall : rowAllocationSize row.data.length ≤ 8180 := by
    have hdvd := rowAllocationSize_eq row.data.length
    split at hdvd <;> omega
  generalize hn : rowAllocationSize row.data.length = n at hle hsmall
  unfold updateRow
  simp only [Exec.run_bind, Exec.run_query, Exec.run_gets, hn]
  cases hslot : p.readSlot slotId with
  | error e =>
    apply iff_of_true Outcome.ends_err
    intro slot h
    cases h
  | ok slot =>
    simp only [Outcome.andThen_ok, Except.ok.injEq, forall_eq']
    by_cases hbounds : slot.offset + rowAllocationSize slot.length > pageSize ∨ slot.offset < p.freeEnd
    · rw [if_pos hbounds]
      exact iff_of_true Outcome.ends_err fun hle hend => absurd hbounds (by omega)
    · rw [if_neg hbounds]
      have hplace : asU16 slot.offset = slot.offset :=
        Nat.mod_eq_of_lt (by simp only [pageSize] at hbounds; omega)
      cases hcompare : compare n (rowAllocationSize slot.length) with
      | gt =>
        have hgt := Nat.compare_eq_gt.mp hcompare
        have hiff := @updateAllocateLenGreater_ends_iff p slotId slot row (rowAllocationSize slot.length) n
          hfit (by simp only [pageSize]; omega) hle (by omega)
        exact hiff.trans ⟨fun hsafe _ _ _ => hsafe, fun hsafe => hsafe (by omega) (by omega) hgt⟩
      | eq =>
        have heq := Nat.compare_eq_eq.mp hcompare
        refine iff_of_true ?_ fun _ _ hlt => by omega
        unfold updateAllocateLenEqual updateSlotForRow
        rw [Exec.run_bind]
        cases @writeSlot_cases p slotId ⟨slot.offset, asU16 row.data.length⟩ with
        | inr herr =>
          obtain ⟨e, he⟩ := herr
          rw [he]
          exact Outcome.ends_err
        | inl hok =>
          obtain ⟨q, hq⟩ := hok
          rw [hq, Outcome.andThen_ok, hplace]
          cases @writeRowBytesAt_cases q row.data slot.offset with
          | inr hpanic => exact absurd (by omega) hpanic.1
          | inl hok =>
            obtain ⟨_, q', hq'⟩ := hok
            rw [hq']
            exact Outcome.ends_ok
      | lt =>
        have hlt := Nat.compare_eq_lt.mp hcompare
        refine iff_of_true ?_ fun _ _ hgt => by omega
        unfold updateAllocateLenLess updateSlotForRow
        rw [Exec.run_bind]
        cases @writeRowBytesAt_cases p row.data slot.offset with
        | inr hpanic => exact absurd (by omega) hpanic.1
        | inl hok =>
          obtain ⟨_, q, hq⟩ := hok
          rw [hq, Outcome.andThen_ok, Exec.run_bind]
          cases @writeSlot_cases q slotId ⟨slot.offset, asU16 row.data.length⟩ with
          | inr herr =>
            obtain ⟨e, he⟩ := herr
            rw [he]
            exact Outcome.ends_err
          | inl hok =>
            obtain ⟨q', hq'⟩ := hok
            rw [hq']
            exact addFreeBlock_ends

lemma deleteRow_ends : ((deleteRow slotId).run p).Ends := by
  unfold deleteRow
  rw [Exec.run_bind, Exec.run_query]
  cases p.readSlot slotId with
  | error e => exact Outcome.ends_err
  | ok slot =>
    rw [Outcome.andThen_ok, Exec.run_bind]
    have hadd := @addFreeBlock_ends p slot.offset (asU16 (rowAllocationSize slot.length))
    cases hrun : (addFreeBlock slot.offset (asU16 (rowAllocationSize slot.length))).run p with
    | err e q => exact Outcome.ends_err
    | panic =>
      rw [hrun] at hadd
      exact absurd hadd Outcome.not_ends_panic
    | diverge =>
      rw [hrun] at hadd
      exact absurd hadd Outcome.not_ends_diverge
    | ok _ q =>
      rw [Outcome.andThen_ok]
      cases @writeSlot_cases q slotId .tombstone with
      | inl hok =>
        have ⟨q', hq'⟩ := hok
        rw [hq']
        exact Outcome.ends_ok
      | inr herr =>
        have ⟨e, he⟩ := herr
        rw [he]
        exact Outcome.ends_err

lemma compact_ends_iff : (compact.run p).Ends ↔ p.RowsFit := by
  cases @compact_cases p with
  | inr hpanic =>
    rw [hpanic.2]
    exact iff_of_false Outcome.not_ends_panic hpanic.1
  | inl hfit =>
    refine iff_of_true ?_ hfit.1
    cases hfit.2 with
    | inl herr =>
      have ⟨e, q, hq⟩ := herr
      rw [hq]
      exact Outcome.ends_err
    | inr hok =>
      have ⟨q, hq, _⟩ := hok
      rw [hq]
      exact Outcome.ends_ok

end Operations

/-! ### Every page -/

/-- The operations come back. -/
structure Survives (p : Page) (slotId : SlotId) (row : Row) : Prop where
  read_row : ((checkedReadRow slotId).run p).Ends
  scan_rows : (checkedScanRows.run p).Ends
  insert_row : ((insertRow row).run p).Ends
  update_row : ((updateRow slotId row).run p).Ends
  delete_row : ((deleteRow slotId).run p).Ends
  compact : (compact.run p).Ends

/-- What is asked of a page and a row. -/
structure Survivable (p : Page) (slotId : SlotId) (row : Row) : Prop where
  rows_fit : p.RowsFit
  insert_safe (tombstone : Option SlotId) : p.findTombstoneSlotId = .ok tombstone →
    InsertSafe p row (rowAllocationSize row.data.length) tombstone
  update_safe (slot : Slot) : p.readSlot slotId = .ok slot →
    slot.offset + rowAllocationSize slot.length ≤ pageSize → p.freeEnd ≤ slot.offset →
    rowAllocationSize slot.length < rowAllocationSize row.data.length →
    UpdateSafe p row (rowAllocationSize row.data.length)

/-- No slice of a slot, a free block or a row that is read or written is out of range. -/
structure SlicesInRange : Prop where
  read_slot (slotId : SlotId) : checkedReadSlot slotId = Exec.query (readSlot · slotId)
  write_slot (slotId : SlotId) (slot : Slot) : checkedWriteSlot slotId slot = writeSlot slotId slot
  find_tombstone (idx remaining : Nat) :
    checkedFindTombstoneFrom idx remaining = Exec.query (findTombstoneFrom · idx remaining)
  read_free_block (offset : Nat) : checkedReadFreeBlock offset = Exec.query (readFreeBlock · offset)
  write_free_block (offset : Nat) (block : FreeBlock) :
    checkedWriteFreeBlock offset block = writeFreeBlock offset block
  read_row (slotId : SlotId) : checkedReadRow slotId = Exec.query (readRow · slotId)
  scan_rows : checkedScanRows = Exec.query scanRows

lemma slicesInRange : SlicesInRange where
  read_slot _ := checkedReadSlot_eq
  write_slot _ _ := checkedWriteSlot_eq
  find_tombstone _ _ := checkedFindTombstoneFrom_eq
  read_free_block _ := checkedReadFreeBlock_eq
  write_free_block _ _ := checkedWriteFreeBlock_eq
  read_row _ := checkedReadRow_eq
  scan_rows := checkedScanRows_eq

lemma query_ends {α : Type} (f : Page → Except PageError α) (p : Page) :
    ((Exec.query f).run p).Ends := by
  rw [Exec.run_query]
  cases f p with
  | ok a => exact Outcome.ends_ok
  | error e => exact Outcome.ends_err

end Page

open Page

/-- When the operations come back from a page of any bytes. -/
theorem damagedPage_survives_iff {p : Page} {slotId : SlotId} {row : Row} (hlen : row.data.length ≤ 8180) :
    SlicesInRange ∧ (Survives p slotId row ↔ Survivable p slotId row) := by
  refine ⟨slicesInRange, ?_⟩
  constructor
  · intro h
    have hfit := compact_ends_iff.mp h.compact
    exact ⟨hfit, (insertRow_ends_iff hfit hlen).mp h.insert_row, (updateRow_ends_iff hfit hlen).mp h.update_row⟩
  · intro h
    refine ⟨?_, ?_, (insertRow_ends_iff h.rows_fit hlen).mpr h.insert_safe,
      (updateRow_ends_iff h.rows_fit hlen).mpr h.update_safe, deleteRow_ends, compact_ends_iff.mpr h.rows_fit⟩
    · rw [checkedReadRow_eq]
      exact query_ends _ p
    · rw [checkedScanRows_eq]
      exact query_ends _ p

/-- A page with a row, whose `free_end` and whose `free_list_head` were damaged: no block begins at 8190. The insertion
and the update notice it. -/
theorem damagedPage_survives_iff_noticed : ∃ p, (insertRow ⟨[1, 2, 3]⟩).run Page.new = .ok (SlotId.new 0) p ∧
    Survives (setFreeListHead 8190 (setFreeEnd 1 p)) (SlotId.new 0) ⟨[1, 2, 3, 4, 5]⟩ := by
  refine ⟨_, rfl, ?_⟩
  generalize hp : setFreeListHead 8190 (setFreeEnd 1 _) = p
  have hhead : p.freeListHead = 8190 := by rw [← hp]; rfl
  obtain ⟨e, hblock⟩ : ∃ e, p.readFreeBlock 8190 = .error e := by
    cases h : p.readFreeBlock 8190 with
    | error e => exact ⟨e, rfl⟩
    | ok block => exact absurd (readFreeBlock_le h) (by decide)
  have hfit : p.RowsFit := by
    intro _
    rw [← hp]
    decide
  have hsearch : Search p 8 p.freeListHead none (.error e) := by
    rw [hhead]
    exact .damaged (by decide) hblock
  refine (damagedPage_survives_iff (by decide)).2.mpr ⟨hfit, ?_, ?_⟩
  · intro tombstone _
    refine ⟨⟨fun _ => ⟨_, hsearch⟩, ?_⟩, ?_⟩
    · intro cur before block q _ hfound
      cases hsearch.unique hfound
    · intro hend
      cases hsearch.unique hend
  · intro slot _ _ _ _
    refine ⟨⟨_, hsearch⟩, ?_⟩
    intro cur before block hfound
    cases hsearch.unique hfound

/-- An empty page whose `free_end` was damaged: a row put below it lies behind the page. -/
theorem damagedPage_panics : ¬∀ (p : Page) (slotId : SlotId) (row : Row), row.data.length ≤ 8180 →
    Survives p slotId row := by
  intro hall
  have hends := (hall (setFreeEnd 60000 Page.new) (SlotId.new 0) ⟨[1]⟩ (by decide)).insert_row
  have hrun : (insertRow ⟨[1]⟩).run (setFreeEnd 60000 Page.new) = .panic := rfl
  rw [hrun] at hends
  exact Outcome.not_ends_panic hends

end RdbRs
