import RdbRs.Index.LeafSpec
import RdbRs.Index.InternalSpec

/-!
# Reading an index page access by access

The functions that read a page, with every index and every slice of the bytes checked: an access out
of range panics. On the bytes of a page none is, and they return what the functions without the checks
return.
-/

namespace RdbRs

/-- A call on a shared slice of bytes. -/
abbrev BytesM (α : Type) : Type := Exec EntryPageError (List UInt8) α

/-- `bytes[i]`. -/
def byteAt (i : Nat) : BytesM UInt8 := do
  match ← Exec.gets fun bytes => bytes[i]? with
  | none => Exec.panic
  | some byte => pure byte

/-- `&bytes[start..stop]`. -/
def bytesIn (start stop : Nat) : BytesM (List UInt8) := do
  let bytes ← Exec.gets id
  if start ≤ stop ∧ stop ≤ bytes.length then pure ((bytes.drop start).take (stop - start))
  else Exec.panic

/-- `u16::from_be_bytes([bytes[i], bytes[i + 1]])`. -/
def u16In (i : Nat) : BytesM Nat := do
  let high ← byteAt i
  let low ← byteAt (i + 1)
  pure (beNat [high, low])

/-- `BTreePageHeader::from_bytes`. -/
def BTreePageHeader.checkedFromBytes : BytesM (Option BTreePageHeader) := do
  let len ← Exec.gets List.length
  if len < 5 then pure none
  else do
    match NodeType.fromByte (← byteAt 0) with
    | none => pure none
    | some nodeType => do
      let entryCount ← u16In 1
      let entryEnd ← u16In 3
      match nodeType with
      | .leaf =>
        if entryEnd < leafHeaderSize ∨ entryEnd > len then pure none
        else do
          let tag ← byteAt 5
          if tag = 0 then pure (some ⟨.leaf, entryCount, entryEnd, none, none⟩)
          else if tag = 1 then do
            let next ← bytesIn 6 14
            pure (some ⟨.leaf, entryCount, entryEnd, none, some (PageId.fromBytes next)⟩)
          else pure none
      | .internal =>
        if entryEnd < internalHeaderSize ∨ len < internalHeaderSize ∨ entryEnd > len then pure none
        else do
          let child ← bytesIn 5 13
          pure (some ⟨.internal, entryCount, entryEnd, some (PageId.fromBytes child), none⟩)

/-- `LeafEntry::from_bytes`. -/
def LeafEntry.checkedFromBytes (keyType : BTreeKeyType) : BytesM (Option LeafEntry) := do
  let len ← Exec.gets List.length
  if len < 2 then pure none
  else do
    let keyLen ← u16In 0
    if len ≠ 2 + keyLen + 10 then pure none
    else do
      let keyBytes ← bytesIn 2 (2 + keyLen)
      match BTreeKey.fromBytes keyType keyBytes with
      | none => pure none
      | some key => do
        let rowIdBytes ← bytesIn (2 + keyLen) len
        pure (some ⟨key, RowId.fromBytes rowIdBytes⟩)

/-- `InternalEntry::from_bytes`. -/
def InternalEntry.checkedFromBytes (keyType : BTreeKeyType) : BytesM (Option InternalEntry) := do
  let len ← Exec.gets List.length
  if len < 10 then pure none
  else do
    let leftChild ← bytesIn 0 8
    let keyLenBytes ← bytesIn 8 10
    let keyLen := beNat keyLenBytes
    if len ≠ keyLen + 10 then pure none
    else do
      let keyBytes ← bytesIn 10 len
      match BTreeKey.fromBytes keyType keyBytes with
      | none => pure none
      | some separatorKey => pure (some ⟨PageId.fromBytes leftChild, separatorKey⟩)

namespace EntryFormat

variable {E : Type} (f : EntryFormat E)

/-- The loop over the entries of a page. -/
def checkedReadFrom (decode : BytesM (Option E)) (entryEnd : Nat) : Nat → Nat → BytesM (List E × Nat)
  | 0, offset => pure ([], offset)
  | remaining + 1, offset =>
    if offset + f.prefixSize > entryEnd then Exec.throw .invalidPage
    else do
      let keyLen ← u16In (offset + f.prefixSize - 2)
      let stop := offset + keyLen + f.fixedSize
      if stop > entryEnd then Exec.throw .invalidPage
      else do
        let entryBytes ← bytesIn offset stop
        let (entry, _) ← Exec.withLocal entryBytes decode
        match entry with
        | none => Exec.throw .invalidPage
        | some entry => do
          let (rest, last) ← checkedReadFrom decode entryEnd remaining stop
          pure (entry :: rest, last)

def checkedReadEntries (decode : BytesM (Option E)) : BytesM (List E) := do
  match ← BTreePageHeader.checkedFromBytes with
  | none => Exec.throw .invalidPage
  | some header =>
    if header.nodeType ≠ f.nodeType then Exec.throw .invalidPage
    else do
      let len ← Exec.gets List.length
      if header.entryEnd > len then Exec.throw .invalidPage
      else do
        let (entries, offset) ←
          f.checkedReadFrom decode header.entryEnd header.entryCount f.headerSize
        if offset ≠ header.entryEnd then Exec.throw .invalidPage else pure entries

end EntryFormat

/-! ### No access is out of range -/

section Access

variable {bytes : List UInt8} {i start stop : Nat}

lemma run_byteAt (h : i < bytes.length) : (byteAt i).run bytes = .ok bytes[i] bytes := by
  simp only [byteAt, Exec.run_bind, Exec.run_gets, Outcome.andThen_ok, List.getElem?_eq_getElem h,
    Exec.run_pure]

lemma run_bytesIn (h : start ≤ stop) (hstop : stop ≤ bytes.length) :
    (bytesIn start stop).run bytes = .ok ((bytes.drop start).take (stop - start)) bytes := by
  simp only [bytesIn, Exec.run_bind, Exec.run_gets, Outcome.andThen_ok, id]
  rw [if_pos ⟨h, hstop⟩, Exec.run_pure]

lemma run_u16In (h : i + 2 ≤ bytes.length) :
    (u16In i).run bytes = .ok (beNat ((bytes.drop i).take 2)) bytes := by
  have htwo : (bytes.drop i).take 2 = [bytes[i], bytes[i + 1]] := by
    rw [List.drop_eq_getElem_cons (by omega), List.drop_eq_getElem_cons (by omega)]
    rfl
  simp only [u16In, Exec.run_bind, run_byteAt (show i < bytes.length by omega), Outcome.andThen_ok,
    run_byteAt (show i + 1 < bytes.length by omega), Exec.run_pure, htwo]

end Access

section Page

variable {p : Page} {i start stop : Nat}

@[simp] lemma length_asBytes (p : Page) : p.asBytes.length = pageSize := p.length_slice 0 pageSize

lemma slice_asBytes (h : start + stop ≤ pageSize) :
    (p.asBytes.drop start).take stop = p.slice start stop := by
  rw [Page.asBytes, Page.slice_drop_take p h, Nat.zero_add]

lemma run_byteAt_page (h : i < pageSize) : (byteAt i).run p.asBytes = .ok (p.byte i) p.asBytes := by
  rw [run_byteAt (by rwa [length_asBytes])]
  simp only [Page.asBytes, Page.slice, List.getElem_map, List.getElem_range, Nat.zero_add]

lemma run_bytesIn_page (h : start ≤ stop) (hstop : stop ≤ pageSize) :
    (bytesIn start stop).run p.asBytes = .ok (p.slice start (stop - start)) p.asBytes := by
  rw [run_bytesIn h (by rwa [length_asBytes]), slice_asBytes (by omega)]

lemma run_u16In_page (h : i + 2 ≤ pageSize) :
    (u16In i).run p.asBytes = .ok (p.u16At i) p.asBytes := by
  rw [run_u16In (by rwa [length_asBytes]), slice_asBytes h, Page.u16At]

/-- `from_bytes` on a page. -/
theorem run_checkedFromBytes (p : Page) : BTreePageHeader.checkedFromBytes.run p.asBytes =
    .ok (BTreePageHeader.readFromPage p) p.asBytes := by
  have hlen : ¬ pageSize < 5 := by decide
  simp only [BTreePageHeader.checkedFromBytes, BTreePageHeader.readFromPage, Exec.run_bind, Exec.run_gets,
    Outcome.andThen_ok, length_asBytes, Exec.run_ite, if_neg hlen,
    run_byteAt_page (show 0 < pageSize by decide)]
  cases NodeType.fromByte (p.byte 0) with
  | none => rfl
  | some nodeType =>
    simp only [Exec.run_bind, run_u16In_page (show 1 + 2 ≤ pageSize by decide),
      run_u16In_page (show 3 + 2 ≤ pageSize by decide), Outcome.andThen_ok, Option.bind_eq_bind,
      Option.bind_some]
    cases nodeType with
    | leaf =>
      simp only [Exec.run_ite, Exec.run_bind, run_byteAt_page (show 5 < pageSize by decide),
        run_bytesIn_page (show 6 ≤ 14 by decide) (show 14 ≤ pageSize by decide), Outcome.andThen_ok,
        Exec.run_pure]
      split
      · rfl
      · split
        · rfl
        · split <;> rfl
    | internal =>
      have hheader : ¬ pageSize < internalHeaderSize := by decide
      simp only [Exec.run_ite, Exec.run_bind, hheader, false_or,
        run_bytesIn_page (show 5 ≤ 13 by decide) (show 13 ≤ pageSize by decide), Outcome.andThen_ok,
        Exec.run_pure]
      split <;> rfl

end Page

section Entries

variable {bytes : List UInt8} {t : BTreeKeyType}

lemma LeafEntry.run_checkedFromBytes : (LeafEntry.checkedFromBytes t).run bytes =
    .ok (LeafEntry.fromBytes t bytes) bytes := by
  simp only [LeafEntry.checkedFromBytes, LeafEntry.fromBytes, Exec.run_bind, Exec.run_gets,
    Outcome.andThen_ok, Exec.run_ite]
  by_cases hshort : bytes.length < 2
  · rw [if_pos hshort, if_pos hshort, Exec.run_pure]
  rw [if_neg hshort, if_neg hshort]
  rw [run_u16In (show 0 + 2 ≤ bytes.length by omega), List.drop_zero]
  simp only [Outcome.andThen_ok]
  by_cases hlen : bytes.length = 2 + beNat (bytes.take 2) + 10
  · rw [if_neg (not_not.mpr hlen), if_neg (not_not.mpr hlen)]
    rw [run_bytesIn (show 2 ≤ 2 + beNat (bytes.take 2) by omega) (by omega), Nat.add_sub_cancel_left]
    simp only [Outcome.andThen_ok]
    cases BTreeKey.fromBytes t ((bytes.drop 2).take (beNat (bytes.take 2))) with
    | none => rfl
    | some key =>
      have hall : (bytes.drop (2 + beNat (bytes.take 2))).take
          (bytes.length - (2 + beNat (bytes.take 2))) = bytes.drop (2 + beNat (bytes.take 2)) := by
        apply List.take_of_length_le
        rw [List.length_drop]
      simp only [Exec.run_bind,
        run_bytesIn (show 2 + beNat (bytes.take 2) ≤ bytes.length by omega) (le_refl _), hall,
        Outcome.andThen_ok, Exec.run_pure]
      rfl
  · rw [if_pos hlen, if_pos hlen, Exec.run_pure]

lemma InternalEntry.run_checkedFromBytes : (InternalEntry.checkedFromBytes t).run bytes =
    .ok (InternalEntry.fromBytes t bytes) bytes := by
  simp only [InternalEntry.checkedFromBytes, InternalEntry.fromBytes, Exec.run_bind, Exec.run_gets,
    Outcome.andThen_ok, Exec.run_ite]
  by_cases hshort : bytes.length < 10
  · rw [if_pos hshort, if_pos hshort, Exec.run_pure]
  have hall : (bytes.drop 10).take (bytes.length - 10) = bytes.drop 10 := by
    apply List.take_of_length_le
    rw [List.length_drop]
  rw [if_neg hshort, if_neg hshort]
  rw [run_bytesIn (show 0 ≤ 8 by decide) (show 8 ≤ bytes.length by omega)]
  simp only [Outcome.andThen_ok, run_bytesIn (show 8 ≤ 10 by decide) (show 10 ≤ bytes.length by omega),
    run_bytesIn (show 10 ≤ bytes.length by omega) (le_refl _), hall, List.drop_zero, Nat.sub_zero]
  by_cases hlen : bytes.length = beNat ((bytes.drop 8).take 2) + 10
  · rw [if_neg (not_not.mpr hlen), if_neg (not_not.mpr hlen)]
    cases BTreeKey.fromBytes t (bytes.drop 10) with
    | none => rfl
    | some key => rfl
  · rw [if_pos hlen, if_pos hlen, Exec.run_pure]

end Entries

namespace EntryFormat

section Reads

variable {E : Type} {f : EntryFormat E} {decode : List UInt8 → Option E} {checked : BytesM (Option E)}
  {p : Page}

/-- A loop that ends within the page reads within it. -/
lemma run_checkedReadFrom (hdecode : ∀ bytes, checked.run bytes = .ok (decode bytes) bytes)
    (htwo : 2 ≤ f.prefixSize) {entryEnd : Nat} (hend : entryEnd ≤ pageSize) (n offset : Nat) :
    (f.checkedReadFrom checked entryEnd n offset).run p.asBytes =
      (Exec.liftExcept (f.readFrom decode p entryEnd n offset)).run p.asBytes := by
  induction n generalizing offset with
  | zero => rfl
  | succ n ih =>
    rw [checkedReadFrom, readFrom, Exec.run_ite]
    by_cases hprefix : offset + f.prefixSize > entryEnd
    · rw [if_pos hprefix, if_pos hprefix]
      rfl
    rw [if_neg hprefix, if_neg hprefix]
    simp only [Exec.run_bind]
    rw [run_u16In_page (by omega)]
    simp only [Outcome.andThen_ok, Exec.run_ite]
    generalize hstop : offset + p.u16At (offset + f.prefixSize - 2) + f.fixedSize = stop
    by_cases hpast : stop > entryEnd
    · rw [if_pos hpast, if_pos hpast]
      rfl
    rw [if_neg hpast, if_neg hpast]
    rw [Exec.run_bind, run_bytesIn_page (by omega) (by omega)]
    simp only [Outcome.andThen_ok, Exec.run_bind, Exec.run_withLocal, hdecode]
    cases decode (p.slice offset (stop - offset)) with
    | none => rfl
    | some entry =>
      simp only [Exec.run_bind, ih]
      cases f.readFrom decode p entryEnd n stop with
      | error err => rfl
      | ok r => rfl

/-- The reader of a page, access by access. -/
theorem run_checkedReadEntries (hdecode : ∀ bytes, checked.run bytes = .ok (decode bytes) bytes)
    (htwo : 2 ≤ f.prefixSize) (p : Page) :
    (f.checkedReadEntries checked).run p.asBytes =
      (Exec.liftExcept (f.readEntries decode p)).run p.asBytes := by
  simp only [checkedReadEntries, readEntries, Exec.run_bind, run_checkedFromBytes, Outcome.andThen_ok]
  cases hheader : BTreePageHeader.readFromPage p with
  | none => rfl
  | some header =>
    have hend := (BTreePageHeader.wellFormed_of_readFromPage hheader).end_le
    simp only [Exec.run_ite]
    by_cases hkind : header.nodeType = f.nodeType
    · have hnot : ¬ header.entryEnd > pageSize := by omega
      rw [if_neg (not_not.mpr hkind), if_neg (not_not.mpr hkind)]
      simp only [Exec.run_bind, Exec.run_gets, Outcome.andThen_ok, length_asBytes, Exec.run_ite,
        if_neg hnot, run_checkedReadFrom hdecode htwo hend]
      cases f.readFrom decode p header.entryEnd header.entryCount f.headerSize with
      | error err => rfl
      | ok r =>
        obtain ⟨entries, offset⟩ := r
        simp only [Exec.run_liftExcept, Outcome.andThen_ok, except_bind_ok]
        by_cases hoffset : offset = header.entryEnd
        · simp only [hoffset, ne_eq, not_true, if_false]
          rfl
        · simp only [hoffset, ne_eq, not_false_iff, if_true]
          rfl
    · rw [if_pos hkind, if_pos hkind]
      rfl

end Reads

end EntryFormat

end RdbRs
