import RdbRs.Index.CheckedReads

/-!
# What the two page formats promise

Appending, reading back and reading damaged pages, stated once for leaf and internal pages.
-/

namespace RdbRs

namespace EntryFormat

variable {E : Type} (f : EntryFormat E)

/-- The format decodes what it encodes and reads no page out of range. -/
structure Faithful (decode : List UInt8 → Option E) (checked : BytesM (Option E)) (admits : E → Prop)
    (start : Exec EntryPageError Page Unit) (links : BTreePageHeader) : Prop where
  appends_iff : ∀ p es, (∃ q, (start >>= fun _ => f.appendEntries es).run p = .ok () q) ↔
    (∀ e ∈ es, (f.toBytes e).isSome) ∧ f.headerSize + f.entriesSize es ≤ pageSize
  full_unchanged : ∀ p e q, (f.appendEntry e).run p = .err .pageFull q → q = p
  reads_appended : ∀ p es q, (∀ e ∈ es, admits e) →
    (start >>= fun _ => f.appendEntries es).run p = .ok () q →
    f.readEntries decode q = .ok es ∧ ∃ header, BTreePageHeader.readFromPage q = some header ∧
      header.nextLeafPageId = links.nextLeafPageId ∧ header.rightmostChild = links.rightmostChild
  links_kept : ∀ p e q, (f.appendEntry e).run p = .ok () q →
    ∃ header header', BTreePageHeader.readFromPage p = some header ∧
      BTreePageHeader.readFromPage q = some header' ∧
      header'.nextLeafPageId = header.nextLeafPageId ∧ header'.rightmostChild = header.rightmostChild
  in_range : ∀ p, (f.checkedReadEntries checked).run p.asBytes =
    (Exec.liftExcept (f.readEntries decode p)).run p.asBytes
  rewrites : ∀ p₀ p es, f.readEntries decode p = .ok es →
    ∃ q header header', (start >>= fun _ => f.appendEntries es).run p₀ = .ok () q ∧
      BTreePageHeader.readFromPage p = some header ∧ BTreePageHeader.readFromPage q = some header' ∧
      header'.entryCount = header.entryCount ∧ header'.entryEnd = header.entryEnd ∧
      q.slice f.headerSize (header.entryEnd - f.headerSize) =
        p.slice f.headerSize (header.entryEnd - f.headerSize)

section Append

variable {f} {decode : List UInt8 → Option E} {admits : E → Prop} {links : BTreePageHeader}
  {p q : Page} {e : E} {es : List E}

/-- The header after an append, when there is room for its count. -/
lemma wellFormed_append {header : BTreePageHeader} {len : Nat}
    (hheader : BTreePageHeader.readFromPage p = some header) (hfits : header.entryEnd + len ≤ pageSize)
    (hcount : header.entryCount + 1 ≤ u16Max) : BTreePageHeader.WellFormed { header with
      entryCount := header.entryCount + 1
      entryEnd := header.entryEnd + len } := by
  have ⟨_, hle, _, hlinks⟩ := BTreePageHeader.wellFormed_of_readFromPage hheader
  exact ⟨Nat.lt_succ_of_le hcount, hle.trans (Nat.le_add_right _ _), hfits, hlinks⟩

lemma appendEntry_unchanged {err : EntryPageError} (h : (f.appendEntry e).run p = .err err q) :
    q = p := by
  rcases appendEntry_cases (f := f) e p with ⟨err', hrun⟩ |
    ⟨header, bytes, hheader, hkind, he, hfits, hcount⟩
  · cases hrun.symm.trans h
    rfl
  · cases (appendEntry_run hheader hkind he hfits hcount).symm.trans h

lemma appendEntry_keeps (h : (f.appendEntry e).run p = .ok () q) :
    ∃ header header', BTreePageHeader.readFromPage p = some header ∧
      BTreePageHeader.readFromPage q = some header' ∧
      header'.nextLeafPageId = header.nextLeafPageId ∧
      header'.rightmostChild = header.rightmostChild := by
  rcases appendEntry_cases (f := f) e p with ⟨err, hrun⟩ |
    ⟨header, bytes, hheader, hkind, he, hfits, hcount⟩
  · cases hrun.symm.trans h
  · cases (appendEntry_run hheader hkind he hfits hcount).symm.trans h
    exact ⟨header, _, hheader,
      BTreePageHeader.readFromPage_writeToPage (wellFormed_append hheader hfits hcount), rfl, rfl⟩

/-- Entries of any types are appended exactly as long as they can be encoded and fit. -/
lemma appendEntries_iff (hf : f.Lawful decode admits) {header : BTreePageHeader}
    (hheader : BTreePageHeader.readFromPage p = some header) (hkind : header.nodeType = f.nodeType)
    (hroom : 2 * header.entryCount ≤ header.entryEnd) :
    (∃ q, (f.appendEntries es).run p = .ok () q) ↔
      (∀ e ∈ es, (f.toBytes e).isSome) ∧ header.entryEnd + f.entriesSize es ≤ pageSize := by
  induction es generalizing p header with
  | nil =>
    have hend := (BTreePageHeader.wellFormed_of_readFromPage hheader).end_le
    constructor
    · intro _
      exact ⟨by simp, hend⟩
    · intro _
      exact ⟨p, rfl⟩
  | cons e rest ih =>
    rw [List.forall_mem_cons, entriesSize_cons]
    cases he : f.toBytes e with
    | none =>
      constructor
      · rintro ⟨q, hrun⟩
        rcases appendEntry_cases (f := f) e p with ⟨err, herr⟩ | ⟨_, _, _, _, hsome, _⟩
        · rw [appendEntries, Exec.run_bind, herr, Outcome.andThen_err] at hrun
          cases hrun
        · cases he.symm.trans hsome
      · rintro ⟨⟨hsome, _⟩, _⟩
        cases hsome
    | some bytes =>
      have hbytes : f.entryBytes e = bytes := by rw [entryBytes, he, Option.getD_some]
      have hlong := (hf.keyLen e bytes he).1
      have htwo := hf.two_le.trans hf.prefix_le
      rw [hbytes]
      by_cases hfits : header.entryEnd + bytes.length ≤ pageSize
      · have hcount : header.entryCount + 1 ≤ u16Max := by
          simp only [pageSize, u16Max] at hfits ⊢
          omega
        have hstep := appendEntry_run hheader hkind he hfits hcount
        have hnext := ih (BTreePageHeader.readFromPage_writeToPage
          (p := p.write header.entryEnd bytes) (wellFormed_append hheader hfits hcount)) hkind (by
            simp only
            omega)
        rw [appendEntries, Exec.run_bind, hstep, Outcome.andThen_ok, hnext]
        simp only [Option.isSome_some, true_and, Nat.add_assoc]
      · constructor
        · rintro ⟨q, hrun⟩
          rcases appendEntry_cases (f := f) e p with ⟨err, herr⟩ |
            ⟨header', bytes', hheader', _, he', hfits', _⟩
          · rw [appendEntries, Exec.run_bind, herr, Outcome.andThen_err] at hrun
            cases hrun
          · cases hheader.symm.trans hheader'
            cases he.symm.trans he'
            exact absurd hfits' hfits
        · rintro ⟨_, hsize⟩
          omega

end Append

/-- A lawful format on pages that are cleared first. -/
lemma faithful {decode : List UInt8 → Option E} {checked : BytesM (Option E)} {admits : E → Prop}
    {start : Exec EntryPageError Page Unit} {initial : Page} {links : BTreePageHeader} {f : EntryFormat E}
    (hf : f.Lawful decode admits) (hdecode : ∀ bytes, checked.run bytes = .ok (decode bytes) bytes)
    (hinit : ∀ p, start.run p = .ok () initial) (hempty : f.HoldsEntries admits links [] initial) :
    f.Faithful decode checked admits start links := by
  have hrun (p : Page) (es : List E) : (start >>= fun _ => f.appendEntries es).run p =
      (f.appendEntries es).run initial := by
    rw [Exec.run_bind, hinit, Outcome.andThen_ok]
  have hiff (es : List E) : (∃ q, (f.appendEntries es).run initial = .ok () q) ↔
      (∀ e ∈ es, (f.toBytes e).isSome) ∧ f.headerSize + f.entriesSize es ≤ pageSize :=
    appendEntries_iff hf hempty.header hempty.isLinks.kind (Nat.zero_le _)
  constructor
  · intro p es
    rw [hrun, hiff]
  · intro p e q herr
    exact appendEntry_unchanged herr
  · intro p es q hadmits hok
    rw [hrun] at hok
    have ⟨hencodes, hfits⟩ := (hiff es).mp ⟨q, hok⟩
    have ⟨q', hok', hq'⟩ := hempty.appendEntries_ok hf es (fun e he => ⟨hadmits e he, hencodes e he⟩) hfits
    cases hok.symm.trans hok'
    exact ⟨hq'.readEntries_eq hf, _, hq'.header, rfl, rfl⟩
  · intro p e q hok
    exact appendEntry_keeps hok
  · intro p
    exact run_checkedReadEntries hdecode hf.two_le p
  · intro p₀ p es hread
    cases hheader : BTreePageHeader.readFromPage p with
    | none =>
      rw [readEntries, hheader] at hread
      cases hread
    | some header =>
      have h := holdsEntries_of_readEntries hf hheader hread
      have ⟨q, hok, hq⟩ := hempty.appendEntries_ok hf es h.storable h.fits
      have hshape := Option.some.inj (hheader.symm.trans h.header)
      have hcount : header.entryCount = es.length := congrArg BTreePageHeader.entryCount hshape
      have hend : header.entryEnd = f.headerSize + f.entriesSize es :=
        congrArg BTreePageHeader.entryEnd hshape
      refine ⟨q, header, _, (hrun p₀ es).trans hok, rfl, hq.header, hcount.symm, hend.symm, ?_⟩
      rw [hend, Nat.add_sub_cancel_left, h.bytes]
      exact hq.bytes

end EntryFormat

/-- Leaf and internal pages decode what was appended to them, and damaged pages are read within their
bytes. -/
theorem pageFormats_faithful :
    (∀ t, leafFormat.Faithful (LeafEntry.fromBytes t) (LeafEntry.checkedFromBytes t)
      (LeafEntry.HasType t) initializeLeafPage BTreePageHeader.newLeaf) ∧
    (∀ t rightmost, internalFormat.Faithful (InternalEntry.fromBytes t)
      (InternalEntry.checkedFromBytes t) (InternalEntry.HasType t) (initializeInternalPage rightmost)
      (BTreePageHeader.newInternal rightmost)) ∧
    ∀ p : Page, BTreePageHeader.checkedFromBytes.run p.asBytes =
      .ok (BTreePageHeader.readFromPage p) p.asBytes := by
  refine ⟨?_, ?_, run_checkedFromBytes⟩
  · intro t
    exact EntryFormat.faithful (leafFormat_lawful t) (fun _ => LeafEntry.run_checkedFromBytes)
      (fun _ => run_initializeLeafPage) (holdsLeaf_emptyLeaf t)
  · intro t rightmost
    exact EntryFormat.faithful (internalFormat_lawful t) (fun _ => InternalEntry.run_checkedFromBytes)
      (fun _ => run_initializeInternalPage) (holdsInternal_emptyInternal t rightmost)

end RdbRs
