import RdbRs.Index.Header

/-!
# Pages of entries

Leaf and internal pages have one layout: a header, then entries of variable length, one behind the
other. `EntryFormat` holds what differs. `HoldsEntries` says which entries a page holds.
-/

namespace RdbRs

/-- The error of a leaf or internal page. -/
inductive EntryPageError where
  | invalidPage
  | pageFull
  deriving DecidableEq

/-- The left and the right page of a split or a merge. -/
abbrev PagePair : Type := Page × Page

/-- A call on the left page. -/
def onLeft {ε α : Type} (x : Exec ε Page α) : Exec ε PagePair α :=
  Exec.zoom Prod.fst (fun p pages => (p, pages.2)) x

/-- A call on the right page. -/
def onRight {ε α : Type} (x : Exec ε Page α) : Exec ε PagePair α :=
  Exec.zoom Prod.snd (fun p pages => (pages.1, p)) x

/-- One kind of entry: `prefixSize` bytes that end with the key length, and `fixedSize` bytes that
are not the key. -/
structure EntryFormat (E : Type) where
  nodeType : NodeType
  prefixSize : Nat
  fixedSize : Nat
  toBytes : E → Option (List UInt8)

namespace EntryFormat

variable {E : Type} (f : EntryFormat E)

def headerSize : Nat := f.nodeType.headerSize

/-! ### The page functions -/

def appendEntry (entry : E) : Exec EntryPageError Page Unit := do
  match ← Exec.gets BTreePageHeader.readFromPage with
  | none => Exec.throw .invalidPage
  | some header =>
    if header.nodeType ≠ f.nodeType then Exec.throw .invalidPage
    else
      match f.toBytes entry with
      | none => Exec.throw .invalidPage
      | some entryBytes =>
        if header.entryEnd + entryBytes.length > pageSize then Exec.throw .pageFull
        else if entryBytes.length > u16Max then Exec.throw .invalidPage
        else
          match header.appendEntry entryBytes.length with
          | none => Exec.throw .pageFull
          | some header' => do
            Exec.modify (·.write header.entryEnd entryBytes)
            Exec.modify header'.writeToPage

/-- `for entry in entries { append(page, entry)?; }`. -/
def appendEntries : List E → Exec EntryPageError Page Unit
  | [] => pure ()
  | entry :: rest => do
    f.appendEntry entry
    appendEntries rest

/-- The entries from `offset` on, and where they end. -/
def readFrom (decode : List UInt8 → Option E) (p : Page) (entryEnd : Nat) : Nat → Nat → Except EntryPageError (List E × Nat)
  | 0, offset => .ok ([], offset)
  | remaining + 1, offset =>
    if offset + f.prefixSize > entryEnd then .error .invalidPage
    else
      let keyLen := p.u16At (offset + f.prefixSize - 2)
      let stop := offset + keyLen + f.fixedSize
      if stop > entryEnd then .error .invalidPage
      else
        match decode (p.slice offset (stop - offset)) with
        | none => .error .invalidPage
        | some entry => do
          let (rest, last) ← readFrom decode p entryEnd remaining stop
          .ok (entry :: rest, last)

def readEntries (decode : List UInt8 → Option E) (p : Page) : Except EntryPageError (List E) :=
  match BTreePageHeader.readFromPage p with
  | none => .error .invalidPage
  | some header =>
    if header.nodeType ≠ f.nodeType then .error .invalidPage
    else if header.entryEnd > pageSize then .error .invalidPage
    else do
      let (entries, offset) ← f.readFrom decode p header.entryEnd header.entryCount f.headerSize
      if offset ≠ header.entryEnd then .error .invalidPage else .ok entries

/-! ### What a page holds -/

/-- Encoding and decoding are inverse, and the key length is where it is looked for. -/
structure Lawful (decode : List UInt8 → Option E) (admits : E → Prop) : Prop where
  two_le : 2 ≤ f.prefixSize
  prefix_le : f.prefixSize ≤ f.fixedSize
  length_le : ∀ e bytes, f.toBytes e = some bytes → bytes.length < 65536 + f.fixedSize
  decode_eq : ∀ e bytes, admits e → f.toBytes e = some bytes → decode bytes = some e
  encode_eq : ∀ e bytes, decode bytes = some e → admits e ∧ f.toBytes e = some bytes
  keyLen : ∀ e bytes, f.toBytes e = some bytes →
    f.fixedSize ≤ bytes.length ∧
      beNat ((bytes.drop (f.prefixSize - 2)).take 2) + f.fixedSize = bytes.length

/-- The bytes of an entry that can be encoded. -/
def entryBytes (e : E) : List UInt8 := (f.toBytes e).getD []

def allBytes (es : List E) : List UInt8 := es.flatMap f.entryBytes

/-- The bytes a list of entries takes. -/
def entriesSize (es : List E) : Nat := (es.map fun e => (f.entryBytes e).length).sum

/-- The entry can be stored: it is of the right key type and its key length fits sixteen bits. -/
structure Storable (admits : E → Prop) (e : E) : Prop where
  admits : admits e
  encodes : (f.toBytes e).isSome

/-- The header of a page with the given links and no entry. -/
structure IsLinks (links : BTreePageHeader) : Prop where
  kind : links.nodeType = f.nodeType
  pointers : match links.nodeType with
    | .leaf => links.rightmostChild = none
    | .internal => links.rightmostChild.isSome ∧ links.nextLeafPageId = none

/-- The page holds the entries `es` under a header with the links of `links`. -/
structure HoldsEntries (admits : E → Prop) (links : BTreePageHeader) (es : List E) (p : Page) :
    Prop where
  isLinks : f.IsLinks links
  header : BTreePageHeader.readFromPage p =
    some { links with entryCount := es.length, entryEnd := f.headerSize + f.entriesSize es }
  bytes : p.slice f.headerSize (f.entriesSize es) = f.allBytes es
  storable : ∀ e ∈ es, f.Storable admits e
  fits : f.headerSize + f.entriesSize es ≤ pageSize

section Size

variable {f} {es es' : List E} {e : E}

@[simp] lemma entriesSize_nil : f.entriesSize [] = 0 := rfl

@[simp] lemma entriesSize_cons :
    f.entriesSize (e :: es) = (f.entryBytes e).length + f.entriesSize es := by
  simp [entriesSize]

@[simp] lemma entriesSize_append : f.entriesSize (es ++ es') = f.entriesSize es + f.entriesSize es' := by
  simp [entriesSize]

lemma entriesSize_perm (h : es.Perm es') : f.entriesSize es = f.entriesSize es' :=
  (h.map _).sum_nat

lemma entriesSize_le_of_sublist (h : es'.Sublist es) : f.entriesSize es' ≤ f.entriesSize es := by
  induction h with
  | slnil => exact Nat.le_refl _
  | cons e _ ih =>
    rw [entriesSize_cons]
    omega
  | cons_cons e _ ih =>
    rw [entriesSize_cons, entriesSize_cons]
    omega

variable {decode : List UInt8 → Option E} {admits : E → Prop}

lemma Storable.toBytes_eq (h : f.Storable admits e) : f.toBytes e = some (f.entryBytes e) := by
  obtain ⟨bytes, hb⟩ := Option.isSome_iff_exists.mp h.encodes
  rw [entryBytes, hb, Option.getD_some]

lemma length_le_entriesSize (hf : f.Lawful decode admits) (hes : ∀ e ∈ es, f.Storable admits e) :
    es.length * f.fixedSize ≤ f.entriesSize es := by
  induction es with
  | nil => simp
  | cons e rest ih =>
    have he := hf.keyLen e _ (hes e List.mem_cons_self).toBytes_eq
    have hrest := ih fun e' h => hes e' (List.mem_cons_of_mem _ h)
    rw [List.length_cons, entriesSize_cons, Nat.add_mul, Nat.one_mul]
    omega

end Size

/-! ### Reading -/

section Read

variable {f} {decode : List UInt8 → Option E} {admits : E → Prop} {p : Page}

lemma readFrom_eq (hf : f.Lawful decode admits) (entryEnd : Nat) (es : List E) (offset : Nat)
    (hes : ∀ e ∈ es, f.Storable admits e)
    (hbytes : p.slice offset (f.entriesSize es) = f.allBytes es)
    (hend : offset + f.entriesSize es = entryEnd) :
    f.readFrom decode p entryEnd es.length offset = .ok (es, entryEnd) := by
  induction es generalizing offset with
  | nil =>
    rw [← hend]
    rfl
  | cons e rest ih =>
    have he := hes e List.mem_cons_self
    obtain ⟨hfixed, hkey⟩ := hf.keyLen e _ he.toBytes_eq
    have htwo := hf.two_le
    have hprefix := hf.prefix_le
    rw [entriesSize_cons, Page.slice_add, allBytes, List.flatMap_cons] at hbytes
    obtain ⟨hhead, htail⟩ := List.append_inj hbytes (by simp)
    rw [entriesSize_cons] at hend
    have hlen : p.u16At (offset + f.prefixSize - 2) + f.fixedSize = (f.entryBytes e).length := by
      rw [← hkey, ← hhead, Page.slice_drop_take _ (by omega), Page.u16At,
        Nat.add_sub_assoc htwo]
    have hstop : offset + p.u16At (offset + f.prefixSize - 2) + f.fixedSize =
        offset + (f.entryBytes e).length := by omega
    have hrest := ih (offset + (f.entryBytes e).length)
      (fun e' h => hes e' (List.mem_cons_of_mem _ h)) htail (by omega)
    rw [List.length_cons, readFrom, if_neg (by omega)]
    simp only [hstop]
    rw [if_neg (by omega), Nat.add_sub_cancel_left, hhead, hf.decode_eq e _ he.admits he.toBytes_eq]
    simp only [hrest, except_bind_ok]

lemma HoldsEntries.readEntries_eq {links : BTreePageHeader} {es : List E} (hf : f.Lawful decode admits)
    (h : f.HoldsEntries admits links es p) : f.readEntries decode p = .ok es := by
  have hfits := h.fits
  have hread := readFrom_eq hf (f.headerSize + f.entriesSize es) es f.headerSize h.storable h.bytes rfl
  rw [readEntries, h.header]
  simp only [h.isLinks.kind, ne_eq, not_true, if_false]
  rw [if_neg (by omega), hread]
  simp

/-- The entries that are read are the ones the bytes encode. -/
lemma holds_of_readFrom (hf : f.Lawful decode admits) {entryEnd : Nat} {n offset last : Nat}
    {es : List E} (h : f.readFrom decode p entryEnd n offset = .ok (es, last)) :
    es.length = n ∧ last = offset + f.entriesSize es ∧
      p.slice offset (f.entriesSize es) = f.allBytes es ∧ ∀ e ∈ es, f.Storable admits e := by
  induction n generalizing offset es last with
  | zero =>
    simp only [readFrom, Except.ok.injEq, Prod.mk.injEq] at h
    obtain ⟨rfl, rfl⟩ := h
    exact ⟨rfl, rfl, rfl, by simp⟩
  | succ n ih =>
    simp only [readFrom] at h
    split at h
    · cases h
    split at h
    · cases h
    split at h
    · cases h
    rename_i e hdecode
    generalize hread : f.readFrom decode p entryEnd n
      (offset + p.u16At (offset + f.prefixSize - 2) + f.fixedSize) = r at h
    cases r with
    | error _ => cases h
    | ok r =>
      obtain ⟨rest, last'⟩ := r
      simp only [except_bind_ok, Except.ok.injEq, Prod.mk.injEq] at h
      obtain ⟨rfl, rfl⟩ := h
      obtain ⟨hlen, hlast, hbytes, hstorable⟩ := ih hread
      obtain ⟨hadmits, hencode⟩ := hf.encode_eq _ _ hdecode
      have he : f.Storable admits e := ⟨hadmits, by rw [hencode]; rfl⟩
      have hentry := Option.some.inj (he.toBytes_eq.symm.trans hencode)
      have hsize : (f.entryBytes e).length = p.u16At (offset + f.prefixSize - 2) + f.fixedSize := by
        rw [hentry, Page.length_slice]
        omega
      rw [Nat.add_assoc offset, ← hsize] at hlast hbytes
      refine ⟨by rw [List.length_cons, hlen], ?_, ?_, ?_⟩
      · rw [hlast, entriesSize_cons, Nat.add_assoc]
      · have hslice : p.slice offset (f.entryBytes e).length = f.entryBytes e := by
          rw [hsize, hentry]
          congr 1
          omega
        rw [entriesSize_cons, Page.slice_add, hbytes, hslice]
        rfl
      · intro e' he'
        rcases List.mem_cons.mp he' with rfl | he'
        · exact he
        · exact hstorable e' he'

/-- A page whose entries can be read holds them. -/
lemma holdsEntries_of_readEntries (hf : f.Lawful decode admits) {header : BTreePageHeader}
    {es : List E} (hh : BTreePageHeader.readFromPage p = some header)
    (h : f.readEntries decode p = .ok es) : f.HoldsEntries admits header es p := by
  have hw := BTreePageHeader.wellFormed_of_readFromPage hh
  simp only [readEntries, hh] at h
  split at h
  · cases h
  rename_i hkind
  split at h
  · cases h
  generalize hread : f.readFrom decode p header.entryEnd header.entryCount f.headerSize = r at h
  cases r with
  | error _ => cases h
  | ok r =>
    obtain ⟨es', offset⟩ := r
    simp only [except_bind_ok] at h
    split at h
    · cases h
    rename_i hoffset
    obtain rfl := Except.ok.inj h
    obtain ⟨hlen, hlast, hbytes, hstorable⟩ := holds_of_readFrom hf hread
    have hend : header.entryEnd = f.headerSize + f.entriesSize es' := by
      rw [← hlast]
      exact (not_not.mp hoffset).symm
    refine ⟨⟨not_not.mp hkind, hw.links⟩, ?_, hbytes, hstorable, ?_⟩
    · rw [hh, hlen, ← hend]
    · rw [← hend]
      exact hw.end_le

end Read

/-! ### Writing -/

section Write

variable {f} {decode : List UInt8 → Option E} {admits : E → Prop} {p : Page} {links : BTreePageHeader} {es : List E} {e : E}

/-- The header of a page with these links and entries can be stored. -/
lemma IsLinks.wellFormed (hf : f.Lawful decode admits) (hl : f.IsLinks links)
    (hes : ∀ e ∈ es, f.Storable admits e) (hfits : f.headerSize + f.entriesSize es ≤ pageSize) :
    BTreePageHeader.WellFormed
      { links with entryCount := es.length, entryEnd := f.headerSize + f.entriesSize es } := by
  have hlen := length_le_entriesSize hf hes
  have htwo := hf.two_le.trans hf.prefix_le
  have hcount : es.length * 2 ≤ es.length * f.fixedSize := Nat.mul_le_mul_left _ htwo
  refine ⟨?_, ?_, hfits, hl.pointers⟩
  · simp only [pageSize] at hfits
    simp only
    omega
  · rw [hl.kind]
    exact Nat.le_add_right _ _

/-- A header written over the entries of a page, with new links. -/
lemma HoldsEntries.writeLinks {links' : BTreePageHeader} (hf : f.Lawful decode admits)
    (h : f.HoldsEntries admits links es p) (hl : f.IsLinks links') :
    f.HoldsEntries admits links' es (BTreePageHeader.writeToPage
      { links' with entryCount := es.length, entryEnd := f.headerSize + f.entriesSize es } p) := by
  refine ⟨hl, ?_, ?_, h.storable, h.fits⟩
  · exact BTreePageHeader.readFromPage_writeToPage (hl.wellFormed hf h.storable h.fits)
  · rw [BTreePageHeader.slice_writeToPage]
    · exact h.bytes
    · rw [hl.kind]
      exact Nat.le_refl _

/-- An append that succeeds writes the entry behind the others and then the header. -/
lemma appendEntry_run {header : BTreePageHeader} {bytes : List UInt8}
    (hheader : BTreePageHeader.readFromPage p = some header) (hkind : header.nodeType = f.nodeType)
    (he : f.toBytes e = some bytes) (hfits : header.entryEnd + bytes.length ≤ pageSize)
    (hcount : header.entryCount + 1 ≤ u16Max) :
    (f.appendEntry e).run p = .ok () (BTreePageHeader.writeToPage { header with
      entryCount := header.entryCount + 1
      entryEnd := header.entryEnd + bytes.length } (p.write header.entryEnd bytes)) := by
  have hend : header.entryEnd + bytes.length ≤ u16Max := hfits.trans (by decide)
  have happend : header.appendEntry bytes.length = some { header with
      entryCount := header.entryCount + 1
      entryEnd := header.entryEnd + bytes.length } := by
    rw [BTreePageHeader.appendEntry, if_neg (by omega)]
  simp only [appendEntry, Exec.run_bind, Exec.run_gets, Outcome.andThen_ok, hheader]
  rw [if_neg (not_not.mpr hkind)]
  simp only [he]
  rw [if_neg (by omega), if_neg (by omega)]
  simp only [happend]
  rfl

/-- An append changes nothing, or it writes an entry that fits. -/
lemma appendEntry_cases (e : E) (p : Page) : (∃ err, (f.appendEntry e).run p = .err err p) ∨
    ∃ header bytes, BTreePageHeader.readFromPage p = some header ∧ header.nodeType = f.nodeType ∧
      f.toBytes e = some bytes ∧ header.entryEnd + bytes.length ≤ pageSize ∧
      header.entryCount + 1 ≤ u16Max := by
  unfold appendEntry
  simp only [Exec.run_bind, Exec.run_gets, Outcome.andThen_ok]
  cases hheader : BTreePageHeader.readFromPage p with
  | none => exact .inl ⟨_, rfl⟩
  | some header =>
    simp only
    by_cases hkind : header.nodeType = f.nodeType
    · rw [if_neg (not_not.mpr hkind)]
      cases he : f.toBytes e with
      | none => exact .inl ⟨_, rfl⟩
      | some bytes =>
        simp only
        by_cases hfull : header.entryEnd + bytes.length > pageSize
        · rw [if_pos hfull]
          exact .inl ⟨_, rfl⟩
        rw [if_neg hfull]
        by_cases hlong : bytes.length > u16Max
        · rw [if_pos hlong]
          exact .inl ⟨_, rfl⟩
        rw [if_neg hlong]
        by_cases hcount : header.entryCount + 1 ≤ u16Max
        · exact .inr ⟨header, bytes, rfl, hkind, rfl, Nat.le_of_not_lt hfull, hcount⟩
        · rw [BTreePageHeader.appendEntry, if_pos (.inl (Nat.lt_of_not_le hcount))]
          exact .inl ⟨_, rfl⟩
    · rw [if_pos hkind]
      exact .inl ⟨_, rfl⟩

lemma HoldsEntries.appendEntry_ok (hf : f.Lawful decode admits) (h : f.HoldsEntries admits links es p)
    (he : f.Storable admits e) (hfits : f.headerSize + f.entriesSize (es ++ [e]) ≤ pageSize) :
    ∃ q, (f.appendEntry e).run p = .ok () q ∧ f.HoldsEntries admits links (es ++ [e]) q := by
  have hes : ∀ e' ∈ es ++ [e], f.Storable admits e' := by
    intro e' hmem
    rcases List.mem_append.mp hmem with hmem | hmem
    · exact h.storable e' hmem
    · rw [List.mem_singleton.mp hmem]
      exact he
  have hw := h.isLinks.wellFormed hf hes hfits
  have hsize : f.headerSize + f.entriesSize (es ++ [e]) =
      f.headerSize + f.entriesSize es + (f.entryBytes e).length := by
    rw [entriesSize_append, entriesSize_cons, entriesSize_nil, Nat.add_zero, Nat.add_assoc]
  have hcount := hw.count
  simp only [List.length_append, List.length_singleton] at hcount
  rw [hsize] at hfits
  simp only [pageSize] at hfits
  -- the new entry behind the old ones, then the header in front of them
  let q := p.write (f.headerSize + f.entriesSize es) (f.entryBytes e)
  refine ⟨BTreePageHeader.writeToPage { links with
    entryCount := (es ++ [e]).length
    entryEnd := f.headerSize + f.entriesSize (es ++ [e]) } q, ?_, ?_⟩
  · rw [appendEntry_run h.header h.isLinks.kind he.toBytes_eq hfits (Nat.le_of_lt_succ hcount), hsize,
      List.length_append, List.length_singleton]
  · refine ⟨h.isLinks, BTreePageHeader.readFromPage_writeToPage hw, ?_, hes, by
      rw [hsize]; exact hfits⟩
    rw [BTreePageHeader.slice_writeToPage (by rw [h.isLinks.kind]; exact Nat.le_refl _),
      entriesSize_append, Page.slice_add, allBytes, List.flatMap_append]
    congr 1
    · rw [Page.slice_write_of_disjoint _ _ (by omega)]
      exact h.bytes
    · rw [entriesSize_cons, entriesSize_nil, Nat.add_zero, List.flatMap_singleton]
      exact Page.slice_write_self _ _ (by simp only [pageSize]; omega)

lemma HoldsEntries.appendEntry_full (h : f.HoldsEntries admits links es p)
    (he : (f.toBytes e).isSome) (hfull : pageSize < f.headerSize + f.entriesSize (es ++ [e])) :
    (f.appendEntry e).run p = .err .pageFull p := by
  obtain ⟨bytes, hb⟩ := Option.isSome_iff_exists.mp he
  rw [entriesSize_append, entriesSize_cons, entriesSize_nil, entryBytes, hb, Option.getD_some] at hfull
  simp only [appendEntry, Exec.run_bind, Exec.run_gets, Outcome.andThen_ok, h.header, h.isLinks.kind,
    ne_eq, not_true, if_false, hb]
  rw [if_pos (by omega), Exec.run_throw]

lemma HoldsEntries.appendEntry_invalid (h : f.HoldsEntries admits links es p)
    (he : f.toBytes e = none) : (f.appendEntry e).run p = .err .invalidPage p := by
  simp only [appendEntry, Exec.run_bind, Exec.run_gets, Outcome.andThen_ok, h.header, h.isLinks.kind,
    ne_eq, not_true, if_false, he, Exec.run_throw]

/-- The entries are appended if they fit. -/
lemma HoldsEntries.appendEntries_ok (hf : f.Lawful decode admits) (h : f.HoldsEntries admits links es p)
    (new : List E) (hnew : ∀ e ∈ new, f.Storable admits e)
    (hfits : f.headerSize + f.entriesSize (es ++ new) ≤ pageSize) :
    ∃ q, (f.appendEntries new).run p = .ok () q ∧ f.HoldsEntries admits links (es ++ new) q := by
  induction new generalizing es p with
  | nil => exact ⟨p, rfl, by rwa [List.append_nil]⟩
  | cons e rest ih =>
    have hassoc : es ++ e :: rest = (es ++ [e]) ++ rest := by simp
    rw [hassoc] at hfits ⊢
    obtain ⟨p1, hrun1, h1⟩ := h.appendEntry_ok hf (hnew e List.mem_cons_self) (by
      rw [entriesSize_append] at hfits
      omega)
    obtain ⟨q, hrun, hq⟩ := ih h1 (fun e' hmem => hnew e' (List.mem_cons_of_mem _ hmem)) hfits
    refine ⟨q, ?_, hq⟩
    rw [appendEntries, Exec.run_bind, hrun1, Outcome.andThen_ok, hrun]

lemma HoldsEntries.appendEntries_full (hf : f.Lawful decode admits) (h : f.HoldsEntries admits links es p)
    (new : List E) (hnew : ∀ e ∈ new, f.Storable admits e)
    (hfull : pageSize < f.headerSize + f.entriesSize (es ++ new)) :
    ∃ q, (f.appendEntries new).run p = .err .pageFull q := by
  induction new generalizing es p with
  | nil =>
    rw [List.append_nil] at hfull
    exact absurd h.fits (by omega)
  | cons e rest ih =>
    have he := hnew e List.mem_cons_self
    by_cases hfits : f.headerSize + f.entriesSize (es ++ [e]) ≤ pageSize
    · obtain ⟨p1, hrun1, h1⟩ := h.appendEntry_ok hf he hfits
      obtain ⟨q, hrun⟩ := ih h1 (fun e' hmem => hnew e' (List.mem_cons_of_mem _ hmem))
        (by simpa using hfull)
      refine ⟨q, ?_⟩
      rw [appendEntries, Exec.run_bind, hrun1, Outcome.andThen_ok, hrun]
    · refine ⟨p, ?_⟩
      rw [appendEntries, Exec.run_bind, h.appendEntry_full he.encodes (by omega), Outcome.andThen_err]

/-- An entry that cannot be encoded is reached before the page is full. -/
lemma HoldsEntries.appendEntries_invalid (hf : f.Lawful decode admits)
    (h : f.HoldsEntries admits links es p) (pre post : List E) (hpre : ∀ e ∈ pre, f.Storable admits e)
    (hfits : f.headerSize + f.entriesSize (es ++ pre) ≤ pageSize) (he : f.toBytes e = none) :
    ∃ q, (f.appendEntries (pre ++ e :: post)).run p = .err .invalidPage q := by
  induction pre generalizing es p with
  | nil =>
    refine ⟨p, ?_⟩
    rw [List.nil_append, appendEntries, Exec.run_bind, h.appendEntry_invalid he, Outcome.andThen_err]
  | cons e' pre ih =>
    have hassoc : es ++ e' :: pre = (es ++ [e']) ++ pre := by simp
    rw [hassoc] at hfits
    have hfirst : f.headerSize + f.entriesSize (es ++ [e']) ≤ pageSize := by
      rw [entriesSize_append] at hfits
      omega
    have ⟨p1, hrun1, h1⟩ := h.appendEntry_ok hf (hpre e' List.mem_cons_self) hfirst
    have ⟨q, hrun⟩ := ih h1 (fun c hc => hpre c (List.mem_cons_of_mem _ hc)) hfits
    refine ⟨q, ?_⟩
    rw [List.cons_append, appendEntries, Exec.run_bind, hrun1, Outcome.andThen_ok, hrun]

/-- The list cannot be appended if one of its entries cannot be encoded or if they do not fit. -/
lemma HoldsEntries.appendEntries_err (hf : f.Lawful decode admits) (h : f.HoldsEntries admits links es p)
    (new : List E) (hadmits : ∀ e ∈ new, admits e)
    (hnot : ¬ ((∀ e ∈ new, (f.toBytes e).isSome) ∧ f.headerSize + f.entriesSize (es ++ new) ≤ pageSize)) :
    ∃ err q, (f.appendEntries new).run p = .err err q := by
  induction new generalizing es p with
  | nil =>
    apply absurd _ hnot
    rw [List.append_nil]
    exact ⟨by simp, h.fits⟩
  | cons e rest ih =>
    have hassoc : es ++ e :: rest = (es ++ [e]) ++ rest := by simp
    cases he : f.toBytes e with
    | none =>
      refine ⟨.invalidPage, p, ?_⟩
      rw [appendEntries, Exec.run_bind, h.appendEntry_invalid he, Outcome.andThen_err]
    | some bytes =>
      have hsome : (f.toBytes e).isSome := by rw [he]; rfl
      by_cases hfits : f.headerSize + f.entriesSize (es ++ [e]) ≤ pageSize
      · have ⟨p1, hrun1, h1⟩ := h.appendEntry_ok hf ⟨hadmits e List.mem_cons_self, hsome⟩ hfits
        have ⟨err, q, hrun⟩ := ih h1 (fun e' hmem => hadmits e' (List.mem_cons_of_mem _ hmem)) (by
          intro ⟨hrest, hsize⟩
          rw [hassoc] at hnot
          apply hnot
          exact ⟨List.forall_mem_cons.mpr ⟨hsome, hrest⟩, hsize⟩)
        refine ⟨err, q, ?_⟩
        rw [appendEntries, Exec.run_bind, hrun1, Outcome.andThen_ok, hrun]
      · refine ⟨.pageFull, p, ?_⟩
        rw [appendEntries, Exec.run_bind, h.appendEntry_full hsome (Nat.lt_of_not_le hfits),
          Outcome.andThen_err]

/-- A header written on a page, with no entry behind it. -/
lemma holdsEntries_empty (hf : f.Lawful decode admits) (hl : f.IsLinks links) (p : Page) :
    f.HoldsEntries admits links [] (BTreePageHeader.writeToPage
      { links with entryCount := 0, entryEnd := f.headerSize } p) := by
  have hfits : f.headerSize + f.entriesSize [] ≤ pageSize := by
    rw [headerSize, entriesSize_nil]
    cases f.nodeType <;> decide
  refine ⟨hl, ?_, rfl, by simp, hfits⟩
  exact BTreePageHeader.readFromPage_writeToPage (hl.wellFormed hf (by simp) hfits)

end Write

end EntryFormat

end RdbRs
