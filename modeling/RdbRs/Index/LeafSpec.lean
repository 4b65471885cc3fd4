import RdbRs.Index.Leaf

/-!
# Specifications of the leaf functions

Each function of a leaf page in terms of the entries and the next leaf the page holds.
-/

namespace RdbRs

/-- The key of the entry has the key type of the tree. -/
def LeafEntry.HasType (t : BTreeKeyType) (e : LeafEntry) : Prop := e.key.keyType = t

def leafLinks (next : Option PageId) : BTreePageHeader :=
  { BTreePageHeader.newLeaf with nextLeafPageId := next }

/-- The page is a leaf with these entries and this next leaf. -/
abbrev HoldsLeaf (t : BTreeKeyType) (es : List LeafEntry) (next : Option PageId) (p : Page) : Prop :=
  leafFormat.HoldsEntries (LeafEntry.HasType t) (leafLinks next) es p

/-- The bytes of a leaf page that its header and entries take. -/
def leafSize (es : List LeafEntry) : Nat := leafHeaderSize + leafFormat.entriesSize es

/-- The bytes of the entries: a key length, the key and a row id each. -/
def leafBytes (es : List LeafEntry) : Nat := (es.map fun e => 12 + e.key.toBytes.length).sum

/-- The entries fit an empty leaf page. -/
def FitsLeaf (es : List LeafEntry) : Prop := leafBytes es ≤ pageSize - leafHeaderSize

/-- The row ids stored under a key. -/
def rowsAt (es : List LeafEntry) (k : BTreeKey) : List RowId :=
  (es.filter fun e => e.key = k).map (·.rowId)

/-- The entry can be encoded: its key is of the type and not longer than `u16::MAX`. -/
abbrev LeafStorable (t : BTreeKeyType) (e : LeafEntry) : Prop :=
  leafFormat.Storable (LeafEntry.HasType t) e

section Format

variable {t : BTreeKeyType} {e : LeafEntry}

lemma LeafEntry.toBytes_eq_some {bytes : List UInt8} : e.toBytes = some bytes ↔
    e.key.toBytes.length ≤ u16Max ∧
      beBytes 2 e.key.toBytes.length ++ (e.key.toBytes ++ e.rowId.toBytes) = bytes := by
  simp [LeafEntry.toBytes]

lemma leafStorable_iff : LeafStorable t e ↔
    e.key.keyType = t ∧ e.key.toBytes.length ≤ u16Max := by
  constructor
  · rintro ⟨ht, he⟩
    obtain ⟨bytes, hb⟩ := Option.isSome_iff_exists.mp he
    exact ⟨ht, (LeafEntry.toBytes_eq_some.mp hb).1⟩
  · rintro ⟨ht, he⟩
    exact ⟨ht, Option.isSome_iff_exists.mpr ⟨_, LeafEntry.toBytes_eq_some.mpr ⟨he, rfl⟩⟩⟩

lemma length_leafEntryBytes (h : LeafStorable t e) :
    (leafFormat.entryBytes e).length = 12 + e.key.toBytes.length := by
  have hb := h.toBytes_eq
  have := (LeafEntry.toBytes_eq_some.mp hb).2
  rw [← this]
  simp
  omega

lemma leafSize_eq_sum {es : List LeafEntry} (h : ∀ e ∈ es, LeafStorable t e) :
    leafSize es = 14 + (es.map fun e => 12 + e.key.toBytes.length).sum := by
  have hmap : es.map (fun e => (leafFormat.entryBytes e).length) =
      es.map fun e => 12 + e.key.toBytes.length :=
    List.map_congr_left fun e he => length_leafEntryBytes (h e he)
  rw [leafSize, EntryFormat.entriesSize, hmap]
  rfl

/-- Entries that fit can be encoded. -/
lemma fitsLeaf_iff {es : List LeafEntry} (htypes : ∀ e ∈ es, e.key.keyType = t) :
    FitsLeaf es ↔ (∀ e ∈ es, LeafStorable t e) ∧ leafSize es ≤ pageSize := by
  have hfits : FitsLeaf es ↔ 14 + leafBytes es ≤ pageSize := by
    simp only [FitsLeaf, leafHeaderSize, pageSize]
    omega
  rw [hfits]
  constructor
  · intro h
    have hes (e : LeafEntry) (he : e ∈ es) : LeafStorable t e := by
      have hle : 12 + e.key.toBytes.length ≤ leafBytes es := by
        obtain ⟨pre, post, heq⟩ := List.append_of_mem he
        rw [heq, leafBytes, List.map_append, List.sum_append, List.map_cons, List.sum_cons]
        omega
      apply leafStorable_iff.mpr
      apply And.intro (htypes e he)
      simp only [pageSize, u16Max] at h ⊢
      omega
    apply And.intro hes
    rw [leafSize_eq_sum hes]
    exact h
  · rintro ⟨hes, h⟩
    rw [leafSize_eq_sum hes] at h
    exact h

lemma leafFormat_lawful (t : BTreeKeyType) :
    leafFormat.Lawful (LeafEntry.fromBytes t) (LeafEntry.HasType t) := by
  have hshape (e : LeafEntry) (bytes : List UInt8) (h : leafFormat.toBytes e = some bytes) :
      bytes.length = 2 + e.key.toBytes.length + 10 ∧ beNat (bytes.take 2) = e.key.toBytes.length := by
    obtain ⟨hle, rfl⟩ := LeafEntry.toBytes_eq_some.mp h
    have h2 : (beBytes 2 e.key.toBytes.length).length = 2 := length_beBytes 2 _
    refine ⟨by simp; omega, ?_⟩
    rw [List.take_left' h2, beNat_beBytes_of_lt]
    simp only [u16Max] at hle
    omega
  refine ⟨by decide, by decide, ?_, ?_, ?_, ?_⟩
  · intro e bytes h
    have hlen := (hshape e bytes h).1
    have hle := (LeafEntry.toBytes_eq_some.mp h).1
    simp only [u16Max] at hle
    simp only [leafFormat]
    omega
  · intro e bytes ht h
    obtain ⟨hlen, hkey⟩ := hshape e bytes h
    have hkb : e.key.keyType = t := ht
    have hbytes := (LeafEntry.toBytes_eq_some.mp h).2
    have h2 : (beBytes 2 e.key.toBytes.length).length = 2 := length_beBytes 2 _
    rw [LeafEntry.fromBytes, if_neg (by omega), hkey]
    simp only
    rw [if_neg (by omega)]
    have hdrop : bytes.drop 2 = e.key.toBytes ++ e.rowId.toBytes := by
      rw [← hbytes, List.drop_left' h2]
    rw [← List.drop_drop, hdrop, List.take_left' rfl, List.drop_left' rfl, ← hkb,
      BTreeKey.fromBytes_toBytes]
    simp
  · intro e bytes h
    rw [LeafEntry.fromBytes] at h
    split at h
    · cases h
    simp only at h
    split at h
    · cases h
    rename_i h2 hlen
    simp only [Option.bind_eq_bind, Option.bind_eq_some_iff, Option.some.injEq] at h
    obtain ⟨key, hkey, rfl⟩ := h
    obtain ⟨htype, hbytes⟩ := BTreeKey.toBytes_of_fromBytes hkey
    have h2len : (bytes.take 2).length = 2 := by rw [List.length_take]; omega
    have hlt := beNat_lt (bytes.take 2)
    rw [h2len] at hlt
    have hkeyLen : key.toBytes.length = beNat (bytes.take 2) := by
      rw [hbytes, List.length_take, List.length_drop]
      omega
    refine ⟨htype, LeafEntry.toBytes_eq_some.mpr ⟨by simp only [u16Max]; omega, ?_⟩⟩
    have hrow : (RowId.fromBytes (bytes.drop (2 + beNat (bytes.take 2)))).toBytes =
        bytes.drop (2 + beNat (bytes.take 2)) := by
      apply RowId.toBytes_fromBytes
      rw [List.length_drop]
      omega
    rw [hkeyLen, hrow, hbytes, ← List.drop_drop, List.take_append_drop]
    nth_rewrite 1 [← h2len]
    rw [beBytes_beNat, List.take_append_drop]
  · intro e bytes h
    obtain ⟨hlen, hkey⟩ := hshape e bytes h
    have hpre : leafFormat.prefixSize - 2 = 0 := rfl
    have hfix : leafFormat.fixedSize = 12 := rfl
    rw [hpre, List.drop_zero, hkey, hfix]
    omega

lemma leafLinks_isLinks (next : Option PageId) : leafFormat.IsLinks (leafLinks next) := ⟨rfl, rfl⟩

end Format

section Spec

variable {t : BTreeKeyType} {es : List LeafEntry} {next : Option PageId} {p : Page} {e : LeafEntry}
  {k : BTreeKey}

/-- A page whose entries can be read holds them, with the next leaf of its header. -/
lemma holdsLeaf_of_readLeafEntries {header : BTreePageHeader}
    (hheader : BTreePageHeader.readFromPage p = some header) (h : readLeafEntries p t = .ok es) :
    HoldsLeaf t es header.nextLeafPageId p := by
  have hholds := EntryFormat.holdsEntries_of_readEntries (leafFormat_lawful t) hheader h
  obtain ⟨⟨hkind, hlinks⟩, hheader', hbytes, hstorable, hfits⟩ := hholds
  refine ⟨leafLinks_isLinks _, ?_, hbytes, hstorable, hfits⟩
  rw [hheader']
  obtain ⟨kind, count, stop, child, next⟩ := header
  simp only [leafFormat] at hkind
  subst hkind
  simp only at hlinks
  subst hlinks
  rfl

lemma exists_holdsLeaf (h : readLeafEntries p t = .ok es) : ∃ next, HoldsLeaf t es next p := by
  cases hheader : BTreePageHeader.readFromPage p with
  | none =>
    rw [readLeafEntries, EntryFormat.readEntries, hheader] at h
    cases h
  | some header => exact ⟨_, holdsLeaf_of_readLeafEntries hheader h⟩

lemma HoldsLeaf.size_le (h : HoldsLeaf t es next p) : leafSize es ≤ pageSize := h.fits

lemma HoldsLeaf.keyType_eq (h : HoldsLeaf t es next p) (he : e ∈ es) : e.key.keyType = t :=
  (h.storable e he).admits

lemma HoldsLeaf.readLeafEntries_eq (h : HoldsLeaf t es next p) : readLeafEntries p t = .ok es :=
  h.readEntries_eq (leafFormat_lawful t)

lemma HoldsLeaf.readFromPage_eq (h : HoldsLeaf t es next p) : BTreePageHeader.readFromPage p =
    some { leafLinks next with entryCount := es.length, entryEnd := leafSize es } := h.header

lemma HoldsLeaf.leafIsUnderfull_eq (h : HoldsLeaf t es next p) :
    leafIsUnderfull p = .ok (decide (leafSize es ≤ pageSize / 2)) := by
  rw [leafIsUnderfull, h.readFromPage_eq]
  rfl

lemma HoldsLeaf.readNextLeafPageId_eq (h : HoldsLeaf t es next p) :
    readNextLeafPageId p = .ok next := by
  rw [readNextLeafPageId, h.readFromPage_eq]
  rfl

lemma HoldsLeaf.appendLeafEntry_ok (h : HoldsLeaf t es next p) (he : LeafStorable t e)
    (hfits : leafSize (es ++ [e]) ≤ pageSize) :
    ∃ q, (appendLeafEntry e).run p = .ok () q ∧ HoldsLeaf t (es ++ [e]) next q :=
  h.appendEntry_ok (leafFormat_lawful t) he hfits

lemma HoldsLeaf.appendLeafEntry_full (h : HoldsLeaf t es next p) (he : LeafStorable t e)
    (hfull : pageSize < leafSize (es ++ [e])) :
    (appendLeafEntry e).run p = .err .pageFull p :=
  h.appendEntry_full he.encodes hfull

lemma HoldsLeaf.appendLeafEntry_invalid (h : HoldsLeaf t es next p)
    (he : u16Max < e.key.toBytes.length) : (appendLeafEntry e).run p = .err .invalidPage p := by
  apply h.appendEntry_invalid
  change (if e.key.toBytes.length > u16Max then none else some _) = none
  rw [if_pos he]

/-- What `initialize_leaf_page` leaves. -/
def emptyLeaf : Page := BTreePageHeader.newLeaf.writeToPage Page.newRaw

@[simp] lemma run_initializeLeafPage : initializeLeafPage.run p = .ok () emptyLeaf := rfl

lemma holdsLeaf_emptyLeaf (t : BTreeKeyType) : HoldsLeaf t [] none emptyLeaf :=
  EntryFormat.holdsEntries_empty (leafFormat_lawful t) (leafLinks_isLinks none) Page.newRaw

/-- A cleared leaf page takes entries as long as they fit. -/
lemma appendLeafEntries_ok (es : List LeafEntry) (hes : ∀ e ∈ es, LeafStorable t e)
    (hfits : leafSize es ≤ pageSize) :
    ∃ q, (appendLeafEntries es).run emptyLeaf = .ok () q ∧ HoldsLeaf t es none q :=
  (holdsLeaf_emptyLeaf t).appendEntries_ok (leafFormat_lawful t) es hes hfits

lemma appendLeafEntries_full (es : List LeafEntry) (hes : ∀ e ∈ es, LeafStorable t e)
    (hfull : pageSize < leafSize es) :
    ∃ q, (appendLeafEntries es).run emptyLeaf = .err .pageFull q :=
  (holdsLeaf_emptyLeaf t).appendEntries_full (leafFormat_lawful t) es hes hfull

lemma appendLeafEntries_err (es : List LeafEntry) (htypes : ∀ e ∈ es, e.key.keyType = t)
    (hnot : ¬ FitsLeaf es) : ∃ err q, (appendLeafEntries es).run emptyLeaf = .err err q := by
  apply (holdsLeaf_emptyLeaf t).appendEntries_err (leafFormat_lawful t) es htypes
  intro ⟨hencodes, hfits⟩
  exact hnot ((fitsLeaf_iff htypes).mpr ⟨fun e he => ⟨htypes e he, hencodes e he⟩, hfits⟩)

lemma exists_leaf_of_fits {es : List LeafEntry} (htypes : ∀ e ∈ es, e.key.keyType = t)
    (hfits : FitsLeaf es) : ∃ p, HoldsLeaf t es none p := by
  have ⟨hes, hsize⟩ := (fitsLeaf_iff htypes).mp hfits
  have ⟨p, _, hp⟩ := appendLeafEntries_ok es hes hsize
  exact ⟨p, hp⟩

lemma HoldsLeaf.setNextLeafPageId_eq (h : HoldsLeaf t es next p) (next' : Option PageId) :
    ∃ q, (setNextLeafPageId next').run p = .ok () q ∧ HoldsLeaf t es next' q := by
  refine ⟨_, ?_, h.writeLinks (leafFormat_lawful t) (leafLinks_isLinks next')⟩
  simp only [setNextLeafPageId, Exec.run_bind, Exec.run_gets, Outcome.andThen_ok, h.readFromPage_eq]
  rfl

lemma HoldsLeaf.storable_append (h : HoldsLeaf t es next p) (he : LeafStorable t e) :
    ∀ e' ∈ es ++ [e], LeafStorable t e' := by
  intro e' hmem
  rcases List.mem_append.mp hmem with hmem | hmem
  · exact h.storable e' hmem
  · rw [List.mem_singleton.mp hmem]
    exact he

lemma HoldsLeaf.keyType_append (h : HoldsLeaf t es next p) (he : e.key.keyType = t) :
    ∀ e' ∈ es ++ [e], e'.key.keyType = t := by
  intro e' hmem
  rcases List.mem_append.mp hmem with hmem | hmem
  · exact h.keyType_eq hmem
  · rw [List.mem_singleton.mp hmem]
    exact he

/-! ### Search and deletion -/

lemma HoldsLeaf.findLeafRowIds_eq (h : HoldsLeaf t es next p) (hk : k.keyType = t) :
    findLeafRowIds p t k = .ok (rowsAt es k, es.any fun e => k < e.key) := by
  have hcmp {e : LeafEntry} (he : e ∈ es) : e.key.compare k =
      some (if e.key < k then .lt else if e.key = k then .eq else .gt) :=
    BTreeKey.compare_eq ((h.keyType_eq he).trans hk.symm)
  rw [findLeafRowIds, h.readLeafEntries_eq]
  simp only [except_bind_ok, rowsAt]
  congr 2
  · refine congrArg _ (List.filter_congr fun e he => ?_)
    rw [hcmp he]
    by_cases hlt : e.key < k
    · simp [hlt, ne_of_lt hlt]
    · by_cases heq : e.key = k <;> simp [hlt, heq]
  · rw [Bool.eq_iff_iff, List.any_eq_true, List.any_eq_true]
    refine exists_congr fun e => and_congr_right fun he => ?_
    rw [hcmp he, decide_eq_true_eq, decide_eq_true_eq]
    rcases lt_trichotomy e.key k with hlt | heq | hgt
    · simp [hlt, hlt.le]
    · simp [heq]
    · simp [hgt, hgt.not_gt, hgt.ne']

lemma findIdx?_entry (es : List LeafEntry) (k : BTreeKey) (r : RowId) :
    es.findIdx? (fun e => decide (e.key = k ∧ e.rowId = r)) = es.idxOf? ⟨k, r⟩ := by
  change _ = es.findIdx? (· == ⟨k, r⟩)
  congr 1
  funext e
  obtain ⟨k', r'⟩ := e
  rw [Bool.eq_iff_iff]
  simp

/-- Deleting rewrites the page and with it the header, so the next leaf is lost. -/
lemma HoldsLeaf.deleteLeafEntry_ok {r : RowId} (h : HoldsLeaf t es next p) (hm : ⟨k, r⟩ ∈ es) :
    ∃ q, (deleteLeafEntry t k r).run p = .ok true q ∧ HoldsLeaf t (es.erase ⟨k, r⟩) none q := by
  obtain ⟨i, hi⟩ : ∃ i, es.idxOf? ⟨k, r⟩ = some i :=
    Option.isSome_iff_exists.mp (List.isSome_idxOf?.mpr hm)
  have herase : es.eraseIdx i = es.erase ⟨k, r⟩ := by
    rw [List.erase_eq_eraseIdx, hi]
  have hsub : (es.erase ⟨k, r⟩).Sublist es := List.erase_sublist
  have hsize : leafSize (es.erase ⟨k, r⟩) ≤ pageSize :=
    (Nat.add_le_add_left (EntryFormat.entriesSize_le_of_sublist hsub) _).trans h.size_le
  obtain ⟨q, hrun, hq⟩ := appendLeafEntries_ok (es.erase ⟨k, r⟩)
    (fun e he => h.storable e (hsub.subset he)) hsize
  refine ⟨q, ?_, hq⟩
  simp only [deleteLeafEntry, Exec.run_bind, Exec.run_query, h.readLeafEntries_eq, Outcome.andThen_ok,
    findIdx?_entry, hi, herase, Exec.run_withLocal, run_initializeLeafPage, hrun, Exec.run_modify,
    Exec.run_pure]

lemma HoldsLeaf.deleteLeafEntry_absent {r : RowId} (h : HoldsLeaf t es next p)
    (hm : ⟨k, r⟩ ∉ es) : (deleteLeafEntry t k r).run p = .ok false p := by
  have hi : es.idxOf? ⟨k, r⟩ = none := List.idxOf?_eq_none_iff.mpr hm
  simp only [deleteLeafEntry, Exec.run_bind, Exec.run_query, h.readLeafEntries_eq, Outcome.andThen_ok,
    findIdx?_entry, hi, Exec.run_pure]

end Spec

/-! ### Split and merge -/

section Split

variable [UnstableSort] {t : BTreeKeyType} {es es' : List LeafEntry} {next next' : Option PageId}
  {p p' : Page} {e : LeafEntry}

lemma sortLeafEntries_perm (es : List LeafEntry) : (sortLeafEntries es).Perm es :=
  UnstableSort.perm _ _

lemma sortLeafEntries_pairwise (hes : ∀ e ∈ es, e.key.keyType = t) :
    (sortLeafEntries es).Pairwise fun a b => a.key ≤ b.key := by
  apply sortUnstableBy_keyed
  intro a ha b hb
  rw [BTreeKey.compare_eq ((hes a ha).trans (hes b hb).symm), Option.getD_some]
  rcases lt_trichotomy a.key b.key with hlt | heq | hgt
  · simp [hlt, hlt.le]
  · simp [heq]
  · simp [hgt, hgt.not_gt, hgt.ne']

/-- The left half of the sorted entries. -/
def leftHalf (es : List LeafEntry) : List LeafEntry :=
  (sortLeafEntries es).take ((sortLeafEntries es).length / 2)

def rightHalf (es : List LeafEntry) : List LeafEntry :=
  (sortLeafEntries es).drop ((sortLeafEntries es).length / 2)

lemma leftHalf_append_rightHalf (es : List LeafEntry) :
    leftHalf es ++ rightHalf es = sortLeafEntries es := List.take_append_drop _ _

lemma leftHalf_append_rightHalf_perm (es : List LeafEntry) : (leftHalf es ++ rightHalf es).Perm es := by
  rw [leftHalf_append_rightHalf]
  exact sortLeafEntries_perm es

lemma mem_leftHalf (he : e ∈ leftHalf es) : e ∈ es :=
  (leftHalf_append_rightHalf_perm es).mem_iff.mp (List.mem_append_left _ he)

lemma mem_rightHalf (he : e ∈ rightHalf es) : e ∈ es :=
  (leftHalf_append_rightHalf_perm es).mem_iff.mp (List.mem_append_right _ he)

lemma storable_leftHalf (hes : ∀ e ∈ es, LeafStorable t e) : ∀ e ∈ leftHalf es, LeafStorable t e :=
  fun e he => hes e (mem_leftHalf he)

lemma storable_rightHalf (hes : ∀ e ∈ es, LeafStorable t e) :
    ∀ e ∈ rightHalf es, LeafStorable t e :=
  fun e he => hes e (mem_rightHalf he)

lemma keyType_leftHalf (hes : ∀ e ∈ es, e.key.keyType = t) :
    ∀ e ∈ leftHalf es, e.key.keyType = t :=
  fun e he => hes e (mem_leftHalf he)

lemma keyType_rightHalf (hes : ∀ e ∈ es, e.key.keyType = t) :
    ∀ e ∈ rightHalf es, e.key.keyType = t :=
  fun e he => hes e (mem_rightHalf he)

/-- The part of `leaf_split` that writes the two pages. -/
def writeHalves (right : PageId) (last : LeafEntry) (oldNext : Option PageId)
    (left' right' : List LeafEntry) : Exec LeafPageError PagePair BTreeKey := do
  onLeft initializeLeafPage
  onLeft (appendLeafEntries left')
  onLeft (setNextLeafPageId (some right))
  onRight initializeLeafPage
  onRight (appendLeafEntries right')
  onRight (setNextLeafPageId oldNext)
  pure last.key

lemma HoldsLeaf.leafSplit_run (h : HoldsLeaf t es next p) (p' : Page) (he : e.key.keyType = t)
    (right : PageId) :
    (leafSplit right t e).run (p, p') = match (leftHalf (es ++ [e])).getLast? with
      | none => .err .invalidPage (p, p')
      | some last => (writeHalves right last next (leftHalf (es ++ [e]))
          (rightHalf (es ++ [e]))).run (p, p') := by
  have htypes : (es ++ [e]).any (fun e' => decide (e'.key.keyType ≠ t)) = false := by
    rw [List.any_eq_false]
    intro e' hmem
    simp [h.keyType_append he e' hmem]
  rcases hlast : (leftHalf (es ++ [e])).getLast? with _ | last <;> unfold leftHalf at hlast <;>
    simp only [leafSplit, Exec.run_bind, Exec.run_query, h.readLeafEntries_eq, Outcome.andThen_ok,
      htypes, Bool.false_eq_true, if_false, hlast]
  · rfl
  · simp only [Exec.run_bind, h.readNextLeafPageId_eq, Outcome.andThen_ok, writeHalves, leftHalf,
      rightHalf]

/-- The split of a leaf with a new entry, if both halves fit a page. -/
lemma HoldsLeaf.leafSplit_ok (h : HoldsLeaf t es next p) (p' : Page) (he : LeafStorable t e)
    (right : PageId)
    {last : LeafEntry} (hlast : (leftHalf (es ++ [e])).getLast? = some last)
    (hl : leafSize (leftHalf (es ++ [e])) ≤ pageSize)
    (hr : leafSize (rightHalf (es ++ [e])) ≤ pageSize) :
    ∃ q q', (leafSplit right t e).run (p, p') = .ok last.key (q, q') ∧
      HoldsLeaf t (leftHalf (es ++ [e])) (some right) q ∧
      HoldsLeaf t (rightHalf (es ++ [e])) next q' := by
  have hes := h.storable_append he
  obtain ⟨q1, hrun1, h1⟩ := appendLeafEntries_ok _ (storable_leftHalf hes) hl
  obtain ⟨q, hrun, hq⟩ := h1.setNextLeafPageId_eq (some right)
  obtain ⟨q1', hrun1', h1'⟩ := appendLeafEntries_ok _ (storable_rightHalf hes) hr
  obtain ⟨q', hrun', hq'⟩ := h1'.setNextLeafPageId_eq next
  refine ⟨q, q', ?_, hq, hq'⟩
  rw [h.leafSplit_run p' he.admits, hlast]
  simp only [writeHalves, onLeft, onRight, Exec.run_bind, Exec.run_zoom, run_initializeLeafPage,
    Outcome.mapState_ok, Outcome.andThen_ok, hrun1, hrun, hrun1', hrun', Exec.run_pure]

/-- The split fails if one of the halves does not fit, or if the left one is empty. -/
lemma HoldsLeaf.leafSplit_unfit (h : HoldsLeaf t es next p) (p' : Page) (he : e.key.keyType = t)
    (right : PageId)
    (hnot : ¬ (leftHalf (es ++ [e]) ≠ [] ∧ FitsLeaf (leftHalf (es ++ [e])) ∧
      FitsLeaf (rightHalf (es ++ [e])))) :
    ∃ err pages, (leafSplit right t e).run (p, p') = .err err pages := by
  have htypes := h.keyType_append he
  have hleft := keyType_leftHalf htypes
  rw [h.leafSplit_run p' he]
  rcases hlast : (leftHalf (es ++ [e])).getLast? with _ | last
  · exact ⟨_, _, rfl⟩
  have hne : leftHalf (es ++ [e]) ≠ [] := by
    intro hnil
    rw [hnil] at hlast
    cases hlast
  by_cases hl : FitsLeaf (leftHalf (es ++ [e]))
  · have hr : ¬ FitsLeaf (rightHalf (es ++ [e])) := fun hr => hnot ⟨hne, hl, hr⟩
    have ⟨hstorable, hsize⟩ := (fitsLeaf_iff hleft).mp hl
    obtain ⟨q1, hrun1, h1⟩ := appendLeafEntries_ok _ hstorable hsize
    obtain ⟨q, hrun, hq⟩ := h1.setNextLeafPageId_eq (some right)
    obtain ⟨err, q1', hrun1'⟩ := appendLeafEntries_err _ (keyType_rightHalf htypes) hr
    refine ⟨err, (q, q1'), ?_⟩
    simp only [writeHalves, onLeft, onRight, Exec.run_bind, Exec.run_zoom, run_initializeLeafPage,
      Outcome.mapState_ok, Outcome.mapState_err, Outcome.andThen_ok, Outcome.andThen_err, hrun1, hrun,
      hrun1']
  · obtain ⟨err, q1, hrun1⟩ := appendLeafEntries_err _ hleft hl
    refine ⟨err, (q1, p'), ?_⟩
    simp only [writeHalves, onLeft, onRight, Exec.run_bind, Exec.run_zoom, run_initializeLeafPage,
      Outcome.mapState_ok, Outcome.mapState_err, Outcome.andThen_ok, Outcome.andThen_err, hrun1]

/-- The same for an entry that can be encoded. -/
lemma HoldsLeaf.leafSplit_err (h : HoldsLeaf t es next p) (p' : Page) (he : LeafStorable t e)
    (right : PageId)
    (hnot : ¬ (leftHalf (es ++ [e]) ≠ [] ∧ leafSize (leftHalf (es ++ [e])) ≤ pageSize ∧
      leafSize (rightHalf (es ++ [e])) ≤ pageSize)) :
    ∃ err pages, (leafSplit right t e).run (p, p') = .err err pages := by
  have htypes := h.keyType_append he.admits
  apply h.leafSplit_unfit p' he.admits right
  rw [fitsLeaf_iff (keyType_leftHalf htypes), fitsLeaf_iff (keyType_rightHalf htypes)]
  intro ⟨hne, ⟨_, hl⟩, _, hr⟩
  exact hnot ⟨hne, hl, hr⟩

lemma storable_merge (h : HoldsLeaf t es next p) (h' : HoldsLeaf t es' next' p') :
    ∀ e ∈ sortLeafEntries (es ++ es'), LeafStorable t e := by
  intro e he
  rcases List.mem_append.mp ((sortLeafEntries_perm _).mem_iff.mp he) with he | he
  · exact h.storable e he
  · exact h'.storable e he

lemma leafSize_sortLeafEntries (es : List LeafEntry) : leafSize (sortLeafEntries es) = leafSize es :=
  congrArg (leafHeaderSize + ·) (EntryFormat.entriesSize_perm (sortLeafEntries_perm es))

lemma HoldsLeaf.leafMerge_ok (h : HoldsLeaf t es next p) (h' : HoldsLeaf t es' next' p')
    (hfits : leafSize (es ++ es') ≤ pageSize) :
    ∃ q q', (leafMerge t).run (p, p') = .ok () (q, q') ∧
      HoldsLeaf t (sortLeafEntries (es ++ es')) next' q ∧ HoldsLeaf t [] none q' := by
  rw [← leafSize_sortLeafEntries] at hfits
  obtain ⟨q1, hrun1, h1⟩ := appendLeafEntries_ok _ (storable_merge h h') hfits
  obtain ⟨q, hrun, hq⟩ := h1.setNextLeafPageId_eq next'
  refine ⟨q, emptyLeaf, ?_, hq, holdsLeaf_emptyLeaf t⟩
  simp only [leafMerge, onLeft, onRight, Exec.run_bind, Exec.run_query, h.readLeafEntries_eq,
    h'.readLeafEntries_eq, Outcome.andThen_ok, Exec.run_withLocal, run_initializeLeafPage, hrun1,
    Exec.run_zoom, Exec.run_modify, Outcome.mapState_ok, h'.readNextLeafPageId_eq, hrun]

lemma HoldsLeaf.leafMerge_full (h : HoldsLeaf t es next p) (h' : HoldsLeaf t es' next' p')
    (hfull : pageSize < leafSize (es ++ es')) :
    (leafMerge t).run (p, p') = .err .pageFull (p, p') := by
  rw [← leafSize_sortLeafEntries] at hfull
  obtain ⟨q1, hrun1⟩ := appendLeafEntries_full _ (storable_merge h h') hfull
  simp only [leafMerge, Exec.run_bind, Exec.run_query, h.readLeafEntries_eq, h'.readLeafEntries_eq,
    Outcome.andThen_ok, Exec.run_withLocal, run_initializeLeafPage, hrun1, Outcome.andThen_err]

end Split

/-! ### Rows that share a key -/

/-- Entries of `n` rows under one key. -/
def copies (k : BTreeKey) (start n : Nat) : List LeafEntry :=
  (List.range n).map fun i => ⟨k, .ofSlot (start + i)⟩

section Copies

variable {t : BTreeKeyType} {k : BTreeKey} {e : LeafEntry} {es : List LeafEntry} {start n : Nat}

lemma copies_succ : copies k start (n + 1) = copies k start n ++ [⟨k, .ofSlot (start + n)⟩] := by
  simp [copies, List.range_succ]

lemma copies_append (k : BTreeKey) (start m n : Nat) :
    copies k start m ++ copies k (start + m) n = copies k start (m + n) := by
  induction n with
  | zero => simp [copies]
  | succ n ih =>
    rw [copies_succ, ← List.append_assoc, ih, ← Nat.add_assoc, copies_succ, Nat.add_assoc]

@[simp] lemma length_copies : (copies k start n).length = n := by simp [copies]

lemma key_of_mem_copies (he : e ∈ copies k start n) : e.key = k := by
  obtain ⟨i, -, rfl⟩ := List.mem_map.mp he
  rfl

lemma pairwise_copies : (copies k start n).Pairwise fun a b => a.key ≤ b.key := by
  apply List.pairwise_iff_forall_sublist.mpr
  intro a b hab
  rw [key_of_mem_copies (hab.subset (by simp)), key_of_mem_copies (hab.subset (by simp))]

/-- A stable sort leaves sorted entries as they are. -/
lemma sortLeafEntries_eq_self {t : BTreeKeyType} {es : List LeafEntry}
    (hes : ∀ e ∈ es, e.key.keyType = t) (h : es.Pairwise fun a b => a.key ≤ b.key) :
    @sortLeafEntries UnstableSort.stable es = es := by
  apply List.mergeSort_of_pairwise
  apply h.imp_of_mem
  intro a b ha hb hab
  beta_reduce
  rw [BTreeKey.compare_eq ((hes a ha).trans (hes b hb).symm), Option.getD_some]
  rcases hab.lt_or_eq with hlt | heq
  · simp [hlt]
  · simp [heq]

/-- Sorted entries are split in the middle. -/
lemma halves_of_pairwise (es' : List LeafEntry) (hes : ∀ c ∈ es ++ es', c.key.keyType = t)
    (h : (es ++ es').Pairwise fun a b => a.key ≤ b.key) (hlen : (es ++ es').length / 2 = es.length) :
    @leftHalf UnstableSort.stable (es ++ es') = es ∧
      @rightHalf UnstableSort.stable (es ++ es') = es' := by
  unfold leftHalf rightHalf
  rw [sortLeafEntries_eq_self hes h, hlen]
  exact ⟨List.take_left' rfl, List.drop_left' rfl⟩

end Copies

end RdbRs
