import RdbRs.Index.Internal

/-!
# Specifications of the internal page functions
-/

namespace RdbRs

def InternalEntry.HasType (t : BTreeKeyType) (e : InternalEntry) : Prop := e.separatorKey.keyType = t

/-- The page is an internal page with these entries and this rightmost child. -/
abbrev HoldsInternal (t : BTreeKeyType) (es : List InternalEntry) (rightmost : PageId) (p : Page) :
    Prop :=
  internalFormat.HoldsEntries (InternalEntry.HasType t) (BTreePageHeader.newInternal rightmost) es p

/-- The bytes of an internal page that its header and entries take. -/
def internalSize (es : List InternalEntry) : Nat :=
  internalHeaderSize + internalFormat.entriesSize es

abbrev InternalStorable (t : BTreeKeyType) (e : InternalEntry) : Prop :=
  internalFormat.Storable (InternalEntry.HasType t) e

/-- The child a key is sent to. -/
def childFor (rightmost : PageId) (k : BTreeKey) : List InternalEntry → PageId
  | [] => rightmost
  | e :: rest => if k ≤ e.separatorKey then e.leftChild else childFor rightmost k rest

section Format

variable {t : BTreeKeyType} {e : InternalEntry}

lemma InternalEntry.toBytes_eq_some {bytes : List UInt8} : e.toBytes = some bytes ↔
    e.separatorKey.toBytes.length ≤ u16Max ∧ e.leftChild.toBytes ++
      (beBytes 2 e.separatorKey.toBytes.length ++ e.separatorKey.toBytes) = bytes := by
  simp [InternalEntry.toBytes]

lemma internalStorable_iff : InternalStorable t e ↔
    e.separatorKey.keyType = t ∧ e.separatorKey.toBytes.length ≤ u16Max := by
  constructor
  · rintro ⟨ht, he⟩
    obtain ⟨bytes, hb⟩ := Option.isSome_iff_exists.mp he
    exact ⟨ht, (InternalEntry.toBytes_eq_some.mp hb).1⟩
  · rintro ⟨ht, he⟩
    exact ⟨ht, Option.isSome_iff_exists.mpr ⟨_, InternalEntry.toBytes_eq_some.mpr ⟨he, rfl⟩⟩⟩

lemma length_internalEntryBytes (h : InternalStorable t e) :
    (internalFormat.entryBytes e).length = 10 + e.separatorKey.toBytes.length := by
  have hb := h.toBytes_eq
  have := (InternalEntry.toBytes_eq_some.mp hb).2
  rw [← this]
  simp
  omega

lemma internalFormat_lawful (t : BTreeKeyType) :
    internalFormat.Lawful (InternalEntry.fromBytes t) (InternalEntry.HasType t) := by
  have hshape (e : InternalEntry) (bytes : List UInt8) (h : internalFormat.toBytes e = some bytes) :
      bytes.length = 10 + e.separatorKey.toBytes.length ∧
        beNat ((bytes.drop 8).take 2) = e.separatorKey.toBytes.length ∧
        bytes.take 8 = e.leftChild.toBytes ∧ bytes.drop 10 = e.separatorKey.toBytes := by
    obtain ⟨hle, rfl⟩ := InternalEntry.toBytes_eq_some.mp h
    have h2 : (beBytes 2 e.separatorKey.toBytes.length).length = 2 := length_beBytes 2 _
    have h8 : e.leftChild.toBytes.length = 8 := e.leftChild.length_toBytes
    refine ⟨by simp; omega, ?_, List.take_left' h8, ?_⟩
    · rw [List.drop_left' h8, List.take_left' h2, beNat_beBytes_of_lt]
      simp only [u16Max] at hle
      omega
    · rw [show 10 = 8 + 2 from rfl, ← List.drop_drop, List.drop_left' h8, List.drop_left' h2]
  refine ⟨by decide, by decide, ?_, ?_, ?_, ?_⟩
  · intro e bytes h
    have hlen := (hshape e bytes h).1
    have hle := (InternalEntry.toBytes_eq_some.mp h).1
    simp only [u16Max] at hle
    simp only [internalFormat]
    omega
  · intro e bytes ht h
    obtain ⟨hlen, hkey, hchild, hsep⟩ := hshape e bytes h
    have hkb : e.separatorKey.keyType = t := ht
    rw [InternalEntry.fromBytes, if_neg (by omega), hkey]
    simp only
    rw [if_neg (by omega), hsep, hchild, ← hkb, BTreeKey.fromBytes_toBytes, PageId.fromBytes_toBytes]
    rfl
  · intro e bytes h
    rw [InternalEntry.fromBytes] at h
    split at h
    · cases h
    simp only at h
    split at h
    · cases h
    rename_i h10 hlen
    simp only [Option.bind_eq_bind, Option.bind_eq_some_iff, Option.some.injEq] at h
    obtain ⟨key, hkey, rfl⟩ := h
    obtain ⟨htype, hbytes⟩ := BTreeKey.toBytes_of_fromBytes hkey
    have h2len : ((bytes.drop 8).take 2).length = 2 := by
      rw [List.length_take, List.length_drop]
      omega
    have hlt := beNat_lt ((bytes.drop 8).take 2)
    rw [h2len] at hlt
    have hkeyLen : key.toBytes.length = beNat ((bytes.drop 8).take 2) := by
      rw [hbytes, List.length_drop]
      omega
    refine ⟨htype, InternalEntry.toBytes_eq_some.mpr ⟨by simp only [u16Max]; omega, ?_⟩⟩
    have hchild : (PageId.fromBytes (bytes.take 8)).toBytes = bytes.take 8 := by
      apply PageId.toBytes_fromBytes
      rw [List.length_take]
      omega
    have hhead : beBytes 2 (beNat ((bytes.drop 8).take 2)) = (bytes.drop 8).take 2 := by
      nth_rewrite 1 [← h2len]
      exact beBytes_beNat _
    simp only [hchild]
    rw [hkeyLen, hhead, hbytes, show 10 = 8 + 2 from rfl, ← List.drop_drop, List.take_append_drop,
      List.take_append_drop]
  · intro e bytes h
    obtain ⟨hlen, hkey, -, -⟩ := hshape e bytes h
    have hpre : internalFormat.prefixSize - 2 = 8 := rfl
    have hfix : internalFormat.fixedSize = 10 := rfl
    rw [hpre, hkey, hfix]
    omega

lemma newInternal_isLinks (rightmost : PageId) :
    internalFormat.IsLinks (BTreePageHeader.newInternal rightmost) := ⟨rfl, rfl, rfl⟩

end Format

section Spec

variable {t : BTreeKeyType} {es : List InternalEntry} {rightmost : PageId} {p : Page}
  {e : InternalEntry} {k : BTreeKey}

/-- A page whose entries can be read holds them, with the rightmost child of its header. -/
lemma holdsInternal_of_readInternalEntries {header : BTreePageHeader}
    (hheader : BTreePageHeader.readFromPage p = some header) (h : readInternalEntries p t = .ok es) :
    ∃ rightmost, header.rightmostChild = some rightmost ∧ HoldsInternal t es rightmost p := by
  have hholds := EntryFormat.holdsEntries_of_readEntries (internalFormat_lawful t) hheader h
  obtain ⟨⟨hkind, hlinks⟩, hheader', hbytes, hstorable, hfits⟩ := hholds
  obtain ⟨kind, count, stop, child, next⟩ := header
  simp only [internalFormat] at hkind
  subst hkind
  obtain ⟨hchild, hnext⟩ := hlinks
  simp only at hchild hnext
  subst hnext
  obtain ⟨rightmost, rfl⟩ := Option.isSome_iff_exists.mp hchild
  exact ⟨rightmost, rfl, newInternal_isLinks _, hheader', hbytes, hstorable, hfits⟩

lemma HoldsInternal.size_le (h : HoldsInternal t es rightmost p) : internalSize es ≤ pageSize := h.fits

lemma HoldsInternal.keyType_eq (h : HoldsInternal t es rightmost p) (he : e ∈ es) :
    e.separatorKey.keyType = t := (h.storable e he).admits

lemma HoldsInternal.readInternalEntries_eq (h : HoldsInternal t es rightmost p) :
    readInternalEntries p t = .ok es :=
  h.readEntries_eq (internalFormat_lawful t)

lemma HoldsInternal.readFromPage_eq (h : HoldsInternal t es rightmost p) :
    BTreePageHeader.readFromPage p = some { BTreePageHeader.newInternal rightmost with
      entryCount := es.length, entryEnd := internalSize es } := h.header

lemma HoldsInternal.readRightmostChild_eq (h : HoldsInternal t es rightmost p) :
    readRightmostChild p = .ok rightmost := by
  rw [readRightmostChild, h.readFromPage_eq]
  rfl

lemma findChildIn_eq (hes : ∀ e ∈ es, e.separatorKey.keyType = t) (hk : k.keyType = t) :
    findChildIn k (some rightmost) es = .ok (childFor rightmost k es) := by
  induction es with
  | nil => rfl
  | cons e rest ih =>
    have hcmp := BTreeKey.compare_eq ((hes e List.mem_cons_self).trans hk.symm)
    have hrest := ih fun e' he' => hes e' (List.mem_cons_of_mem _ he')
    rw [findChildIn, childFor, hcmp]
    rcases lt_trichotomy e.separatorKey k with hlt | heq | hgt
    · simp only [hlt, if_true, if_neg hlt.not_ge, hrest]
    · simp [heq]
    · simp only [hgt.not_gt, hgt.ne', if_false, if_pos hgt.le]

lemma HoldsInternal.findInternalChild_eq (h : HoldsInternal t es rightmost p) (hk : k.keyType = t) :
    findInternalChild p t k = .ok (childFor rightmost k es) := by
  rw [findInternalChild, h.readFromPage_eq]
  simp only [BTreePageHeader.newInternal, BTreePageHeader.isLeaf, Bool.false_eq_true, if_false,
    h.readInternalEntries_eq, except_bind_ok]
  exact findChildIn_eq (fun e he => h.keyType_eq he) hk

/-! ### Rewriting a page -/

def emptyInternal (rightmost : PageId) : Page :=
  (BTreePageHeader.newInternal rightmost).writeToPage Page.newRaw

@[simp] lemma run_initializeInternalPage :
    (initializeInternalPage rightmost).run p = .ok () (emptyInternal rightmost) := rfl

lemma holdsInternal_emptyInternal (t : BTreeKeyType) (rightmost : PageId) :
    HoldsInternal t [] rightmost (emptyInternal rightmost) :=
  EntryFormat.holdsEntries_empty (internalFormat_lawful t) (newInternal_isLinks rightmost) Page.newRaw

lemma appendInternalEntries_ok (rightmost : PageId) (es : List InternalEntry)
    (hes : ∀ e ∈ es, InternalStorable t e) (hfits : internalSize es ≤ pageSize) :
    ∃ q, (appendInternalEntries es).run (emptyInternal rightmost) = .ok () q ∧
      HoldsInternal t es rightmost q :=
  (holdsInternal_emptyInternal t rightmost).appendEntries_ok (internalFormat_lawful t) es hes hfits

lemma appendInternalEntries_full (rightmost : PageId) (es : List InternalEntry)
    (hes : ∀ e ∈ es, InternalStorable t e) (hfull : pageSize < internalSize es) :
    ∃ q, (appendInternalEntries es).run (emptyInternal rightmost) = .err .pageFull q :=
  (holdsInternal_emptyInternal t rightmost).appendEntries_full (internalFormat_lawful t) es hes hfull

lemma internalSize_le_of_sublist {es' : List InternalEntry} (h : es'.Sublist es) :
    internalSize es' ≤ internalSize es :=
  Nat.add_le_add_left (EntryFormat.entriesSize_le_of_sublist h) _

/-! ### Splits -/

/-- The entry that moves up when an internal page splits. -/
lemma HoldsInternal.internalSplit_ok (h : HoldsInternal t es rightmost p) (p' : Page)
    {promoted : InternalEntry} {rest : List InternalEntry} (hsplit : es.drop (es.length / 2) = promoted :: rest) :
    ∃ q q', (internalSplit t).run (p, p') = .ok promoted.separatorKey (q, q') ∧
      HoldsInternal t (es.take (es.length / 2)) promoted.leftChild q ∧
      HoldsInternal t rest rightmost q' := by
  have htake : (es.take (es.length / 2)).Sublist es := List.take_sublist _ _
  have hrest : rest.Sublist es :=
    (List.sublist_cons_self promoted rest).trans (hsplit ▸ List.drop_sublist _ _)
  obtain ⟨q, hrun, hq⟩ := appendInternalEntries_ok promoted.leftChild _
    (fun e he => h.storable e (htake.subset he)) ((internalSize_le_of_sublist htake).trans h.size_le)
  obtain ⟨q', hrun', hq'⟩ := appendInternalEntries_ok rightmost _
    (fun e he => h.storable e (hrest.subset he)) ((internalSize_le_of_sublist hrest).trans h.size_le)
  refine ⟨q, q', ?_, hq, hq'⟩
  simp only [internalSplit, Exec.run_bind, Exec.run_query, h.readInternalEntries_eq, Exec.run_gets,
    Outcome.andThen_ok, h.readFromPage_eq, Option.bind_some, BTreePageHeader.newInternal, hsplit,
    onLeft, onRight, Exec.run_zoom, run_initializeInternalPage, Outcome.mapState_ok, hrun, hrun',
    Exec.run_pure]

lemma HoldsInternal.internalSplit_err (h : HoldsInternal t es rightmost p) (p' : Page) (hnil : es = []) :
    (internalSplit t).run (p, p') = .err .invalidPage (p, p') := by
  simp only [internalSplit, Exec.run_bind, Exec.run_query, h.readInternalEntries_eq, Exec.run_gets,
    Outcome.andThen_ok, hnil, List.drop_nil, Exec.run_throw]

/-- What becomes of the children and separators when the leaf `oldChild` becomes two. -/
inductive ReplacedChild (oldChild leftChild rightChild : PageId) (separator : BTreeKey) :
    List InternalEntry → PageId → List InternalEntry → PageId → Prop where
  | inner {pre post : List InternalEntry} {s : BTreeKey} {rightmost : PageId} :
      (∀ e ∈ pre, e.leftChild ≠ oldChild) →
      ReplacedChild oldChild leftChild rightChild separator
        (pre ++ ⟨oldChild, s⟩ :: post) rightmost
        (pre ++ ⟨leftChild, separator⟩ :: ⟨rightChild, s⟩ :: post) rightmost
  | last {es : List InternalEntry} :
      (∀ e ∈ es, e.leftChild ≠ oldChild) →
      ReplacedChild oldChild leftChild rightChild separator
        es oldChild (es ++ [⟨leftChild, separator⟩]) rightChild

variable {old left right : PageId} {sep : BTreeKey} {es' : List InternalEntry} {rightmost' : PageId}

lemma findIdx?_child {pre post : List InternalEntry} {c : PageId} {s : BTreeKey}
    (hpre : ∀ e ∈ pre, e.leftChild ≠ c) :
    (pre ++ ⟨c, s⟩ :: post).findIdx? (fun e => decide (e.leftChild = c)) = some pre.length := by
  rw [List.findIdx?_append, List.findIdx?_eq_none_iff.mpr (by simpa using hpre)]
  simp [List.findIdx?_cons]

lemma findIdx?_child_none {c : PageId} (hes : ∀ e ∈ es, e.leftChild ≠ c) :
    es.findIdx? (fun e => decide (e.leftChild = c)) = none :=
  List.findIdx?_eq_none_iff.mpr (by simpa using hes)

lemma insertIdx_after (pre post : List InternalEntry) (a b : InternalEntry) :
    (pre ++ a :: post).insertIdx (pre.length + 1) b = pre ++ a :: b :: post := by
  induction pre with
  | nil => rfl
  | cons x pre ih => simpa using ih

lemma modify_at (pre post : List InternalEntry) (a : InternalEntry)
    (f : InternalEntry → InternalEntry) :
    (pre ++ a :: post).modify pre.length f = pre ++ f a :: post := by
  induction pre with
  | nil => rfl
  | cons x pre ih => simpa using ih

/-- The replacement ends with the rewriting of the page. -/
lemma HoldsInternal.replaceChild_run (h : HoldsInternal t es rightmost p)
    (hr : ReplacedChild old left right sep es rightmost es' rightmost') :
    (replaceChildAfterLeafSplit t old left right sep).run p =
      match (appendInternalEntries es').run (emptyInternal rightmost') with
        | .ok _ q => .ok () q
        | .err e _ => .err e p
        | .panic => .panic
        | .diverge => .diverge := by
  simp only [replaceChildAfterLeafSplit, Exec.run_bind, Exec.run_query, h.readInternalEntries_eq,
    h.readRightmostChild_eq, Outcome.andThen_ok]
  cases hr with
  | @inner pre post s _ hpre =>
    have hins : ((pre ++ ⟨old, s⟩ :: post).set pre.length ⟨left, sep⟩).insertIdx (pre.length + 1)
        ⟨right, s⟩ = pre ++ ⟨left, sep⟩ :: ⟨right, s⟩ :: post := by
      rw [List.set_append_right _ _ (Nat.le_refl _), Nat.sub_self, List.set_cons_zero]
      exact insertIdx_after _ _ _ _
    simp only [findIdx?_child hpre, List.getElem?_append_right (Nat.le_refl _), Nat.sub_self,
      List.getElem?_cons_zero, hins, Exec.run_pure, Outcome.andThen_ok, Exec.run_withLocal,
      Exec.run_bind, run_initializeInternalPage]
    generalize (appendInternalEntries (pre ++ ⟨left, sep⟩ :: ⟨right, s⟩ :: post)).run _ = o
    cases o <;> rfl
  | last hes =>
    simp only [findIdx?_child_none hes, if_true, Exec.run_pure, Outcome.andThen_ok,
      Exec.run_withLocal, Exec.run_bind, run_initializeInternalPage]
    generalize (appendInternalEntries (es ++ [⟨left, sep⟩])).run _ = o
    cases o <;> rfl

lemma ReplacedChild.storable (hr : ReplacedChild old left right sep es rightmost es' rightmost')
    (hes : ∀ e ∈ es, InternalStorable t e) (hsep : sep.keyType = t ∧ sep.toBytes.length ≤ u16Max) :
    ∀ e ∈ es', InternalStorable t e := by
  intro e he
  cases hr with
  | @inner pre post s _ hpre =>
    have hs := internalStorable_iff.mp (hes ⟨old, s⟩ (by simp))
    simp only [List.mem_append, List.mem_cons] at he
    rcases he with he | rfl | rfl | he
    · exact hes e (by simp [he])
    · exact internalStorable_iff.mpr hsep
    · exact internalStorable_iff.mpr hs
    · exact hes e (by simp [he])
  | last _ =>
    rcases List.mem_append.mp he with he | he
    · exact hes e he
    · rw [List.mem_singleton.mp he]
      exact internalStorable_iff.mpr hsep

lemma HoldsInternal.replaceChild_ok (h : HoldsInternal t es rightmost p)
    (hr : ReplacedChild old left right sep es rightmost es' rightmost')
    (hsep : sep.keyType = t ∧ sep.toBytes.length ≤ u16Max) (hfits : internalSize es' ≤ pageSize) :
    ∃ q, (replaceChildAfterLeafSplit t old left right sep).run p = .ok () q ∧
      HoldsInternal t es' rightmost' q := by
  obtain ⟨q, hrun, hq⟩ :=
    appendInternalEntries_ok rightmost' es' (hr.storable h.storable hsep) hfits
  exact ⟨q, by rw [h.replaceChild_run hr, hrun], hq⟩

lemma HoldsInternal.replaceChild_full (h : HoldsInternal t es rightmost p)
    (hr : ReplacedChild old left right sep es rightmost es' rightmost')
    (hsep : sep.keyType = t ∧ sep.toBytes.length ≤ u16Max) (hfull : pageSize < internalSize es') :
    (replaceChildAfterLeafSplit t old left right sep).run p = .err .pageFull p := by
  obtain ⟨q, hrun⟩ := appendInternalEntries_full rightmost' es' (hr.storable h.storable hsep) hfull
  rw [h.replaceChild_run hr, hrun]

lemma HoldsInternal.replaceChild_absent (h : HoldsInternal t es rightmost p)
    (left right : PageId) (sep : BTreeKey) (hes : ∀ e ∈ es, e.leftChild ≠ old) (hne : rightmost ≠ old) :
    (replaceChildAfterLeafSplit t old left right sep).run p = .err .invalidPage p := by
  simp only [replaceChildAfterLeafSplit, Exec.run_bind, Exec.run_query, h.readInternalEntries_eq,
    h.readRightmostChild_eq, Outcome.andThen_ok, findIdx?_child_none hes, if_neg hne, Exec.run_throw,
    Outcome.andThen_err]

/-! ### Merges -/

/-- Two neighbouring children, and the children and separators when the right one is gone. -/
inductive MergedChildren (left right : PageId) :
    List InternalEntry → PageId → List InternalEntry → PageId → Prop where
  | inner {pre post : List InternalEntry} {s s' : BTreeKey} {rightmost : PageId} :
      (∀ e ∈ pre, e.leftChild ≠ left) → rightmost ≠ right →
      MergedChildren left right (pre ++ ⟨left, s⟩ :: ⟨right, s'⟩ :: post) rightmost
        (pre ++ ⟨left, s'⟩ :: post) rightmost
  | last {pre : List InternalEntry} {s : BTreeKey} :
      (∀ e ∈ pre, e.leftChild ≠ left) →
      MergedChildren left right (pre ++ [⟨left, s⟩]) right pre left

lemma MergedChildren.storable (hm : MergedChildren left right es rightmost es' rightmost')
    (hes : ∀ e ∈ es, InternalStorable t e) : ∀ e ∈ es', InternalStorable t e := by
  intro e he
  cases hm with
  | @inner pre post s s' _ hpre _ =>
    have hs := internalStorable_iff.mp (hes ⟨right, s'⟩ (by simp))
    simp only [List.mem_append, List.mem_cons] at he
    rcases he with he | rfl | he
    · exact hes e (by simp [he])
    · exact internalStorable_iff.mpr hs
    · exact hes e (by simp [he])
  | last _ => exact hes e (by simp [he])

lemma MergedChildren.size_le (hm : MergedChildren left right es rightmost es' rightmost')
    (hes : ∀ e ∈ es, InternalStorable t e) : internalSize es' ≤ internalSize es := by
  have hes' := hm.storable hes
  cases hm with
  | @inner pre post s s' _ hpre _ =>
    have h1 := length_internalEntryBytes (hes ⟨right, s'⟩ (by simp))
    have h2 := length_internalEntryBytes (hes' ⟨left, s'⟩ (by simp))
    simp only [internalSize, EntryFormat.entriesSize_append, EntryFormat.entriesSize_cons]
    simp only at h1 h2
    omega
  | last _ => exact internalSize_le_of_sublist (List.sublist_append_left _ _)

lemma HoldsInternal.removeRightChild_ok (h : HoldsInternal t es rightmost p)
    (hm : MergedChildren left right es rightmost es' rightmost') :
    ∃ q, (removeRightChildAfterLeafMerge left right t).run p = .ok () q ∧
      HoldsInternal t es' rightmost' q := by
  obtain ⟨q, hrun, hq⟩ := appendInternalEntries_ok rightmost' es' (hm.storable h.storable)
    ((hm.size_le h.storable).trans h.size_le)
  refine ⟨q, ?_, hq⟩
  simp only [removeRightChildAfterLeafMerge, Exec.run_bind, Exec.run_query, h.readInternalEntries_eq,
    h.readRightmostChild_eq, Outcome.andThen_ok]
  cases hm with
  | @inner pre post s s' _ hpre hne =>
    have herase : (pre ++ ⟨left, s⟩ :: ⟨right, s'⟩ :: post).eraseIdx (pre.length + 1) =
        pre ++ ⟨left, s⟩ :: post := by
      rw [List.eraseIdx_append_of_length_le (by omega), Nat.add_sub_cancel_left]
      rfl
    have hnext : (pre ++ ⟨left, s⟩ :: ⟨right, s'⟩ :: post)[pre.length + 1]? = some ⟨right, s'⟩ := by
      rw [List.getElem?_append_right (by omega), Nat.add_sub_cancel_left]
      rfl
    have hmodify : (pre ++ (⟨left, s⟩ : InternalEntry) :: post).modify pre.length
        (fun entry => { entry with separatorKey := s' }) = pre ++ ⟨left, s'⟩ :: post :=
      modify_at _ _ _ _
    simp only [findIdx?_child hpre, hne, false_and, if_false, hnext, if_true, herase, hmodify,
      Exec.run_bind, Exec.run_pure, Outcome.andThen_ok, Exec.run_withLocal, run_initializeInternalPage,
      hrun, Exec.run_modify]
  | @last _ s hpre =>
    have herase : (es' ++ [(⟨left, s⟩ : InternalEntry)]).eraseIdx es'.length = es' := by
      rw [List.eraseIdx_append_of_length_le (Nat.le_refl _), Nat.sub_self]
      simp
    simp only [findIdx?_child hpre, List.length_append, List.length_singleton, and_self, if_true,
      herase, Exec.run_bind, Exec.run_pure, Outcome.andThen_ok, Exec.run_withLocal,
      run_initializeInternalPage, hrun, Exec.run_modify]

/-- A child that is not the rightmost one is merged with the next child. -/
lemma HoldsInternal.findLeafMergePair_inner {pre post : List InternalEntry} {c : PageId} {s : BTreeKey}
    (h : HoldsInternal t (pre ++ ⟨c, s⟩ :: post) rightmost p) (hpre : ∀ e ∈ pre, e.leftChild ≠ c) :
    findLeafMergePair p t c =
      .ok (some (c, (post.head?.map InternalEntry.leftChild).getD rightmost)) := by
  rw [findLeafMergePair, h.readInternalEntries_eq]
  simp only [except_bind_ok, h.readRightmostChild_eq, findIdx?_child hpre]
  rw [List.getElem?_append_right (by omega), Nat.add_sub_cancel_left]
  cases post <;> rfl

/-- The rightmost child is merged with the child before it. -/
lemma HoldsInternal.findLeafMergePair_last {pre : List InternalEntry} {c : PageId} {s : BTreeKey}
    (h : HoldsInternal t (pre ++ [⟨c, s⟩]) rightmost p)
    (hes : ∀ e ∈ pre ++ [⟨c, s⟩], e.leftChild ≠ rightmost) :
    findLeafMergePair p t rightmost = .ok (some (c, rightmost)) := by
  rw [findLeafMergePair, h.readInternalEntries_eq]
  simp only [except_bind_ok, h.readRightmostChild_eq, findIdx?_child_none hes, if_true]
  simp

end Spec

end RdbRs
