import RdbRs.Storage.Page
import RdbRs.Storage.Types

/-!
# The header of an index page

The first bytes of every page of a B+Tree: the kind of node, the number of entries and where they
end, then the next leaf of a leaf or the rightmost child of an internal page.
-/

namespace RdbRs

def leafHeaderSize : Nat := 14
def internalHeaderSize : Nat := 13

inductive NodeType where
  | leaf
  | internal
  deriving DecidableEq

namespace NodeType

def toByte : NodeType → UInt8
  | leaf => 0
  | internal => 1

def fromByte (byte : UInt8) : Option NodeType :=
  if byte = 0 then some leaf else if byte = 1 then some internal else none

@[simp] lemma fromByte_toByte (t : NodeType) : fromByte t.toByte = some t := by
  cases t <;> rfl

def headerSize : NodeType → Nat
  | leaf => leafHeaderSize
  | internal => internalHeaderSize

end NodeType

structure BTreePageHeader where
  nodeType : NodeType
  entryCount : Nat
  entryEnd : Nat
  rightmostChild : Option PageId
  nextLeafPageId : Option PageId

namespace BTreePageHeader

def newLeaf : BTreePageHeader := ⟨.leaf, 0, leafHeaderSize, none, none⟩

def newInternal (rightmostChild : PageId) : BTreePageHeader :=
  ⟨.internal, 0, internalHeaderSize, some rightmostChild, none⟩

def toBytes (h : BTreePageHeader) : List UInt8 :=
  [h.nodeType.toByte] ++ (beBytes 2 h.entryCount ++ beBytes 2 h.entryEnd)

/-- `BTreePageHeader::from_bytes` on the bytes of a page. -/
def readFromPage (p : Page) : Option BTreePageHeader := do
  let nodeType ← NodeType.fromByte (p.byte 0)
  let entryCount := p.u16At 1
  let entryEnd := p.u16At 3
  match nodeType with
  | .leaf =>
    if entryEnd < leafHeaderSize ∨ entryEnd > pageSize then none
    else if p.byte 5 = 0 then some ⟨.leaf, entryCount, entryEnd, none, none⟩
    else if p.byte 5 = 1 then
      some ⟨.leaf, entryCount, entryEnd, none, some (PageId.fromBytes (p.slice 6 8))⟩
    else none
  | .internal =>
    if entryEnd < internalHeaderSize ∨ entryEnd > pageSize then none
    else some ⟨.internal, entryCount, entryEnd, some (PageId.fromBytes (p.slice 5 8)), none⟩

def writeToPage (h : BTreePageHeader) (p : Page) : Page :=
  let p := p.write 0 h.toBytes
  match h.nodeType with
  | .leaf =>
    let p := p.write 5 (List.replicate (leafHeaderSize - 5) 0)
    match h.nextLeafPageId with
    | some next => (p.write 5 [1]).write 6 next.toBytes
    | none => p.write 5 [0]
  | .internal =>
    match h.rightmostChild with
    | some child => p.write 5 child.toBytes
    | none => p

def appendEntry (h : BTreePageHeader) (entryLen : Nat) : Option BTreePageHeader :=
  if h.entryCount + 1 > u16Max ∨ h.entryEnd + entryLen > u16Max then none
  else some { h with entryCount := h.entryCount + 1, entryEnd := h.entryEnd + entryLen }

def isLeaf (h : BTreePageHeader) : Bool :=
  match h.nodeType with
  | .leaf => true
  | .internal => false

/-- The headers that `readFromPage` can return. -/
structure WellFormed (h : BTreePageHeader) : Prop where
  count : h.entryCount < 65536
  le_end : h.nodeType.headerSize ≤ h.entryEnd
  end_le : h.entryEnd ≤ pageSize
  links : match h.nodeType with
    | .leaf => h.rightmostChild = none
    | .internal => h.rightmostChild.isSome ∧ h.nextLeafPageId = none

section ReadWrite

variable {p : Page} {h : BTreePageHeader}

@[simp] lemma length_toBytes (h : BTreePageHeader) : h.toBytes.length = 5 := by
  simp [toBytes]

lemma byte_eq_of_slice {i : Nat} {b : UInt8} (h : p.slice i 1 = [b]) : p.byte i = b := by
  simpa [Page.slice] using h

/-- The fields every header has. -/
lemma read_common {q : Page} (hq : q.slice 0 5 = h.toBytes) (hc : h.entryCount < 65536)
    (he : h.entryEnd < 65536) :
    q.byte 0 = h.nodeType.toByte ∧ q.u16At 1 = h.entryCount ∧ q.u16At 3 = h.entryEnd := by
  rw [show 5 = 1 + (2 + 2) from rfl, Page.slice_add, Page.slice_add, toBytes] at hq
  obtain ⟨h0, hrest⟩ := List.append_inj hq (by simp)
  obtain ⟨h1, h3⟩ := List.append_inj hrest (by simp)
  refine ⟨byte_eq_of_slice h0, ?_, ?_⟩
  · exact (congrArg beNat h1).trans (beNat_beBytes_of_lt hc)
  · exact (congrArg beNat h3).trans (beNat_beBytes_of_lt he)

/-- Writing a header touches nothing behind it. -/
lemma slice_writeToPage {a n : Nat} (ha : h.nodeType.headerSize ≤ a) :
    (h.writeToPage p).slice a n = p.slice a n := by
  obtain ⟨nodeType, entryCount, entryEnd, rightmost, next⟩ := h
  cases nodeType with
  | leaf =>
    simp only [NodeType.headerSize, leafHeaderSize] at ha
    cases next <;>
    · simp only [writeToPage, leafHeaderSize]
      repeat rw [Page.slice_write_of_disjoint _ _ (by simp; omega)]
  | internal =>
    simp only [NodeType.headerSize, internalHeaderSize] at ha
    cases rightmost <;>
    · simp only [writeToPage]
      repeat rw [Page.slice_write_of_disjoint _ _ (by simp; omega)]

/-- A header reads back as it was written. -/
lemma readFromPage_writeToPage (hw : h.WellFormed) : readFromPage (h.writeToPage p) = some h := by
  obtain ⟨nodeType, entryCount, entryEnd, rightmost, next⟩ := h
  obtain ⟨hcount, hle, hend, hlinks⟩ := hw
  simp only [pageSize] at hend
  have hself (h : BTreePageHeader) : (p.write 0 h.toBytes).slice 0 5 = h.toBytes := by
    have := Page.slice_write_self p h.toBytes (a := 0) (by simp [pageSize])
    rwa [length_toBytes] at this
  cases nodeType with
  | leaf =>
    simp only at hlinks
    subst hlinks
    simp only [NodeType.headerSize] at hle
    cases next with
    | none =>
      have hcommon : ((BTreePageHeader.mk .leaf entryCount entryEnd none none).writeToPage p).slice 0 5
          = (BTreePageHeader.mk .leaf entryCount entryEnd none none).toBytes := by
        simp only [writeToPage]
        rw [Page.slice_write_of_disjoint _ _ (by simp), Page.slice_write_of_disjoint _ _ (by simp)]
        exact hself _
      obtain ⟨h0, h1, h3⟩ := read_common hcommon hcount (by simp only; omega)
      have h5 : ((BTreePageHeader.mk .leaf entryCount entryEnd none none).writeToPage p).byte 5 = 0 :=
        byte_eq_of_slice (Page.slice_write_self _ [0] (by simp [pageSize]))
      simp only [readFromPage, h0, NodeType.fromByte_toByte, Option.bind_eq_bind, Option.bind_some, h1,
        h3, h5, if_true]
      rw [if_neg (by simp only [pageSize]; omega)]
    | some next =>
      have hcommon : ((BTreePageHeader.mk .leaf entryCount entryEnd none (some next)).writeToPage
          p).slice 0 5 = (BTreePageHeader.mk .leaf entryCount entryEnd none (some next)).toBytes := by
        simp only [writeToPage]
        rw [Page.slice_write_of_disjoint _ _ (by simp), Page.slice_write_of_disjoint _ _ (by simp),
          Page.slice_write_of_disjoint _ _ (by simp)]
        exact hself _
      obtain ⟨h0, h1, h3⟩ := read_common hcommon hcount (by simp only; omega)
      have h5 : ((BTreePageHeader.mk .leaf entryCount entryEnd none (some next)).writeToPage
          p).byte 5 = 1 := by
        apply byte_eq_of_slice
        simp only [writeToPage]
        rw [Page.slice_write_of_disjoint _ _ (by simp)]
        exact Page.slice_write_self _ [1] (by simp [pageSize])
      have h6 : ((BTreePageHeader.mk .leaf entryCount entryEnd none (some next)).writeToPage
          p).slice 6 8 = next.toBytes := by
        have := Page.slice_write_self (((p.write 0 (BTreePageHeader.mk .leaf entryCount entryEnd none
          (some next)).toBytes).write 5 (List.replicate (leafHeaderSize - 5) 0)).write 5 [1])
          next.toBytes (a := 6) (by simp [pageSize])
        rwa [PageId.length_toBytes] at this
      simp only [readFromPage, h0, NodeType.fromByte_toByte, Option.bind_eq_bind, Option.bind_some, h1,
        h3, h5, h6, PageId.fromBytes_toBytes]
      rw [if_neg (by simp only [pageSize]; omega), if_neg (by decide), if_pos trivial]
  | internal =>
    simp only at hlinks
    obtain ⟨hsome, rfl⟩ := hlinks
    obtain ⟨child, rfl⟩ := Option.isSome_iff_exists.mp hsome
    simp only [NodeType.headerSize] at hle
    have hcommon : ((BTreePageHeader.mk .internal entryCount entryEnd (some child) none).writeToPage
        p).slice 0 5 = (BTreePageHeader.mk .internal entryCount entryEnd (some child) none).toBytes := by
      simp only [writeToPage]
      rw [Page.slice_write_of_disjoint _ _ (by simp)]
      exact hself _
    obtain ⟨h0, h1, h3⟩ := read_common hcommon hcount (by simp only; omega)
    have h5 : ((BTreePageHeader.mk .internal entryCount entryEnd (some child) none).writeToPage
        p).slice 5 8 = child.toBytes := by
      have := Page.slice_write_self (p.write 0 (BTreePageHeader.mk .internal entryCount entryEnd
        (some child) none).toBytes) child.toBytes (a := 5) (by simp [pageSize])
      rwa [PageId.length_toBytes] at this
    simp only [readFromPage, h0, NodeType.fromByte_toByte, Option.bind_eq_bind, Option.bind_some, h1,
      h3, h5, PageId.fromBytes_toBytes]
    rw [if_neg (by simp only [pageSize]; omega)]

/-- What is read as a header is well formed. -/
lemma wellFormed_of_readFromPage (hr : readFromPage p = some h) : h.WellFormed := by
  have hcount := p.u16At_lt 1
  simp only [readFromPage, Option.bind_eq_bind, Option.bind_eq_some_iff] at hr
  obtain ⟨t, -, hr⟩ := hr
  cases t with
  | leaf =>
    simp only at hr
    split at hr
    · cases hr
    rename_i hrange
    have hle : leafHeaderSize ≤ p.u16At 3 := by omega
    have hend : p.u16At 3 ≤ pageSize := by omega
    split at hr
    · obtain rfl := Option.some.inj hr
      exact ⟨hcount, hle, hend, rfl⟩
    · split at hr
      · obtain rfl := Option.some.inj hr
        exact ⟨hcount, hle, hend, rfl⟩
      · cases hr
  | internal =>
    simp only at hr
    split at hr
    · cases hr
    rename_i hrange
    obtain rfl := Option.some.inj hr
    exact ⟨hcount, by simp only [NodeType.headerSize]; omega, by simp only; omega, rfl, rfl⟩

end ReadWrite

end BTreePageHeader

end RdbRs
