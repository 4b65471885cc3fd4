import Mathlib.Data.Prod.Lex
import Mathlib.Data.String.Basic
import RdbRs.Catalog.Types
import RdbRs.Lib.Codec

/-!
# Index keys

`BTreeKey` with its comparison and its byte encoding. Keys of one type are linearly ordered;
`BTreeKey.rank` extends the order to all keys so that the order theory is that of one type.
-/

namespace RdbRs

inductive BTreeKeyType where
  | int
  | bigInt
  | boolean
  | varchar
  deriving DecidableEq

/-- `BTreeKeyType::try_from`: a column of type NULL cannot be indexed. -/
def BTreeKeyType.tryFrom : DataType → Option BTreeKeyType
  | .int => some .int
  | .bigInt => some .bigInt
  | .boolean => some .boolean
  | .varchar => some .varchar
  | .null => none

inductive BTreeKey where
  | int (value : Int32)
  | bigInt (value : Int64)
  | boolean (value : Bool)
  | varchar (value : String)
  deriving DecidableEq

namespace BTreeKey

def keyType : BTreeKey → BTreeKeyType
  | int _ => .int
  | bigInt _ => .bigInt
  | boolean _ => .boolean
  | varchar _ => .varchar

/-- Keys of different types do not compare. -/
def compare : BTreeKey → BTreeKey → Option Ordering
  | int a, int b => some (Ord.compare a.toInt b.toInt)
  | bigInt a, bigInt b => some (Ord.compare a.toInt b.toInt)
  | boolean a, boolean b => some (Ord.compare a b)
  | varchar a, varchar b => some (Ord.compare a b)
  | _, _ => none

def toBytes : BTreeKey → List UInt8
  | int v => beBytes 4 v.toUInt32.toNat
  | bigInt v => beBytes 8 v.toUInt64.toNat
  | boolean v => if v then [1] else [0]
  | varchar v => v.toByteArray.data.toList

def fromBytes (keyType : BTreeKeyType) (bytes : List UInt8) : Option BTreeKey :=
  match keyType with
  | .int => if bytes.length = 4 then some (int (UInt32.ofNat (beNat bytes)).toInt32) else none
  | .bigInt => if bytes.length = 8 then some (bigInt (UInt64.ofNat (beNat bytes)).toInt64) else none
  | .boolean =>
    match bytes with
    | [0] => some (boolean false)
    | [1] => some (boolean true)
    | _ => none
  | .varchar => (String.fromUTF8? ⟨bytes.toArray⟩).map varchar

/-! ### Order -/

/-- The type first, then the value. -/
def rank : BTreeKey → Nat ×ₗ Int ×ₗ String
  | int v => toLex (0, toLex (v.toInt, ""))
  | bigInt v => toLex (1, toLex (v.toInt, ""))
  | boolean v => toLex (2, toLex (v.toNat, ""))
  | varchar v => toLex (3, toLex (0, v))

lemma rank_injective : Function.Injective rank := by
  intro a b h
  cases a <;> cases b <;> simp [rank] at h
  · rw [Int32.toInt_inj.mp h]
  · rw [Int64.toInt_inj.mp h]
  · revert h
    rename_i v w
    cases v <;> cases w <;> simp
  · rw [h]

/-- The order of the ranks, built from the orders of numbers and texts. -/
instance rankOrder : LinearOrder (Nat ×ₗ Int ×ₗ String) :=
  @Prod.Lex.instLinearOrder Nat (Int ×ₗ String) Nat.instLinearOrder
    (@Prod.Lex.instLinearOrder Int String Int.instLinearOrder inferInstance)

instance : LinearOrder BTreeKey where
  __ := @PartialOrder.lift _ _ rankOrder.toPartialOrder rank rank_injective
  le_total a b := rankOrder.le_total (rank a) (rank b)
  toDecidableLE a b := rankOrder.toDecidableLE (rank a) (rank b)
  toDecidableEq := inferInstance
  compare_eq_compareOfLessAndEq _ _ := rfl

section Compare

variable {a b : BTreeKey}

lemma lt_iff_rank : a < b ↔ rank a < rank b := Iff.rfl

/-- On keys of one type the comparison is that of the linear order. -/
lemma compare_eq (h : a.keyType = b.keyType) :
    a.compare b = some (if a < b then .lt else if a = b then .eq else .gt) := by
  cases a <;> cases b <;> simp only [keyType, reduceCtorEq] at h
  · simp [compare, lt_iff_rank, rank, Prod.Lex.toLex_lt_toLex, compareOfLessAndEq,
      LinearOrder.compare_eq_compareOfLessAndEq, Int32.toInt_inj]
  · simp [compare, lt_iff_rank, rank, Prod.Lex.toLex_lt_toLex, compareOfLessAndEq,
      LinearOrder.compare_eq_compareOfLessAndEq, Int64.toInt_inj]
  · rename_i v w
    cases v <;> cases w <;> decide
  · simp [compare, lt_iff_rank, rank, Prod.Lex.toLex_lt_toLex, compareOfLessAndEq,
      LinearOrder.compare_eq_compareOfLessAndEq]

end Compare

/-! ### Encoding -/

lemma fromBytes_toBytes (k : BTreeKey) : fromBytes k.keyType k.toBytes = some k := by
  cases k with
  | int v =>
    have h : v.toUInt32.toNat < 256 ^ 4 := v.toUInt32.toNat_lt
    simp [fromBytes, toBytes, keyType, beNat_beBytes_of_lt h]
  | bigInt v =>
    have h : v.toUInt64.toNat < 256 ^ 8 := v.toUInt64.toNat_lt
    simp [fromBytes, toBytes, keyType, beNat_beBytes_of_lt h]
  | boolean v => cases v <;> rfl
  | varchar v =>
    have hv : String.fromUTF8? ⟨(varchar v).toBytes.toArray⟩ = some v := fromUtf8_utf8Bytes v
    simp only [fromBytes, keyType, hv, Option.map_some]

/-- Only the encoding of a key decodes to it. -/
lemma toBytes_of_fromBytes {t : BTreeKeyType} {bytes : List UInt8} {k : BTreeKey}
    (h : fromBytes t bytes = some k) : k.keyType = t ∧ k.toBytes = bytes := by
  cases t with
  | int =>
    simp only [fromBytes, Option.ite_none_right_eq_some, Option.some.injEq] at h
    obtain ⟨hlen, rfl⟩ := h
    have hlt : beNat bytes < 2 ^ 32 := by
      have := beNat_lt bytes
      rwa [hlen] at this
    refine ⟨rfl, ?_⟩
    rw [toBytes, UInt32.toUInt32_toInt32, UInt32.toNat_ofNat_of_lt' hlt, ← hlen, beBytes_beNat]
  | bigInt =>
    simp only [fromBytes, Option.ite_none_right_eq_some, Option.some.injEq] at h
    obtain ⟨hlen, rfl⟩ := h
    have hlt : beNat bytes < 2 ^ 64 := by
      have := beNat_lt bytes
      rwa [hlen] at this
    refine ⟨rfl, ?_⟩
    rw [toBytes, UInt64.toUInt64_toInt64, UInt64.toNat_ofNat_of_lt' hlt, ← hlen, beBytes_beNat]
  | boolean =>
    simp only [fromBytes] at h
    split at h
    · obtain rfl := Option.some.inj h
      exact ⟨rfl, rfl⟩
    · obtain rfl := Option.some.inj h
      exact ⟨rfl, rfl⟩
    · cases h
  | varchar =>
    simp only [fromBytes, String.fromUTF8?] at h
    split at h
    · obtain rfl := Option.some.inj h
      exact ⟨rfl, rfl⟩
    · cases h

/-! ### Text of one character -/

/-- `n` times the character `c`. -/
def repeated (c : Char) (n : Nat) : BTreeKey := varchar (String.ofList (List.replicate n c))

lemma length_toBytes_repeated {c : Char} (hc : c.utf8Size = 1) (n : Nat) :
    (repeated c n).toBytes.length = n := by
  exact length_utf8Bytes_replicate hc n

lemma repeated_lt {c d : Char} {m n : Nat} (hcd : c < d) (hn : 0 < n) :
    repeated c m < repeated d n := by
  obtain ⟨n, rfl⟩ : ∃ i, n = i + 1 := ⟨n - 1, by omega⟩
  rw [lt_iff_rank, repeated, repeated, rank, rank, Prod.Lex.toLex_lt_toLex]
  refine .inr ⟨rfl, ?_⟩
  rw [Prod.Lex.toLex_lt_toLex]
  refine .inr ⟨rfl, ?_⟩
  rw [String.lt_iff_toList_lt, String.toList_ofList, String.toList_ofList]
  cases m with
  | zero => exact List.nil_lt_cons _ _
  | succ m => exact List.cons_lt_cons_iff.mpr (.inl hcd)

end BTreeKey

end RdbRs
