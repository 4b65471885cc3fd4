import RdbRs.Lib.BigEndian
import RdbRs.Lib.Outcome

/-!
# Pages

The 8192 bytes every file of the database is made of. Offsets, lengths and counts that the
source keeps in `u16` or `usize` are natural numbers here; `asU16` marks each narrowing cast.
-/

namespace RdbRs

def pageSize : Nat := 8192

/-- `as u16`. -/
def asU16 (n : Nat) : Nat := n % 65536

/-- `u16::MAX`, the end mark of the free list. -/
def u16Max : Nat := 65535

structure Page where
  data : Fin pageSize → UInt8

namespace Page

def newRaw : Page := ⟨fun _ => 0⟩

def byte (p : Page) (i : Nat) : UInt8 := if h : i < pageSize then p.data ⟨i, h⟩ else 0

/-- `data[start..start + len]`. -/
def slice (p : Page) (start len : Nat) : List UInt8 :=
  (List.range len).map fun i => p.byte (start + i)

/-- `data[start..start + bytes.len()].copy_from_slice(bytes)`. -/
def write (p : Page) (start : Nat) (bytes : List UInt8) : Page :=
  ⟨fun i => if start ≤ i.val ∧ i.val < start + bytes.length then bytes.getD (i.val - start) 0
    else p.data i⟩

def asBytes (p : Page) : List UInt8 := p.slice 0 pageSize

/-- `u16::from_be_bytes([data[start], data[start + 1]])`. -/
def u16At (p : Page) (start : Nat) : Nat := beNat (p.slice start 2)

/-! ### Reading after writing -/

section Bytes

variable (p : Page) (bs : List UInt8)

@[simp] lemma length_slice (start len : Nat) : (p.slice start len).length = len := by
  simp [slice]

lemma byte_write (start i : Nat) : (p.write start bs).byte i =
    if start ≤ i ∧ i < start + bs.length ∧ i < pageSize then bs.getD (i - start) 0
    else p.byte i := by
  by_cases hi : i < pageSize
  · simp only [byte, write, hi, dite_true, and_true]
  · simp only [byte, hi, dite_false, and_false, if_false]

lemma slice_congr {q : Page} {a b n : Nat} (h : ∀ i, i < n → p.byte (a + i) = q.byte (b + i)) :
    p.slice a n = q.slice b n := by
  apply List.map_congr_left
  intro i hi
  exact h i (List.mem_range.mp hi)

lemma slice_add (a m n : Nat) : p.slice a (m + n) = p.slice a m ++ p.slice (a + m) n := by
  simp only [slice, List.range_add, List.map_append, List.map_map]
  congr 1
  apply List.map_congr_left
  intro i _
  simp only [Function.comp_apply, Nat.add_assoc]

lemma slice_drop_take {a n d m : Nat} (h : d + m ≤ n) :
    ((p.slice a n).drop d).take m = p.slice (a + d) m := by
  obtain ⟨r, rfl⟩ : ∃ r, n = d + (m + r) := ⟨n - d - m, by omega⟩
  rw [slice_add, List.drop_left' (by simp), slice_add, List.take_left' (by simp)]

/-- A write leaves every slice off its range alone. -/
lemma slice_write_of_disjoint {start a n : Nat} (h : a + n ≤ start ∨ start + bs.length ≤ a) :
    (p.write start bs).slice a n = p.slice a n := by
  apply slice_congr
  intro i hi
  rw [byte_write, if_neg (by omega)]

lemma slice_write_self {a : Nat} (h : a + bs.length ≤ pageSize) :
    (p.write a bs).slice a bs.length = bs := by
  apply List.ext_getElem (by simp)
  intro i hi hi'
  simp only [slice, List.getElem_map, List.getElem_range, byte_write]
  rw [if_pos (by omega)]
  simp [hi']

lemma u16At_lt (a : Nat) : p.u16At a < 65536 := by
  have h := beNat_lt (p.slice a 2)
  simpa [u16At] using h

lemma u16At_write_of_disjoint {start a : Nat} (h : a + 2 ≤ start ∨ start + bs.length ≤ a) :
    (p.write start bs).u16At a = p.u16At a := by
  rw [u16At, slice_write_of_disjoint p bs h, u16At]

lemma u16At_write_self {a v : Nat} (hv : v < 65536) (ha : a + 2 ≤ pageSize) :
    (p.write a (beBytes 2 v)).u16At a = v := by
  have h := slice_write_self p (beBytes 2 v) (a := a) (by simpa using ha)
  rw [length_beBytes] at h
  rw [u16At, h, beNat_beBytes_of_lt (by simpa using hv)]

end Bytes

end Page

end RdbRs
