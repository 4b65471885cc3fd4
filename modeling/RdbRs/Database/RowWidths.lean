import Mathlib.Algebra.Order.BigOperators.Group.List
import RdbRs.Database.LiveRows

/-!
# How long rows are

The bytes of a row are those of its values. A row that an update writes is longer than the one it replaces by the
assigned values at most.
-/

namespace RdbRs

/-- The bytes of a value in a row. -/
def Value.width : Value → Nat
  | .int _ => 5
  | .bigInt _ => 9
  | .boolean _ => 2
  | .varchar v => 3 + (utf8Bytes v).length
  | .null => 1

/-- The bytes of the values in a row. -/
def widths (values : List Value) : Nat := (values.map Value.width).sum

@[simp] lemma widths_nil : widths [] = 0 := rfl

@[simp] lemma widths_cons {value : Value} {values : List Value} :
    widths (value :: values) = value.width + widths values := rfl

/-! ### Encoded rows -/

namespace Tuple

variable {value : Value} {values : List Value} {column : ColumnMetadata} {columns : List ColumnMetadata}
  {text : List UInt8} {row : Row}

lemma length_of_encodeValue (h : encodeValue value column = .ok text) : text.length = value.width := by
  rcases encodeValue_eq_ok.mp h with ⟨rfl, rfl⟩ | ⟨content, hcontent, rfl⟩
  · rfl
  · generalize column.dataType = dataType at hcontent
    cases hcontent with
    | varchar v hlen =>
      rw [List.length_cons, List.length_append, length_beBytes, Value.width]
      omega
    | _ => simp [Value.width]

lemma length_of_encodeValues (hlen : values.length = columns.length) (h : encodeValues values columns = .ok text) :
    text.length = widths values := by
  induction values generalizing columns text with
  | nil =>
    cases List.length_eq_zero_iff.mp hlen.symm
    cases h
    rfl
  | cons value values ih =>
    cases columns with
    | nil => cases hlen
    | cons column columns =>
      obtain ⟨first, rest, hfirst, hrest, rfl⟩ := encodeValues_cons_eq_ok.mp h
      rw [List.length_append, length_of_encodeValue hfirst, ih (Nat.succ.inj hlen) hrest, widths_cons]

/-- A row is as long as its values. -/
lemma length_of_encode (h : encode values columns = .ok row) : row.data.length = widths values := by
  obtain ⟨hlen, htext⟩ := encode_eq_ok.mp h
  exact length_of_encodeValues hlen htext

end Tuple

/-! ### Merged rows -/

section Merged

variable {β : Type} {values old : List Value} {sources : List β} (place : β → Option Nat) (value : β → Value)

/-- The bytes that are assigned at position `k` or behind it. -/
def widthFrom (k : Nat) (b : β) : Nat := if ∃ i ∈ place b, k ≤ i then (value b).width else 0

lemma widthFrom_le (k : Nat) (b : β) : widthFrom place value k b ≤ (value b).width := by
  unfold widthFrom
  split
  · exact Nat.le_refl _
  · exact Nat.zero_le _

lemma widthFrom_succ_le (k : Nat) (b : β) : widthFrom place value (k + 1) b ≤ widthFrom place value k b := by
  unfold widthFrom
  split
  · next hlater =>
    obtain ⟨i, hi, hle⟩ := hlater
    rw [if_pos ⟨i, hi, Nat.le_of_succ_le hle⟩]
  · exact Nat.zero_le _

lemma sum_widthFrom_succ_le (sources : List β) (k : Nat) : (sources.map (widthFrom place value (k + 1))).sum ≤
    (sources.map (widthFrom place value k)).sum :=
  List.sum_le_sum fun b _ => widthFrom_succ_le place value k b

/-- Of the bytes that are assigned from position `k` on, those at `k` itself. -/
lemma width_add_widthFrom_succ {b : β} (hb : b ∈ sources) {k : Nat} (hplace : place b = some k) :
    (value b).width + (sources.map (widthFrom place value (k + 1))).sum ≤
      (sources.map (widthFrom place value k)).sum := by
  induction sources with
  | nil => cases hb
  | cons c sources ih =>
    rw [List.map_cons, List.map_cons, List.sum_cons, List.sum_cons]
    cases List.mem_cons.mp hb with
    | inl heq =>
      have hhere : widthFrom place value k c = (value b).width := by
        rw [← heq, widthFrom, if_pos ⟨k, hplace, Nat.le_refl k⟩]
      have hlater : widthFrom place value (k + 1) c = 0 := by
        rw [← heq, widthFrom, if_neg]
        rintro ⟨i, hi, hle⟩
        rw [hplace] at hi
        cases hi
        exact Nat.not_succ_le_self _ hle
      have hrest := sum_widthFrom_succ_le place value sources k
      omega
    | inr hmem =>
      have hrest := ih hmem
      have hhead := widthFrom_succ_le place value k c
      omega

/-- The induction is on the values, from position `k` on. -/
lemma widths_merged_from (k : Nat) (h : ∀ i v, values[i]? = some v → old[i]? = some v ∨
    ∃ b ∈ sources, place b = some (k + i) ∧ value b = v) :
    widths values ≤ widths old + (sources.map (widthFrom place value k)).sum := by
  induction values generalizing old k with
  | nil => exact Nat.zero_le _
  | cons v values ih =>
    have hrest : widths values ≤ widths old.tail + (sources.map (widthFrom place value (k + 1))).sum := by
      apply ih
      intro i w hw
      rw [List.getElem?_tail, Nat.add_right_comm]
      exact h (i + 1) w (by rwa [List.getElem?_cons_succ])
    rw [widths_cons]
    rcases h 0 v rfl with hold | ⟨b, hb, hplace, rfl⟩
    · have hlater := sum_widthFrom_succ_le place value sources k
      cases old with
      | nil => cases hold
      | cons w old =>
        cases hold
        rw [List.tail_cons] at hrest
        rw [widths_cons]
        omega
    · have hhere := width_add_widthFrom_succ place value hb (k := k) hplace
      have htail : widths old.tail ≤ widths old := by
        cases old with
        | nil => exact Nat.le_refl _
        | cons w old =>
          rw [List.tail_cons, widths_cons]
          exact Nat.le_add_left ..
      omega

/-- Values that are old ones or assigned to their positions are no longer than all of these. -/
lemma widths_merged (h : ∀ i v, values[i]? = some v → old[i]? = some v ∨
    ∃ b ∈ sources, place b = some i ∧ value b = v) :
    widths values ≤ widths old + (sources.map fun b => (value b).width).sum := by
  have hfrom : widths values ≤ widths old + (sources.map (widthFrom place value 0)).sum := by
    apply widths_merged_from
    intro i v hv
    rw [Nat.zero_add]
    exact h i v hv
  have hall : (sources.map (widthFrom place value 0)).sum ≤ (sources.map fun b => (value b).width).sum :=
    List.sum_le_sum fun b _ => widthFrom_le place value 0 b
  omega

end Merged

namespace Executor

variable {executor : Executor} {stored : TableId → RowId → List Value} {rows : List QueryRow}
  {assignments : List BoundAssignment} {entries : List PreparedUpdate} {e : PreparedUpdate}

/-- The values of an update are no longer than the old ones and the assigned ones. -/
lemma Updates.widths_le (h : Updates executor stored (hits rows assignments) entries) (he : e ∈ entries) :
    widths e.newValues ≤ widths e.oldValues + (assignments.map fun a => a.value.width).sum := by
  apply widths_merged executor.columnPosition fun a => a.value
  intro i v hv
  rw [h.new e he, mergedValue, Option.or_eq_some_iff] at hv
  rcases hv with hassigned | ⟨-, hstored⟩
  · right
    obtain ⟨hit, hlast, rfl⟩ := Option.map_eq_some_iff.mp hassigned
    obtain ⟨hhit, hplace⟩ := List.mem_filter.mp (List.mem_of_getLast? hlast)
    exact ⟨hit.2, (List.mem_product.mp hhit).2, (of_decide_eq_true hplace).2, rfl⟩
  · left
    rwa [h.old e he]

end Executor

end RdbRs
