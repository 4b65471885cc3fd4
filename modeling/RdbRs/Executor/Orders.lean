import Mathlib.Data.String.Basic
import RdbRs.Executor.TypedRows
import RdbRs.Lib.Sort

/-!
# Orders

The comparison of `ORDER BY` is a total order on the values of one type, with `NULL` as the
greatest value.
-/

namespace RdbRs

lemma compareOfLessAndEq_ne_gt {α : Type} [LT α] [DecidableLT α] [DecidableEq α] {a b : α} :
    compareOfLessAndEq a b ≠ .gt ↔ a < b ∨ a = b := by
  unfold compareOfLessAndEq
  split
  · next hlt => simp [hlt]
  · next hnot =>
    split
    · next heq => simp [heq]
    · next hne => simp [hnot, hne]

lemma compare_bool_ne_gt : ∀ a b : Bool, compare a b ≠ .gt ↔ a ≤ b := by decide

namespace Value

/-- The order of the values of a column. -/
def Le : Value → Value → Prop
  | _, null => True
  | int a, int b => a ≤ b
  | bigInt a, bigInt b => a ≤ b
  | boolean a, boolean b => a ≤ b
  | varchar a, varchar b => a ≤ b
  | _, _ => False

variable {a b c : Value} {dataType : DataType}

/-- Two values of one type. -/
inductive Pair : Value → Value → Prop
  | nullRight (a : Value) : Pair a null
  | nullLeft (b : Value) (h : b ≠ null) : Pair null b
  | int (a b : Int32) : Pair (int a) (int b)
  | bigInt (a b : Int64) : Pair (bigInt a) (bigInt b)
  | boolean (a b : Bool) : Pair (boolean a) (boolean b)
  | varchar (a b : String) : Pair (varchar a) (varchar b)

lemma pair_of_hasType (ha : a.HasType dataType) (hb : b.HasType dataType) : Pair a b := by
  by_cases hnull : b = null
  · rw [hnull]
    exact .nullRight a
  · cases a with
    | null => exact .nullLeft b hnull
    | int x =>
      cases dataType with
      | int =>
        cases b with
        | int y => exact .int x y
        | null => exact absurd rfl hnull
        | _ => exact hb.elim
      | _ => exact ha.elim
    | bigInt x =>
      cases dataType with
      | bigInt =>
        cases b with
        | bigInt y => exact .bigInt x y
        | null => exact absurd rfl hnull
        | _ => exact hb.elim
      | _ => exact ha.elim
    | boolean x =>
      cases dataType with
      | boolean =>
        cases b with
        | boolean y => exact .boolean x y
        | null => exact absurd rfl hnull
        | _ => exact hb.elim
      | _ => exact ha.elim
    | varchar x =>
      cases dataType with
      | varchar =>
        cases b with
        | varchar y => exact .varchar x y
        | null => exact absurd rfl hnull
        | _ => exact hb.elim
      | _ => exact ha.elim

/-- On values of one type the comparison is the order. -/
lemma compareValues_ne_gt (ha : a.HasType dataType) (hb : b.HasType dataType) :
    compareValues a b ≠ .gt ↔ a.Le b := by
  cases pair_of_hasType ha hb with
  | nullRight a => cases a <;> simp [compareValues, Le]
  | nullLeft b h => cases b <;> simp [compareValues, Le] at h ⊢
  | int a b => exact Ordering.isLE_iff_ne_gt.symm.trans Std.isLE_compare
  | bigInt a b => exact Ordering.isLE_iff_ne_gt.symm.trans Std.isLE_compare
  | boolean a b => exact compare_bool_ne_gt a b
  | varchar a b => exact compareOfLessAndEq_ne_gt.trans le_iff_lt_or_eq.symm

lemma Le.total (ha : a.HasType dataType) (hb : b.HasType dataType) : a.Le b ∨ b.Le a := by
  cases pair_of_hasType ha hb with
  | nullRight a =>
    left
    cases a <;> trivial
  | nullLeft b h =>
    right
    cases b <;> trivial
  | int a b => exact Int32.le_total a b
  | bigInt a b => exact Int64.le_total a b
  | boolean a b => exact le_total a b
  | varchar a b => exact le_total a b

lemma Le.trans (hab : a.Le b) (hbc : b.Le c) : a.Le c := by
  cases c with
  | null => cases a <;> trivial
  | int z =>
    cases b <;> try exact hbc.elim
    cases a <;> try exact hab.elim
    exact Int32.le_trans hab hbc
  | bigInt z =>
    cases b <;> try exact hbc.elim
    cases a <;> try exact hab.elim
    exact Int64.le_trans hab hbc
  | boolean z =>
    cases b <;> try exact hbc.elim
    cases a <;> try exact hab.elim
    exact le_trans hab hbc
  | varchar z =>
    cases b <;> try exact hbc.elim
    cases a <;> try exact hab.elim
    exact le_trans hab hbc

end Value

/-- `ORDER BY` with its direction. -/
def SortDirection.Ordered (direction : SortDirection) (a b : Value) : Prop :=
  match direction with
  | .asc => a.Le b
  | .desc => b.Le a

lemma sortBy_map {α β : Type} (f : α → β) (cmp : β → β → Ordering) (l : List α) :
    sortBy cmp (l.map f) = (sortBy (fun a b => cmp (f a) (f b)) l).map f :=
  (List.map_mergeSort (r := fun a b => decide (cmp (f a) (f b) ≠ .gt))
    (s := fun a b => decide (cmp a b ≠ .gt)) (f := f) fun _ _ _ _ => rfl).symm

/-- Values of one type are ordered. -/
lemma orders_of_hasType {α : Type} {value : α → Value} {l : List α} {dataType : DataType}
    (htype : ∀ a ∈ l, (value a).HasType dataType) :
    Orders (fun a b => compareValues (value a) (value b)) l := by
  have hne (a : α) (ha : a ∈ l) (b : α) (hb : b ∈ l) :=
    Value.compareValues_ne_gt (htype a ha) (htype b hb)
  constructor
  · intro a ha b hb
    rw [hne a ha b hb, hne b hb a ha]
    exact Value.Le.total (htype a ha) (htype b hb)
  · intro a ha b hb c hc
    rw [hne a ha b hb, hne b hb c hc, hne a ha c hc]
    exact Value.Le.trans

/-- Sorting by a value of one type, backwards for `DESC`. -/
lemma sortBy_ordered {α : Type} {value : α → Value} {l : List α} {dataType : DataType}
    (htype : ∀ a ∈ l, (value a).HasType dataType) (direction : SortDirection) :
    let sorted := sortBy (fun a b => compareValues (value a) (value b)) l
    let result := if direction = .desc then sorted.reverse else sorted
    result.Perm l ∧ result.Pairwise fun a b => direction.Ordered (value a) (value b) := by
  intro sorted result
  have hperm : sorted.Perm l := List.mergeSort_perm l _
  have hmem {a : α} (ha : a ∈ sorted) : a ∈ l := hperm.mem_iff.mp ha
  have hne (a : α) (ha : a ∈ l) (b : α) (hb : b ∈ l) :=
    Value.compareValues_ne_gt (htype a ha) (htype b hb)
  have horders : Orders (fun a b => compareValues (value a) (value b)) l := orders_of_hasType htype
  have hsorted : sorted.Pairwise fun a b => (value a).Le (value b) :=
    (pairwise_mergeSort_of_orders horders).imp_of_mem fun ha hb hab =>
      (hne _ (hmem ha) _ (hmem hb)).mp hab
  cases direction with
  | asc => exact ⟨hperm, hsorted⟩
  | desc => exact ⟨(List.reverse_perm _).trans hperm, List.pairwise_reverse.mpr hsorted⟩

/-- Elements of one value keep their order, which `DESC` turns round. -/
lemma sortBy_ties {α : Type} {value : α → Value} {l : List α} {dataType : DataType}
    (htype : ∀ a ∈ l, (value a).HasType dataType) (direction : SortDirection) (v : Value) :
    let sorted := sortBy (fun a b => compareValues (value a) (value b)) l
    (if direction = .desc then sorted.reverse else sorted).filter (fun a => value a = v) =
      if direction = .desc then (l.filter fun a => value a = v).reverse else l.filter fun a => value a = v := by
  intro sorted
  have hties : sorted.filter (fun a => value a = v) = l.filter fun a => value a = v := by
    apply filter_mergeSort_of_orders (orders_of_hasType htype)
    intro a ha b hb hav hbv
    rw [Value.compareValues_ne_gt (htype a ha) (htype b hb), of_decide_eq_true hav, of_decide_eq_true hbv]
    exact (Value.Le.total (of_decide_eq_true hav ▸ htype a ha) (of_decide_eq_true hav ▸ htype a ha)).elim id id
  cases direction with
  | asc => exact hties
  | desc =>
    simp only [if_true]
    rw [List.filter_reverse, hties]

end RdbRs
