import Mathlib.Algebra.Order.BigOperators.Group.List

/-!
# Running sums

A sum whose every partial sum has to lie in an interval. Whether it does depends on the order of
the summands; it does for every order when the positive summands alone stay below the upper
bound and the negative ones alone above the lower bound.
-/

namespace RdbRs

variable {α : Type} [AddCommGroup α] [LinearOrder α] [IsOrderedAddMonoid α] {lo hi t : α} {l : List α}

/-- The partial sums of `l`, counted from `t` on, lie between `lo` and `hi`. -/
def RunsWithin (lo hi t : α) (l : List α) : Prop := ∀ p, p <+: l → lo ≤ t + p.sum ∧ t + p.sum ≤ hi

omit [IsOrderedAddMonoid α] in
lemma runsWithin_nil : RunsWithin lo hi t [] ↔ lo ≤ t ∧ t ≤ hi := by
  constructor
  · intro h
    have hnil := h [] List.prefix_rfl
    rwa [List.sum_nil, add_zero] at hnil
  · intro h p hp
    rw [List.prefix_nil.mp hp, List.sum_nil, add_zero]
    exact h

omit [IsOrderedAddMonoid α] in
lemma runsWithin_cons {a : α} :
    RunsWithin lo hi t (a :: l) ↔ (lo ≤ t ∧ t ≤ hi) ∧ RunsWithin lo hi (t + a) l := by
  constructor
  · intro h
    constructor
    · have hnil := h [] List.nil_prefix
      rwa [List.sum_nil, add_zero] at hnil
    · intro p hp
      have hcons := h (a :: p) (List.cons_prefix_cons.mpr ⟨rfl, hp⟩)
      rwa [List.sum_cons, ← add_assoc] at hcons
  · intro ⟨hstart, hrest⟩ p hp
    cases p with
    | nil =>
      rw [List.sum_nil, add_zero]
      exact hstart
    | cons b p =>
      have ⟨hb, hprefix⟩ := List.cons_prefix_cons.mp hp
      rw [hb, List.sum_cons, ← add_assoc]
      exact hrest p hprefix

omit [IsOrderedAddMonoid α] in
lemma RunsWithin.total (h : RunsWithin lo hi t l) : lo ≤ t + l.sum ∧ t + l.sum ≤ hi :=
  h l List.prefix_rfl

def positives (l : List α) : List α := l.filter fun a => 0 < a
def negatives (l : List α) : List α := l.filter fun a => a < 0

lemma sum_le_sum_positives (l : List α) : l.sum ≤ (positives l).sum := by
  induction l with
  | nil => exact le_rfl
  | cons a l ih =>
    rw [positives, List.filter_cons, List.sum_cons]
    split
    · rw [List.sum_cons]
      exact add_le_add le_rfl ih
    · next ha =>
      have hle : a ≤ 0 := not_lt.mp fun h => ha (decide_eq_true h)
      calc a + l.sum ≤ 0 + (positives l).sum := add_le_add hle ih
        _ = (positives l).sum := zero_add _

lemma sum_negatives_le_sum (l : List α) : (negatives l).sum ≤ l.sum := by
  induction l with
  | nil => exact le_rfl
  | cons a l ih =>
    rw [negatives, List.filter_cons, List.sum_cons]
    split
    · rw [List.sum_cons]
      exact add_le_add le_rfl ih
    · next ha =>
      have hle : 0 ≤ a := not_lt.mp fun h => ha (decide_eq_true h)
      calc (negatives l).sum = 0 + (negatives l).sum := (zero_add _).symm
        _ ≤ a + l.sum := add_le_add hle ih

/-- The positive summands of a part sum up to no more than those of the whole. -/
lemma sum_positives_le {p : List α} (h : p.Sublist l) : (positives p).sum ≤ (positives l).sum := by
  apply (h.filter _).sum_le_sum
  intro a ha
  exact (of_decide_eq_true (List.mem_filter.mp ha).2).le

lemma le_sum_negatives {p : List α} (h : p.Sublist l) : (negatives l).sum ≤ (negatives p).sum := by
  induction h with
  | slnil => exact le_rfl
  | @cons p l a _ ih =>
    apply le_trans _ ih
    rw [negatives, List.filter_cons]
    split
    · next ha =>
      rw [List.sum_cons]
      exact add_le_of_nonpos_left (of_decide_eq_true ha).le
    · exact le_rfl
  | @cons_cons p l a _ ih =>
    rw [negatives, negatives, List.filter_cons, List.filter_cons]
    split
    · rw [List.sum_cons, List.sum_cons]
      exact add_le_add le_rfl ih
    · exact ih

/-- In any order the partial sums stay between the sum of the negative summands and that of the
positive ones. -/
lemma runsWithin_of_perm {l' : List α} (h : l'.Perm l) (hlo : lo ≤ (negatives l).sum)
    (hhi : (positives l).sum ≤ hi) : RunsWithin lo hi 0 l' := by
  intro p hp
  have hpos : (positives l').sum = (positives l).sum := (h.filter _).sum_eq
  have hneg : (negatives l').sum = (negatives l).sum := (h.filter _).sum_eq
  rw [zero_add]
  constructor
  · calc lo ≤ (negatives l').sum := hneg ▸ hlo
      _ ≤ (negatives p).sum := le_sum_negatives hp.sublist
      _ ≤ p.sum := sum_negatives_le_sum p
  · calc p.sum ≤ (positives p).sum := sum_le_sum_positives p
      _ ≤ (positives l').sum := sum_positives_le hp.sublist
      _ ≤ hi := hpos ▸ hhi

end RdbRs
