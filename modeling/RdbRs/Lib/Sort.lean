import Mathlib.Data.List.Sort

/-!
# An unstable sort

What `sort_unstable_by` promises: a permutation that is sorted, when the comparison is a total
preorder on the elements. Elements that compare equal may come in any order.
-/

namespace RdbRs

/-- The comparison orders the elements of the list. -/
structure Orders {α : Type} (cmp : α → α → Ordering) (l : List α) : Prop where
  total : ∀ a ∈ l, ∀ b ∈ l, cmp a b ≠ .gt ∨ cmp b a ≠ .gt
  trans : ∀ a ∈ l, ∀ b ∈ l, ∀ c ∈ l, cmp a b ≠ .gt → cmp b c ≠ .gt → cmp a c ≠ .gt

class UnstableSort where
  sortUnstableBy {α : Type} (cmp : α → α → Ordering) (l : List α) : List α
  perm {α : Type} (cmp : α → α → Ordering) (l : List α) : (sortUnstableBy cmp l).Perm l
  pairwise {α : Type} {cmp : α → α → Ordering} {l : List α} :
    Orders cmp l → (sortUnstableBy cmp l).Pairwise fun a b => cmp a b ≠ .gt

/-- A stable sort orders a list when the comparison is only known to be an order on its elements. -/
lemma pairwise_mergeSort_of_orders {α : Type} {cmp : α → α → Ordering} {l : List α}
    (h : Orders cmp l) :
    (l.mergeSort fun a b => decide (cmp a b ≠ .gt)).Pairwise fun a b => cmp a b ≠ .gt := by
  let le (a b : {a // a ∈ l}) : Bool := decide (cmp a.1 b.1 ≠ .gt)
  have hsorted : (l.attach.mergeSort le).Pairwise fun a b => le a b := by
    refine List.pairwise_mergeSort (fun a b c hab hbc => ?_) (fun a b => ?_) _
    · exact decide_eq_true
        (h.trans a.1 a.2 b.1 b.2 c.1 c.2 (of_decide_eq_true hab) (of_decide_eq_true hbc))
    · rw [Bool.or_eq_true]
      exact (h.total a.1 a.2 b.1 b.2).imp decide_eq_true decide_eq_true
  have hmap : (l.attach.mergeSort le).map Subtype.val =
      l.mergeSort fun a b => decide (cmp a b ≠ .gt) := by
    have := List.map_mergeSort (r := le) (s := fun a b => decide (cmp a b ≠ .gt))
      (f := Subtype.val) (l := l.attach) fun _ _ _ _ => rfl
    rw [this, List.attach_map_subtype_val]
  rw [← hmap, List.pairwise_map]
  exact hsorted.imp fun hab => of_decide_eq_true hab

/-- A stable sort keeps the order of elements that compare equal. -/
lemma filter_mergeSort_of_orders {α : Type} {cmp : α → α → Ordering} {l : List α} (h : Orders cmp l)
    {p : α → Bool} (hp : ∀ a ∈ l, ∀ b ∈ l, p a → p b → cmp a b ≠ .gt) :
    (l.mergeSort fun a b => decide (cmp a b ≠ .gt)).filter p = l.filter p := by
  let le (a b : {a // a ∈ l}) : Bool := decide (cmp a.1 b.1 ≠ .gt)
  have htrans (a b c : {a // a ∈ l}) (hab : le a b) (hbc : le b c) : le a c :=
    decide_eq_true (h.trans a.1 a.2 b.1 b.2 c.1 c.2 (of_decide_eq_true hab) (of_decide_eq_true hbc))
  have htotal (a b : {a // a ∈ l}) : le a b || le b a := by
    rw [Bool.or_eq_true]
    exact (h.total a.1 a.2 b.1 b.2).imp decide_eq_true decide_eq_true
  have hequal : (l.attach.filter fun a => p a.1).Pairwise fun a b => le a b := by
    apply List.pairwise_of_forall_mem_list
    intro a ha b hb
    exact decide_eq_true (hp a.1 a.2 b.1 b.2 (List.mem_filter.mp ha).2 (List.mem_filter.mp hb).2)
  have hsub : ((l.attach.filter fun a => p a.1).map Subtype.val).Sublist
      ((l.attach.mergeSort le).map Subtype.val) :=
    (List.sublist_mergeSort htrans htotal hequal List.filter_sublist).map _
  have hmap : (l.attach.mergeSort le).map Subtype.val = l.mergeSort fun a b => decide (cmp a b ≠ .gt) := by
    rw [List.map_mergeSort (s := fun a b => decide (cmp a b ≠ .gt)) fun _ _ _ _ => rfl,
      List.attach_map_subtype_val]
  have hfilter : (l.attach.filter fun a => p a.1).map Subtype.val = l.filter p := by
    conv_rhs => rw [← List.attach_map_subtype_val l, List.filter_map]
    rfl
  rw [hmap, hfilter] at hsub
  have hperm := (List.mergeSort_perm l fun a b => decide (cmp a b ≠ .gt)).filter p
  have hfiltered := hsub.filter p
  simp only [List.filter_filter, Bool.and_self] at hfiltered
  exact (hfiltered.eq_of_length hperm.length_eq.symm).symm

/-- A stable sort is one instance. -/
instance UnstableSort.stable : UnstableSort where
  sortUnstableBy cmp l := l.mergeSort fun a b => decide (cmp a b ≠ .gt)
  perm _ l := List.mergeSort_perm l _
  pairwise := pairwise_mergeSort_of_orders

section Keyed

variable {α κ : Type} [LinearOrder κ] [UnstableSort] {cmp : α → α → Ordering} {l : List α}
  {key : α → κ}

/-- Sorting by a key. -/
lemma sortUnstableBy_keyed (h : ∀ a ∈ l, ∀ b ∈ l, (cmp a b = .gt ↔ key b < key a)) :
    (UnstableSort.sortUnstableBy cmp l).Pairwise fun a b => key a ≤ key b := by
  have hle (a : α) (ha : a ∈ l) (b : α) (hb : b ∈ l) : cmp a b ≠ .gt ↔ key a ≤ key b := by
    rw [ne_eq, h a ha b hb, not_lt]
  have hord : Orders cmp l := by
    constructor
    · intro a ha b hb
      rw [hle a ha b hb, hle b hb a ha]
      exact le_total _ _
    · intro a ha b hb c hc
      rw [hle a ha b hb, hle b hb c hc, hle a ha c hc]
      exact le_trans
  have hmem {a : α} (ha : a ∈ UnstableSort.sortUnstableBy cmp l) : a ∈ l :=
    (UnstableSort.perm cmp l).mem_iff.mp ha
  exact (UnstableSort.pairwise hord).imp_of_mem fun ha hb hab => (hle _ (hmem ha) _ (hmem hb)).mp hab

end Keyed

end RdbRs
