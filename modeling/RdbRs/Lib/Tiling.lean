import Mathlib.Algebra.GroupWithZero.Nat
import Mathlib.Data.List.Perm.Basic
import Mathlib.Tactic.Common

/-!
# Tilings of an interval

A block is a pair of an offset and a length. `Tiles lo blocks hi` says that the blocks, taken
in some order, cover `[lo, hi)` exactly: no overlap and no gap.
-/

namespace RdbRs

/-- The blocks follow one another from `lo` to `hi`. -/
def Consecutive : Nat → List (Nat × Nat) → Nat → Prop
  | lo, [], hi => lo = hi
  | lo, (offset, length) :: rest, hi =>
    offset = lo ∧ 0 < length ∧ Consecutive (lo + length) rest hi

/-- Two blocks do not overlap. -/
def Apart (x y : Nat × Nat) : Prop := x.1 + x.2 ≤ y.1 ∨ y.1 + y.2 ≤ x.1

lemma Apart.symm {x y : Nat × Nat} (h : Apart x y) : Apart y x := Or.symm h

namespace Consecutive

variable {lo hi : Nat} {bs cs : List (Nat × Nat)}

lemma le (h : Consecutive lo bs hi) : lo ≤ hi := by
  induction bs generalizing lo with
  | nil => exact Nat.le_of_eq h
  | cons x rest ih =>
    obtain ⟨-, hpos, hrest⟩ := h
    have := ih hrest
    omega

lemma sum_eq (h : Consecutive lo bs hi) : (bs.map Prod.snd).sum + lo = hi := by
  induction bs generalizing lo with
  | nil => simpa [Consecutive] using h
  | cons x rest ih =>
    obtain ⟨-, -, hrest⟩ := h
    have := ih hrest
    simp only [List.map_cons, List.sum_cons]
    omega

lemma mem_bounds (h : Consecutive lo bs hi) {x : Nat × Nat} (hx : x ∈ bs) :
    lo ≤ x.1 ∧ 0 < x.2 ∧ x.1 + x.2 ≤ hi := by
  induction bs generalizing lo with
  | nil => simp at hx
  | cons y rest ih =>
    obtain ⟨hoff, hpos, hrest⟩ := h
    rcases List.mem_cons.mp hx with rfl | hx
    · have := hrest.le
      omega
    · have := ih hrest hx
      omega

lemma pairwise_apart (h : Consecutive lo bs hi) : bs.Pairwise Apart := by
  induction bs generalizing lo with
  | nil => exact List.Pairwise.nil
  | cons x rest ih =>
    obtain ⟨hoff, hpos, hrest⟩ := h
    refine List.Pairwise.cons (fun y hy => ?_) (ih hrest)
    have := hrest.mem_bounds hy
    left
    omega

lemma append_iff {mid : List (Nat × Nat)} : Consecutive lo (bs ++ mid) hi ↔
    ∃ m, Consecutive lo bs m ∧ Consecutive m mid hi := by
  induction bs generalizing lo with
  | nil => simp [Consecutive]
  | cons x rest ih =>
    simp only [List.cons_append, Consecutive, ih]
    constructor
    · rintro ⟨h1, h2, m, h3, h4⟩
      exact ⟨m, ⟨h1, h2, h3⟩, h4⟩
    · rintro ⟨m, ⟨h1, h2, h3⟩, h4⟩
      exact ⟨h1, h2, m, h3, h4⟩

end Consecutive

def Tiles (lo : Nat) (blocks : List (Nat × Nat)) (hi : Nat) : Prop :=
  ∃ ordered, ordered.Perm blocks ∧ Consecutive lo ordered hi

namespace Tiles

variable {lo hi : Nat} {bs cs : List (Nat × Nat)}

lemma nil (lo : Nat) : Tiles lo [] lo := ⟨[], List.Perm.nil, rfl⟩

lemma perm (h : Tiles lo bs hi) (hp : bs.Perm cs) : Tiles lo cs hi := by
  obtain ⟨ordered, ho, hc⟩ := h
  exact ⟨ordered, ho.trans hp, hc⟩

lemma le (h : Tiles lo bs hi) : lo ≤ hi := by
  obtain ⟨ordered, -, hc⟩ := h
  exact hc.le

lemma mem_bounds (h : Tiles lo bs hi) {x : Nat × Nat} (hx : x ∈ bs) :
    lo ≤ x.1 ∧ 0 < x.2 ∧ x.1 + x.2 ≤ hi := by
  obtain ⟨ordered, ho, hc⟩ := h
  exact hc.mem_bounds (ho.mem_iff.mpr hx)

lemma sum_eq (h : Tiles lo bs hi) : (bs.map Prod.snd).sum + lo = hi := by
  obtain ⟨ordered, ho, hc⟩ := h
  rw [← (ho.map Prod.snd).sum_nat]
  exact hc.sum_eq

lemma pairwise_apart (h : Tiles lo bs hi) : bs.Pairwise Apart := by
  obtain ⟨ordered, ho, hc⟩ := h
  exact ho.pairwise hc.pairwise_apart Apart.symm

/-- A block of a tiling does not overlap any of the others. -/
lemma apart_of_cons {x y : Nat × Nat} (h : Tiles lo (x :: bs) hi) (hy : y ∈ bs) : Apart x y :=
  List.rel_of_pairwise_cons h.pairwise_apart hy

/-- A new block below the lowest one. -/
lemma cons_front (h : Tiles lo bs hi) {n : Nat} (hn : 0 < n) (hlo : n ≤ lo) :
    Tiles (lo - n) ((lo - n, n) :: bs) hi := by
  obtain ⟨ordered, ho, hc⟩ := h
  refine ⟨(lo - n, n) :: ordered, ho.cons _, rfl, hn, ?_⟩
  rwa [Nat.sub_add_cancel hlo]

/-- A block cut in two. -/
lemma split {o m n : Nat} (h : Tiles lo ((o, m + n) :: bs) hi) (hm : 0 < m) (hn : 0 < n) :
    Tiles lo ((o, m) :: (o + m, n) :: bs) hi := by
  obtain ⟨ordered, ho, hc⟩ := h
  obtain ⟨pre, post, rfl⟩ := List.append_of_mem (ho.mem_iff.mpr List.mem_cons_self)
  obtain ⟨mid, hpre, hoff, -, hpost⟩ := Consecutive.append_iff.mp hc
  have hcut : Consecutive mid ((o, m) :: (o + m, n) :: post) hi :=
    ⟨hoff, hm, by rw [hoff], hn, by rwa [Nat.add_assoc]⟩
  refine ⟨pre ++ (o, m) :: (o + m, n) :: post, ?_, Consecutive.append_iff.mpr ⟨mid, hpre, hcut⟩⟩
  have hrest : (pre ++ post).Perm bs :=
    List.Perm.cons_inv (List.perm_middle.symm.trans ho)
  have h1 : (pre ++ (o, m) :: (o + m, n) :: post).Perm ((o, m) :: (pre ++ (o + m, n) :: post)) :=
    List.perm_middle
  exact h1.trans ((List.perm_middle.trans (hrest.cons _)).cons _)

end Tiles

end RdbRs
