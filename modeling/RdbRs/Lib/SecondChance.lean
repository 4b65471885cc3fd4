import Mathlib.Tactic.Common

/-!
# The second chance clock

A ring of slots and a hand that goes round. Some slots are candidates and some are marked. The hand
takes the mark off a candidate it comes to, and stops at the first candidate without a mark.
-/

namespace RdbRs

structure Ring where
  size : Nat
  hand : Nat
  candidate : Nat → Prop
  marked : Nat → Prop

namespace Ring

variable {r : Ring} {i j n : Nat}

/-- Where the hand is in round `i`. -/
def slot (r : Ring) (i : Nat) : Nat := (r.hand + i) % r.size

/-- The hand has been at `j` before round `n`. -/
def Passed (r : Ring) (n j : Nat) : Prop := ∃ i < n, r.slot i = j

instance : Decidable (r.Passed n j) := inferInstanceAs (Decidable (∃ i < n, r.slot i = j))

/-- The hand stops in round `i`, if it comes so far: a mark is left only where it has not been. -/
def Stops (r : Ring) (i : Nat) : Prop :=
  r.candidate (r.slot i) ∧ (r.marked (r.slot i) → r.Passed i (r.slot i))

lemma passed_succ : r.Passed (n + 1) j ↔ r.Passed n j ∨ r.slot n = j := by
  unfold Passed
  constructor
  · intro ⟨i, hi, hslot⟩
    cases Nat.lt_or_eq_of_le (Nat.le_of_lt_succ hi) with
    | inl hlt => exact Or.inl ⟨i, hlt, hslot⟩
    | inr heq => exact Or.inr (heq ▸ hslot)
  · intro h
    cases h with
    | inl h =>
      have ⟨i, hi, hslot⟩ := h
      exact ⟨i, Nat.lt_succ_of_lt hi, hslot⟩
    | inr h => exact ⟨n, Nat.lt_succ_self n, h⟩

lemma slot_succ : (r.slot i + 1) % r.size = r.slot (i + 1) := by
  unfold slot
  rw [Nat.mod_add_mod, Nat.add_assoc]

lemma slot_add_size : r.slot (i + r.size) = r.slot i := by
  unfold slot
  rw [← Nat.add_assoc, Nat.add_mod_right]

/-- The hand is not twice at one slot within one lap. -/
lemma slot_ne (hlt : i < n) (hlap : n < i + r.size) : r.slot i ≠ r.slot n := by
  intro heq
  unfold slot at heq
  have hzero : (r.hand + n - (r.hand + i)) % r.size = 0 := Nat.sub_mod_eq_zero_of_mod_eq heq.symm
  rw [Nat.add_sub_add_left, Nat.mod_eq_of_lt (by omega)] at hzero
  omega

/-- The hand is at every slot in its first lap. -/
lemma exists_slot (hj : j < r.size) : ∃ i < r.size, r.slot i = j := by
  have hhand := Nat.mod_lt r.hand (by omega : r.size > 0)
  unfold slot
  by_cases hle : r.hand % r.size ≤ j
  · refine ⟨j - r.hand % r.size, by omega, ?_⟩
    rw [← Nat.mod_add_mod, Nat.add_sub_cancel' hle, Nat.mod_eq_of_lt hj]
  · refine ⟨j + r.size - r.hand % r.size, by omega, ?_⟩
    have hsum : r.hand % r.size + (j + r.size - r.hand % r.size) = j + r.size := by omega
    rw [← Nat.mod_add_mod, hsum, Nat.add_mod_right, Nat.mod_eq_of_lt hj]

/-- A candidate does not survive the second lap. -/
lemma stops_second_lap (hcandidate : r.candidate (r.slot i)) (hpos : 0 < r.size) :
    r.Stops (i + r.size) := by
  unfold Stops
  rw [slot_add_size]
  exact ⟨hcandidate, fun _ => ⟨i, by omega, rfl⟩⟩

/-- Two laps are enough to find a candidate. -/
theorem exists_stops (hj : j < r.size) (hcandidate : r.candidate j) : ∃ i < r.size * 2, r.Stops i := by
  have ⟨i, hi, hslot⟩ := exists_slot hj
  subst hslot
  exact ⟨i + r.size, by omega, stops_second_lap hcandidate (by omega)⟩

/-- A marked candidate is taken only when every candidate was marked. -/
theorem Stops.fair (h : r.Stops i) (hfirst : ∀ i' < i, ¬r.Stops i') (hmarked : r.marked (r.slot i))
    (hj : j < r.size) (hcandidate : r.candidate j) : r.marked j := by
  have ⟨before, hbefore, hsame⟩ := h.2 hmarked
  have hlap : r.size ≤ i := by
    by_contra hlt
    exact slot_ne hbefore (by omega) hsame
  have ⟨i', hi', hslot⟩ := exists_slot hj
  subst hslot
  by_contra hunmarked
  exact hfirst i' (by omega) ⟨hcandidate, fun hmark => absurd hmark hunmarked⟩

end Ring

end RdbRs
