import Mathlib.Data.List.Induction
import Mathlib.Logic.Function.Basic

/-!
# Maps that are changed one entry after the other

Maps of two keys, a list of changes of them, and what a part of the list has changed.
-/

namespace RdbRs

section Changes

variable {I J V W : Type} [DecidableEq I] [DecidableEq J]

/-- The map with the value of one pair of keys replaced. -/
def setAt (m : I → J → Option V) (i : I) (j : J) (value : Option V) : I → J → Option V :=
  Function.update m i (Function.update (m i) j value)

/-- A pair of keys, and the value it gets or loses. -/
abbrev Change (I J V : Type) := (I × J) × Option V

/-- The map after some changes. -/
def changed (m : I → J → Option V) (changes : List (Change I J V)) : I → J → Option V :=
  changes.foldl (fun m change => setAt m change.1.1 change.1.2 change.2) m

variable {m : I → J → Option V} {i i' : I} {j j' : J} {value : Option V} {change : Change I J V}
  {changes : List (Change I J V)}

lemma setAt_self : setAt m i j value i j = value := by
  rw [setAt, Function.update_self, Function.update_self]

lemma setAt_of_ne (h : (i', j') ≠ (i, j)) : setAt m i j value i' j' = m i' j' := by
  by_cases hi : i' = i
  · obtain rfl := hi
    rw [setAt, Function.update_self, Function.update_of_ne fun hj => h (by rw [hj])]
  · rw [setAt, Function.update_of_ne hi]

lemma changed_concat : changed m (changes ++ [change]) =
    setAt (changed m changes) change.1.1 change.1.2 change.2 := by
  rw [changed, List.foldl_append]
  rfl

/-- A map of the values is changed as the values are. -/
lemma map_changed (f : I → V → W) (i : I) (j : J) : (changed m changes i j).map (f i) =
    changed (fun i j => (m i j).map (f i))
      (changes.map fun change => (change.1, change.2.map (f change.1.1))) i j := by
  induction changes using List.reverseRecOn with
  | nil => rfl
  | append_singleton changes change ih =>
    rw [List.map_append, List.map_singleton, changed_concat, changed_concat]
    by_cases h : (i, j) = change.1
    · obtain ⟨⟨i', j'⟩, value⟩ := change
      obtain ⟨rfl, rfl⟩ := Prod.mk.inj h
      rw [setAt_self, setAt_self]
    · rw [setAt_of_ne h, setAt_of_ne h, ih]

end Changes

end RdbRs
