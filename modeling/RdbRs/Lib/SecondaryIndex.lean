import Mathlib.Data.Multiset.Filter
import Mathlib.Data.Multiset.FinsetOps
import Mathlib.Logic.Function.Basic

/-!
# Secondary indexes

A map from ids to rows, where some rows have a key, and the multiset of the pairs of a key and an
id. What a change of one row asks of the multiset, and what a lookup finds.
-/

namespace RdbRs

section SecondaryIndex

variable {I R K : Type} {key : R → Option K} {rows : I → Option R} {m : Multiset (K × I)}
  {id : I} {row row' : R} {k : K}

/-- The pairs are those of the rows that have a key, each of them once. -/
structure EntriesOf (key : R → Option K) (rows : I → Option R) (m : Multiset (K × I)) : Prop where
  nodup : m.Nodup
  mem_iff : ∀ k id, (k, id) ∈ m ↔ ∃ row, rows id = some row ∧ key row = some k

lemma entriesOf_empty : EntriesOf key (fun _ => none) (0 : Multiset (K × I)) :=
  ⟨Multiset.nodup_zero, by simp⟩

lemma EntriesOf.mem (h : EntriesOf key rows m) (hrow : rows id = some row) (hk : key row = some k) :
    (k, id) ∈ m := (h.mem_iff k id).mpr ⟨row, hrow, hk⟩

/-- Only the keys of the rows decide the entries. -/
lemma EntriesOf.congr {rows' : I → Option R} (h : EntriesOf key rows m)
    (hkeys : ∀ id, (rows' id).bind key = (rows id).bind key) : EntriesOf key rows' m := by
  apply EntriesOf.mk h.nodup
  intro k id
  rw [h.mem_iff, ← Option.bind_eq_some_iff, ← Option.bind_eq_some_iff, hkeys]

variable [DecidableEq I]

lemma EntriesOf.mem_update_iff {value : Option R} {i : I} (h : EntriesOf key rows m) (hne : i ≠ id) :
    (∃ row, Function.update rows id value i = some row ∧ key row = some k) ↔ (k, i) ∈ m := by
  rw [Function.update_of_ne hne, h.mem_iff]

/-- The row of an entry keeps its key. -/
lemma EntriesOf.replace (h : EntriesOf key rows m) (hrow : rows id = some row)
    (hk : key row' = key row) : EntriesOf key (Function.update rows id (some row')) m := by
  apply EntriesOf.mk h.nodup
  intro k i
  by_cases heq : i = id
  · rw [heq, Function.update_self, h.mem_iff, hrow]
    simp [hk]
  · exact (h.mem_update_iff heq).symm

lemma EntriesOf.insert (h : EntriesOf key rows m) (hrow : rows id = none) (hk : key row = some k) :
    EntriesOf key (Function.update rows id (some row)) ((k, id) ::ₘ m) := by
  constructor
  · rw [Multiset.nodup_cons]
    apply And.intro _ h.nodup
    intro hmem
    have ⟨_, hsome, _⟩ := (h.mem_iff k id).mp hmem
    rw [hrow] at hsome
    cases hsome
  · intro k' i
    rw [Multiset.mem_cons, Prod.mk.injEq]
    by_cases heq : i = id
    · rw [heq, Function.update_self, h.mem_iff, hrow]
      simp [hk, eq_comm]
    · rw [h.mem_update_iff heq]
      simp [heq]

/-- A row without a key has no entry. -/
lemma EntriesOf.insert_none (h : EntriesOf key rows m) (hrow : rows id = none) (hk : key row = none) :
    EntriesOf key (Function.update rows id (some row)) m := by
  apply EntriesOf.mk h.nodup
  intro k i
  by_cases heq : i = id
  · rw [heq, Function.update_self, h.mem_iff, hrow]
    simp [hk]
  · exact (h.mem_update_iff heq).symm

lemma EntriesOf.erase_none (h : EntriesOf key rows m) (hrow : rows id = some row)
    (hk : key row = none) : EntriesOf key (Function.update rows id none) m := by
  apply EntriesOf.mk h.nodup
  intro k i
  by_cases heq : i = id
  · rw [heq, Function.update_self, h.mem_iff, hrow]
    simp [hk]
  · exact (h.mem_update_iff heq).symm

variable [DecidableEq K]

lemma EntriesOf.erase (h : EntriesOf key rows m) (hrow : rows id = some row) (hk : key row = some k) :
    EntriesOf key (Function.update rows id none) (m.erase (k, id)) := by
  apply EntriesOf.mk (h.nodup.erase _)
  intro k' i
  rw [h.nodup.mem_erase_iff, ne_eq, Prod.mk.injEq, h.mem_iff]
  by_cases heq : i = id
  · rw [heq, Function.update_self, hrow]
    simp only [and_true, Option.some.injEq, exists_eq_left', hk, reduceCtorEq, false_and, exists_false,
      iff_false, not_and]
    intro hne heq'
    exact hne heq'.symm
  · rw [Function.update_of_ne heq]
    simp [heq]

omit [DecidableEq I] in
/-- A lookup finds the ids of the rows with the key, each of them once. -/
lemma EntriesOf.lookup (h : EntriesOf key rows m) {ids : List I}
    (hids : (ids : Multiset I) = (m.filter fun e => e.1 = k).map Prod.snd) :
    ids.Nodup ∧ ∀ id, id ∈ ids ↔ ∃ row, rows id = some row ∧ key row = some k := by
  constructor
  · rw [← Multiset.coe_nodup, hids]
    apply Multiset.Nodup.map_on
    · intro a ha b hb hsnd
      have hfst := (Multiset.mem_filter.mp ha).2.trans (Multiset.mem_filter.mp hb).2.symm
      exact Prod.ext hfst hsnd
    · exact h.nodup.filter _
  · intro id
    rw [← Multiset.mem_coe, hids, Multiset.mem_map, ← h.mem_iff]
    constructor
    · intro ⟨e, he, hid⟩
      have ⟨hmem, hkey⟩ := Multiset.mem_filter.mp he
      rwa [← hid, ← hkey]
    · intro hmem
      exact ⟨(k, id), Multiset.mem_filter.mpr ⟨hmem, rfl⟩, rfl⟩

end SecondaryIndex

end RdbRs
