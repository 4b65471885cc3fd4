import Mathlib.Algebra.BigOperators.Group.List.Lemmas
import Mathlib.Algebra.GroupWithZero.Nat
import Mathlib.Data.List.Dedup
import Mathlib.Data.List.Nodup
import RdbRs.Lib.Loop

/-!
# Grouping by a key

The distinct keys of a list in the order of their first occurrences, and the elements of each.
`Indexed` is the invariant of a loop that keeps one entry for each key in a vector, and the
positions of the entries in a map.
-/

namespace RdbRs

variable {α κ : Type} [DecidableEq κ]

/-- The distinct elements, in the order of their first occurrences. -/
def firsts (keys : List κ) : List κ :=
  keys.foldl (fun seen k => if k ∈ seen then seen else seen ++ [k]) []

/-- The elements with a key. -/
def withKey (key : α → κ) (l : List α) (k : κ) : List α := l.filter fun a => key a = k

section Firsts

variable {keys : List κ} {k k' : κ}

@[simp] lemma firsts_nil : firsts ([] : List κ) = [] := rfl

lemma firsts_concat : firsts (keys ++ [k]) = if k ∈ firsts keys then firsts keys else firsts keys ++ [k] := by
  rw [firsts, List.foldl_append]
  rfl

lemma firsts_concat_of_mem (h : k ∈ firsts keys) : firsts (keys ++ [k]) = firsts keys := by
  rw [firsts_concat, if_pos h]

lemma firsts_concat_of_notMem (h : k ∉ firsts keys) : firsts (keys ++ [k]) = firsts keys ++ [k] := by
  rw [firsts_concat, if_neg h]

@[simp] lemma mem_firsts : k ∈ firsts keys ↔ k ∈ keys := by
  induction keys using List.reverseRecOn with
  | nil => simp
  | append_singleton keys k' ih =>
    rw [firsts_concat, List.mem_append, List.mem_singleton, ← ih]
    split
    · next hmem =>
      constructor
      · exact .inl
      · intro h
        cases h with
        | inl h => exact h
        | inr h => exact h ▸ hmem
    · rw [List.mem_append, List.mem_singleton]

lemma nodup_firsts : (firsts keys).Nodup := by
  induction keys using List.reverseRecOn with
  | nil => exact List.nodup_nil
  | append_singleton keys k ih =>
    rw [firsts_concat]
    split
    · exact ih
    · next hnew => exact List.concat_eq_append ▸ ih.concat hnew

/-- A key comes before another one when its first occurrence does. -/
lemma pairwise_firsts [BEq κ] [LawfulBEq κ] : (firsts keys).Pairwise fun a b => keys.idxOf a < keys.idxOf b := by
  induction keys using List.reverseRecOn with
  | nil => exact List.Pairwise.nil
  | append_singleton keys k ih =>
    have hold : (firsts keys).Pairwise fun a b => (keys ++ [k]).idxOf a < (keys ++ [k]).idxOf b := by
      apply ih.imp_of_mem
      intro a b ha hb hlt
      rwa [List.idxOf_append_of_mem (mem_firsts.mp ha), List.idxOf_append_of_mem (mem_firsts.mp hb)]
    rw [firsts_concat]
    split
    · exact hold
    · next hnew =>
      rw [mem_firsts] at hnew
      apply List.pairwise_append.mpr
      refine ⟨hold, List.pairwise_singleton _ _, ?_⟩
      intro a ha b hb
      have hmem := mem_firsts.mp ha
      rw [List.mem_singleton.mp hb, List.idxOf_append_of_mem hmem, List.idxOf_append_of_notMem hnew]
      have hlt := List.idxOf_lt_length_iff.mpr hmem
      omega

end Firsts

section WithKey

variable {key : α → κ} {l : List α} {k : κ} {a : α}

lemma withKey_concat_self : withKey key (l ++ [a]) (key a) = withKey key l (key a) ++ [a] := by
  rw [withKey, List.filter_append, List.filter_singleton]
  simp [withKey]

lemma withKey_concat_of_ne (h : k ≠ key a) : withKey key (l ++ [a]) k = withKey key l k := by
  rw [withKey, List.filter_append, List.filter_singleton]
  simp [withKey, Ne.symm h]

lemma withKey_eq_nil (h : k ∉ l.map key) : withKey key l k = [] := by
  apply List.filter_eq_nil_iff.mpr
  intro a ha hkey
  exact h (List.mem_map.mpr ⟨a, ha, of_decide_eq_true hkey⟩)

lemma length_withKey : (withKey key l k).length = (l.map key).count k := by
  rw [withKey, ← List.countP_eq_length_filter, List.count, List.countP_map]
  rfl

/-- Every element is in the group of one key. -/
lemma sum_length_withKey {keys : List κ} (hnodup : keys.Nodup) (hmem : ∀ k, k ∈ keys ↔ k ∈ l.map key) :
    (keys.map fun k => (withKey key l k).length).sum = l.length := by
  have hperm : keys.Perm (l.map key).dedup := by
    apply (List.perm_ext_iff_of_nodup hnodup (List.nodup_dedup _)).mpr
    intro k
    rw [hmem, List.mem_dedup]
  simp only [length_withKey]
  rw [(hperm.map _).sum_eq, List.sum_map_count_dedup_eq_length, List.length_map]

end WithKey

/-! ### Entries by key -/

section Indexed

variable {β : Type} {key : α → κ} {entry : List α → κ → β} {done : List α} {a : α} {entries : List β}
  {positions : HashMap κ Nat}

/-- After the elements done there is one entry for each of their keys, and the map has its
position. -/
structure Indexed (key : α → κ) (entry : List α → κ → β) (done : List α) (entries : List β)
    (positions : HashMap κ Nat) : Prop where
  entries_eq : entries = (firsts (done.map key)).map (entry done)
  positions_iff : ∀ k i, positions.get k = some i ↔ (firsts (done.map key))[i]? = some k

lemma indexed_nil : Indexed key entry [] [] HashMap.new := ⟨rfl, fun k i => by simp⟩

/-- The next element has a key with an entry, which it changes; the others stay. -/
lemma Indexed.join {i : Nat} (h : Indexed key entry done entries positions)
    (hget : positions.get (key a) = some i)
    (hothers : ∀ k ∈ done.map key, k ≠ key a → entry (done ++ [a]) k = entry done k) :
    entries[i]? = some (entry done (key a)) ∧
      Indexed key entry (done ++ [a]) (entries.set i (entry (done ++ [a]) (key a))) positions := by
  have hi := (h.positions_iff _ i).mp hget
  have hlen := (List.getElem?_eq_some_iff.mp hi).1
  have hkeys : firsts ((done ++ [a]).map key) = firsts (done.map key) := by
    rw [List.map_append, List.map_singleton]
    exact firsts_concat_of_mem (List.mem_of_getElem? hi)
  refine ⟨by rw [h.entries_eq, List.getElem?_map, hi]; rfl, ?_, ?_⟩
  · apply List.ext_getElem?
    intro j
    rw [List.getElem?_set, hkeys, List.getElem?_map, h.entries_eq, List.length_map]
    by_cases hij : i = j
    · subst hij
      rw [if_pos rfl, if_pos hlen, hi, Option.map_some]
    · rw [if_neg hij, List.getElem?_map]
      cases hj : (firsts (done.map key))[j]? with
      | none => rfl
      | some k =>
        have hne : k ≠ key a := by
          intro heq
          exact hij ((List.getElem?_inj hlen nodup_firsts).mp (hi.trans (heq ▸ hj.symm)))
        rw [Option.map_some, Option.map_some,
          hothers k (mem_firsts.mp (List.mem_of_getElem? hj)) hne]
  · intro k j
    rw [hkeys]
    exact h.positions_iff k j

/-- The next element has a new key, for which it opens an entry. -/
lemma Indexed.push (h : Indexed key entry done entries positions)
    (hget : positions.get (key a) = none)
    (hothers : ∀ k ∈ done.map key, k ≠ key a → entry (done ++ [a]) k = entry done k) :
    Indexed key entry (done ++ [a]) (entries ++ [entry (done ++ [a]) (key a)])
      (positions.insert (key a) entries.length) := by
  have hnew : key a ∉ firsts (done.map key) := by
    intro hmem
    have ⟨i, hi⟩ := List.mem_iff_getElem?.mp hmem
    rw [(h.positions_iff _ i).mpr hi] at hget
    cases hget
  have hkeys : firsts ((done ++ [a]).map key) = firsts (done.map key) ++ [key a] := by
    rw [List.map_append, List.map_singleton]
    exact firsts_concat_of_notMem hnew
  constructor
  · rw [hkeys, List.map_append, List.map_singleton, h.entries_eq]
    congr 1
    apply List.map_congr_left
    intro k hk
    have hne : k ≠ key a := fun heq => hnew (heq ▸ hk)
    exact (hothers k (mem_firsts.mp hk) hne).symm
  · intro k j
    rw [hkeys, HashMap.get_insert, h.entries_eq, List.length_map]
    by_cases hkey : k = key a
    · rw [if_pos hkey, hkey, Option.some_inj]
      constructor
      · intro hj
        rw [← hj, List.getElem?_concat_length]
      · intro hj
        by_contra hne
        rw [List.getElem?_append] at hj
        split at hj
        · exact hnew (List.mem_of_getElem? hj)
        · have hlt := (List.getElem?_eq_some_iff.mp hj).1
          rw [List.length_singleton] at hlt
          omega
    · rw [if_neg hkey, h.positions_iff, List.getElem?_append]
      split
      · rfl
      · next hlen =>
        have hnone : (firsts (done.map key))[j]? = none := List.getElem?_eq_none (by omega)
        rw [hnone]
        constructor
        · intro hj
          cases hj
        · intro hj
          exact absurd (List.mem_singleton.mp (List.mem_of_getElem? hj)) hkey

end Indexed

end RdbRs
