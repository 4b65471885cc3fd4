import Mathlib.Data.Finset.Card
import Mathlib.Data.Finset.Range

/-!
# Walks

A walk follows `next` until there is none. A walk from which it goes on at fewer than `bound` nodes
ends within `bound` steps, or it comes back to a node and never ends.
-/

namespace RdbRs

variable {α : Type} {next : α → Option α} {a b : α} {m n bound : Nat}

/-- The walk from `a` ends after `n` steps. -/
def EndsIn (next : α → Option α) : Nat → α → Prop
  | 0, a => next a = none
  | n + 1, a => ∃ b, next a = some b ∧ EndsIn next n b

namespace EndsIn

lemma unique (h : EndsIn next m a) (h' : EndsIn next n a) : m = n := by
  induction m generalizing a n with
  | zero =>
    cases n with
    | zero => rfl
    | succ n =>
      have hstop : next a = none := h
      have ⟨b, hb, _⟩ := h'
      rw [hstop] at hb
      cases hb
  | succ m ih =>
    have ⟨b, hb, hrest⟩ := h
    cases n with
    | zero =>
      have hstop : next a = none := h'
      rw [hstop] at hb
      cases hb
    | succ n =>
      have ⟨c, hc, hrest'⟩ := h'
      rw [hb] at hc
      cases hc
      rw [ih hrest hrest']

/-- The nodes at which a walk goes on are all different: each has its own distance to the end. -/
lemma exists_nodes [DecidableEq α] (h : EndsIn next n a) : ∃ nodes : Finset α, nodes.card = n ∧
    ∀ x ∈ nodes, next x ≠ none ∧ ∃ m ≤ n, EndsIn next m x := by
  induction n generalizing a with
  | zero => exact ⟨∅, rfl, fun x hx => absurd hx (Finset.notMem_empty x)⟩
  | succ n ih =>
    have ⟨b, hb, hrest⟩ := h
    have ⟨nodes, hcard, hnodes⟩ := ih hrest
    have hnew : a ∉ nodes := by
      intro hmem
      have ⟨_, m, hm, hends⟩ := hnodes a hmem
      have := h.unique hends
      omega
    refine ⟨insert a nodes, by rw [Finset.card_insert_of_notMem hnew, hcard], ?_⟩
    intro x hx
    cases Finset.mem_insert.mp hx with
    | inl heq =>
      subst heq
      exact ⟨by rw [hb]; exact Option.some_ne_none b, n + 1, Nat.le_refl _, h⟩
    | inr hmem =>
      have ⟨hgoes, m, hm, hends⟩ := hnodes x hmem
      exact ⟨hgoes, m, Nat.le_succ_of_le hm, hends⟩

/-- A walk that ends is no longer than there are nodes to go on from. -/
theorem le {next : Nat → Option Nat} {a : Nat} (h : EndsIn next n a)
    (hbound : ∀ x, next x ≠ none → x < bound) : n ≤ bound := by
  have ⟨nodes, hcard, hnodes⟩ := h.exists_nodes
  have hsubset : nodes ⊆ Finset.range bound := by
    intro x hx
    exact Finset.mem_range.mpr (hbound x (hnodes x hx).1)
  rw [← hcard, ← Finset.card_range bound]
  exact Finset.card_le_card hsubset

end EndsIn

end RdbRs
