import Mathlib.Logic.Function.Basic
import Mathlib.Tactic.Common

/-!
# Write-back caches

A cache over a store: values are loaded, changed in the cache, written back and dropped. A key
shows its cached value, or its stored one if it is not cached. Moving values between the two never
changes what a key shows.
-/

namespace RdbRs

/-- Cached values, each with a mark that it was changed, over stored values. -/
@[ext] structure WriteBack (K V : Type) where
  cached : K → Option (V × Bool)
  stored : K → Option V

namespace WriteBack

variable {K V : Type}

/-- The value of a key. -/
def shown (w : WriteBack K V) (k : K) : Option V :=
  match w.cached k with
  | some c => some c.1
  | none => w.stored k

/-- Unchanged values are as stored, and only stored keys are cached. -/
structure Coherent (w : WriteBack K V) : Prop where
  clean {k : K} {v : V} : w.cached k = some (v, false) → w.stored k = some v
  covered {k : K} {c : V × Bool} : w.cached k = some c → w.stored k ≠ none

section Shown

variable {w : WriteBack K V} {k : K} {v : V} {c : V × Bool}

lemma shown_of_cached (h : w.cached k = some c) : w.shown k = some c.1 := by
  rw [shown, h]

lemma shown_of_not_cached (h : w.cached k = none) : w.shown k = w.stored k := by
  rw [shown, h]

/-- The keys that show a value are the stored ones. -/
lemma Coherent.shown_eq_none (h : w.Coherent) : w.shown k = none ↔ w.stored k = none := by
  cases hc : w.cached k with
  | none => rw [shown_of_not_cached hc]
  | some c => simp [shown_of_cached hc, h.covered hc]

end Shown

variable [DecidableEq K]

/-- The cached value of one key is replaced. -/
def cache (w : WriteBack K V) (k : K) (c : Option (V × Bool)) : WriteBack K V :=
  { w with cached := Function.update w.cached k c }

/-- The stored value of one key is replaced. -/
def store (w : WriteBack K V) (k : K) (v : V) : WriteBack K V :=
  { w with stored := Function.update w.stored k (some v) }

/-- Values are moved between the cache and the store. -/
inductive Moves : WriteBack K V → WriteBack K V → Prop where
  | refl {w : WriteBack K V} : Moves w w
  | load {w w' : WriteBack K V} {k : K} {v : V} : Moves w w' → w'.cached k = none →
      w'.stored k = some v → Moves w (w'.cache k (some (v, false)))
  | writeBack {w w' : WriteBack K V} {k : K} {v : V} {changed : Bool} : Moves w w' →
      w'.cached k = some (v, changed) → Moves w ((w'.store k v).cache k (some (v, false)))
  | drop {w w' : WriteBack K V} {k : K} {v : V} : Moves w w' → w'.cached k = some (v, false) →
      Moves w (w'.cache k none)

section Changes

variable {w w' w'' : WriteBack K V} {k j : K} {v : V} {c : Option (V × Bool)} {changed : Bool}

@[simp] lemma cached_cache_self : (w.cache k c).cached k = c := Function.update_self ..

@[simp] lemma cached_cache_of_ne (h : j ≠ k) : (w.cache k c).cached j = w.cached j :=
  Function.update_of_ne h ..

@[simp] lemma stored_cache : (w.cache k c).stored = w.stored := rfl

@[simp] lemma cached_store : (w.store k v).cached = w.cached := rfl

@[simp] lemma stored_store_self : (w.store k v).stored k = some v := Function.update_self ..

@[simp] lemma stored_store_of_ne (h : j ≠ k) : (w.store k v).stored j = w.stored j :=
  Function.update_of_ne h ..

lemma cache_coherent (h : w.Coherent) (hclean : ∀ v, c = some (v, false) → w.stored k = some v)
    (hcovered : c ≠ none → w.stored k ≠ none) : (w.cache k c).Coherent := by
  constructor
  · intro j u hj
    by_cases hjk : j = k
    · subst hjk
      rw [cached_cache_self] at hj
      exact hclean u hj
    · rw [cached_cache_of_ne hjk] at hj
      exact h.clean hj
  · intro j c' hj
    by_cases hjk : j = k
    · subst hjk
      rw [cached_cache_self] at hj
      exact hcovered (by simp [hj])
    · rw [cached_cache_of_ne hjk] at hj
      exact h.covered hj

lemma store_coherent (h : w.Coherent) (hk : ∀ u, w.cached k = some (u, false) → u = v) :
    (w.store k v).Coherent := by
  constructor
  · intro j u hj
    by_cases hjk : j = k
    · subst hjk
      rw [stored_store_self, hk u hj]
    · rw [stored_store_of_ne hjk]
      exact h.clean hj
  · intro j c hj
    by_cases hjk : j = k
    · subst hjk
      simp
    · rw [stored_store_of_ne hjk]
      exact h.covered hj

lemma shown_cache_of_ne (h : j ≠ k) : (w.cache k c).shown j = w.shown j := by
  rw [shown, shown, cached_cache_of_ne h, stored_cache]

lemma shown_store_of_ne (h : j ≠ k) : (w.store k v).shown j = w.shown j := by
  rw [shown, shown, stored_store_of_ne h, cached_store]

/-- A changed value in the cache is shown from then on. -/
lemma shown_cache_changed : (w.cache k (some (v, changed))).shown = Function.update w.shown k (some v) := by
  funext j
  by_cases hjk : j = k
  · subst hjk
    rw [Function.update_self, shown_of_cached cached_cache_self]
  · rw [Function.update_of_ne hjk, shown_cache_of_ne hjk]

/-- A key that is stored for the first time shows its value. -/
lemma shown_store_new (h : w.Coherent) (hk : w.stored k = none) :
    (w.store k v).shown = Function.update w.shown k (some v) := by
  funext j
  by_cases hjk : j = k
  · subst hjk
    have hc : w.cached j = none := by
      cases hc : w.cached j with
      | none => rfl
      | some c => exact absurd hk (h.covered hc)
    rw [Function.update_self, shown_of_not_cached (w := w.store j v) hc, stored_store_self]
  · rw [Function.update_of_ne hjk, shown_store_of_ne hjk]

/-! ### Moves -/

lemma Moves.trans (h : Moves w w') (h' : Moves w' w'') : Moves w w'' := by
  induction h' with
  | refl => exact h
  | load _ hc hs ih => exact ih.load hc hs
  | writeBack _ hc ih => exact ih.writeBack hc
  | drop _ hc ih => exact ih.drop hc

/-- The second cache is coherent, shows what the first shows, and has stored nothing else. -/
structure Same (w w' : WriteBack K V) : Prop where
  coherent : w'.Coherent
  shown_eq : w'.shown = w.shown
  stored_or (k : K) : w'.stored k = w.stored k ∨ w'.stored k = w.shown k

omit [DecidableEq K] in
lemma Same.trans (h : Same w w') (h' : Same w' w'') : Same w w'' := by
  refine ⟨h'.coherent, h'.shown_eq.trans h.shown_eq, ?_⟩
  intro k
  rcases h'.stored_or k with heq | heq
  · rw [heq]
    exact h.stored_or k
  · exact .inr (by rw [heq, h.shown_eq])

omit [DecidableEq K] in
lemma Same.stored_eq_none (h : Same w w') (hw : w.Coherent) : w'.stored k = none ↔ w.stored k = none := by
  rw [← hw.shown_eq_none, ← h.shown_eq, h.coherent.shown_eq_none]

lemma same_load (h : w.Coherent) (hc : w.cached k = none) (hs : w.stored k = some v) :
    Same w (w.cache k (some (v, false))) := by
  refine ⟨cache_coherent h ?_ (by simp [hs]), ?_, fun _ => .inl rfl⟩
  · intro u hu
    simp only [Option.some.injEq, Prod.mk.injEq, and_true] at hu
    rw [hs, hu]
  · rw [shown_cache_changed, ← hs, ← shown_of_not_cached hc, Function.update_eq_self]

lemma same_writeBack (h : w.Coherent) (hc : w.cached k = some (v, changed)) :
    Same w ((w.store k v).cache k (some (v, false))) := by
  have hstore : (w.store k v).Coherent := by
    apply store_coherent h
    intro u hu
    simp only [hc, Option.some.injEq, Prod.mk.injEq] at hu
    exact hu.1.symm
  refine ⟨cache_coherent hstore ?_ (by simp), ?_, ?_⟩
  · intro u hu
    simp only [Option.some.injEq, Prod.mk.injEq, and_true] at hu
    rw [stored_store_self, hu]
  · funext j
    by_cases hjk : j = k
    · subst hjk
      rw [shown_of_cached cached_cache_self, shown_of_cached hc]
    · rw [shown_cache_of_ne hjk, shown_store_of_ne hjk]
  · intro j
    by_cases hjk : j = k
    · subst hjk
      exact .inr (by rw [shown_of_cached hc, stored_cache, stored_store_self])
    · exact .inl (by rw [stored_cache, stored_store_of_ne hjk])

lemma same_drop (h : w.Coherent) (hc : w.cached k = some (v, false)) : Same w (w.cache k none) := by
  refine ⟨cache_coherent h (by simp) (by simp), ?_, fun _ => .inl rfl⟩
  funext j
  by_cases hjk : j = k
  · subst hjk
    rw [shown_of_cached hc, ← h.clean hc, shown_of_not_cached cached_cache_self, stored_cache]
  · rw [shown_cache_of_ne hjk]

/-- Moves do not change what a key shows. -/
theorem Moves.same (h : Moves w w') (hw : w.Coherent) : Same w w' := by
  induction h with
  | refl => exact ⟨hw, rfl, fun _ => .inl rfl⟩
  | load _ hc hs ih => exact ih.trans (same_load ih.coherent hc hs)
  | writeBack _ hc ih => exact ih.trans (same_writeBack ih.coherent hc)
  | drop _ hc ih => exact ih.trans (same_drop ih.coherent hc)

end Changes

end WriteBack

end RdbRs
