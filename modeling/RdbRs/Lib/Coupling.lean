import RdbRs.Lib.Triple

/-!
# Coupled calls

The same call on two states. `Couples` follows both of them side by side: they end alike, with one value or one
error, and what relates the states before relates them afterwards.
-/

namespace RdbRs

variable {ε ε' σ τ υ ω α β : Type}

namespace Outcome

/-- Both calls end alike: with one value and states in `Q`, or with one error and states in `E`. -/
inductive Coupled (Q E : σ → τ → Prop) : Outcome ε σ α → Outcome ε τ α → Prop
  | ok {a : α} {s : σ} {t : τ} : Q s t → Coupled Q E (.ok a s) (.ok a t)
  | err {e : ε} {s : σ} {t : τ} : E s t → Coupled Q E (.err e s) (.err e t)
  | panic : Coupled Q E .panic .panic
  | diverge : Coupled Q E .diverge .diverge

variable {Q Q' E E' : σ → τ → Prop} {o : Outcome ε σ α} {o' : Outcome ε τ α}

lemma Coupled.imp (h : Coupled Q E o o') (hQ : ∀ s t, Q s t → Q' s t) (hE : ∀ s t, E s t → E' s t) :
    Coupled Q' E' o o' := by
  cases h with
  | ok hst => exact .ok (hQ _ _ hst)
  | err hst => exact .err (hE _ _ hst)
  | panic => exact .panic
  | diverge => exact .diverge

lemma Coupled.andThen {f : α → σ → Outcome ε σ β} {g : α → τ → Outcome ε τ β} {Q' : σ → τ → Prop}
    (h : Coupled Q E o o') (hf : ∀ a s t, Q s t → Coupled Q' E (f a s) (g a t)) :
    Coupled Q' E (o.andThen f) (o'.andThen g) := by
  cases h with
  | ok hst => exact hf _ _ _ hst
  | err hst => exact .err hst
  | panic => exact .panic
  | diverge => exact .diverge

lemma Coupled.mapErr (h : Coupled Q E o o') (f : ε → ε') : Coupled Q E (o.mapErr f) (o'.mapErr f) := by
  cases h with
  | ok hst => exact .ok hst
  | err hst => exact .err hst
  | panic => exact .panic
  | diverge => exact .diverge

lemma Coupled.mapState {Q' : υ → ω → Prop} {f : σ → υ} {g : τ → ω} (h : Coupled Q Q o o')
    (hfg : ∀ s t, Q s t → Q' (f s) (g t)) : Coupled Q' Q' (o.mapState f) (o'.mapState g) := by
  cases h with
  | ok hst => exact .ok (hfg _ _ hst)
  | err hst => exact .err (hfg _ _ hst)
  | panic => exact .panic
  | diverge => exact .diverge

lemma Coupled.attempt (h : Coupled Q Q o o') :
    Coupled Q Q (o.attempt : Outcome ε' σ (Except ε α)) o'.attempt := by
  cases h with
  | ok hst => exact .ok hst
  | err hst => exact .ok hst
  | panic => exact .panic
  | diverge => exact .diverge

/-- The two calls return the same value, if any. -/
lemma Coupled.value?_eq (h : Coupled Q E o o') : o.value? = o'.value? := by
  cases h with
  | ok _ => rfl
  | err _ => rfl
  | panic => rfl
  | diverge => rfl

end Outcome

namespace Exec

open Outcome

/-- From states in `R` both calls end alike: `Ok` leads to `Q`, and `Err` to `E`. -/
def Couples (R Q E : σ → τ → Prop) (x : Exec ε σ α) (y : Exec ε τ α) : Prop :=
  ∀ s t, R s t → (x.run s).Coupled Q E (y.run t)

/-- Both calls end alike, and keep what relates the states. -/
abbrev Matches (R : σ → τ → Prop) (x : Exec ε σ α) (y : Exec ε τ α) : Prop := Couples R R R x y

section Rules

variable {R Q Q' E : σ → τ → Prop} {x : Exec ε σ α} {y : Exec ε τ α} {f : α → Exec ε σ β} {g : α → Exec ε τ β}

lemma Couples.pre {R' : σ → τ → Prop} (h : Couples R Q E x y) (hR : ∀ s t, R' s t → R s t) :
    Couples R' Q E x y := fun s t hst => h s t (hR s t hst)

lemma Couples.bind (h : Couples R Q E x y) (hf : ∀ a, Couples Q Q' E (f a) (g a)) :
    Couples R Q' E (x >>= f) (y >>= g) := by
  intro s t hst
  rw [run_bind, run_bind]
  exact (h s t hst).andThen fun a s' t' hst' => hf a s' t' hst'

lemma Matches.bind (h : Matches R x y) (hf : ∀ a, Matches R (f a) (g a)) : Matches R (x >>= f) (y >>= g) :=
  Couples.bind h hf

lemma Couples.mapErr (h : Couples R Q E x y) (k : ε → ε') : Couples R Q E (x.mapErr k) (y.mapErr k) := by
  intro s t hst
  rw [run_mapErr, run_mapErr]
  exact (h s t hst).mapErr k

lemma Matches.attempt (h : Matches R x y) :
    Matches R (x.attempt : Exec ε' σ (Except ε α)) (y.attempt : Exec ε' τ (Except ε α)) := by
  intro s t hst
  rw [run_attempt, run_attempt]
  exact (h s t hst).attempt

/-- A call on parts of the two states. -/
lemma Couples.zoom {S : υ → ω → Prop} {x : Exec ε υ α} {y : Exec ε ω α} {get : σ → υ} {set : υ → σ → σ}
    {get' : τ → ω} {set' : ω → τ → τ} (h : Matches S x y) (hget : ∀ s t, R s t → S (get s) (get' t))
    (hset : ∀ s t u w, R s t → S u w → R (set u s) (set' w t)) :
    Matches R (Exec.zoom get set x) (Exec.zoom get' set' y) := by
  intro s t hst
  rw [run_zoom, run_zoom]
  exact (h _ _ (hget s t hst)).mapState fun u w huw => hset s t u w hst huw

lemma matches_pure (a : α) : Matches R (pure a : Exec ε σ α) (pure a) := fun _ _ hst => .ok hst

lemma matches_throw (e : ε) : Matches R (throw e : Exec ε σ α) (throw e) := fun _ _ hst => .err hst

lemma couples_panic : Couples R Q E (panic : Exec ε σ α) panic := fun _ _ _ => .panic

lemma couples_diverge : Couples R Q E (diverge : Exec ε σ α) diverge := fun _ _ _ => .diverge

lemma matches_gets {k : σ → α} {k' : τ → α} (h : ∀ s t, R s t → k s = k' t) :
    Matches R (gets k : Exec ε σ α) (gets k') := by
  intro s t hst
  rw [run_gets, run_gets, h s t hst]
  exact .ok hst

lemma matches_query {k : σ → Except ε α} {k' : τ → Except ε α} (h : ∀ s t, R s t → k s = k' t) :
    Matches R (query k) (query k') := by
  intro s t hst
  rw [run_query, run_query, h s t hst]
  cases k' t with
  | ok a => exact .ok hst
  | error e => exact .err hst

lemma matches_liftExcept (z : Except ε α) : Matches R (liftExcept z : Exec ε σ α) (liftExcept z) :=
  matches_query fun _ _ _ => rfl

lemma matches_withLocal (init : υ) (z : Exec ε υ α) :
    Matches R (withLocal init z : Exec ε σ (α × υ)) (withLocal init z) := by
  intro s t hst
  rw [run_withLocal, run_withLocal]
  cases z.run init with
  | ok a u => exact .ok hst
  | err e u => exact .err hst
  | panic => exact .panic
  | diverge => exact .diverge

lemma matches_okOr (e : ε) (a : Option α) : Matches R (okOr e a : Exec ε σ α) (okOr e a) := by
  cases a with
  | some a => exact matches_pure a
  | none => exact matches_throw e

lemma matches_index (values : List α) (i : Nat) : Matches R (index values i : Exec ε σ α) (index values i) := by
  unfold index
  cases values[i]? with
  | some a => exact matches_pure a
  | none => exact couples_panic

lemma matches_assign (values : List α) (i : Nat) (a : α) :
    Matches R (assign values i a : Exec ε σ _) (assign values i a) := by
  unfold assign
  split
  · exact matches_pure _
  · exact couples_panic

lemma Matches.ite {c : Prop} [Decidable c] {x' : Exec ε σ α} {y' : Exec ε τ α} (h : Matches R x y)
    (h' : Matches R x' y') : Matches R (if c then x else x') (if c then y else y') := by
  split
  · exact h
  · exact h'

lemma matches_forM {f : α → Exec ε σ PUnit} {g : α → Exec ε τ PUnit} (h : ∀ a, Matches R (f a) (g a))
    (l : List α) : Matches R (l.forM f) (l.forM g) := by
  induction l with
  | nil => exact matches_pure _
  | cons a l ih =>
    rw [forM_cons, forM_cons]
    exact (h a).bind fun _ => ih

lemma matches_foldlM {f : β → α → Exec ε σ β} {g : β → α → Exec ε τ β}
    (h : ∀ acc a, Matches R (f acc a) (g acc a)) (l : List α) (init : β) :
    Matches R (l.foldlM f init) (l.foldlM g init) := by
  induction l generalizing init with
  | nil => exact matches_pure _
  | cons a l ih =>
    rw [foldlM_cons, foldlM_cons]
    exact (h init a).bind ih

end Rules

/-! ### One state -/

section Diagonal

variable {P : σ → Prop} {x : Exec ε σ α}

/-- There is nothing to keep. -/
lemma keeps_true (x : Exec ε σ α) : Keeps (fun _ => True) x := by
  intro s _
  cases x.run s with
  | ok a s' => trivial
  | err e s' => trivial
  | panic => trivial
  | diverge => trivial

/-- A call that keeps `P` matches itself on one state in `P`. -/
lemma Keeps.matches (h : Keeps P x) : Matches (fun s t => s = t ∧ P s) x x := by
  rintro s _ ⟨rfl, hs⟩
  have hs' := h s hs
  cases hrun : x.run s with
  | ok a s' =>
    rw [hrun] at hs'
    exact .ok ⟨rfl, hs'⟩
  | err e s' =>
    rw [hrun] at hs'
    exact .err ⟨rfl, hs'⟩
  | panic => exact .panic
  | diverge => exact .diverge

lemma Matches.keeps (h : Matches (fun s t => s = t ∧ P s) x x) : Keeps P x := by
  intro s hs
  have hxx := h s s ⟨rfl, hs⟩
  cases hrun : x.run s with
  | ok a s' =>
    rw [hrun] at hxx
    cases hxx with
    | ok hs' => exact hs'.2
  | err e s' =>
    rw [hrun] at hxx
    cases hxx with
    | err hs' => exact hs'.2
  | panic => trivial
  | diverge => trivial

end Diagonal

end Exec

end RdbRs
