import RdbRs.Lib.Triple

/-!
# Calls that come back

`Halts` is the total version of the rules for calls: from its states a call returns `Ok` or `Err`, hangs never,
and panics only for a given reason.
-/

namespace RdbRs

namespace Exec

variable {ε ε' σ τ α β : Type}

/-- From a state in `P` the call returns: `Ok`, with what `Q` says, or `Err`. It panics only if `F`. -/
def Halts (F : Prop) (P : σ → Prop) (x : Exec ε σ α) (Q : α → σ → Prop) : Prop :=
  ∀ s, P s → match x.run s with
    | .ok a s' => Q a s'
    | .err _ _ => True
    | .panic => F
    | .diverge => False

/-- From any state the call returns. -/
def Total (x : Exec ε σ α) : Prop := ∀ s, (x.run s).Ends

section Rules

variable {F F' : Prop} {P P' : σ → Prop} {Q Q' : α → σ → Prop} {R : β → σ → Prop} {x : Exec ε σ α}
  {f : α → Exec ε σ β}

lemma Halts.imp (h : Halts F P x Q) (hF : F → F') (hP : ∀ s, P' s → P s) (hQ : ∀ a s, Q a s → Q' a s) :
    Halts F' P' x Q' := by
  intro s hs
  have hs' := h s (hP s hs)
  cases hrun : x.run s with
  | ok a s' =>
    rw [hrun] at hs'
    exact hQ a s' hs'
  | err e s' => trivial
  | panic =>
    rw [hrun] at hs'
    exact hF hs'
  | diverge =>
    rw [hrun] at hs'
    exact hs'

lemma Halts.pre (h : Halts F P x Q) (hP : ∀ s, P' s → P s) : Halts F P' x Q := h.imp id hP fun _ _ hs => hs

/-- What a call leaves that returns, from the one rule, and that it returns, from the other. -/
lemma Halts.and_ends {E : ε → σ → Prop} (h : Halts F P x Q) (hends : Ends P x Q' E) :
    Halts F P x fun a s => Q a s ∧ Q' a s := by
  intro s hs
  have hs' := h s hs
  have hends := hends s hs
  cases hrun : x.run s with
  | ok a s' =>
    rw [hrun] at hs' hends
    exact ⟨hs', hends⟩
  | err e s' => trivial
  | panic =>
    rw [hrun] at hs'
    exact hs'
  | diverge =>
    rw [hrun] at hs'
    exact hs'

lemma Halts.of_ends {E : ε → σ → Prop} (h : Halts F P x fun _ _ => True) (hends : Ends P x Q E) :
    Halts F P x Q := (h.and_ends hends).imp id (fun _ hs => hs) fun _ _ hs => hs.2

lemma Halts.of_triple {E : σ → Prop} (h : Halts F P x fun _ _ => True) (htriple : Triple P x Q E) :
    Halts F P x Q := h.of_ends (htriple.ends fun _ _ hs => hs)

lemma Halts.bind (h : Halts F P x Q) (hf : ∀ a, Halts F (Q a) (f a) R) : Halts F P (x >>= f) R := by
  intro s hs
  have hs' := h s hs
  rw [run_bind]
  cases hrun : x.run s with
  | ok a s' =>
    rw [hrun] at hs'
    exact hf a s' hs'
  | err e s' => trivial
  | panic =>
    rw [hrun] at hs'
    exact hs'
  | diverge =>
    rw [hrun] at hs'
    exact hs'

/-- A fact on the value is at hand for the rest. -/
lemma Halts.bind_of {V : α → Prop} (h : Halts F P x fun a s => V a ∧ Q a s)
    (hf : ∀ a, V a → Halts F (Q a) (f a) R) : Halts F P (x >>= f) R :=
  h.bind fun a s hs => hf a hs.1 s hs.2

lemma Halts.mapErr (h : Halts F P x Q) (g : ε → ε') : Halts F P (x.mapErr g) Q := by
  intro s hs
  have hs' := h s hs
  rw [run_mapErr]
  cases hrun : x.run s with
  | ok a s' =>
    rw [hrun] at hs'
    exact hs'
  | err e s' => trivial
  | panic =>
    rw [hrun] at hs'
    exact hs'
  | diverge =>
    rw [hrun] at hs'
    exact hs'

lemma Halts.attempt (h : Halts F P x Q) : Halts F P (x.attempt : Exec ε' σ (Except ε α)) fun _ _ => True := by
  intro s hs
  have hs' := h s hs
  rw [run_attempt]
  cases hrun : x.run s with
  | ok a s' => trivial
  | err e s' => trivial
  | panic =>
    rw [hrun] at hs'
    exact hs'
  | diverge =>
    rw [hrun] at hs'
    exact hs'

/-- A call on a part of the state. -/
lemma Halts.zoom {P : τ → Prop} {Q : α → τ → Prop} {x : Exec ε τ α} {get : σ → τ} {set : τ → σ → σ}
    {P' : σ → Prop} {Q' : α → σ → Prop} (h : Halts F P x Q) (hP : ∀ s, P' s → P (get s))
    (hQ : ∀ a t s, P' s → Q a t → Q' a (set t s)) : Halts F P' (Exec.zoom get set x) Q' := by
  intro s hs
  have hs' := h (get s) (hP s hs)
  rw [run_zoom]
  cases hrun : x.run (get s) with
  | ok a t =>
    rw [hrun] at hs'
    exact hQ a t s hs hs'
  | err e t => trivial
  | panic =>
    rw [hrun] at hs'
    exact hs'
  | diverge =>
    rw [hrun] at hs'
    exact hs'

lemma halts_pure {a : α} : Halts F P (pure a : Exec ε σ α) fun _ => P := fun _ hs => hs

lemma halts_throw {e : ε} : Halts F P (throw e : Exec ε σ α) Q := fun _ _ => trivial

lemma halts_panic (h : F) : Halts F P (panic : Exec ε σ α) Q := fun _ _ => h

lemma Halts.ite {c : Prop} [Decidable c] {y : Exec ε σ α} (h : Halts F P x Q) (h' : Halts F P y Q) :
    Halts F P (if c then x else y) Q := by
  split
  · exact h
  · exact h'

/-- A loop whose rounds return and keep the invariant. -/
lemma halts_forM {f : α → Exec ε σ PUnit} {l : List α} (h : ∀ a ∈ l, Halts F P (f a) fun _ => P) :
    Halts F P (l.forM f) fun _ => P := by
  induction l with
  | nil => exact halts_pure
  | cons a l ih =>
    rw [forM_cons]
    apply (h a List.mem_cons_self).bind
    exact fun _ => ih fun b hb => h b (List.mem_cons_of_mem a hb)

/-- The rule for a loop over local variables. -/
lemma halts_foldlM {f : β → α → Exec ε σ β} {V : β → Prop} {l : List α}
    (hstep : ∀ acc, ∀ a ∈ l, V acc → Halts F P (f acc a) fun acc' s => V acc' ∧ P s) {init : β}
    (hinit : V init) : Halts F P (l.foldlM f init) fun acc s => V acc ∧ P s := by
  induction l generalizing init with
  | nil => exact fun _ hs => ⟨hinit, hs⟩
  | cons a l ih =>
    rw [foldlM_cons]
    apply (hstep init a List.mem_cons_self hinit).bind_of
    exact fun acc hacc => ih (fun acc' b hb => hstep acc' b (List.mem_cons_of_mem a hb)) hacc

lemma Computes.halts {V : α → Prop} {E : ε → Prop} (h : Computes E x V) :
    Halts F P x fun a s => V a ∧ P s := by
  intro s hs
  cases h.run s with
  | inl hok =>
    obtain ⟨a, hrun, ha⟩ := hok
    rw [hrun]
    exact ⟨ha, hs⟩
  | inr herr =>
    obtain ⟨e, -, hrun⟩ := herr
    rw [hrun]
    trivial

end Rules

/-! ### Calls that return from any state -/

section Total

variable {F : Prop} {P : σ → Prop} {Q : α → σ → Prop} {x : Exec ε σ α} {f : α → Exec ε σ β}

lemma Total.halts (h : Total x) : Halts F P x fun _ _ => True := by
  intro s _
  have hs := h s
  cases hrun : x.run s with
  | ok a s' => trivial
  | err e s' => trivial
  | panic =>
    rw [hrun] at hs
    exact absurd hs Outcome.not_ends_panic
  | diverge =>
    rw [hrun] at hs
    exact absurd hs Outcome.not_ends_diverge

lemma Halts.ends {s : σ} (h : Halts False P x Q) (hs : P s) : (x.run s).Ends := by
  have hs' := h s hs
  cases hrun : x.run s with
  | ok a s' => exact Outcome.ends_ok
  | err e s' => exact Outcome.ends_err
  | panic =>
    rw [hrun] at hs'
    exact hs'.elim
  | diverge =>
    rw [hrun] at hs'
    exact hs'.elim

lemma Halts.total (h : Halts False (fun _ => True) x Q) : Total x := fun _ => h.ends trivial

lemma Total.bind (h : Total x) (hf : ∀ a, Total (f a)) : Total (x >>= f) :=
  (Halts.bind h.halts fun a => (hf a).halts).total

lemma Total.mapErr (h : Total x) (g : ε → ε') : Total (x.mapErr g) := (Halts.mapErr h.halts g).total

lemma Total.attempt (h : Total x) : Total (x.attempt : Exec ε' σ (Except ε α)) := (Halts.attempt h.halts).total

lemma Total.zoom {x : Exec ε τ α} (h : Total x) (get : σ → τ) (set : τ → σ → σ) :
    Total (Exec.zoom get set x) := by
  intro s
  obtain ⟨t, ⟨a, hrun⟩ | ⟨e, hrun⟩⟩ := h (get s)
  · rw [run_zoom, hrun]
    exact Outcome.ends_ok
  · rw [run_zoom, hrun]
    exact Outcome.ends_err

lemma Total.ite {c : Prop} [Decidable c] {y : Exec ε σ α} (h : Total x) (h' : Total y) :
    Total (if c then x else y) := by
  split
  · exact h
  · exact h'

lemma total_pure {a : α} : Total (pure a : Exec ε σ α) := fun _ => Outcome.ends_ok

lemma total_throw {e : ε} : Total (throw e : Exec ε σ α) := fun _ => Outcome.ends_err

lemma total_gets (g : σ → α) : Total (gets g : Exec ε σ α) := fun _ => Outcome.ends_ok

lemma total_modify (g : σ → σ) : Total (modify g : Exec ε σ Unit) := fun _ => Outcome.ends_ok

lemma total_query (g : σ → Except ε α) : Total (query g) := by
  intro s
  rw [run_query]
  cases g s with
  | ok a => exact Outcome.ends_ok
  | error e => exact Outcome.ends_err

lemma total_liftExcept (y : Except ε α) : Total (liftExcept y : Exec ε σ α) := total_query fun _ => y

lemma total_withLocal {y : Exec ε τ α} {init : τ} (h : (y.run init).Ends) :
    Total (withLocal init y : Exec ε σ (α × τ)) := by
  intro s
  obtain ⟨t, ⟨a, hrun⟩ | ⟨e, hrun⟩⟩ := h
  · rw [run_withLocal, hrun]
    exact Outcome.ends_ok
  · rw [run_withLocal, hrun]
    exact Outcome.ends_err

end Total

end Exec

end RdbRs
