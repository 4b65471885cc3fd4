import RdbRs.Lib.TokenReader

/-!
# Calls that come back

`left` counts what is left to take. `Progresses P left n x`: from every state in `P` the call `x` comes
back to a state in `P`, where no more is left than before, and with `Ok` it has taken `n` or more. A loop
whose rounds each take something ends.
-/

namespace RdbRs

variable {ε σ τ α β : Type} {P : σ → Prop} {left : σ → Nat} {n m bound : Nat}

/-- The call came back to a state in `P`. With `Ok` it left `n` less than `bound`. -/
def Outcome.Within (P : σ → Prop) (left : σ → Nat) (n bound : Nat) : Outcome ε σ α → Prop
  | .ok _ s => P s ∧ left s + n ≤ bound
  | .err _ s => P s ∧ left s ≤ bound
  | .panic => False
  | .diverge => False

namespace Outcome

variable {o : Outcome ε σ α}

lemma Within.returns (h : o.Within P left n bound) : ∃ s, o.Returns s ∧ P s ∧ left s ≤ bound := by
  cases o with
  | ok a s => exact ⟨s, .inl ⟨a, rfl⟩, h.1, Nat.le_of_add_right_le h.2⟩
  | err e s => exact ⟨s, .inr ⟨e, rfl⟩, h⟩
  | panic => exact h.elim
  | diverge => exact h.elim

lemma Within.mono {bound' : Nat} (h : o.Within P left n bound) (hm : m ≤ n) (hbound : bound ≤ bound') :
    o.Within P left m bound' := by
  cases o with
  | ok a s => exact ⟨h.1, Nat.le_trans (Nat.add_le_add_left hm _) (Nat.le_trans h.2 hbound)⟩
  | err e s => exact ⟨h.1, Nat.le_trans h.2 hbound⟩
  | panic => exact h
  | diverge => exact h

/-- What the first call has taken, the second does not put back. -/
lemma Within.andThen {f : α → σ → Outcome ε σ β} (h : o.Within P left n bound)
    (hf : ∀ a s, P s → left s + n ≤ bound → (f a s).Within P left m (left s)) :
    (o.andThen f).Within P left n bound := by
  cases o with
  | ok a s =>
    have hrest := hf a s h.1 h.2
    rw [andThen_ok]
    cases hout : f a s with
    | ok b s' =>
      rw [hout] at hrest
      have hless : left s' + m ≤ left s := hrest.2
      have hfirst : left s + n ≤ bound := h.2
      exact ⟨hrest.1, by omega⟩
    | err e s' =>
      rw [hout] at hrest
      exact ⟨hrest.1, Nat.le_trans hrest.2 (Nat.le_of_add_right_le h.2)⟩
    | panic => rwa [hout] at hrest
    | diverge => rwa [hout] at hrest
  | err e s => exact h
  | panic => exact h
  | diverge => exact h

end Outcome

namespace Exec

def Progresses (P : σ → Prop) (left : σ → Nat) (n : Nat) (x : Exec ε σ α) : Prop :=
  ∀ s, P s → (x.run s).Within P left n (left s)

variable {x y : Exec ε σ α} {a : α} {e : ε}

lemma progresses_pure : Progresses P left 0 (pure a : Exec ε σ α) := fun s hs => ⟨hs, Nat.le_refl (left s)⟩

lemma progresses_throw : Progresses P left n (throw e : Exec ε σ α) := fun s hs => ⟨hs, Nat.le_refl (left s)⟩

lemma progresses_gets (g : σ → α) : Progresses P left 0 (gets g : Exec ε σ α) :=
  fun s hs => ⟨hs, Nat.le_refl (left s)⟩

/-- What the first call takes, the sequence takes. -/
lemma Progresses.bind {f : α → Exec ε σ β} (hx : Progresses P left n x)
    (hf : ∀ a, Progresses P left m (f a)) : Progresses P left n (x >>= f) := by
  intro s hs
  rw [run_bind]
  apply (hx s hs).andThen
  intro a s' hs' _
  exact hf a s' hs'

lemma Progresses.ite {c : Prop} [Decidable c] (hx : Progresses P left n x) (hy : Progresses P left n y) :
    Progresses P left n (if c then x else y) := by
  split
  · exact hx
  · exact hy

section Loops

variable {next : Exec ε σ τ} {goOn : τ → Bool} {step : β → Exec ε σ β} {acc : β}

/-- A loop whose rounds each take something needs no more rounds than there is to take. -/
lemma repeatWhile_within (hnext : Progresses P left 0 next) (hstep : ∀ acc, Progresses P left 1 (step acc))
    {rounds : Nat} {s : σ} (hs : P s) (hrounds : left s < rounds) :
    ((repeatWhile next goOn step rounds acc).run s).Within P left 0 (left s) := by
  induction rounds generalizing acc s with
  | zero => exact absurd hrounds (Nat.not_lt_zero _)
  | succ rounds ih =>
    rw [repeatWhile, run_bind]
    apply (hnext s hs).andThen
    intro t s₁ hs₁ hleft₁
    by_cases hgo : goOn t = true
    · rw [if_pos hgo, run_bind]
      have hround := (hstep acc s₁ hs₁).andThen fun acc' s₂ hs₂ hleft₂ =>
        @ih acc' s₂ hs₂ (by omega)
      exact hround.mono (Nat.zero_le 1) (Nat.le_refl _)
    · rw [if_neg hgo]
      exact progresses_pure s₁ hs₁

/-- A loop with a round for all that is left. -/
lemma Progresses.repeatWhile {size : σ → Nat} (hsize : ∀ s, P s → left s < size s)
    (hnext : Progresses P left 0 next) (hstep : ∀ acc, Progresses P left 1 (step acc)) :
    Progresses P left 0 (gets size >>= fun rounds => Exec.repeatWhile next goOn step rounds acc) := by
  intro s hs
  rw [run_bind, run_gets, Outcome.andThen_ok]
  exact repeatWhile_within hnext hstep hs (hsize s hs)

end Loops

end Exec

end RdbRs
