import Mathlib.Tactic.Common

/-!
# Calls that change a state and may fail

`Exec ε σ α` is a call with `&mut` access to a state `σ`. Unlike a state transformer over
`Except`, the state survives an error: a call that returns `Err` may already have written.
`panic` and `diverge` are the two ways of not returning at all.
-/

namespace RdbRs

/-- How a call ends. -/
inductive Outcome (ε σ α : Type) where
  | ok (value : α) (state : σ)
  | err (error : ε) (state : σ)
  | panic
  | diverge

namespace Outcome

variable {ε ε' σ τ α β : Type}

/-- Goes on after `Ok`, and stops at anything else. -/
def andThen (o : Outcome ε σ α) (f : α → σ → Outcome ε σ β) : Outcome ε σ β :=
  match o with
  | .ok a s => f a s
  | .err e s => .err e s
  | .panic => .panic
  | .diverge => .diverge

/-- The `From` conversion a `?` applies to the error. -/
def mapErr (f : ε → ε') : Outcome ε σ α → Outcome ε' σ α
  | .ok a s => .ok a s
  | .err e s => .err (f e) s
  | .panic => .panic
  | .diverge => .diverge

def mapState (f : σ → τ) : Outcome ε σ α → Outcome ε τ α
  | .ok a s => .ok a (f s)
  | .err e s => .err e (f s)
  | .panic => .panic
  | .diverge => .diverge

/-- `match call { Ok(..) => .., Err(..) => .. }`: an error becomes a value. -/
def attempt : Outcome ε σ α → Outcome ε' σ (Except ε α)
  | .ok a s => .ok (.ok a) s
  | .err e s => .ok (.error e) s
  | .panic => .panic
  | .diverge => .diverge

/-- A call that came back, with `Ok` or `Err`, and the state it left. -/
def Returns (o : Outcome ε σ α) (s : σ) : Prop := (∃ a, o = .ok a s) ∨ ∃ e, o = .err e s

/-- The call came back. -/
def Ends (o : Outcome ε σ α) : Prop := ∃ s, o.Returns s

/-- The value of a call that came back with `Ok`. -/
def value? : Outcome ε σ α → Option α
  | .ok a _ => some a
  | _ => none

section Lemmas

variable {a : α} {s : σ} {e : ε}

@[simp] theorem andThen_ok (f : α → σ → Outcome ε σ β) :
    (ok a s : Outcome ε σ α).andThen f = f a s := rfl
@[simp] theorem andThen_err (f : α → σ → Outcome ε σ β) :
    (err e s : Outcome ε σ α).andThen f = .err e s := rfl
@[simp] theorem andThen_panic (f : α → σ → Outcome ε σ β) :
    (panic : Outcome ε σ α).andThen f = .panic := rfl
@[simp] theorem andThen_diverge (f : α → σ → Outcome ε σ β) :
    (diverge : Outcome ε σ α).andThen f = .diverge := rfl

@[simp] theorem mapErr_ok (f : ε → ε') : (ok a s : Outcome ε σ α).mapErr f = .ok a s := rfl
@[simp] theorem mapErr_err (f : ε → ε') : (err e s : Outcome ε σ α).mapErr f = .err (f e) s := rfl
@[simp] theorem mapErr_panic (f : ε → ε') : (panic : Outcome ε σ α).mapErr f = .panic := rfl
@[simp] theorem mapErr_diverge (f : ε → ε') : (diverge : Outcome ε σ α).mapErr f = .diverge := rfl

@[simp] theorem mapState_ok (f : σ → τ) : (ok a s : Outcome ε σ α).mapState f = .ok a (f s) := rfl
@[simp] theorem mapState_err (f : σ → τ) :
    (err e s : Outcome ε σ α).mapState f = .err e (f s) := rfl
@[simp] theorem mapState_panic (f : σ → τ) : (panic : Outcome ε σ α).mapState f = .panic := rfl
@[simp] theorem mapState_diverge (f : σ → τ) :
    (diverge : Outcome ε σ α).mapState f = .diverge := rfl

@[simp] theorem attempt_ok :
    ((ok a s : Outcome ε σ α).attempt : Outcome ε' σ (Except ε α)) = .ok (.ok a) s := rfl
@[simp] theorem attempt_err :
    ((err e s : Outcome ε σ α).attempt : Outcome ε' σ (Except ε α)) = .ok (.error e) s := rfl
@[simp] theorem attempt_panic :
    ((panic : Outcome ε σ α).attempt : Outcome ε' σ (Except ε α)) = .panic := rfl
@[simp] theorem attempt_diverge :
    ((diverge : Outcome ε σ α).attempt : Outcome ε' σ (Except ε α)) = .diverge := rfl

@[simp] theorem ends_ok : (ok a s : Outcome ε σ α).Ends := ⟨s, .inl ⟨a, rfl⟩⟩
@[simp] theorem ends_err : (err e s : Outcome ε σ α).Ends := ⟨s, .inr ⟨e, rfl⟩⟩
@[simp] theorem not_ends_panic : ¬(panic : Outcome ε σ α).Ends := by simp [Ends, Returns]
@[simp] theorem not_ends_diverge : ¬(diverge : Outcome ε σ α).Ends := by simp [Ends, Returns]

theorem value?_eq_some {o : Outcome ε σ α} : o.value? = some a ↔ ∃ s, o = .ok a s := by
  cases o <;> simp [value?]

/-- A sequence that returns `Ok` is two calls that return `Ok`. -/
theorem andThen_eq_ok {o : Outcome ε σ α} {f : α → σ → Outcome ε σ β} {b : β} :
    o.andThen f = .ok b s ↔ ∃ a s', o = .ok a s' ∧ f a s' = .ok b s := by
  cases o <;> simp

/-- A sequence that returns `Err` failed in its first or in its second call. -/
theorem andThen_eq_err {o : Outcome ε σ α} {f : α → σ → Outcome ε σ β} :
    o.andThen f = .err e s ↔ o = .err e s ∨ ∃ a s', o = .ok a s' ∧ f a s' = .err e s := by
  cases o <;> simp

end Lemmas

end Outcome

/-- A fallible call on a mutable state. -/
structure Exec (ε σ α : Type) where
  run : σ → Outcome ε σ α

namespace Exec

variable {ε ε' σ τ α β : Type}

instance : Monad (Exec ε σ) where
  pure a := ⟨fun s => .ok a s⟩
  bind x f := ⟨fun s => (x.run s).andThen fun a s' => (f a).run s'⟩

/-- `return Err(e)`. -/
def throw (e : ε) : Exec ε σ α := ⟨fun s => .err e s⟩

/-- A slice out of range, a failed `expect`, an arithmetic overflow. -/
def panic : Exec ε σ α := ⟨fun _ => .panic⟩

/-- A loop that never ends. -/
def diverge : Exec ε σ α := ⟨fun _ => .diverge⟩

/-- Reads the state through a shared reference. -/
def gets (f : σ → α) : Exec ε σ α := ⟨fun s => .ok (f s) s⟩

/-- Writes the state through a mutable reference. -/
def modify (f : σ → σ) : Exec ε σ Unit := ⟨fun s => .ok () (f s)⟩

/-- A fallible method on `&self`. -/
def query (f : σ → Except ε α) : Exec ε σ α := ⟨fun s =>
  match f s with
  | .ok a => .ok a s
  | .error e => .err e s⟩

/-- A fallible expression that does not touch the state. -/
def liftExcept (x : Except ε α) : Exec ε σ α := query fun _ => x

/-- `match call { Ok(..) => .., Err(..) => .. }`: an error becomes a value. -/
def attempt (x : Exec ε σ α) : Exec ε' σ (Except ε α) := ⟨fun s => (x.run s).attempt⟩

/-- The `From` conversion a `?` applies to the error. -/
def mapErr (f : ε → ε') (x : Exec ε σ α) : Exec ε' σ α := ⟨fun s => (x.run s).mapErr f⟩

/-- A call on a part of the state. -/
def zoom (get : σ → τ) (set : τ → σ → σ) (x : Exec ε τ α) : Exec ε σ α :=
  ⟨fun s => (x.run (get s)).mapState fun t => set t s⟩

/-- A call on a local variable. -/
def withLocal (init : τ) (x : Exec ε τ α) : Exec ε σ (α × τ) := ⟨fun s =>
  match x.run init with
  | .ok a t => .ok (a, t) s
  | .err e _ => .err e s
  | .panic => .panic
  | .diverge => .diverge⟩

/-- A call on the states that satisfy an invariant of it. -/
def restrict {P : σ → Prop} (x : Exec ε σ α) (h : ∀ s s', P s → (x.run s).Returns s' → P s') :
    Exec ε {s // P s} α := ⟨fun s =>
  match hrun : x.run s.1 with
  | .ok a s' => .ok a ⟨s', h s.1 s' s.2 (.inl ⟨a, hrun⟩)⟩
  | .err e s' => .err e ⟨s', h s.1 s' s.2 (.inr ⟨e, hrun⟩)⟩
  | .panic => .panic
  | .diverge => .diverge⟩

section Lemmas

variable {s : σ} {a : α} {e : ε} {x : Exec ε σ α}

@[simp] theorem run_pure : (pure a : Exec ε σ α).run s = .ok a s := rfl
@[simp] theorem run_throw : (throw e : Exec ε σ α).run s = .err e s := rfl
@[simp] theorem run_panic : (panic : Exec ε σ α).run s = .panic := rfl
@[simp] theorem run_diverge : (diverge : Exec ε σ α).run s = .diverge := rfl
@[simp] theorem run_gets (f : σ → α) : (gets f : Exec ε σ α).run s = .ok (f s) s := rfl
@[simp] theorem run_modify (f : σ → σ) : (modify f : Exec ε σ Unit).run s = .ok () (f s) := rfl

@[simp] theorem run_bind (f : α → Exec ε σ β) :
    (x >>= f).run s = (x.run s).andThen fun a s' => (f a).run s' := rfl

@[simp] theorem run_map (f : α → β) :
    (f <$> x).run s = (x.run s).andThen fun a s' => .ok (f a) s' := rfl

theorem run_query (f : σ → Except ε α) : (query f).run s = match f s with
    | .ok a => .ok a s
    | .error e => .err e s := rfl

theorem run_liftExcept (y : Except ε α) : (liftExcept y : Exec ε σ α).run s = match y with
    | .ok a => .ok a s
    | .error e => .err e s := rfl

@[simp] theorem run_attempt : (attempt x : Exec ε' σ (Except ε α)).run s = (x.run s).attempt := rfl

@[simp] theorem run_mapErr (f : ε → ε') : (mapErr f x).run s = (x.run s).mapErr f := rfl

@[simp] theorem run_zoom (get : σ → τ) (set : τ → σ → σ) (y : Exec ε τ α) :
    (zoom get set y).run s = (y.run (get s)).mapState fun t => set t s := rfl

theorem run_withLocal (init : τ) (y : Exec ε τ α) :
    (withLocal init y : Exec ε σ (α × τ)).run s = match y.run init with
      | .ok a t => .ok (a, t) s
      | .err e _ => .err e s
      | .panic => .panic
      | .diverge => .diverge := rfl

theorem run_restrict_ok {P : σ → Prop} (h : ∀ s s', P s → (x.run s).Returns s' → P s') {s : {s // P s}}
    {s' : σ} (hrun : x.run s.1 = .ok a s') :
    (restrict x h).run s = .ok a ⟨s', h s.1 s' s.2 (.inl ⟨a, hrun⟩)⟩ := by
  unfold restrict
  simp only
  split
  · rename_i heq
    cases heq.symm.trans hrun
    rfl
  all_goals
    rename_i heq
    cases heq.symm.trans hrun

theorem run_restrict_err {P : σ → Prop} (h : ∀ s s', P s → (x.run s).Returns s' → P s') {s : {s // P s}}
    {s' : σ} (hrun : x.run s.1 = .err e s') :
    (restrict x h).run s = .err e ⟨s', h s.1 s' s.2 (.inr ⟨e, hrun⟩)⟩ := by
  unfold restrict
  simp only
  split
  case h_2 heq =>
    cases heq.symm.trans hrun
    rfl
  all_goals
    rename_i heq
    cases heq.symm.trans hrun

theorem run_restrict_panic {P : σ → Prop} (h : ∀ s s', P s → (x.run s).Returns s' → P s')
    {s : {s // P s}} (hrun : x.run s.1 = .panic) : (restrict x h).run s = .panic := by
  unfold restrict
  simp only
  split
  case h_3 => rfl
  all_goals
    rename_i heq
    cases heq.symm.trans hrun

theorem run_restrict_diverge {P : σ → Prop} (h : ∀ s s', P s → (x.run s).Returns s' → P s')
    {s : {s // P s}} (hrun : x.run s.1 = .diverge) : (restrict x h).run s = .diverge := by
  unfold restrict
  simp only
  split
  case h_4 => rfl
  all_goals
    rename_i heq
    cases heq.symm.trans hrun

@[simp] theorem run_ite {c : Prop} [Decidable c] (y : Exec ε σ α) :
    (if c then x else y).run s = if c then x.run s else y.run s := by
  split <;> rfl

end Lemmas

end Exec

@[simp] theorem except_bind_ok {ε α β : Type} (a : α) (f : α → Except ε β) :
    (Except.ok a >>= f) = f a := rfl

@[simp] theorem except_bind_error {ε α β : Type} (e : ε) (f : α → Except ε β) :
    (Except.error e >>= f) = .error e := rfl

end RdbRs
