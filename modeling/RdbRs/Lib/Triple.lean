import RdbRs.Lib.Loop

/-!
# Rules for calls

`Ends` says what a call that returns leaves behind, after `Ok` and after each `Err`, and `Triple` is the
case where the error does not matter. `Agree` compares a call on one state with a call on another one.
-/

namespace RdbRs

namespace Exec

variable {ε ε' σ τ α β γ δ : Type}

/-! ### What each error leaves -/

/-- From a state in `P`, `Ok` leads to `Q`, and `Err` to what `F` says of its error. -/
def Ends (P : σ → Prop) (x : Exec ε σ α) (Q : α → σ → Prop) (F : ε → σ → Prop) : Prop :=
  ∀ s, P s → match x.run s with
    | .ok a s' => Q a s'
    | .err e s' => F e s'
    | _ => True

section Ends

variable {P P' : σ → Prop} {Q Q' : α → σ → Prop} {R : β → σ → Prop} {F F' : ε → σ → Prop}
  {x : Exec ε σ α} {f : α → Exec ε σ β}

lemma Ends.of_ok {s s' : σ} {a : α} (h : Ends P x Q F) (hs : P s) (hrun : x.run s = .ok a s') :
    Q a s' := by
  have hx := h s hs
  rwa [hrun] at hx

lemma Ends.of_err {s s' : σ} {e : ε} (h : Ends P x Q F) (hs : P s) (hrun : x.run s = .err e s') :
    F e s' := by
  have hx := h s hs
  rwa [hrun] at hx

lemma Ends.bind (hx : Ends P x Q F) (hf : ∀ a, Ends (Q a) (f a) R F) : Ends P (x >>= f) R F := by
  intro s hs
  have hs' := hx s hs
  rw [run_bind]
  cases hrun : x.run s with
  | ok a s' =>
    rw [hrun] at hs'
    exact hf a s' hs'
  | err e s' =>
    rw [hrun] at hs'
    exact hs'
  | panic => trivial
  | diverge => trivial

lemma Ends.bind_of {V : α → Prop} (hx : Ends P x (fun a s => V a ∧ Q a s) F)
    (hf : ∀ a, V a → Ends (Q a) (f a) R F) : Ends P (x >>= f) R F :=
  hx.bind fun a s hs => hf a hs.1 s hs.2

lemma Ends.imp (hx : Ends P x Q F) (hP : ∀ s, P' s → P s) (hQ : ∀ a s, Q a s → Q' a s)
    (hF : ∀ e s, F e s → F' e s) : Ends P' x Q' F' := by
  intro s hs
  have hs' := hx s (hP s hs)
  cases hrun : x.run s with
  | ok a s' =>
    rw [hrun] at hs'
    exact hQ a s' hs'
  | err e s' =>
    rw [hrun] at hs'
    exact hF e s' hs'
  | panic => trivial
  | diverge => trivial

lemma Ends.mapErr {F' : ε' → σ → Prop} (hx : Ends P x Q F) (g : ε → ε')
    (hg : ∀ e s, F e s → F' (g e) s) : Ends P (x.mapErr g) Q F' := by
  intro s hs
  have hs' := hx s hs
  rw [run_mapErr]
  cases hrun : x.run s with
  | ok a s' =>
    rw [hrun] at hs'
    exact hs'
  | err e s' =>
    rw [hrun] at hs'
    exact hg e s' hs'
  | panic => trivial
  | diverge => trivial

/-- A call on a part of the state. -/
lemma Ends.zoom {P : τ → Prop} {Q : α → τ → Prop} {F : ε → τ → Prop} {x : Exec ε τ α} {get : σ → τ}
    {set : τ → σ → σ} {P' : σ → Prop} {Q' : α → σ → Prop} {F' : ε → σ → Prop} (h : Ends P x Q F)
    (hP : ∀ s, P' s → P (get s)) (hQ : ∀ a t s, P' s → Q a t → Q' a (set t s))
    (hF : ∀ e t s, P' s → F e t → F' e (set t s)) : Ends P' (Exec.zoom get set x) Q' F' := by
  intro s hs
  have hs' := h (get s) (hP s hs)
  rw [run_zoom]
  cases hrun : x.run (get s) with
  | ok a t =>
    rw [hrun] at hs'
    exact hQ a t s hs hs'
  | err e t =>
    rw [hrun] at hs'
    exact hF e t s hs hs'
  | panic => trivial
  | diverge => trivial

/-- The rule for a loop: the invariant speaks of the part of the list that remains. -/
lemma ends_forM {f : α → Exec ε σ PUnit} {I : List α → σ → Prop} {l : List α}
    (hstep : ∀ a rest, a :: rest <:+ l → Ends (I (a :: rest)) (f a) (fun _ => I rest) F) :
    Ends (I l) (l.forM f) (fun _ => I []) F := by
  induction l with
  | nil => exact fun _ hs => hs
  | cons a rest ih =>
    rw [forM_cons]
    apply (hstep a rest (List.suffix_refl _)).bind
    intro _
    exact ih fun b tail htail => hstep b tail (htail.trans (List.suffix_cons a rest))

end Ends

/-! ### What a call leaves -/

/-- From a state in `P`, `Ok` leads to `Q` and `Err` to `E`. -/
def Triple (P : σ → Prop) (x : Exec ε σ α) (Q : α → σ → Prop) (E : σ → Prop) : Prop :=
  ∀ s, P s → match x.run s with
    | .ok a s' => Q a s'
    | .err _ s' => E s'
    | _ => True

/-- The invariant `P` holds again when the call returns. -/
def Keeps (P : σ → Prop) (x : Exec ε σ α) : Prop := Triple P x (fun _ => P) P

section Triple

variable {P P' E E' : σ → Prop} {Q Q' : α → σ → Prop} {R : β → σ → Prop} {x : Exec ε σ α}
  {f : α → Exec ε σ β} {a : α} {e : ε}

lemma Triple.imp (hx : Triple P x Q E) (hP : ∀ s, P' s → P s) (hQ : ∀ a s, Q a s → Q' a s)
    (hE : ∀ s, E s → E' s) : Triple P' x Q' E' := Ends.imp hx hP hQ fun _ => hE

lemma Triple.ends {F : ε → σ → Prop} (h : Triple P x Q E) (hF : ∀ e s, E s → F e s) : Ends P x Q F :=
  Ends.imp h (fun _ hs => hs) (fun _ _ hs => hs) hF

lemma Ends.triple {F : ε → σ → Prop} (h : Ends P x Q F) (hE : ∀ e s, F e s → E s) : Triple P x Q E :=
  Ends.imp h (fun _ hs => hs) (fun _ _ hs => hs) hE

lemma Keeps.of_returns {s s' : σ} (h : Keeps P x) (hs : P s) (hrun : (x.run s).Returns s') : P s' := by
  have hx := h s hs
  rcases hrun with ⟨a, heq⟩ | ⟨e, heq⟩
  · rwa [heq] at hx
  · rwa [heq] at hx

lemma Triple.bind (hx : Triple P x Q E) (hf : ∀ a, Triple (Q a) (f a) R E) :
    Triple P (x >>= f) R E := Ends.bind hx hf

lemma Triple.mapErr (hx : Triple P x Q E) (g : ε → ε') : Triple P (x.mapErr g) Q E :=
  Ends.mapErr hx g fun _ _ hs => hs

lemma triple_panic : Triple P (panic : Exec ε σ α) Q E := fun _ _ => trivial

lemma triple_diverge : Triple P (diverge : Exec ε σ α) Q E := fun _ _ => trivial

lemma keeps_pure : Keeps P (pure a : Exec ε σ α) := fun _ hs => hs

lemma keeps_throw : Keeps P (throw e : Exec ε σ α) := fun _ hs => hs

lemma keeps_gets (g : σ → α) : Keeps P (gets g : Exec ε σ α) := fun _ hs => hs

lemma keeps_query (g : σ → Except ε α) : Keeps P (query g) := by
  intro s hs
  rw [run_query]
  cases g s with
  | ok a => exact hs
  | error e => exact hs

lemma triple_liftExcept {y : Except ε α} (hE : ∀ s, P s → E s) :
    Triple P (liftExcept y : Exec ε σ α) (fun a s => y = .ok a ∧ P s) E := by
  intro s hs
  rw [run_liftExcept]
  cases y with
  | ok a => exact ⟨rfl, hs⟩
  | error e => exact hE s hs

lemma keeps_liftExcept (y : Except ε α) : Keeps P (liftExcept y : Exec ε σ α) := keeps_query fun _ => y

lemma keeps_withLocal (init : τ) (y : Exec ε τ α) : Keeps P (withLocal init y : Exec ε σ (α × τ)) := by
  intro s hs
  rw [run_withLocal]
  cases y.run init with
  | ok a t => exact hs
  | err e t => exact hs
  | panic => trivial
  | diverge => trivial

lemma Keeps.bind (hx : Keeps P x) (hf : ∀ a, Keeps P (f a)) : Keeps P (x >>= f) := Triple.bind hx hf

lemma Keeps.mapErr (hx : Keeps P x) (g : ε → ε') : Keeps P (x.mapErr g) := Triple.mapErr hx g

lemma Keeps.ite {c : Prop} [Decidable c] {y : Exec ε σ α} (hx : Keeps P x) (hy : Keeps P y) :
    Keeps P (if c then x else y) := by
  split
  · exact hx
  · exact hy

lemma triple_forM {f : α → Exec ε σ PUnit} {I : List α → σ → Prop} {l : List α}
    (hstep : ∀ a rest, a :: rest <:+ l → Triple (I (a :: rest)) (f a) (fun _ => I rest) E) :
    Triple (I l) (l.forM f) (fun _ => I []) E := ends_forM hstep

lemma keeps_forM {f : α → Exec ε σ PUnit} {l : List α} (h : ∀ a ∈ l, Keeps P (f a)) :
    Keeps P (l.forM f) :=
  triple_forM (I := fun _ => P) fun a _ hsuffix => h a (hsuffix.subset List.mem_cons_self)

/-- The rule for a loop over local variables. -/
lemma triple_foldlM {f : β → α → Exec ε σ β} {V : β → Prop} {l : List α}
    (hstep : ∀ acc, ∀ a ∈ l, V acc → Triple P (f acc a) (fun acc' s => V acc' ∧ P s) E) {init : β}
    (hinit : V init) :
    Triple P (l.foldlM f init) (fun acc s => V acc ∧ P s) E := by
  induction l generalizing init with
  | nil => exact fun _ hs => ⟨hinit, hs⟩
  | cons a l ih =>
    rw [foldlM_cons]
    apply (hstep init a List.mem_cons_self hinit).bind
    intro acc s hs
    exact ih (fun acc' b hb => hstep acc' b (List.mem_cons_of_mem a hb)) hs.1 s hs.2

lemma Computes.triple {V : α → Prop} {E' : ε → Prop} (h : Computes E' x V) :
    Triple P x (fun a s => V a ∧ P s) P := by
  intro s hs
  cases h.run s with
  | inl hok =>
    obtain ⟨a, hrun, ha⟩ := hok
    rw [hrun]
    exact ⟨ha, hs⟩
  | inr herr =>
    obtain ⟨e, -, hrun⟩ := herr
    rw [hrun]
    exact hs

/-- A fact on the value is at hand for the rest. -/
lemma Triple.bind_of {V : α → Prop} (hx : Triple P x (fun a s => V a ∧ Q a s) E)
    (hf : ∀ a, V a → Triple (Q a) (f a) R E) : Triple P (x >>= f) R E :=
  hx.bind fun a s hs => hf a hs.1 s hs.2

lemma Triple.zoom {P E : τ → Prop} {Q : α → τ → Prop} {x : Exec ε τ α} {get : σ → τ} {set : τ → σ → σ}
    {P' E' : σ → Prop} {Q' : α → σ → Prop} (h : Triple P x Q E) (hP : ∀ s, P' s → P (get s))
    (hQ : ∀ a t s, P' s → Q a t → Q' a (set t s)) (hE : ∀ t s, P' s → E t → E' (set t s)) :
    Triple P' (Exec.zoom get set x) Q' E' := Ends.zoom h hP hQ fun _ => hE

end Triple

/-! ### Values and errors -/

/-- From a state in `P`, `Ok` leads to `Q`, and the error of an `Err` is one of `E`. -/
def Yields (P : σ → Prop) (x : Exec ε σ α) (Q : α → σ → Prop) (E : ε → Prop) : Prop :=
  ∀ s, P s → match x.run s with
    | .ok a s' => Q a s'
    | .err e _ => E e
    | _ => True

section Yields

variable {P P' : σ → Prop} {Q Q' : α → σ → Prop} {R : β → σ → Prop} {E : ε → Prop}
  {x : Exec ε σ α} {f : α → Exec ε σ β} {a : α} {e : ε}

lemma Yields.of_ok {s s' : σ} (h : Yields P x Q E) (hs : P s) (hrun : x.run s = .ok a s') : Q a s' := by
  have hx := h s hs
  rwa [hrun] at hx

lemma Yields.of_err {s s' : σ} (h : Yields P x Q E) (hs : P s) (hrun : x.run s = .err e s') : E e :=
  Ends.of_err h hs hrun

lemma Yields.bind (hx : Yields P x Q E) (hf : ∀ a, Yields (Q a) (f a) R E) :
    Yields P (x >>= f) R E := Ends.bind hx hf

/-- A fact on the value is at hand for the rest. -/
lemma Yields.bind_of {V : α → Prop} (hx : Yields P x (fun a s => V a ∧ Q a s) E)
    (hf : ∀ a, V a → Yields (Q a) (f a) R E) : Yields P (x >>= f) R E :=
  hx.bind fun a s hs => hf a hs.1 s hs.2

lemma yields_exists {γ : Type} {P : γ → σ → Prop} (h : ∀ c, Yields (P c) x Q E) :
    Yields (fun s => ∃ c, P c s) x Q E := by
  intro s hs
  have ⟨c, hc⟩ := hs
  exact h c s hc

lemma Yields.mapErr (hx : Yields P x Q E) (g : ε → ε') (E' : ε' → Prop) (hg : ∀ e, E e → E' (g e)) :
    Yields P (x.mapErr g) Q E' := Ends.mapErr hx g fun e _ => hg e

lemma Yields.imp (hx : Yields P x Q E) (hP : ∀ s, P' s → P s) (hQ : ∀ a s, Q a s → Q' a s) :
    Yields P' x Q' E := Ends.imp hx hP hQ fun _ _ he => he

lemma yields_pure (h : ∀ s, P s → Q a s) : Yields P (pure a : Exec ε σ α) Q E := h

lemma yields_throw (h : E e) : Yields P (throw e : Exec ε σ α) Q E := fun _ _ => h

lemma yields_gets {g : σ → α} (h : ∀ s, P s → Q (g s) s) : Yields P (gets g : Exec ε σ α) Q E := h

lemma yields_liftExcept {y : Except ε α} (h : ∀ e, E e) :
    Yields P (liftExcept y : Exec ε σ α) (fun a s => y = .ok a ∧ P s) E := by
  intro s hs
  rw [run_liftExcept]
  cases y with
  | ok a => exact ⟨rfl, hs⟩
  | error e => exact h e

lemma Triple.yields {E : σ → Prop} (h : Triple P x Q E) : Yields P x Q fun _ => True :=
  Ends.imp h (fun _ hs => hs) (fun _ _ hs => hs) fun _ _ _ => trivial

/-- What `Ok` leads to, from the one rule, and what `Err` leads to, from the other. -/
lemma Yields.triple {E' : σ → Prop} (h : Yields P x Q E) (h' : Triple P x Q' E') : Triple P x Q E' := by
  intro s hs
  have hok := h s hs
  have herr := h' s hs
  cases hrun : x.run s with
  | ok a s' =>
    rw [hrun] at hok
    exact hok
  | err e s' =>
    rw [hrun] at herr
    exact herr
  | panic => trivial
  | diverge => trivial

lemma Keeps.yields (h : Keeps P x) : Yields P x (fun _ => P) fun _ => True := Triple.yields h

lemma Computes.yields {V : α → Prop} (h : Computes E x V) :
    Yields P x (fun a s => V a ∧ P s) E := by
  intro s hs
  cases h.run s with
  | inl hok =>
    have ⟨a, hrun, ha⟩ := hok
    rw [hrun]
    exact ⟨ha, hs⟩
  | inr herr =>
    have ⟨e, he, hrun⟩ := herr
    rw [hrun]
    exact he

/-- A call on a part of the state. -/
lemma Yields.zoom {P : τ → Prop} {Q : α → τ → Prop} {x : Exec ε τ α} {get : σ → τ} {set : τ → σ → σ}
    {P' : σ → Prop} {Q' : α → σ → Prop} (h : Yields P x Q E) (hP : ∀ s, P' s → P (get s))
    (hQ : ∀ a t s, P' s → Q a t → Q' a (set t s)) : Yields P' (Exec.zoom get set x) Q' E :=
  Ends.zoom h hP hQ fun _ _ _ _ he => he

/-- The rule for a loop: the invariant speaks of the part of the list that is done and of the rest. -/
lemma yields_forM {f : α → Exec ε σ PUnit} {P : List α → List α → σ → Prop} {l : List α}
    (hstep : ∀ done a rest, l = done ++ a :: rest →
      Yields (P done (a :: rest)) (f a) (fun _ => P (done ++ [a]) rest) E) :
    Yields (P [] l) (l.forM f) (fun _ => P l []) E := by
  suffices hall : ∀ rest done, l = done ++ rest →
      Yields (P done rest) (rest.forM f) (fun _ => P l []) E by
    exact hall l [] rfl
  intro rest
  induction rest with
  | nil =>
    intro done hl
    rw [List.append_nil] at hl
    rw [hl]
    exact yields_pure fun _ hs => hs
  | cons a rest ih =>
    intro done hl
    change Yields (P done (a :: rest)) (f a >>= fun _ => rest.forM f) (fun _ => P l []) E
    apply (hstep done a rest hl).bind
    intro _
    apply ih
    rw [hl, List.append_assoc, List.singleton_append]

end Yields

/-! ### Calls that return `Ok` -/

/-- From a state in `P` the call returns `Ok` and leads to `Q`. -/
def Succeeds (P : σ → Prop) (x : Exec ε σ α) (Q : α → σ → Prop) : Prop :=
  ∀ s, P s → ∃ a s', x.run s = .ok a s' ∧ Q a s'

section Succeeds

variable {P P' : σ → Prop} {Q Q' : α → σ → Prop} {R : β → σ → Prop} {E : ε → Prop} {x : Exec ε σ α}
  {f : α → Exec ε σ β} {a : α}

lemma Succeeds.bind (hx : Succeeds P x Q) (hf : ∀ a, Succeeds (Q a) (f a) R) :
    Succeeds P (x >>= f) R := by
  intro s hs
  have ⟨a, s', hrun, hs'⟩ := hx s hs
  rw [run_bind, hrun, Outcome.andThen_ok]
  exact hf a s' hs'

lemma Succeeds.mapErr (hx : Succeeds P x Q) (g : ε → ε') : Succeeds P (x.mapErr g) Q := by
  intro s hs
  have ⟨a, s', hrun, hs'⟩ := hx s hs
  exact ⟨a, s', by rw [run_mapErr, hrun, Outcome.mapErr_ok], hs'⟩

lemma Succeeds.zoom {P : τ → Prop} {Q : α → τ → Prop} {x : Exec ε τ α} {get : σ → τ} {set : τ → σ → σ}
    {P' : σ → Prop} {Q' : α → σ → Prop} (h : Succeeds P x Q) (hP : ∀ s, P' s → P (get s))
    (hQ : ∀ a t s, P' s → Q a t → Q' a (set t s)) : Succeeds P' (Exec.zoom get set x) Q' := by
  intro s hs
  have ⟨a, t, hrun, ht⟩ := h (get s) (hP s hs)
  exact ⟨a, set t s, by rw [run_zoom, hrun, Outcome.mapState_ok], hQ a t s hs ht⟩

lemma succeeds_pure (h : ∀ s, P s → Q a s) : Succeeds P (pure a : Exec ε σ α) Q :=
  fun s hs => ⟨a, s, rfl, h s hs⟩

lemma succeeds_gets {g : σ → α} (h : ∀ s, P s → Q (g s) s) : Succeeds P (gets g : Exec ε σ α) Q :=
  fun s hs => ⟨g s, s, rfl, h s hs⟩

lemma Succeeds.yields (h : Succeeds P x Q) : Yields P x Q E := by
  intro s hs
  have ⟨a, s', hrun, hs'⟩ := h s hs
  rw [hrun]
  exact hs'

/-- A loop that pushes what each element gives. -/
lemma succeeds_push {f : List β → α → Exec ε σ (List β)} {g : α → β} {l : List α}
    (h : ∀ acc, ∀ a ∈ l, Succeeds P (f acc a) fun acc' s => acc' = acc ++ [g a] ∧ P s)
    (init : List β) : Succeeds P (l.foldlM f init) fun acc s => acc = init ++ l.map g ∧ P s := by
  induction l generalizing init with
  | nil =>
    apply succeeds_pure
    intro s hs
    exact ⟨by rw [List.map_nil, List.append_nil], hs⟩
  | cons a l ih =>
    apply (h init a List.mem_cons_self).bind
    intro acc s hs
    have ⟨acc', s', hrun, hacc', hs'⟩ :=
      ih (fun acc b hb => h acc b (List.mem_cons_of_mem a hb)) acc s hs.2
    refine ⟨acc', s', hrun, ?_, hs'⟩
    rw [hacc', hs.1, List.map_cons, List.append_assoc, List.singleton_append]

end Succeeds

/-! ### Two calls that do the same -/

/-- From related states the calls end alike: with related values or with the same error, and in
related states. -/
def Agree (R : σ → τ → Prop) (V : α → β → Prop) (x : Exec ε σ α) (y : Exec ε τ β) : Prop :=
  ∀ s t, R s t → match x.run s, y.run t with
    | .ok a s', .ok b t' => V a b ∧ R s' t'
    | .err e s', .err e' t' => e = e' ∧ R s' t'
    | .panic, .panic => True
    | .diverge, .diverge => True
    | _, _ => False

section Agree

variable {R : σ → τ → Prop} {V : α → β → Prop} {W : γ → δ → Prop} {x : Exec ε σ α} {y : Exec ε τ β}
  {f : α → Exec ε σ γ} {g : β → Exec ε τ δ}

lemma Agree.bind (h : Agree R V x y) (hf : ∀ a b, V a b → Agree R W (f a) (g b)) :
    Agree R W (x >>= f) (y >>= g) := by
  intro s t hst
  have hxy := h s t hst
  rw [run_bind, run_bind]
  cases hx : x.run s with
  | ok a s' =>
    cases hy : y.run t with
    | ok b t' =>
      simp only [hx, hy] at hxy
      exact hf a b hxy.1 s' t' hxy.2
    | _ => simp only [hx, hy] at hxy
  | err e s' =>
    cases hy : y.run t with
    | err e' t' =>
      simp only [hx, hy] at hxy
      exact hxy
    | _ => simp only [hx, hy] at hxy
  | panic =>
    cases hy : y.run t with
    | panic => trivial
    | _ => simp only [hx, hy] at hxy
  | diverge =>
    cases hy : y.run t with
    | diverge => trivial
    | _ => simp only [hx, hy] at hxy

lemma Agree.mapErr (h : Agree R V x y) (g : ε → ε') : Agree R V (x.mapErr g) (y.mapErr g) := by
  intro s t hst
  have hxy := h s t hst
  rw [run_mapErr, run_mapErr]
  cases hx : x.run s with
  | ok a s' =>
    cases hy : y.run t with
    | ok b t' =>
      simp only [hx, hy] at hxy
      exact hxy
    | _ => simp only [hx, hy] at hxy
  | err e s' =>
    cases hy : y.run t with
    | err e' t' =>
      simp only [hx, hy] at hxy
      exact ⟨congrArg g hxy.1, hxy.2⟩
    | _ => simp only [hx, hy] at hxy
  | panic =>
    cases hy : y.run t with
    | panic => trivial
    | _ => simp only [hx, hy] at hxy
  | diverge =>
    cases hy : y.run t with
    | diverge => trivial
    | _ => simp only [hx, hy] at hxy

lemma agree_pure {a : α} {b : β} (h : V a b) : Agree R V (pure a : Exec ε σ α) (pure b : Exec ε τ β) :=
  fun _ _ hst => ⟨h, hst⟩

lemma agree_throw (e : ε) : Agree R V (throw e) (throw e) := fun _ _ hst => ⟨rfl, hst⟩

lemma agree_diverge : Agree R V (diverge : Exec ε σ α) (diverge : Exec ε τ β) := fun _ _ _ => trivial

lemma agree_liftExcept (z : Except ε α) :
    Agree R Eq (liftExcept z : Exec ε σ α) (liftExcept z : Exec ε τ α) := by
  intro s t hst
  rw [run_liftExcept, run_liftExcept]
  cases z with
  | ok a => exact ⟨rfl, hst⟩
  | error e => exact ⟨rfl, hst⟩

lemma agree_gets {g : σ → α} {g' : τ → α} (h : ∀ s t, R s t → g s = g' t) :
    Agree R Eq (gets g : Exec ε σ α) (gets g') := fun s t hst => ⟨h s t hst, hst⟩

/-- Calls that agree have one result. -/
lemma Agree.result_eq {x : Exec ε σ α} {y : Exec ε τ α} {s : σ} {t : τ} (h : Agree R Eq x y)
    (hst : R s t) : (x.run s).mapState (fun _ => ()) = (y.run t).mapState fun _ => () := by
  have hxy := h s t hst
  cases hx : x.run s with
  | ok a s' =>
    cases hy : y.run t with
    | ok b t' =>
      simp only [hx, hy] at hxy
      rw [hxy.1, Outcome.mapState_ok, Outcome.mapState_ok]
    | _ => simp only [hx, hy] at hxy
  | err e s' =>
    cases hy : y.run t with
    | err e' t' =>
      simp only [hx, hy] at hxy
      rw [hxy.1, Outcome.mapState_err, Outcome.mapState_err]
    | _ => simp only [hx, hy] at hxy
  | panic =>
    cases hy : y.run t with
    | panic => rfl
    | _ => simp only [hx, hy] at hxy
  | diverge =>
    cases hy : y.run t with
    | diverge => rfl
    | _ => simp only [hx, hy] at hxy

end Agree

end Exec

end RdbRs
