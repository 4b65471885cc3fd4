import Mathlib.Data.List.Basic
import Mathlib.Data.List.ProdSigma
import Mathlib.Logic.Function.Basic
import RdbRs.Lib.Outcome

/-!
# Loops that do not touch the state

Calls that only compute are compared as calls: `x = pure a` says that `x` returns `a` from every
state. A `for` loop is a `foldlM` over its local variables; `foldlM_invariant` is its rule, with
an invariant on the part of the list that is done.
-/

namespace RdbRs

lemma except_bind_eq_ok {ε α β : Type} {x : Except ε α} {f : α → Except ε β} {b : β} :
    (x >>= f) = .ok b ↔ ∃ a, x = .ok a ∧ f a = .ok b := by
  cases x <;> simp

/-- What holds of each call of a loop holds of the list it collects. -/
lemma mapM_eq_ok {ε α β : Type} {f : α → Except ε β} {l : List α} {bs : List β} :
    l.mapM f = .ok bs ↔ List.Forall₂ (fun a b => f a = .ok b) l bs := by
  induction l generalizing bs with
  | nil =>
    constructor
    · intro h
      cases h
      exact .nil
    · intro h
      cases h
      rfl
  | cons a l ih =>
    rw [List.mapM_cons, except_bind_eq_ok]
    constructor
    · intro ⟨b, hb, hrest⟩
      have ⟨bs', hbs, heq⟩ := except_bind_eq_ok.mp hrest
      cases heq
      exact .cons hb (ih.mp hbs)
    · intro h
      cases h with
      | cons hb hrest => exact ⟨_, hb, except_bind_eq_ok.mpr ⟨_, ih.mpr hrest, rfl⟩⟩

lemma forall₂_mem_right {α β : Type} {R : α → β → Prop} {l : List α} {bs : List β}
    (h : List.Forall₂ R l bs) {b : β} (hb : b ∈ bs) : ∃ a ∈ l, R a b := by
  induction h with
  | nil => cases hb
  | cons hfirst _ ih =>
    cases List.mem_cons.mp hb with
    | inl heq => exact ⟨_, List.mem_cons_self, heq ▸ hfirst⟩
    | inr hrest =>
      have ⟨a, ha, hR⟩ := ih hrest
      exact ⟨a, List.mem_cons_of_mem _ ha, hR⟩

namespace Exec

variable {ε ε' σ α β γ : Type}

lemma ext_run {x y : Exec ε σ α} (h : ∀ s, x.run s = y.run s) : x = y := by
  cases x
  cases y
  congr
  funext s
  exact h s

@[simp] lemma pure_bind (a : α) (f : α → Exec ε σ β) : (pure a >>= f) = f a := rfl

@[simp] lemma throw_bind (e : ε) (f : α → Exec ε σ β) : (throw e >>= f) = throw e := rfl

@[simp] lemma panic_bind (f : α → Exec ε σ β) : (panic >>= f) = panic := rfl

lemma bind_assoc (x : Exec ε σ α) (f : α → Exec ε σ β) (g : β → Exec ε σ γ) :
    (x >>= f >>= g) = x >>= fun a => f a >>= g := by
  apply ext_run
  intro s
  simp only [run_bind]
  cases x.run s <;> rfl

instance : LawfulMonad (Exec ε σ) := LawfulMonad.mk' (Exec ε σ)
  (by
    intro α x
    apply ext_run
    intro s
    simp only [run_map]
    cases x.run s <;> rfl)
  (fun _ _ => rfl)
  (fun x f g => bind_assoc x f g)

@[simp] lemma liftExcept_ok (a : α) : (liftExcept (.ok a) : Exec ε σ α) = pure a := rfl

@[simp] lemma liftExcept_error (e : ε) : (liftExcept (.error e) : Exec ε σ α) = throw e := rfl

@[simp] lemma mapErr_pure (f : ε → ε') (a : α) : (pure a : Exec ε σ α).mapErr f = pure a := rfl

@[simp] lemma mapErr_throw (f : ε → ε') (e : ε) : (throw e : Exec ε σ α).mapErr f = throw (f e) := rfl

/-! ### Vectors -/

/-- `option.ok_or(e)?`. -/
def okOr (e : ε) (a : Option α) : Exec ε σ α :=
  match a with
  | some a => pure a
  | none => throw e

@[simp] lemma okOr_some (e : ε) (a : α) : (okOr e (some a) : Exec ε σ α) = pure a := rfl

@[simp] lemma okOr_none (e : ε) : (okOr e none : Exec ε σ α) = throw e := rfl

/-- `values[i]`. -/
def index (values : List α) (i : Nat) : Exec ε σ α :=
  match values[i]? with
  | some a => pure a
  | none => panic

/-- `values[i] = a`. -/
def assign (values : List α) (i : Nat) (a : α) : Exec ε σ (List α) :=
  if i < values.length then pure (values.set i a) else panic

lemma index_eq {values : List α} {i : Nat} {a : α} (h : values[i]? = some a) :
    (index values i : Exec ε σ α) = pure a := by
  rw [index, h]

lemma assign_eq {values : List α} {i : Nat} {a : α} (h : i < values.length) :
    (assign values i a : Exec ε σ _) = pure (values.set i a) := by
  rw [assign, if_pos h]

/-! ### Loops -/

lemma forM_cons {f : α → Exec ε σ PUnit} {a : α} {l : List α} :
    (a :: l).forM f = f a >>= fun _ => l.forM f := rfl

lemma forM_map {f : β → Exec ε σ PUnit} {g : α → β} {l : List α} :
    (l.map g).forM f = l.forM fun a => f (g a) := List.forM_map

section FoldlM

variable {f : β → α → Exec ε σ β} {init : β} {l : List α}

@[simp] lemma foldlM_nil : [].foldlM f init = pure init := rfl

@[simp] lemma foldlM_cons {a : α} :
    (a :: l).foldlM f init = f init a >>= fun acc => l.foldlM f acc := rfl

/-- The rule for a loop: the invariant holds of nothing and of the initial values, and a round
that keeps it for the elements done so far and the next one. -/
lemma foldlM_invariant (P : List α → β → Prop) (hinit : P [] init)
    (hstep : ∀ done a acc, a ∈ l → P done acc → ∃ acc', f acc a = pure acc' ∧ P (done ++ [a]) acc') :
    ∃ acc, l.foldlM f init = pure acc ∧ P l acc := by
  suffices hall : ∀ (rest done : List α) (acc : β), (∀ a ∈ rest, a ∈ l) → P done acc →
      ∃ acc', rest.foldlM f acc = pure acc' ∧ P (done ++ rest) acc' by
    exact hall l [] init (fun a ha => ha) hinit
  intro rest
  induction rest with
  | nil =>
    intro done acc _ hP
    exact ⟨acc, rfl, by rwa [List.append_nil]⟩
  | cons a rest ih =>
    intro done acc hmem hP
    have ⟨acc', hround, hP'⟩ := hstep done a acc (hmem a List.mem_cons_self) hP
    have ⟨last, hlast, hPlast⟩ := ih (done ++ [a]) acc'
      (fun b hb => hmem b (List.mem_cons_of_mem a hb)) hP'
    rw [foldlM_cons, hround, pure_bind]
    exact ⟨last, hlast, by rwa [List.append_assoc, List.singleton_append] at hPlast⟩

lemma foldlM_append {l l' : List α} : (l ++ l').foldlM f init = l.foldlM f init >>= fun acc => l'.foldlM f acc :=
  List.foldlM_append

/-- A loop inside a loop goes over the pairs. -/
lemma foldlM_product {l' : List γ} {f : α → β → γ → Exec ε σ β} :
    l.foldlM (fun acc a => l'.foldlM (f a) acc) init =
      (l ×ˢ l').foldlM (fun acc hit => f hit.1 acc hit.2) init := by
  induction l generalizing init with
  | nil => rfl
  | cons a l ih =>
    have hfirst (acc : β) : l'.foldlM (f a) acc =
        (l'.map (Prod.mk a)).foldlM (fun acc hit => f hit.1 acc hit.2) acc := by
      rw [List.foldlM_map]
    rw [foldlM_cons, List.product_cons, foldlM_append, hfirst]
    congr 1
    funext acc
    exact ih

/-- A loop that pushes what each element gives. -/
lemma foldlM_push {f : List β → α → Exec ε σ (List β)} {g : α → List β} {init : List β}
    (h : ∀ acc, ∀ a ∈ l, f acc a = pure (acc ++ g a)) :
    l.foldlM f init = pure (init ++ l.flatMap g) := by
  induction l generalizing init with
  | nil => rw [foldlM_nil, List.flatMap_nil, List.append_nil]
  | cons a l ih =>
    rw [foldlM_cons, h init a List.mem_cons_self, pure_bind,
      ih fun acc b hb => h acc b (List.mem_cons_of_mem a hb), List.flatMap_cons, List.append_assoc]

/-- A loop that pushes something for the elements that pass a test. -/
lemma foldlM_filter {f : List β → α → Exec ε σ (List β)} {p : α → Bool} {g : α → β} {init : List β}
    (h : ∀ acc, ∀ a ∈ l, f acc a = pure (if p a then acc ++ [g a] else acc)) :
    l.foldlM f init = pure (init ++ (l.filter p).map g) := by
  induction l generalizing init with
  | nil => rw [foldlM_nil, List.filter_nil, List.map_nil, List.append_nil]
  | cons a l ih =>
    have hlater : ∀ acc, ∀ b ∈ l, f acc b = pure (if p b then acc ++ [g b] else acc) :=
      fun acc b hb => h acc b (List.mem_cons_of_mem a hb)
    rw [foldlM_cons, h init a List.mem_cons_self, pure_bind, ih hlater, List.filter_cons]
    cases p a
    · rfl
    · rw [if_pos rfl, if_pos rfl, List.map_cons, List.append_assoc, List.singleton_append]

/-- A loop that pushes something for each element, or stops with one error. -/
lemma foldlM_collect {f : List β → α → Exec ε σ (List β)} {e : ε} {T : α → Prop} {R : α → β → Prop}
    (h : ∀ a ∈ l, (T a ∧ ∀ acc, f acc a = throw e) ∨ ∃ b, (∀ acc, f acc a = pure (acc ++ [b])) ∧ R a b)
    (init : List β) :
    ((∃ a ∈ l, T a) ∧ l.foldlM f init = throw e) ∨
      ∃ bs, l.foldlM f init = pure (init ++ bs) ∧ List.Forall₂ R l bs := by
  induction l generalizing init with
  | nil => exact .inr ⟨[], by rw [foldlM_nil, List.append_nil], .nil⟩
  | cons a l ih =>
    rw [foldlM_cons]
    cases h a List.mem_cons_self with
    | inl hthrow =>
      rw [hthrow.2, throw_bind]
      exact .inl ⟨⟨a, List.mem_cons_self, hthrow.1⟩, rfl⟩
    | inr hpush =>
      have ⟨b, hb, hR⟩ := hpush
      rw [hb, pure_bind]
      cases ih (fun c hc => h c (List.mem_cons_of_mem a hc)) (init ++ [b]) with
      | inl hthrow =>
        have ⟨⟨c, hc, hT⟩, hrun⟩ := hthrow
        exact .inl ⟨⟨c, List.mem_cons_of_mem a hc, hT⟩, hrun⟩
      | inr hrest =>
        have ⟨bs, hbs, hall⟩ := hrest
        exact .inr ⟨b :: bs, by rw [hbs, List.append_assoc, List.singleton_append], .cons hR hall⟩

end FoldlM

/-! ### Errors of a kind -/

/-- The call computes a value with `P`, or stops with an error of the kind `E`. -/
def Computes (E : ε → Prop) (x : Exec ε σ α) (P : α → Prop) : Prop :=
  (∃ a, x = pure a ∧ P a) ∨ ∃ e, E e ∧ x = throw e

section Computes

variable {E : ε → Prop} {x : Exec ε σ α} {P : α → Prop} {Q : β → Prop} {f : α → Exec ε σ β}

lemma computes_pure {a : α} (h : P a) : Computes E (pure a : Exec ε σ α) P := .inl ⟨a, rfl, h⟩

lemma computes_throw {e : ε} (h : E e) : Computes E (throw e : Exec ε σ α) P := .inr ⟨e, h, rfl⟩

lemma Computes.bind (hx : Computes E x P) (hf : ∀ a, P a → Computes E (f a) Q) :
    Computes E (x >>= f) Q := by
  cases hx with
  | inl hvalue =>
    have ⟨a, heq, ha⟩ := hvalue
    rw [heq, pure_bind]
    exact hf a ha
  | inr herror =>
    have ⟨e, he, heq⟩ := herror
    rw [heq, throw_bind]
    exact computes_throw he

lemma Computes.imp {P' : α → Prop} (h : Computes E x P) (hP : ∀ a, P a → P' a) : Computes E x P' :=
  h.imp_left fun ⟨a, hx, ha⟩ => ⟨a, hx, hP a ha⟩

lemma Computes.imp_err {E' : ε → Prop} (h : Computes E x P) (hE : ∀ e, E e → E' e) : Computes E' x P :=
  h.imp_right fun ⟨e, he, hx⟩ => ⟨e, hE e he, hx⟩

/-- A loop that pushes something for each element, or stops with an error of the kind. -/
lemma Computes.gather {f : List β → α → Exec ε σ (List β)} {l : List α} {R : α → β → Prop}
    (h : ∀ a ∈ l, ∀ acc, Computes E (f acc a) fun acc' => ∃ b, acc' = acc ++ [b] ∧ R a b) (init : List β) :
    Computes E (l.foldlM f init) fun all => ∃ bs, all = init ++ bs ∧ List.Forall₂ R l bs := by
  induction l generalizing init with
  | nil => exact computes_pure ⟨[], by rw [List.append_nil], .nil⟩
  | cons a l ih =>
    rw [foldlM_cons]
    apply (h a List.mem_cons_self init).bind
    rintro _ ⟨b, rfl, hb⟩
    rcases ih (fun c hc => h c (List.mem_cons_of_mem a hc)) (init ++ [b]) with hpure | hthrow
    · obtain ⟨_, hrun, bs, rfl, hbs⟩ := hpure
      exact .inl ⟨_, hrun, b :: bs, by rw [List.append_assoc, List.singleton_append], .cons hb hbs⟩
    · exact .inr hthrow

/-- The rule for a loop with an invariant on its values. -/
lemma Computes.foldlM {f : β → α → Exec ε σ β} {l : List α} {init : β} (hinit : Q init)
    (hstep : ∀ acc, ∀ a ∈ l, Q acc → Computes E (f acc a) Q) : Computes E (l.foldlM f init) Q := by
  induction l generalizing init with
  | nil => exact computes_pure hinit
  | cons a l ih =>
    rw [foldlM_cons]
    apply (hstep init a List.mem_cons_self hinit).bind
    intro acc hacc
    exact ih hacc fun acc b hb => hstep acc b (List.mem_cons_of_mem a hb)

lemma Computes.run (h : Computes E x P) (s : σ) :
    (∃ a, x.run s = .ok a s ∧ P a) ∨ ∃ e, E e ∧ x.run s = .err e s := by
  cases h with
  | inl hvalue =>
    have ⟨a, heq, ha⟩ := hvalue
    exact .inl ⟨a, by rw [heq, run_pure], ha⟩
  | inr herror =>
    have ⟨e, he, heq⟩ := herror
    exact .inr ⟨e, he, by rw [heq, run_throw]⟩

end Computes

end Exec

/-! ### Hash maps -/

/-- A map of which only single keys are looked up. -/
def HashMap (κ ν : Type) : Type := κ → Option ν

namespace HashMap

variable {κ ν : Type} [DecidableEq κ]

def new : HashMap κ ν := fun _ => none

def get (map : HashMap κ ν) (key : κ) : Option ν := map key

def insert (map : HashMap κ ν) (key : κ) (value : ν) : HashMap κ ν :=
  fun k => if k = key then some value else map k

variable {map : HashMap κ ν} {key k : κ} {value : ν}

omit [DecidableEq κ] in
@[simp] lemma get_new : (new : HashMap κ ν).get k = none := rfl

lemma get_insert : (map.insert key value).get k = if k = key then some value else map.get k := rfl

@[simp] lemma get_insert_self : (map.insert key value).get key = some value := by
  rw [get_insert, if_pos rfl]

end HashMap

end RdbRs
