import Mathlib.Data.List.Forall2
import Mathlib.Tactic.Common

/-!
# Functions that decide

A function that may fail decides a relation if it returns the only value that is related, and fails where there
is none. The rules follow the way such a function is written.
-/

namespace RdbRs

variable {ε α β γ : Type}

/-- The next step gets what the first one returns. -/
lemma except_ok_bind (a : α) (f : α → Except ε β) : Except.ok a >>= f = f a := rfl

/-- The function returns the only value in `R`. Where there is none it fails, with an error in `E`. -/
def Decides (E : ε → Prop) (R : α → Prop) (x : Except ε α) : Prop :=
  match x with
  | .ok a => R a ∧ ∀ b, R b → b = a
  | .error e => E e ∧ ∀ b, ¬ R b

section Rules

variable {E : ε → Prop} {R R' : α → Prop} {S : α → β → Prop} {x : Except ε α} {f : α → Except ε β}

lemma decides_ok {a : α} (h : R a) (hunique : ∀ b, R b → b = a) : Decides E R (.ok a) := ⟨h, hunique⟩

lemma decides_error {e : ε} (he : E e) (h : ∀ b, ¬ R b) : Decides E R (.error e) := ⟨he, h⟩

lemma decides_eq (a : α) : Decides E (· = a) (.ok a) := ⟨rfl, fun _ hb => hb⟩

lemma Decides.congr (h : Decides E R x) (hR : ∀ a, R a ↔ R' a) : Decides E R' x := by
  have heq : R = R' := funext fun a => propext (hR a)
  rwa [← heq]

/-- What the calls decide one after the other, they decide together. -/
lemma Decides.bind (h : Decides E R x) (hf : ∀ a, R a → Decides E (S a) (f a)) :
    Decides E (fun b => ∃ a, R a ∧ S a b) (x >>= f) := by
  cases x with
  | error e => exact ⟨h.1, fun b ⟨a, ha, _⟩ => h.2 a ha⟩
  | ok a =>
    have ha := hf a h.1
    change Decides E _ (f a)
    cases hx : f a with
    | error e =>
      rw [hx] at ha
      refine ⟨ha.1, ?_⟩
      rintro b ⟨a', ha', hb⟩
      obtain rfl := h.2 a' ha'
      exact ha.2 b hb
    | ok b =>
      rw [hx] at ha
      refine ⟨⟨a, h.1, ha.1⟩, ?_⟩
      rintro b' ⟨a', ha', hb⟩
      obtain rfl := h.2 a' ha'
      exact ha.2 b' hb

/-- What is decided, in a constructor. -/
lemma Decides.wrap {c : α → β} {R' : β → Prop} (h : Decides E R x) (hc : ∀ a, R a → R' (c a))
    (hinv : ∀ b, R' b → ∃ a, R a ∧ b = c a) : Decides E R' (x >>= fun a => .ok (c a)) := by
  apply (h.bind fun a _ => decides_eq (c a)).congr
  intro b
  constructor
  · rintro ⟨a, ha, rfl⟩
    exact hc a ha
  · exact hinv b

/-- The second part of what the first call returns is not used. -/
lemma Decides.bind_fst {R : α × β → Prop} {S : α → γ → Prop} {x : Except ε (α × β)} {f : α × β → Except ε γ}
    (h : Decides E R x) (hf : ∀ a b, R (a, b) → Decides E (S a) (f (a, b))) :
    Decides E (fun c => ∃ a, (∃ b, R (a, b)) ∧ S a c) (x >>= f) := by
  apply (h.bind (S := fun p => S p.1) fun p hp => hf p.1 p.2 hp).congr
  intro c
  constructor
  · rintro ⟨⟨a, b⟩, hR, hS⟩
    exact ⟨a, ⟨b, hR⟩, hS⟩
  · rintro ⟨a, ⟨b, hR⟩, hS⟩
    exact ⟨(a, b), hR, hS⟩

/-- A value that is looked up. -/
lemma decides_lookup {o : Option α} {e : ε} (he : E e) (ho : ∀ a, o = some a ↔ R a) :
    Decides E R (o.elim (.error e) .ok) := by
  cases o with
  | none => exact decides_error he fun a ha => nomatch (ho a).mpr ha
  | some a => exact decides_ok ((ho a).mp rfl) fun b hb => (Option.some.inj ((ho b).mpr hb)).symm

/-- A check, and the value if it succeeds. -/
lemma decides_guard {p : Prop} {c : Prop} [Decidable c] {e : ε} {a : α} (he : E e) (hp : p ↔ c) :
    Decides E (fun b => p ∧ b = a) (if c then .ok a else .error e) := by
  split
  · next hc => exact decides_ok ⟨hp.mpr hc, rfl⟩ fun b hb => hb.2
  · next hc => exact decides_error he fun b hb => hc (hp.mp hb.1)

/-- A check with nothing to return. -/
lemma decides_check {p : Prop} {c : Prop} [Decidable c] {e : ε} (he : E e) (hp : p ↔ c) :
    Decides E (fun _ => p) (if c then .ok () else .error e) :=
  (decides_guard he hp).congr fun _ => and_iff_left rfl

/-- A call on each element. -/
lemma decides_mapM {R : α → β → Prop} {l : List α} (h : ∀ a ∈ l, Decides E (R a) (f a)) :
    Decides E (List.Forall₂ R l) (l.mapM f) := by
  induction l with
  | nil => exact decides_ok .nil fun bs hbs => List.forall₂_nil_left_iff.mp hbs
  | cons a l ih =>
    rw [List.mapM_cons]
    have hrest := ih fun b hb => h b (List.mem_cons_of_mem a hb)
    apply ((h a List.mem_cons_self).bind fun b _ => hrest.bind fun bs _ => decides_eq (b :: bs)).congr
    intro bs
    rw [List.forall₂_cons_left_iff]
    constructor
    · rintro ⟨b, hb, bs', hbs', rfl⟩
      exact ⟨b, bs', hb, hbs', rfl⟩
    · rintro ⟨b, bs', hb, hbs', rfl⟩
      exact ⟨b, hb, bs', hbs', rfl⟩

end Rules

variable {E : ε → Prop} {R : α → Prop} {x : Except ε α}

lemma Decides.eq_ok_iff (h : Decides E R x) {a : α} : x = .ok a ↔ R a := by
  cases x with
  | error e => exact iff_of_false (fun heq => nomatch heq) (h.2 a)
  | ok b =>
    rw [Except.ok.injEq]
    constructor
    · rintro rfl
      exact h.1
    · exact fun ha => (h.2 a ha).symm

lemma Decides.of_error (h : Decides E R x) {e : ε} (heq : x = .error e) : E e := by
  subst heq
  exact h.1

end RdbRs
