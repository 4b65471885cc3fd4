import RdbRs.Lib.TokenReader

/-!
# Where readers of tokens fail

A reader that returns has settled on its value by the text it took and the token behind it. `Points`
says that one that fails does so at a token no text goes on at behind what stands before it, and that its
error is the one that blames this token, or one of those `W` allows in its place.
-/

namespace RdbRs.Exec

variable {ε σ τ κ ω α β : Type}

/-- The tokens in front of a reader, with what a token is read as. Behind a complete text no reader tells
`k'` from `k` where `like k k'`. -/
structure Source (ε σ τ κ : Type) where
  here : σ → List τ
  kind : τ → κ
  place : κ → τ
  rest : σ → List κ
  like : κ → κ → Prop
  blame : τ → ε
  kind_place : ∀ k, kind (place k) = k
  rest_eq : ∀ s, rest s = (here s).map kind
  like_refl : ∀ k, like k k

/-- The texts that go on to one a value stands for. -/
def Begins (T : α → List κ → Prop) (text : List κ) : Prop := ∃ a tail, T a (text ++ tail)

/-- No run returns that comes to `k` behind `text`. -/
def Stuck (rest : σ → List κ) (x : Exec ε σ α) (text : List κ) (k : κ) : Prop :=
  ∀ s more a s', rest s = text ++ k :: more → x.run s ≠ .ok a s'

/-- A run that comes to `k` behind `text` and returns, returns `a` in front of `k`. -/
def Settled (rest : σ → List κ) (x : Exec ε σ α) (a : α) (text : List κ) (k : κ) : Prop :=
  ∀ s more a' s', rest s = text ++ k :: more → x.run s = .ok a' s' → a' = a ∧ rest s' = k :: more

section Points

variable (S : Source ε σ τ κ)

/-- How a run ends that begins in `s`. At a token of the kinds `first` it does not end before it took this
token. -/
structure PointsAt (first : κ → Prop) (x : Exec ε σ α) (T : α → List κ → Prop)
    (W : List τ → τ → ε → Prop) (s : σ) : Prop where
  settles : ∀ a s', x.run s = .ok a s' → ∃ text, S.here s = text ++ S.here s' ∧
    ∀ t more, S.here s' = t :: more → (text = [] → ¬ first (S.kind t)) ∧
      ∀ k, S.like (S.kind t) k → Settled S.rest x a (text.map S.kind) k
  fails : ∀ e s', x.run s = .err e s' → ∃ text t more, S.here s = text ++ t :: more ∧
    (text = [] → ¬ first (S.kind t)) ∧ Begins T (text.map S.kind) ∧
      Stuck S.rest x (text.map S.kind) (S.kind t) ∧
        ((e = S.blame t ∧ ∀ k, S.like (S.kind t) k → Stuck S.rest x (text.map S.kind) k) ∨ W text t e)

structure Points (first : κ → Prop) (x : Exec ε σ α) (T : α → List κ → Prop)
    (W : List τ → τ → ε → Prop) : Prop where
  inhabited : ∃ a text, T a text
  points : ∀ s, PointsAt S first x T W s

/-- A look at the next token. -/
structure Looks (next : Exec ε σ ω) (see : τ → ω) : Prop where
  sees : ∀ s t more, S.here s = t :: more → next.run s = .ok (see t) s
  blind : ∀ s, S.here s = [] → next.run s = .panic

end Points

/-- A `while` loop with as many rounds as there are tokens, and one more. -/
def loop (size : σ → Nat) (next : Exec ε σ ω) (goOn : ω → Bool) (step : β → Exec ε σ β) (acc : β) :
    Exec ε σ β := do
  let rounds ← gets size
  repeatWhile next goOn step rounds acc

section Rules

variable {S : Source ε σ τ κ} {first first' : κ → Prop} {x : Exec ε σ α} {T T' : α → List κ → Prop}
  {W W' : List τ → τ → ε → Prop} {s : σ} {a : α}

lemma here_of_rest {k : κ} {more : List κ} (h : S.rest s = k :: more) :
    ∃ t more', S.here s = t :: more' ∧ S.kind t = k ∧ more'.map S.kind = more := by
  rw [S.rest_eq] at h
  cases hhere : S.here s with
  | nil =>
    rw [hhere] at h
    cases h
  | cons t more' =>
    rw [hhere] at h
    cases h
    exact ⟨t, more', rfl, rfl, rfl⟩

lemma map_place (text : List κ) : (text.map S.place).map S.kind = text := by
  rw [List.map_map]
  exact List.map_id'' S.kind_place text

/-- The text a reader took, with the tokens in it. -/
lemma Takes.text (htakes : Takes S.rest x T) {text : List τ} {s' : σ} (hrun : x.run s = .ok a s')
    (hhere : S.here s = text ++ S.here s') : T a (text.map S.kind) := by
  have ⟨text', hT, hrest⟩ := htakes s a s' hrun
  rw [S.rest_eq, S.rest_eq, hhere, List.map_append] at hrest
  rwa [List.append_cancel_right hrest]

lemma PointsAt.conseq (h : PointsAt S first x T W s) (hT : ∀ a text, T a text → T' a text)
    (hW : ∀ text t e, W text t e → W' text t e) (hfirst : ∀ k, first' k → first k) :
    PointsAt S first' x T' W' s := by
  constructor
  · intro a s' hrun
    have ⟨text, hhere, hsettled⟩ := h.settles a s' hrun
    refine ⟨text, hhere, ?_⟩
    intro t more hmore
    have ⟨hne, hlike⟩ := hsettled t more hmore
    exact ⟨fun hnil hk => hne hnil (hfirst _ hk), hlike⟩
  · intro e s' hrun
    have ⟨text, t, more, hhere, hne, ⟨a, tail, hbegins⟩, hstuck, herror⟩ := h.fails e s' hrun
    refine ⟨text, t, more, hhere, fun hnil hk => hne hnil (hfirst _ hk), ⟨a, tail, hT a _ hbegins⟩, hstuck, ?_⟩
    exact herror.imp id (hW text t e)

lemma Points.conseq (h : Points S first x T W) (hT : ∀ a text, T a text → T' a text) :
    Points S first x T' W := by
  have ⟨a, text, ha⟩ := h.inhabited
  exact ⟨⟨a, text, hT a text ha⟩, fun s => (h.points s).conseq hT (fun _ _ _ hW => hW) fun _ hk => hk⟩

lemma Points.narrow (h : Points S first x T W) (hfirst : ∀ k, first' k → first k) :
    Points S first' x T W :=
  ⟨h.inhabited, fun s => (h.points s).conseq (fun _ _ hT => hT) (fun _ _ _ hW => hW) hfirst⟩

lemma Points.pure (h : T a []) : Points S (fun _ => False) (Pure.pure a : Exec ε σ α) T W := by
  refine ⟨⟨a, [], h⟩, fun s => ⟨?_, ?_⟩⟩
  · intro a' s' hrun
    cases hrun
    refine ⟨[], rfl, fun t more hmore => ⟨fun _ hfalse => hfalse, ?_⟩⟩
    intro k hlike s₂ more₂ a₂ s₂' hrest hrun
    cases hrun
    exact ⟨rfl, hrest⟩
  · intro e s' hrun
    cases hrun

/-- Two runs that agree up to a token agree on the first call of a sequence. -/
lemma settled_append {s s₁ s₂ s₃ : σ} {a a₂ : α} {text text' : List τ} {t : τ} {more : List τ} {k : κ}
    {more₂ : List κ} (hx : PointsAt S first x T W s) (hrun : x.run s = .ok a s₁)
    (htext : S.here s = text ++ S.here s₁) (hhere : S.here s₁ = text' ++ t :: more)
    (hlike : S.like (S.kind t) k) (hrest : S.rest s₂ = (text ++ text').map S.kind ++ k :: more₂)
    (hrun₂ : x.run s₂ = .ok a₂ s₃) : a₂ = a ∧ S.rest s₃ = text'.map S.kind ++ k :: more₂ := by
  have ⟨text₁, htext₁, hsettled⟩ := hx.settles a s₁ hrun
  have heq : text₁ = text := by
    rw [htext₁] at htext
    exact List.append_cancel_right htext
  rw [heq] at hsettled
  rw [List.map_append, List.append_assoc] at hrest
  cases text' with
  | nil => exact (hsettled t more hhere).2 k hlike s₂ more₂ a₂ s₃ hrest hrun₂
  | cons u text' =>
    exact (hsettled u _ hhere).2 (S.kind u) (S.like_refl _) s₂ _ a₂ s₃ hrest hrun₂

/-- A sequence fails in its first call or in its second. -/
lemma PointsAt.bind {f : α → Exec ε σ β} {U : β → List κ → Prop} (htakes : Takes S.rest x T)
    (hx : PointsAt S first x T W s)
    (hU : ∀ a text, T a text → ∃ b text', U b (text ++ text'))
    (hf : ∀ a s₁ text, x.run s = .ok a s₁ → S.here s = text ++ S.here s₁ → T a (text.map S.kind) →
      PointsAt S first' (f a) (fun b text' => U b (text.map S.kind ++ text')) (fun text' => W (text ++ text')) s₁) :
    PointsAt S first (x >>= f) U W s := by
  constructor
  · intro b s' hrun
    rw [run_bind, Outcome.andThen_eq_ok] at hrun
    have ⟨a, s₁, hrunx, hrunf⟩ := hrun
    have ⟨text, htext, hsettled⟩ := hx.settles a s₁ hrunx
    have hfa := hf a s₁ text hrunx htext (htakes.text hrunx htext)
    have ⟨text', htext', hsettled'⟩ := hfa.settles b s' hrunf
    refine ⟨text ++ text', by rw [htext, htext', List.append_assoc], ?_⟩
    intro t more hmore
    rw [hmore] at htext'
    constructor
    · intro hnil
      have ⟨hnil₁, hnil₂⟩ := List.append_eq_nil_iff.mp hnil
      rw [hnil₂, List.nil_append] at htext'
      exact (hsettled t more htext').1 hnil₁
    · intro k hlike s₂ more₂ b₂ s₂' hrest hrun₂
      rw [run_bind, Outcome.andThen_eq_ok] at hrun₂
      have ⟨a₂, s₃, hrunx₂, hrunf₂⟩ := hrun₂
      have ⟨heq, hrest₃⟩ := settled_append hx hrunx htext htext' hlike hrest hrunx₂
      rw [heq] at hrunf₂
      exact (hsettled' t more hmore).2 k hlike s₃ more₂ b₂ s₂' hrest₃ hrunf₂
  · intro e s' hrun
    rw [run_bind, Outcome.andThen_eq_err] at hrun
    cases hrun with
    | inl hrunx =>
      have ⟨text, t, more, hhere, hne, ⟨a, tail, hbegins⟩, hstuck, herror⟩ := hx.fails e s' hrunx
      have hstuckBind (k : κ) (h : Stuck S.rest x (text.map S.kind) k) :
          Stuck S.rest (x >>= f) (text.map S.kind) k := by
        intro s₂ more₂ b s₂' hrest hrun₂
        rw [run_bind, Outcome.andThen_eq_ok] at hrun₂
        have ⟨a₂, s₃, hrunx₂, _⟩ := hrun₂
        exact h s₂ more₂ a₂ s₃ hrest hrunx₂
      have ⟨b, text', hb⟩ := hU a _ hbegins
      rw [List.append_assoc] at hb
      refine ⟨text, t, more, hhere, hne, ⟨b, _, hb⟩, hstuckBind _ hstuck, ?_⟩
      exact herror.imp (fun ⟨he, hlike⟩ => ⟨he, fun k hk => hstuckBind k (hlike k hk)⟩) id
    | inr hok =>
      have ⟨a, s₁, hrunx, hrunf⟩ := hok
      have ⟨text, htext, hsettled⟩ := hx.settles a s₁ hrunx
      have hfa := hf a s₁ text hrunx htext (htakes.text hrunx htext)
      have ⟨text', t, more, hhere, hne, ⟨b, tail, hbegins⟩, hstuck, herror⟩ := hfa.fails e s' hrunf
      have hstuckBind (k : κ) (hlike : S.like (S.kind t) k) (h : Stuck S.rest (f a) (text'.map S.kind) k) :
          Stuck S.rest (x >>= f) ((text ++ text').map S.kind) k := by
        intro s₂ more₂ b s₂' hrest hrun₂
        rw [run_bind, Outcome.andThen_eq_ok] at hrun₂
        have ⟨a₂, s₃, hrunx₂, hrunf₂⟩ := hrun₂
        have ⟨heq, hrest₃⟩ := settled_append hx hrunx htext hhere hlike hrest hrunx₂
        rw [heq] at hrunf₂
        exact h s₃ more₂ b s₂' hrest₃ hrunf₂
      refine ⟨text ++ text', t, more, by rw [htext, hhere, List.append_assoc], ?_, ⟨b, tail, ?_⟩,
        hstuckBind _ (S.like_refl _) hstuck, ?_⟩
      · intro hnil
        have ⟨hnil₁, hnil₂⟩ := List.append_eq_nil_iff.mp hnil
        rw [hnil₂, List.nil_append] at hhere
        exact (hsettled t more hhere).1 hnil₁
      · rwa [List.map_append, List.append_assoc]
      · exact herror.imp (fun ⟨he, hlike⟩ => ⟨he, fun k hk => hstuckBind k hk (hlike k hk)⟩) id

lemma Points.bind {f : α → Exec ε σ β} {U : β → List κ → Prop} (htakes : Takes S.rest x T)
    (hx : Points S first x T W)
    (hf : ∀ a text, T a (text.map S.kind) → Points S first' (f a)
      (fun b text' => U b (text.map S.kind ++ text')) fun text' => W (text ++ text')) :
    Points S first (x >>= f) U W := by
  have hU (a : α) (text : List κ) (ha : T a text) : ∃ b text', U b (text ++ text') := by
    rw [← map_place (S := S) text] at ha ⊢
    exact (hf a _ ha).inhabited
  constructor
  · have ⟨a, text, ha⟩ := hx.inhabited
    have ⟨b, text', hb⟩ := hU a text ha
    exact ⟨b, _, hb⟩
  · intro s
    exact PointsAt.bind htakes (hx.points s) hU fun a s₁ text _ _ ha => (hf a text ha).points s₁

section Peek

variable {next : Exec ε σ ω} {see : τ → ω} {f : ω → Exec ε σ α}

lemma run_next {t : τ} {more : List τ} (hnext : Looks S next see) (hhere : S.here s = t :: more) :
    (next >>= f).run s = (f (see t)).run s := by
  rw [run_bind, hnext.sees s t more hhere, Outcome.andThen_ok]

/-- A run that looks at the next token has one. -/
lemma here_of_next (hnext : Looks S next see) (hrun : ((next >>= f).run s) ≠ .panic) :
    ∃ t more, S.here s = t :: more := by
  cases hhere : S.here s with
  | nil =>
    rw [run_bind, hnext.blind s hhere, Outcome.andThen_panic] at hrun
    exact absurd rfl hrun
  | cons t more => exact ⟨t, more, rfl⟩

/-- A choice by the next token: a text that begins with it is read, or there is none, and the reader stops
in front of it or blames it. -/
lemma PointsAt.peek (hnext : Looks S next see) (taken stops : κ → Prop) (hT : ∃ a text, T a text)
    (hsame : ∀ t t' s a s', S.kind t' = S.kind t → (f (see t')).run s = .ok a s' →
      (f (see t)).run s = .ok a s')
    (htaken : ∀ t more, S.here s = t :: more → taken (S.kind t) →
      ∃ first, first (S.kind t) ∧ PointsAt S first (f (see t)) T W s)
    (hstop : ∀ s t more, S.here s = t :: more → ¬ taken (S.kind t) → stops (S.kind t) →
      (f (see t)).run s = .ok a s)
    (hthrow : ∀ s t more, S.here s = t :: more → ¬ taken (S.kind t) → ¬ stops (S.kind t) →
      ∃ e s', (f (see t)).run s = .err e s' ∧ (e = S.blame t ∨ W [] t e))
    (hlike : ∀ k k', S.like k k' → ¬ taken k → ¬ taken k' ∧ (stops k' → stops k)) :
    PointsAt S taken (next >>= f) T W s := by
  constructor
  · intro a' s' hrun
    have ⟨t, more, hhere⟩ := here_of_next hnext (f := f) (s := s) (by rw [hrun]; exact fun h => nomatch h)
    rw [run_next hnext hhere] at hrun
    by_cases htk : taken (S.kind t)
    · have ⟨first, hfirst, hpoints⟩ := htaken t more hhere htk
      have ⟨text, htext, hsettled⟩ := hpoints.settles a' s' hrun
      refine ⟨text, htext, ?_⟩
      intro u more' hmore
      cases text with
      | nil =>
        rw [List.nil_append, hhere] at htext
        rw [← htext] at hmore
        cases hmore
        exact absurd hfirst ((hsettled t more htext.symm).1 rfl)
      | cons t' text =>
        rw [hhere] at htext
        cases htext
        refine ⟨fun hnil => absurd hnil (List.cons_ne_nil _ _), ?_⟩
        intro k hk s₂ more₂ a₂ s₂' hrest hrun₂
        have ⟨t₂, more₂', hhere₂, hkind, _⟩ := here_of_rest hrest
        rw [run_next hnext hhere₂] at hrun₂
        exact (hsettled u more' hmore).2 k hk s₂ more₂ a₂ s₂' hrest (hsame t t₂ s₂ a₂ s₂' hkind hrun₂)
    · by_cases hst : stops (S.kind t)
      · rw [hstop s t more hhere htk hst] at hrun
        cases hrun
        refine ⟨[], rfl, ?_⟩
        intro u more' hmore
        rw [hhere] at hmore
        cases hmore
        refine ⟨fun _ => htk, ?_⟩
        intro k hk s₂ more₂ a₂ s₂' hrest hrun₂
        have ⟨t₂, more₂', hhere₂, hkind, _⟩ := here_of_rest hrest
        have ⟨htk₂, _⟩ := hlike _ k hk htk
        rw [run_next hnext hhere₂] at hrun₂
        rw [← hkind] at htk₂
        by_cases hst₂ : stops (S.kind t₂)
        · rw [hstop s₂ t₂ more₂' hhere₂ htk₂ hst₂] at hrun₂
          cases hrun₂
          exact ⟨rfl, hrest⟩
        · have ⟨e, s₃, herr, _⟩ := hthrow s₂ t₂ more₂' hhere₂ htk₂ hst₂
          rw [herr] at hrun₂
          cases hrun₂
      · have ⟨e, s₁, herr, _⟩ := hthrow s t more hhere htk hst
        rw [herr] at hrun
        cases hrun
  · intro e s' hrun
    have ⟨t, more, hhere⟩ := here_of_next hnext (f := f) (s := s) (by rw [hrun]; exact fun h => nomatch h)
    rw [run_next hnext hhere] at hrun
    by_cases htk : taken (S.kind t)
    · have ⟨first, hfirst, hpoints⟩ := htaken t more hhere htk
      have ⟨text, u, more', htext, hne, hbegins, hstuck, herror⟩ := hpoints.fails e s' hrun
      cases text with
      | nil =>
        rw [List.nil_append, hhere] at htext
        cases htext
        exact absurd hfirst (hne rfl)
      | cons t' text =>
        rw [hhere] at htext
        cases htext
        have hstuckNext (k : κ) (h : Stuck S.rest (f (see t)) ((t :: text).map S.kind) k) :
            Stuck S.rest (next >>= f) ((t :: text).map S.kind) k := by
          intro s₂ more₂ a₂ s₂' hrest hrun₂
          have ⟨t₂, more₂', hhere₂, hkind, _⟩ := here_of_rest hrest
          rw [run_next hnext hhere₂] at hrun₂
          exact h s₂ more₂ a₂ s₂' hrest (hsame t t₂ s₂ a₂ s₂' hkind hrun₂)
        refine ⟨t :: text, u, more', hhere, fun hnil => absurd hnil (List.cons_ne_nil _ _), hbegins,
          hstuckNext _ hstuck, ?_⟩
        exact herror.imp (fun ⟨he, hall⟩ => ⟨he, fun k hk => hstuckNext k (hall k hk)⟩) id
    · by_cases hst : stops (S.kind t)
      · rw [hstop s t more hhere htk hst] at hrun
        cases hrun
      · have ⟨e₁, s₁, herr, hblame⟩ := hthrow s t more hhere htk hst
        rw [herr] at hrun
        cases hrun
        have hstuck (k : κ) (hk : S.like (S.kind t) k) : Stuck S.rest (next >>= f) [] k := by
          intro s₂ more₂ a₂ s₂' hrest hrun₂
          have ⟨t₂, more₂', hhere₂, hkind, _⟩ := here_of_rest hrest
          have ⟨htk₂, hst₂⟩ := hlike _ k hk htk
          rw [← hkind] at htk₂ hst₂
          have ⟨e₃, s₃, herr₂, _⟩ := hthrow s₂ t₂ more₂' hhere₂ htk₂ fun h => hst (hst₂ h)
          rw [run_next hnext hhere₂, herr₂] at hrun₂
          cases hrun₂
        exact ⟨[], t, more, hhere, fun _ => htk, hT, hstuck _ (S.like_refl _),
          hblame.imp (fun he => ⟨he, hstuck⟩) id⟩

lemma Points.peek (hnext : Looks S next see) (taken stops : κ → Prop) (hT : ∃ a text, T a text)
    (hsame : ∀ t t' s a s', S.kind t' = S.kind t → (f (see t')).run s = .ok a s' →
      (f (see t)).run s = .ok a s')
    (htaken : ∀ t, taken (S.kind t) → ∃ first, first (S.kind t) ∧ Points S first (f (see t)) T W)
    (hstop : ∀ s t more, S.here s = t :: more → ¬ taken (S.kind t) → stops (S.kind t) →
      (f (see t)).run s = .ok a s)
    (hthrow : ∀ s t more, S.here s = t :: more → ¬ taken (S.kind t) → ¬ stops (S.kind t) →
      ∃ e s', (f (see t)).run s = .err e s' ∧ (e = S.blame t ∨ W [] t e))
    (hlike : ∀ k k', S.like k k' → ¬ taken k → ¬ taken k' ∧ (stops k' → stops k)) :
    Points S taken (next >>= f) T W := by
  refine ⟨hT, fun s => PointsAt.peek hnext taken stops hT hsame ?_ hstop hthrow hlike⟩
  intro t more _ htk
  have ⟨first, hfirst, hpoints⟩ := htaken t htk
  exact ⟨first, hfirst, hpoints.points s⟩

end Peek

section Loop

variable {size : σ → Nat} {next : Exec ε σ ω} {see : τ → ω} {goOn : ω → Bool} {step : β → Exec ε σ β}
  {acc : β}

/-- Two rounds are the same if what follows the step is. -/
lemma run_round (hnext : Looks S next see) {rest rest' : β → Exec ε σ β} {s : σ}
    (hrest : ∀ acc' s', (step acc).run s = .ok acc' s' → (rest acc').run s' = (rest' acc').run s') :
    (next >>= fun w => if goOn w then step acc >>= rest else Pure.pure acc).run s =
      (next >>= fun w => if goOn w then step acc >>= rest' else Pure.pure acc).run s := by
  cases hhere : S.here s with
  | nil => rw [run_bind, run_bind, hnext.blind s hhere, Outcome.andThen_panic, Outcome.andThen_panic]
  | cons t more =>
    rw [run_next hnext hhere, run_next hnext hhere]
    split
    · rw [run_bind, run_bind]
      cases hrun : (step acc).run s with
      | ok acc' s' =>
        rw [Outcome.andThen_ok, Outcome.andThen_ok]
        exact hrest acc' s' hrun
      | err e s' => rfl
      | panic => rfl
      | diverge => rfl
    · rfl

/-- Rounds that are not needed change nothing. -/
lemma repeatWhile_rounds (hnext : Looks S next see)
    (hstep : ∀ acc s acc' s', (step acc).run s = .ok acc' s' → (S.rest s').length < (S.rest s).length)
    {n m : Nat} {s : σ} (hn : (S.rest s).length < n) (hm : (S.rest s).length < m) :
    (repeatWhile next goOn step n acc).run s = (repeatWhile next goOn step m acc).run s := by
  induction n generalizing m s acc with
  | zero => omega
  | succ n ih =>
    cases m with
    | zero => omega
    | succ m =>
      rw [repeatWhile, repeatWhile]
      apply run_round hnext
      intro acc' s' hrun
      have hlt := hstep acc s acc' s' hrun
      exact ih (by omega) (by omega)

/-- A loop is one round and then the loop. -/
lemma run_loop (hnext : Looks S next see) (hsize : ∀ s, (S.rest s).length < size s)
    (hstep : ∀ acc s acc' s', (step acc).run s = .ok acc' s' → (S.rest s').length < (S.rest s).length) :
    (loop size next goOn step acc).run s = (next >>= fun w =>
      if goOn w then step acc >>= loop size next goOn step else Pure.pure acc).run s := by
  have hloop (acc : β) (s : σ) {n : Nat} (hn : (S.rest s).length < n) :
      (repeatWhile next goOn step n acc).run s = (loop size next goOn step acc).run s := by
    rw [loop, run_bind, run_gets, Outcome.andThen_ok]
    exact repeatWhile_rounds hnext hstep hn (hsize s)
  rw [← hloop acc s (Nat.lt_succ_self _), repeatWhile]
  apply run_round hnext
  intro acc' s' hrun
  exact hloop acc' s' (hstep acc s acc' s' hrun)

/-- What a round does, the loop does; the induction is on the tokens that are left. -/
lemma Points.whileLoop {I : β → List κ → Prop} (go : κ → Prop) (hnext : Looks S next see)
    (hgo : ∀ t, goOn (see t) = true ↔ go (S.kind t)) (hlike : ∀ k k', S.like k k' → ¬ go k → ¬ go k')
    (hsize : ∀ s, (S.rest s).length < size s)
    (hshrinks : ∀ acc s acc' s', (step acc).run s = .ok acc' s' → (S.rest s').length < (S.rest s).length)
    (htakes : ∀ acc text, I acc text → Takes S.rest (step acc) fun acc' text' => I acc' (text ++ text'))
    (hstep : ∀ acc pre, I acc (pre.map S.kind) → Points S go (step acc)
      (fun acc' text' => I acc' (pre.map S.kind ++ text')) fun text' => W (pre ++ text'))
    {pre : List τ} (h : I acc (pre.map S.kind)) : Points S go (loop size next goOn step acc)
      (fun acc' text' => I acc' (pre.map S.kind ++ text')) fun text' => W (pre ++ text') := by
  have hat (n : Nat) : ∀ s acc pre, (S.rest s).length < n → I acc (pre.map S.kind) →
      PointsAt S go (loop size next goOn step acc) (fun acc' text' => I acc' (pre.map S.kind ++ text'))
        (fun text' => W (pre ++ text')) s := by
    induction n with
    | zero =>
      intro s acc pre hlen
      omega
    | succ n ih =>
      intro s acc pre hlen hI
      have heq : loop size next goOn step acc = next >>= fun w =>
          if goOn w then step acc >>= loop size next goOn step else Pure.pure acc := by
        apply congrArg Exec.mk
        funext s
        exact run_loop hnext hsize hshrinks
      rw [heq]
      have hI' : I acc (pre.map S.kind ++ []) := by rwa [List.append_nil]
      have hgoOn (t : τ) (hne : ¬ go (S.kind t)) : ¬ goOn (see t) = true := fun hon => hne ((hgo t).mp hon)
      refine PointsAt.peek hnext go (fun _ => True) ⟨acc, [], hI'⟩ ?_ ?_ (a := acc) ?_ ?_ ?_
      · intro t t' s a s' hkind hrun
        have hsame : goOn (see t') = goOn (see t) := by rw [Bool.eq_iff_iff, hgo, hgo, hkind]
        rwa [hsame] at hrun
      · intro t more hhere htk
        refine ⟨go, htk, ?_⟩
        rw [if_pos ((hgo t).mpr htk)]
        apply PointsAt.bind (htakes acc _ hI) ((hstep acc pre hI).points s)
        · intro acc' text' hI'
          refine ⟨acc', [], ?_⟩
          rwa [List.append_nil]
        · intro acc' s₁ text hrun _ hI'
          rw [← List.map_append] at hI'
          have hlt := hshrinks acc s acc' s₁ hrun
          apply (ih s₁ acc' (pre ++ text) (by omega) hI').conseq
          · intro acc'' text' h
            rwa [List.map_append, List.append_assoc] at h
          · intro text' u e h
            rwa [List.append_assoc] at h
          · exact fun k hk => hk
      · intro s t more _ hne _
        rw [if_neg (hgoOn t hne), run_pure]
      · intro s t more _ _ hfalse
        exact absurd trivial hfalse
      · intro k k' hk hne
        exact ⟨hlike k k' hk hne, fun _ => trivial⟩
  have hI : I acc (pre.map S.kind ++ []) := by rwa [List.append_nil]
  exact ⟨⟨acc, [], hI⟩, fun s => hat _ s acc pre (Nat.lt_succ_self _) h⟩

end Loop

end Rules

end RdbRs.Exec
