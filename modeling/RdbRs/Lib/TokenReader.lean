import RdbRs.Lib.Outcome

/-!
# Readers of tokens

A reader takes tokens off the front of `rest`, what is left of its input. `Takes` is its
soundness: the text it took, whenever it returns, is one of those its value stands for.
`Reads` is its completeness: it reads a given text as a given value when the token behind
the text is one it stops at.
-/

namespace RdbRs.Exec

variable {ε σ τ κ ι α β : Type}

/-- The token behind a text is one a reader stops at. -/
def Follows (stops : κ → Prop) (more : List κ) : Prop := ∃ k tail, more = k :: tail ∧ stops k

def Takes (rest : σ → List κ) (x : Exec ε σ α) (T : α → List κ → Prop) : Prop :=
  ∀ s a s', x.run s = .ok a s' → ∃ text, T a text ∧ rest s = text ++ rest s'

def Reads (rest : σ → List κ) (x : Exec ε σ α) (a : α) (text : List κ) (stops : κ → Prop) : Prop :=
  ∀ s more, rest s = text ++ more → Follows stops more → ∃ s', x.run s = .ok a s' ∧ rest s' = more

/-- A look at the next token, which stays where it is. -/
structure Peeks (rest : σ → List κ) (next : Exec ε σ τ) (kind : τ → κ) : Prop where
  stays : ∀ s t s', next.run s = .ok t s' → s' = s
  sees : ∀ s k more, rest s = k :: more → ∃ t, next.run s = .ok t s ∧ kind t = k

/-- `while go_on(next) { step }`. The rounds are counted; a loop that never ends runs out of
them. -/
def repeatWhile (next : Exec ε σ τ) (goOn : τ → Bool) (step : β → Exec ε σ β) :
    Nat → β → Exec ε σ β
  | 0, _ => diverge
  | rounds + 1, acc => do
    let t ← next
    if goOn t then do
      let acc ← step acc
      repeatWhile next goOn step rounds acc
    else pure acc

section Follows

variable {stops stops' : κ → Prop} {more : List κ}

lemma follows_cons {k : κ} (h : stops k) : Follows stops (k :: more) := ⟨k, more, rfl, h⟩

lemma Follows.mono (h : Follows stops more) (hle : ∀ k, stops k → stops' k) : Follows stops' more := by
  have ⟨k, tail, hmore, hk⟩ := h
  exact ⟨k, tail, hmore, hle k hk⟩

end Follows

namespace Takes

variable {rest : σ → List κ} {x : Exec ε σ α} {T T' : α → List κ → Prop}

lemma conseq (h : Takes rest x T) (himp : ∀ a text, T a text → T' a text) : Takes rest x T' := by
  intro s a s' hrun
  have ⟨text, hT, hrest⟩ := h s a s' hrun
  exact ⟨text, himp a text hT, hrest⟩

lemma pure {a : α} (h : T a []) : Takes rest (Pure.pure a : Exec ε σ α) T := by
  intro s a' s' hrun
  cases hrun
  exact ⟨[], h, rfl⟩

lemma throw {e : ε} : Takes rest (Exec.throw e : Exec ε σ α) T := by
  intro s a s' hrun
  cases hrun

/-- The text of a sequence is that of its first call and then that of its second. -/
lemma bind {f : α → Exec ε σ β} {U : β → List κ → Prop} (hx : Takes rest x T)
    (hf : ∀ a text, T a text → Takes rest (f a) fun b text' => U b (text ++ text')) :
    Takes rest (x >>= f) U := by
  intro s b s' hrun
  rw [run_bind, Outcome.andThen_eq_ok] at hrun
  have ⟨a, s₁, hx', hf'⟩ := hrun
  have ⟨text, hT, hrest⟩ := hx s a s₁ hx'
  have ⟨text', hU, hrest'⟩ := hf a text hT s₁ b s' hf'
  exact ⟨text ++ text', hU, by rw [hrest, hrest', List.append_assoc]⟩

lemma ite {c : Prop} [Decidable c] {y : Exec ε σ α} (hx : c → Takes rest x T)
    (hy : ¬ c → Takes rest y T) : Takes rest (if c then x else y) T := by
  split
  · next h => exact hx h
  · next h => exact hy h

lemma gets {γ : Type} {g : σ → γ} {f : γ → Exec ε σ α} (hf : ∀ c, Takes rest (f c) T) :
    Takes rest (Exec.gets g >>= f) T := by
  intro s a s' hrun
  exact hf (g s) s a s' hrun

lemma peek {next : Exec ε σ τ} {kind : τ → κ} {f : τ → Exec ε σ α} (hnext : Peeks rest next kind)
    (hf : ∀ t, Takes rest (f t) T) : Takes rest (next >>= f) T := by
  intro s a s' hrun
  rw [run_bind, Outcome.andThen_eq_ok] at hrun
  have ⟨t, s₁, ht, hf'⟩ := hrun
  have hs := hnext.stays s t s₁ ht
  subst hs
  exact hf t s₁ a s' hf'

/-- What every round adds to the text, all rounds add to it. -/
lemma repeatWhile {next : Exec ε σ τ} {kind : τ → κ} {goOn : τ → Bool} {step : β → Exec ε σ β}
    {I : β → List κ → Prop} (hnext : Peeks rest next kind)
    (hstep : ∀ acc text, I acc text → Takes rest (step acc) fun acc' text' => I acc' (text ++ text'))
    (rounds : Nat) {acc : β} {text : List κ} (h : I acc text) :
    Takes rest (Exec.repeatWhile next goOn step rounds acc) fun acc' text' => I acc' (text ++ text') := by
  induction rounds generalizing acc text with
  | zero =>
    intro s a s' hrun
    cases hrun
  | succ rounds ih =>
    rw [Exec.repeatWhile]
    apply peek hnext
    intro t
    apply ite
    · intro _
      apply bind (hstep acc text h)
      intro acc' text' h'
      apply (ih h').conseq
      intro acc'' text'' h''
      rwa [← List.append_assoc]
    · intro _
      apply pure
      rwa [List.append_nil]

end Takes

namespace Reads

variable {rest : σ → List κ} {x : Exec ε σ α} {a : α} {text : List κ} {stops stops' : κ → Prop}

lemma mono (h : Reads rest x a text stops) (hle : ∀ k, stops' k → stops k) :
    Reads rest x a text stops' := by
  intro s more hrest hfollows
  exact h s more hrest (hfollows.mono hle)

lemma pure : Reads rest (Pure.pure a : Exec ε σ α) a [] stops := by
  intro s more hrest _
  exact ⟨s, rfl, hrest⟩

/-- What follows the first text is the second, or what follows that. -/
lemma bind {f : α → Exec ε σ β} {b : β} {text' : List κ} (hx : Reads rest x a text stops)
    (hf : Reads rest (f a) b text' stops')
    (hfollows : ∀ more, Follows stops' more → Follows stops (text' ++ more)) :
    Reads rest (x >>= f) b (text ++ text') stops' := by
  intro s more hrest hmore
  rw [List.append_assoc] at hrest
  have ⟨s₁, hrun, hrest₁⟩ := hx s (text' ++ more) hrest (hfollows more hmore)
  have ⟨s₂, hrun', hrest₂⟩ := hf s₁ more hrest₁ hmore
  exact ⟨s₂, by rw [run_bind, hrun, Outcome.andThen_ok, hrun'], hrest₂⟩

/-- After a call that stops anywhere there is nothing to check. -/
lemma andThen {f : α → Exec ε σ β} {b : β} (hx : Reads rest x a text fun _ => True)
    (text' : List κ) (hf : Reads rest (f a) b text' stops') :
    Reads rest (x >>= f) b (text ++ text') stops' := by
  apply bind hx hf
  intro more ⟨k, tail, hmore, _⟩
  cases text' with
  | nil => exact ⟨k, tail, hmore, trivial⟩
  | cons k' tail' => exact follows_cons trivial

lemma map {f : α → β} (hx : Reads rest x a text stops) :
    Reads rest (x >>= fun a => Pure.pure (f a)) (f a) text stops := by
  have hpure : Reads rest (Pure.pure (f a) : Exec ε σ β) (f a) [] stops := pure
  have h := bind (f := fun a => Pure.pure (f a)) hx hpure (fun more hmore => hmore)
  rwa [List.append_nil] at h

lemma gets_rounds {size : σ → Nat} {f : Nat → Exec ε σ α} (hsize : ∀ s, (rest s).length < size s)
    (hf : ∀ rounds, text.length < rounds → Reads rest (f rounds) a text stops) :
    Reads rest (Exec.gets size >>= f) a text stops := by
  intro s more hrest hmore
  have hlen := hsize s
  rw [hrest, List.length_append] at hlen
  exact hf (size s) (by omega) s more hrest hmore

section Peek

variable {next : Exec ε σ τ} {kind : τ → κ} {f : τ → Exec ε σ α}

/-- Looking at the first token of the text. -/
lemma peek_cons {k : κ} (hnext : Peeks rest next kind)
    (hf : ∀ t, kind t = k → Reads rest (f t) a (k :: text) stops) :
    Reads rest (next >>= f) a (k :: text) stops := by
  intro s more hrest hmore
  have ⟨t, hrun, hk⟩ := hnext.sees s k (text ++ more) hrest
  have ⟨s', hrun', hrest'⟩ := hf t hk s more hrest hmore
  exact ⟨s', by rw [run_bind, hrun, Outcome.andThen_ok, hrun'], hrest'⟩

/-- Looking at the token behind an empty text. -/
lemma peek_nil (hnext : Peeks rest next kind)
    (hf : ∀ t, stops (kind t) → Reads rest (f t) a [] stops) :
    Reads rest (next >>= f) a [] stops := by
  intro s more hrest hmore
  have ⟨k, tail, heq, hk⟩ := hmore
  have ⟨t, hrun, hkind⟩ := hnext.sees s k tail (hrest.trans heq)
  have ⟨s', hrun', hrest'⟩ := hf t (hkind ▸ hk) s more hrest hmore
  exact ⟨s', by rw [run_bind, hrun, Outcome.andThen_ok, hrun'], hrest'⟩

/-- A loop reads the items one after the other. Each begins with a token the loop goes on
at, and it stops at none of these. -/
lemma repeatWhile {goOn : τ → Bool} {step : β → Exec ε σ β} (go : κ → Prop) {add : β → ι → β}
    {itemText : ι → List κ} (hnext : Peeks rest next kind) (hgo : ∀ t, goOn t = true ↔ go (kind t))
    (hstops : ∀ k, stops k → ¬ go k) {items : List ι}
    (hitems : ∀ i ∈ items, ∃ k tail, itemText i = k :: tail ∧ go k)
    (hstep : ∀ acc, ∀ i ∈ items, Reads rest (step acc) (add acc i) (itemText i)
      fun k => go k ∨ stops k)
    {rounds : Nat} (hrounds : items.length < rounds) (acc : β) :
    Reads rest (Exec.repeatWhile next goOn step rounds acc) (items.foldl add acc)
      (items.flatMap itemText) stops := by
  induction items generalizing acc rounds with
  | nil =>
    obtain ⟨rounds, rfl⟩ : ∃ n, rounds = n + 1 := ⟨rounds - 1, by simp at hrounds; omega⟩
    rw [Exec.repeatWhile, List.flatMap_nil, List.foldl_nil]
    apply peek_nil hnext
    intro t ht
    rw [if_neg (fun h => hstops _ ht ((hgo t).mp h))]
    exact pure
  | cons i items ih =>
    obtain ⟨rounds, rfl⟩ : ∃ n, rounds = n + 1 := ⟨rounds - 1, by simp at hrounds; omega⟩
    have ⟨k, tail, htext, hk⟩ := hitems i List.mem_cons_self
    have hlen : items.length < rounds := by
      rw [List.length_cons] at hrounds
      omega
    have hlater := ih (fun j hj => hitems j (List.mem_cons_of_mem i hj))
      (fun acc j hj => hstep acc j (List.mem_cons_of_mem i hj))
      hlen (add acc i)
    have hround := bind (hstep acc i List.mem_cons_self) hlater (fun more hmore => by
      cases items with
      | nil => exact hmore.mono fun k hk => .inr hk
      | cons j items =>
        have ⟨k', tail', htext', hk'⟩ := hitems j (by simp)
        rw [List.flatMap_cons, htext']
        exact follows_cons (.inl hk'))
    rw [Exec.repeatWhile, List.flatMap_cons, List.foldl_cons, htext, List.cons_append]
    apply peek_cons hnext
    intro t ht
    rw [if_pos ((hgo t).mpr (ht ▸ hk)), ← List.cons_append, ← htext]
    exact hround

end Peek

end Reads

end RdbRs.Exec
