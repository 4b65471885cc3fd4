import RdbRs.Lib.LeafChainSteps

/-!
# The links of a chain

While entries are only added, the links list the live leaves as long as no leaf but the first is
split. A split of another leaf leaves the link to it behind: from then on the links lead through a
leaf that is no longer live.
-/

namespace RdbRs

namespace LeafChain

variable {P E K : Type}

/-- The leaves the links lead through. -/
inductive Links (leaf : P → Option (Leaf P E)) : Option P → List P → Prop where
  | nil : Links leaf none []
  | cons {p : P} {l : Leaf P E} {ps : List P} : leaf p = some l → Links leaf l.next ps →
      Links leaf (some p) (p :: ps)

/-- From the first live leaf on, the links list the live leaves. -/
def Listed (leaf : P → Option (Leaf P E)) (seq : List (P × WithTop K)) : Prop :=
  Links leaf (seq.map Prod.fst).head? (seq.map Prod.fst)

/-- From the first live leaf on, the links lead through a leaf that is not live. -/
def Stray (leaf : P → Option (Leaf P E)) (seq : List (P × WithTop K)) : Prop :=
  ∃ ps, Links leaf (seq.map Prod.fst).head? ps ∧ ∃ y ∈ ps, y ∉ seq.map Prod.fst

section Links

variable {leaf leaf' : P → Option (Leaf P E)} {seq : List (P × WithTop K)} {o : Option P} {p x : P}
  {ps qs : List P}

lemma Links.unique (h : Links leaf o ps) (h' : Links leaf o qs) : ps = qs := by
  induction h generalizing qs with
  | nil =>
    cases h'
    rfl
  | cons hl _ ih =>
    cases h' with
    | cons hl' hrest =>
      obtain rfl := Option.some.inj (hl.symm.trans hl')
      rw [ih hrest]

lemma Links.leaf_of_mem (h : Links leaf o ps) (hp : p ∈ ps) : ∃ l, leaf p = some l := by
  induction h with
  | nil => cases hp
  | cons hl _ ih =>
    rcases List.mem_cons.mp hp with rfl | hp
    · exact ⟨_, hl⟩
    · exact ih hp

lemma Links.suffix (h : Links leaf o (ps ++ x :: qs)) : Links leaf (some x) (x :: qs) := by
  induction ps generalizing o with
  | nil =>
    cases h with
    | cons hl hrest => exact .cons hl hrest
  | cons p ps ih =>
    cases h with
    | cons _ hrest => exact ih hrest

/-- No leaf is passed twice. -/
lemma Links.nodup (h : Links leaf o ps) : ps.Nodup := by
  induction h with
  | nil => exact List.nodup_nil
  | @cons p l ps hl hrest ih =>
    apply List.nodup_cons.mpr
    refine ⟨?_, ih⟩
    intro hp
    have ⟨qs, rs, heq⟩ := List.append_of_mem hp
    subst heq
    have hlen := congrArg List.length ((Links.cons hl hrest).unique hrest.suffix)
    simp only [List.length_cons, List.length_append] at hlen
    omega

/-- The links are those of the leaves passed. -/
lemma Links.congr (h : Links leaf o ps)
    (hps : ∀ p ∈ ps, ∀ l, leaf p = some l → ∃ l', leaf' p = some l' ∧ l'.next = l.next) :
    Links leaf' o ps := by
  induction h with
  | nil => exact .nil
  | cons hl _ ih =>
    have ⟨l', hl', hnext⟩ := hps _ List.mem_cons_self _ hl
    apply Links.cons hl'
    rw [hnext]
    exact ih fun p hp => hps p (List.mem_cons_of_mem _ hp)

end Links

/-! ### Changes -/

section Changes

variable [LinearOrder K] {key : E → K} {leaf leaf' : P → Option (Leaf P E)}
  {pre post seq seq' : List (P × WithTop K)} {x a b : P} {u : WithTop K} {l l' : Leaf P E} {e : E}
  {lo hi : List E} {sep : K} {o : Option P} {ps : List P}

lemma Rewritten.links (h : Rewritten key leaf leaf' pre x u l l') (hnext : l'.next = l.next)
    (hps : Links leaf o ps) : Links leaf' o ps := by
  apply hps.congr
  intro p _ lp hlp
  by_cases hp : p = x
  · subst hp
    have heq := Option.some.inj (hlp.symm.trans h.old.leaf_eq)
    subst heq
    exact ⟨l', h.new, hnext⟩
  · exact ⟨lp, (h.frame p hp).trans hlp, rfl⟩

/-- The links past the two fresh leaves. -/
lemma Split.links (h : Split key leaf leaf' pre x u l e a b lo hi sep)
    (hps : Links leaf (some x) (x :: ps)) : Links leaf' (some a) (a :: b :: ps) := by
  have hnodup := (List.nodup_cons.mp hps.nodup).1
  cases hps with
  | cons hl hrest =>
    obtain rfl := Option.some.inj (hl.symm.trans h.old.leaf_eq)
    apply Links.cons h.new_left
    apply Links.cons h.new_right
    apply hrest.congr
    intro p hp lp hlp
    refine ⟨lp, (h.parted.frame_of_leaf hlp ?_).trans hlp, rfl⟩
    intro heq
    rw [heq] at hp
    exact hnodup hp

/-- The links that do not know of the fresh leaves. -/
lemma Split.links_keep (h : Split key leaf leaf' pre x u l e a b lo hi sep) (hpre : pre ≠ [])
    (hps : Links leaf o ps) : Links leaf' o ps := by
  apply hps.congr
  intro p _ lp hlp
  refine ⟨lp, ?_, rfl⟩
  by_cases hp : p = x
  · rw [hp, h.keep.resolve_left hpre, ← hp, hlp]
  · exact (h.parted.frame_of_leaf hlp hp).trans hlp

lemma head?_append_of_ne_nil {α : Type} {xs ys zs : List α} (h : xs ≠ []) :
    (xs ++ ys).head? = (xs ++ zs).head? := by
  cases xs with
  | nil => exact absurd rfl h
  | cons x xs => rfl

/-- A split of the first live leaf. -/
lemma Split.listed (h : Split key leaf leaf' [] x u l e a b lo hi sep)
    (hs : Listed leaf ((x, u) :: post)) :
    Listed leaf' ((a, (sep : WithTop K)) :: (b, u) :: post) :=
  h.links hs

lemma Split.stray (h : Split key leaf leaf' [] x u l e a b lo hi sep)
    (hs : Stray leaf ((x, u) :: post)) :
    Stray leaf' ((a, (sep : WithTop K)) :: (b, u) :: post) := by
  have ⟨ps, hps, y, hy, hne⟩ := hs
  have ⟨hya, hyb⟩ := h.parted.ne_of_leaf (hps.leaf_of_mem hy)
  simp only [List.map_cons, List.mem_cons, not_or] at hne
  cases hps with
  | @cons _ l' rest hl hrest =>
    refine ⟨a :: b :: rest, h.links (.cons hl hrest), y, ?_, ?_⟩
    · have hmem := (List.mem_cons.mp hy).resolve_left hne.1
      exact List.mem_cons_of_mem _ (List.mem_cons_of_mem _ hmem)
    · simp only [List.map_cons, List.mem_cons, not_or]
      exact ⟨hya, hyb, hne.2⟩

/-- A split of another leaf. The links still lead to the old leaf. -/
lemma Split.stray_of_listed (h : Split key leaf leaf' pre x u l e a b lo hi sep)
    (hs : Linked key leaf (pre ++ (x, u) :: post)) (hpre : pre ≠ [])
    (hl : Listed leaf (pre ++ (x, u) :: post)) :
    Stray leaf' (pre ++ (a, (sep : WithTop K)) :: (b, u) :: post) := by
  have ⟨hxa, hxb⟩ := h.parted.ne_of_leaf ⟨l, h.old.leaf_eq⟩
  have hlinks := h.links_keep hpre hl
  have hpre' : pre.map Prod.fst ≠ [] := by simpa using hpre
  rw [List.map_append] at hlinks
  refine ⟨pre.map Prod.fst ++ ((x, u) :: post).map Prod.fst, ?_, x, by simp, ?_⟩
  · rw [List.map_append, head?_append_of_ne_nil hpre']
    exact hlinks
  · intro hx
    rw [List.map_append, List.map_cons, List.map_cons, List.mem_append, List.mem_cons,
      List.mem_cons] at hx
    rcases hx with hx | hx | hx | hx
    · have ⟨z, hz, hzx⟩ := List.mem_map.mp hx
      exact h.old.above.ne z hz hzx
    · exact hxa hx
    · exact hxb hx
    · have ⟨z, hz, hzx⟩ := List.mem_map.mp hx
      exact hs.ne_of_mem_post hz hzx

lemma Split.stray_keep (h : Split key leaf leaf' pre x u l e a b lo hi sep) (hpre : pre ≠ [])
    (hs : Stray leaf (pre ++ (x, u) :: post)) :
    Stray leaf' (pre ++ (a, (sep : WithTop K)) :: (b, u) :: post) := by
  have ⟨ps, hps, y, hy, hne⟩ := hs
  have ⟨hya, hyb⟩ := h.parted.ne_of_leaf (hps.leaf_of_mem hy)
  have hlinks := h.links_keep hpre hps
  have hpre' : pre.map Prod.fst ≠ [] := by simpa using hpre
  rw [List.map_append] at hlinks
  refine ⟨ps, ?_, y, hy, ?_⟩
  · rw [List.map_append, head?_append_of_ne_nil hpre']
    exact hlinks
  · simp only [List.map_append, List.map_cons, List.mem_append, List.mem_cons, not_or] at hne ⊢
    exact ⟨hne.1, hya, hyb, hne.2.2⟩

end Changes

end LeafChain

end RdbRs
