import Mathlib.Data.List.Nodup
import Mathlib.Order.WithBot
import Mathlib.Tactic.Common

/-!
# Chains of leaves

Leaves, each with a link to a next leaf, below a sequence of live leaves with upper bounds. A key
is sent to the first live leaf whose bound it does not exceed; from there a search follows the
links until it meets a greater key. The links need not follow the sequence: they may lead through
leaves that are no longer live, or end early. `Linked` is what makes the searches sound all the
same.
-/

namespace RdbRs

structure Leaf (P E : Type) where
  entries : List E
  next : Option P

namespace LeafChain

variable {P E K : Type} [LinearOrder K] (key : E → K)

/-- The entries with a given key. -/
def entriesAt (k : K) (es : List E) : List E := es.filter fun e => key e = k

/-- The pages a search visits from a link on. -/
inductive Walk (leaf : P → Option (Leaf P E)) (k : K) : Option P → List P → Prop where
  | nil : Walk leaf k none []
  | stop {p : P} {l : Leaf P E} : leaf p = some l → (∃ e ∈ l.entries, k < key e) →
      Walk leaf k (some p) [p]
  | step {p : P} {l : Leaf P E} {ps : List P} : leaf p = some l → (∀ e ∈ l.entries, key e ≤ k) →
      Walk leaf k l.next ps → Walk leaf k (some p) (p :: ps)

/-- The entries with key `k` on the leaf `p`. -/
def foundOn (leaf : P → Option (Leaf P E)) (k : K) (p : P) : List E :=
  match leaf p with
  | some l => entriesAt key k l.entries
  | none => []

/-- The entries a search finds on the pages it visits. -/
def found (leaf : P → Option (Leaf P E)) (k : K) (ps : List P) : List E :=
  ps.flatMap (foundOn key leaf k)

/-- The links from here on lead through leaves that satisfy `ok`, and end. -/
inductive Chain (leaf : P → Option (Leaf P E)) (ok : P → Leaf P E → Prop) : Option P → Prop where
  | nil : Chain leaf ok none
  | cons {p : P} {l : Leaf P E} : leaf p = some l → ok p l → Chain leaf ok l.next →
      Chain leaf ok (some p)

section Walks

variable {key} {leaf leaf' : P → Option (Leaf P E)} {k : K} {o : Option P} {p x : P}
  {l : Leaf P E} {ps qs : List P} {es es' : List E}

@[simp] lemma entriesAt_nil : entriesAt key k [] = [] := rfl

@[simp] lemma entriesAt_append :
    entriesAt key k (es ++ es') = entriesAt key k es ++ entriesAt key k es' :=
  List.filter_append _ _

lemma entriesAt_perm (key : E → K) (k : K) (h : es.Perm es') : (entriesAt key k es).Perm (entriesAt key k es') :=
  h.filter _

lemma entriesAt_eq_nil (h : ∀ e ∈ es, key e ≠ k) : entriesAt key k es = [] := by
  apply List.filter_eq_nil_iff.mpr
  intro e he
  simpa using h e he

lemma entriesAt_singleton (e : E) : entriesAt key k [e] = if key e = k then [e] else [] := by
  rw [entriesAt, List.filter_singleton]
  by_cases h : key e = k <;> simp [h]

lemma mem_entriesAt {e : E} : e ∈ entriesAt key k es ↔ e ∈ es ∧ key e = k := by
  simp [entriesAt]

lemma foundOn_eq (hl : leaf p = some l) : foundOn key leaf k p = entriesAt key k l.entries := by
  rw [foundOn, hl]

@[simp] lemma found_nil : found key leaf k [] = [] := rfl

@[simp] lemma found_cons :
    found key leaf k (p :: ps) = foundOn key leaf k p ++ found key leaf k ps := rfl

@[simp] lemma found_append :
    found key leaf k (ps ++ qs) = found key leaf k ps ++ found key leaf k qs :=
  List.flatMap_append

lemma found_congr (h : ∀ p ∈ ps, leaf' p = leaf p) : found key leaf' k ps = found key leaf k ps := by
  apply List.flatMap_congr
  intro p hp
  rw [foundOn, foundOn, h p hp]

/-- The links leave no choice. -/
lemma Walk.unique (h : Walk key leaf k o ps) (h' : Walk key leaf k o qs) : ps = qs := by
  induction h generalizing qs with
  | nil =>
    cases h'
    rfl
  | stop hl hgt =>
    obtain ⟨e, he, hlt⟩ := hgt
    cases h' with
    | stop _ _ => rfl
    | step hl' hle _ =>
      obtain rfl := Option.some.inj (hl.symm.trans hl')
      exact absurd hlt (not_lt.mpr (hle e he))
  | step hl hle _ ih =>
    cases h' with
    | stop hl' hgt =>
      obtain rfl := Option.some.inj (hl.symm.trans hl')
      obtain ⟨e, he, hlt⟩ := hgt
      exact absurd hlt (not_lt.mpr (hle e he))
    | step hl' _ hrest =>
      obtain rfl := Option.some.inj (hl.symm.trans hl')
      rw [ih hrest]

lemma Walk.leaf_of_mem (h : Walk key leaf k o ps) (hp : p ∈ ps) : ∃ l, leaf p = some l := by
  induction h with
  | nil => cases hp
  | stop hl _ =>
    rw [List.mem_singleton.mp hp]
    exact ⟨_, hl⟩
  | step hl _ _ ih =>
    rcases List.mem_cons.mp hp with rfl | hp
    · exact ⟨_, hl⟩
    · exact ih hp

/-- A walk starts anew at every page it visits. -/
lemma Walk.suffix (h : Walk key leaf k o (ps ++ x :: qs)) : Walk key leaf k (some x) (x :: qs) := by
  induction ps generalizing o with
  | nil => cases h <;> constructor <;> assumption
  | cons p ps ih =>
    rw [List.cons_append] at h
    generalize hq : ps ++ x :: qs = rest at h
    cases h with
    | stop _ _ =>
      cases ps <;> cases hq
    | step _ _ hrest =>
      rw [← hq] at hrest
      exact ih hrest

/-- No page is visited twice. -/
lemma Walk.nodup (h : Walk key leaf k o ps) : ps.Nodup := by
  induction h with
  | nil => exact List.nodup_nil
  | stop _ _ => exact List.nodup_singleton _
  | @step p l ps hl hle hrest ih =>
    refine List.nodup_cons.mpr ⟨fun hp => ?_, ih⟩
    obtain ⟨qs, rs, rfl⟩ := List.append_of_mem hp
    have hlen := congrArg List.length ((Walk.step hl hle hrest).unique hrest.suffix)
    simp only [List.length_cons, List.length_append] at hlen
    omega

/-- Leaves that are not visited do not matter. -/
lemma Walk.congr (h : Walk key leaf k o ps) (hps : ∀ p ∈ ps, leaf' p = leaf p) :
    Walk key leaf' k o ps := by
  induction h with
  | nil => exact .nil
  | stop hl hgt => exact .stop ((hps _ List.mem_cons_self).trans hl) hgt
  | step hl hle _ ih =>
    exact .step ((hps _ List.mem_cons_self).trans hl) hle
      (ih fun p hp => hps p (List.mem_cons_of_mem _ hp))

/-- From the first changed leaf on a walk takes another course. -/
lemma Walk.replace {rs : List P} (h : Walk key leaf k o (ps ++ x :: qs))
    (hps : ∀ p ∈ ps, leaf' p = leaf p) (hx : Walk key leaf' k (some x) rs) :
    Walk key leaf' k o (ps ++ rs) := by
  induction ps generalizing o with
  | nil =>
    have ho : o = some x := by cases h <;> rfl
    rwa [ho]
  | cons p ps ih =>
    rw [List.cons_append] at h
    generalize hq : ps ++ x :: qs = rest at h
    cases h with
    | stop _ _ =>
      cases ps <;> cases hq
    | step hl hle hrest =>
      rw [← hq] at hrest
      exact .step ((hps p List.mem_cons_self).trans hl) hle
        (ih hrest fun p hp => hps p (List.mem_cons_of_mem _ hp))

/-- A leaf in front of a walk. If the leaf ends the search, the walk must have nothing to find. -/
lemma Walk.cons (hl : leaf p = some l) (h : Walk key leaf k l.next ps)
    (hgt : (∃ e ∈ l.entries, k < key e) → found key leaf k ps = []) :
    ∃ qs, Walk key leaf k (some p) (p :: qs) ∧
      found key leaf k (p :: qs) = entriesAt key k l.entries ++ found key leaf k ps := by
  by_cases hstop : ∃ e ∈ l.entries, k < key e
  · refine ⟨[], .stop hl hstop, ?_⟩
    rw [hgt hstop, found_cons, foundOn_eq hl, found_nil]
  · push Not at hstop
    refine ⟨ps, .step hl hstop h, ?_⟩
    rw [found_cons, foundOn_eq hl]

end Walks

section Chains

variable {key} {leaf leaf' : P → Option (Leaf P E)} {ok ok' : P → Leaf P E → Prop} {k : K}
  {o : Option P} {p : P} {l : Leaf P E} {ps : List P}

lemma Chain.mono (h : Chain leaf ok o) (hok : ∀ p l, leaf p = some l → ok p l → ok' p l) :
    Chain leaf ok' o := by
  induction h with
  | nil => exact .nil
  | cons hl hp _ ih => exact .cons hl (hok _ _ hl hp) ih

/-- Every search along a chain ends. -/
lemma Chain.exists_walk (key : E → K) (h : Chain leaf ok o) (k : K) : ∃ ps, Walk key leaf k o ps := by
  induction h with
  | nil => exact ⟨[], .nil⟩
  | @cons p l hl _ _ ih =>
    obtain ⟨ps, hps⟩ := ih
    by_cases hstop : ∃ e ∈ l.entries, k < key e
    · exact ⟨[p], .stop hl hstop⟩
    · push Not at hstop
      exact ⟨p :: ps, .step hl hstop hps⟩

lemma Chain.of_mem_walk (h : Chain leaf ok o) (hw : Walk key leaf k o ps) (hp : p ∈ ps) :
    ∃ l, leaf p = some l ∧ ok p l := by
  induction hw with
  | nil => cases hp
  | stop hl _ =>
    rw [List.mem_singleton.mp hp]
    cases h with
    | cons hl' hok _ => exact ⟨_, hl', hok⟩
  | step hl _ _ ih =>
    cases h with
    | cons hl' hok hrest =>
      obtain rfl := Option.some.inj (hl.symm.trans hl')
      rcases List.mem_cons.mp hp with rfl | hp
      · exact ⟨_, hl, hok⟩
      · exact ih hrest hp

/-- Leaves may change as long as the chain goes on from every changed leaf. -/
lemma Chain.patch (h : Chain leaf ok o) (hp : ∀ p, leaf' p = leaf p ∨ Chain leaf' ok (some p)) :
    Chain leaf' ok o := by
  induction h with
  | nil => exact .nil
  | @cons p l hl hok _ ih =>
    rcases hp p with heq | hchain
    · exact .cons (heq.trans hl) hok ih
    · exact hchain

end Chains

/-! ### Live leaves -/

/-- The leaf is none of the leaves before it, and no entry of it is below one of their bounds. -/
structure Above (before : List (P × WithTop K)) (p : P) (l : Leaf P E) : Prop where
  ne : ∀ b ∈ before, b.1 ≠ p
  le : ∀ b ∈ before, ∀ e ∈ l.entries, b.2 ≤ key e

/-- A live leaf with its bound, behind the live leaves `before`. -/
structure LinkedAt (leaf : P → Option (Leaf P E)) (before : List (P × WithTop K)) (p : P)
    (u : WithTop K) (l : Leaf P E) : Prop where
  leaf_eq : leaf p = some l
  above : Above key before p l
  le_bound : ∀ e ∈ l.entries, key e ≤ u
  bound_le : ∀ b ∈ before, b.2 ≤ u
  next : Chain leaf (Above key (before ++ [(p, u)])) l.next

/-- All leaves of a sequence behind `before` are live. -/
def LinkedFrom (leaf : P → Option (Leaf P E)) : List (P × WithTop K) → List (P × WithTop K) → Prop
  | _, [] => True
  | before, z :: rest =>
    (∃ l, LinkedAt key leaf before z.1 z.2 l) ∧ LinkedFrom leaf (before ++ [z]) rest

/-- The sequence of live leaves, whose last bound admits every key. -/
structure Linked (leaf : P → Option (Leaf P E)) (seq : List (P × WithTop K)) : Prop where
  linked : LinkedFrom key leaf [] seq
  covers : ∃ z ∈ seq, z.2 = ⊤

/-- The live leaf a key is sent to. -/
def route (seq : List (P × WithTop K)) (k : K) : Option P :=
  (seq.find? fun z => (k : WithTop K) ≤ z.2).map Prod.fst

/-- What a search for `k` visits. -/
def Search (leaf : P → Option (Leaf P E)) (seq : List (P × WithTop K)) (k : K) (ps : List P) : Prop :=
  ∃ x, route seq k = some x ∧ Walk key leaf k (some x) ps

section Sequences

variable {key} {leaf leaf' : P → Option (Leaf P E)} {before before' seq seq' : List (P × WithTop K)}
  {p x : P} {u : WithTop K} {l : Leaf P E} {k : K} {o : Option P} {ps ws : List P}

lemma Above.anti (h : Above key before p l) (hs : ∀ b ∈ before', b ∈ before) :
    Above key before' p l :=
  ⟨fun b hb => h.ne b (hs b hb), fun b hb => h.le b (hs b hb)⟩

lemma linkedFrom_append : LinkedFrom key leaf before (seq ++ seq') ↔
    LinkedFrom key leaf before seq ∧ LinkedFrom key leaf (before ++ seq) seq' := by
  induction seq generalizing before with
  | nil => simp [LinkedFrom]
  | cons z seq ih =>
    simp only [List.cons_append, LinkedFrom, ih, and_assoc, List.append_assoc, List.nil_append]

lemma linkedFrom_singleton :
    LinkedFrom key leaf before [(x, u)] ↔ ∃ l, LinkedAt key leaf before x u l := by
  simp [LinkedFrom]

/-- A single leaf without a link. -/
lemma linked_single {es : List E} (h : leaf x = some ⟨es, none⟩) : Linked key leaf [(x, ⊤)] := by
  refine ⟨?_, (x, ⊤), by simp, rfl⟩
  apply linkedFrom_singleton.mpr
  exact ⟨⟨es, none⟩, h, ⟨by simp, by simp⟩, fun _ _ => le_top, by simp, .nil⟩

/-- The live leaf at one place of the sequence. -/
lemma LinkedFrom.getElem (h : LinkedFrom key leaf before seq) {i : Nat} {z : P × WithTop K}
    (hi : seq[i]? = some z) : ∃ l, LinkedAt key leaf (before ++ seq.take i) z.1 z.2 l := by
  induction seq generalizing before i with
  | nil => cases hi
  | cons y seq ih =>
    cases i with
    | zero =>
      have hz := Option.some.inj hi
      subst hz
      rw [List.take_zero, List.append_nil]
      exact h.1
    | succ i =>
      have hrest := ih h.2 hi
      rwa [List.append_assoc, List.singleton_append, ← List.take_succ_cons] at hrest

/-- The keys on the live leaves are in order. -/
lemma LinkedFrom.pairwise (h : LinkedFrom key leaf before seq) :
    (seq.map Prod.fst).Pairwise fun p q => ∀ l l', leaf p = some l → leaf q = some l' →
      ∀ e ∈ l.entries, ∀ e' ∈ l'.entries, key e ≤ key e' := by
  apply List.pairwise_map.mpr
  apply List.pairwise_iff_getElem.mpr
  intro i j hi hj hij l l' hl hl' e he e' he'
  have ⟨li, hi'⟩ := h.getElem (List.getElem?_eq_getElem hi)
  have ⟨lj, hj'⟩ := h.getElem (List.getElem?_eq_getElem hj)
  obtain rfl := Option.some.inj (hl.symm.trans hi'.leaf_eq)
  obtain rfl := Option.some.inj (hl'.symm.trans hj'.leaf_eq)
  have hmem : seq[i] ∈ before ++ seq.take j := by
    apply List.mem_append_right
    apply List.mem_of_getElem? (i := i)
    rw [List.getElem?_take_of_lt hij, List.getElem?_eq_getElem hi]
  exact WithTop.coe_le_coe.mp ((hi'.le_bound e he).trans (hj'.above.le _ hmem e' he'))

/-- A chain only depends on the leaves on it. -/
lemma Chain.congr {ok : P → Leaf P E → Prop} (h : Chain leaf ok o)
    (hok : ∀ p l, leaf p = some l → ok p l → leaf' p = leaf p) : Chain leaf' ok o := by
  induction h with
  | nil => exact .nil
  | cons hl hp _ ih => exact .cons ((hok _ _ hl hp).trans hl) hp ih

/-- The part of a sequence before a change: its chains may lead through changed leaves. -/
lemma LinkedFrom.patch (h : LinkedFrom key leaf before seq)
    (hp : ∀ p, leaf' p = leaf p ∨ Chain leaf' (Above key (before ++ seq)) (some p)) :
    LinkedFrom key leaf' before seq := by
  induction seq generalizing before with
  | nil => trivial
  | cons z rest ih =>
    obtain ⟨⟨l, hl⟩, hrest⟩ := h
    have hassoc : before ++ z :: rest = (before ++ [z]) ++ rest := by simp
    rw [hassoc] at hp
    have hz : leaf' z.1 = leaf z.1 := by
      rcases hp z.1 with heq | hchain
      · exact heq
      · cases hchain with
        | cons _ hab _ => exact absurd rfl (hab.ne z (by simp))
    refine ⟨⟨l, hz.trans hl.leaf_eq, hl.above, hl.le_bound, hl.bound_le, ?_⟩, ih hrest hp⟩
    apply hl.next.patch
    intro p
    apply (hp p).imp_right
    intro hchain
    exact hchain.mono fun p l _ hab => hab.anti fun b hb => List.mem_append_left _ hb

/-- The live leaves `before` have become `before'`. -/
structure Rebased (leaf leaf' : P → Option (Leaf P E)) (before before' : List (P × WithTop K)) :
    Prop where
  bound : ∀ b' ∈ before', ∃ b ∈ before, b'.2 ≤ b.2
  page : ∀ b' ∈ before', (∃ b ∈ before, b.1 = b'.1) ∨ leaf b'.1 = none
  frame : ∀ p l, leaf p = some l → (∀ b ∈ before, b.1 ≠ p) → leaf' p = leaf p

lemma Rebased.snoc (h : Rebased leaf leaf' before before') (z : P × WithTop K) :
    Rebased leaf leaf' (before ++ [z]) (before' ++ [z]) := by
  constructor
  · intro b' hb'
    rcases List.mem_append.mp hb' with hb' | hb'
    · obtain ⟨b, hb, hle⟩ := h.bound b' hb'
      exact ⟨b, List.mem_append_left _ hb, hle⟩
    · exact ⟨b', List.mem_append_right _ hb', le_rfl⟩
  · intro b' hb'
    rcases List.mem_append.mp hb' with hb' | hb'
    · apply (h.page b' hb').imp_left
      rintro ⟨b, hb, heq⟩
      exact ⟨b, List.mem_append_left _ hb, heq⟩
    · exact .inl ⟨b', List.mem_append_right _ hb', rfl⟩
  · intro p l hl hne
    exact h.frame p l hl fun b hb => hne b (List.mem_append_left _ hb)

lemma Rebased.above (h : Rebased leaf leaf' before before') (hl : leaf p = some l)
    (hab : Above key before p l) : Above key before' p l := by
  constructor
  · rintro b' hb' rfl
    rcases h.page b' hb' with ⟨b, hb, heq⟩ | hnone
    · exact hab.ne b hb heq
    · rw [hnone] at hl
      cases hl
  · intro b' hb' e he
    obtain ⟨b, hb, hle⟩ := h.bound b' hb'
    exact hle.trans (hab.le b hb e he)

lemma Rebased.chain (h : Rebased leaf leaf' before before') (hc : Chain leaf (Above key before) o) :
    Chain leaf' (Above key before') o := by
  induction hc with
  | nil => exact .nil
  | cons hl hab _ ih => exact .cons ((h.frame _ _ hl hab.ne).trans hl) (h.above hl hab) ih

/-- The part of a sequence behind a change. -/
lemma LinkedFrom.rebase (h : LinkedFrom key leaf before seq)
    (hr : Rebased leaf leaf' before before') : LinkedFrom key leaf' before' seq := by
  induction seq generalizing before before' with
  | nil => trivial
  | cons z rest ih =>
    obtain ⟨⟨l, hl⟩, hrest⟩ := h
    refine ⟨⟨l, ?_, hr.above hl.leaf_eq hl.above, hl.le_bound, ?_, (hr.snoc z).chain hl.next⟩,
      ih hrest (hr.snoc z)⟩
    · exact (hr.frame _ _ hl.leaf_eq hl.above.ne).trans hl.leaf_eq
    · intro b' hb'
      obtain ⟨b, hb, hle⟩ := hr.bound b' hb'
      exact hle.trans (hl.bound_le b hb)

end Sequences

end LeafChain

end RdbRs
