import Mathlib.Data.Prod.Lex
import RdbRs.Lib.LeafChainFuse

/-!
# Chains with unique keys

While no key is on two live leaves, the keys on a leaf are above every bound before it. This is
`Linked` once more, for bounds that are raised above the keys they admit. A search then finds what
the live leaves hold, wherever the links lead.
-/

namespace RdbRs

namespace LeafChain

variable {P E K : Type} {key : E → K} {leaf leaf' : P → Option (Leaf P E)}
  {before pre post seq seq' : List (P × WithTop K)} {p x a b : P} {u v ua ub : WithTop K}
  {l l' la lb : Leaf P E} {k : K} {e : E} {ps : List P}

/-- The entries on the live leaves. -/
def contents (leaf : P → Option (Leaf P E)) (seq : List (P × WithTop K)) : List E :=
  seq.flatMap fun z => (leaf z.1).elim [] Leaf.entries

/-- A key, below its bound. -/
def low (key : E → K) (e : E) : K ×ₗ Bool := toLex (key e, false)

/-- A bound, above the key it admits. -/
def raise (u : WithTop K) : WithTop (K ×ₗ Bool) := u.map fun k => toLex (k, true)

def raised (seq : List (P × WithTop K)) : List (P × WithTop (K ×ₗ Bool)) :=
  seq.map fun z => (z.1, raise z.2)

section Lists

@[simp] lemma raised_append : raised (pre ++ post) = raised pre ++ raised post := List.map_append

@[simp] lemma raised_cons : raised ((x, u) :: post) = (x, raise u) :: raised post := rfl

@[simp] lemma raised_nil : raised ([] : List (P × WithTop K)) = [] := rfl

lemma mem_raised {z : P × WithTop K} (hz : z ∈ seq) : (z.1, raise z.2) ∈ raised seq :=
  List.mem_map_of_mem hz

lemma exists_of_mem_raised {z : P × WithTop (K ×ₗ Bool)} (hz : z ∈ raised seq) :
    ∃ y ∈ seq, z = (y.1, raise y.2) := by
  have ⟨y, hy, heq⟩ := List.mem_map.mp hz
  exact ⟨y, hy, heq.symm⟩

lemma contents_append : contents leaf (pre ++ post) = contents leaf pre ++ contents leaf post :=
  List.flatMap_append

lemma contents_cons (hl : leaf x = some l) :
    contents leaf ((x, u) :: post) = l.entries ++ contents leaf post := by
  unfold contents
  rw [List.flatMap_cons, hl]
  rfl

lemma contents_congr (h : ∀ z ∈ seq, leaf' z.1 = leaf z.1) : contents leaf' seq = contents leaf seq := by
  unfold contents
  apply List.flatMap_congr
  intro z hz
  rw [h z hz]

lemma mem_contents : e ∈ contents leaf seq ↔ ∃ z ∈ seq, ∃ l, leaf z.1 = some l ∧ e ∈ l.entries := by
  unfold contents
  rw [List.mem_flatMap]
  constructor
  · intro ⟨z, hz, he⟩
    cases hl : leaf z.1 with
    | none =>
      rw [hl] at he
      cases he
    | some l =>
      rw [hl] at he
      exact ⟨z, hz, l, hl, he⟩
  · intro ⟨z, hz, l, hl, he⟩
    refine ⟨z, hz, ?_⟩
    rw [hl]
    exact he

end Lists

variable [LinearOrder K]

/-- No key is on the live leaves twice, and the leaves stay apart. -/
structure Unique (key : E → K) (leaf : P → Option (Leaf P E)) (seq : List (P × WithTop K)) : Prop where
  linked : Linked key leaf seq
  strict : Linked (low key) leaf (raised seq)
  nodup : ((contents leaf seq).map key).Nodup

section Raise

lemma low_le_raise : (low key e : WithTop (K ×ₗ Bool)) ≤ raise u ↔ (key e : WithTop K) ≤ u := by
  cases u with
  | top => simp [raise]
  | coe u =>
    rw [raise, WithTop.map_coe, WithTop.coe_le_coe, WithTop.coe_le_coe, low,
      Prod.Lex.toLex_le_toLex]
    simpa using le_iff_lt_or_eq.symm

lemma raise_le_low : raise u ≤ (low key e : WithTop (K ×ₗ Bool)) ↔ u < (key e : WithTop K) := by
  cases u with
  | top => simp [raise]
  | coe u =>
    rw [raise, WithTop.map_coe, WithTop.coe_le_coe, WithTop.coe_lt_coe, low,
      Prod.Lex.toLex_le_toLex]
    simp

lemma raise_le_raise : raise u ≤ raise v ↔ u ≤ v := by
  cases v with
  | top => simp [raise]
  | coe v =>
    cases u with
    | top => simp [raise]
    | coe u =>
      rw [raise, raise, WithTop.map_coe, WithTop.map_coe, WithTop.coe_le_coe, WithTop.coe_le_coe,
        Prod.Lex.toLex_le_toLex]
      simpa using le_iff_lt_or_eq.symm

end Raise

/-! ### What the live leaves hold -/

section Contents

/-- Entries before and behind a leaf are not touched by a change of this leaf. -/
lemma Linked.contents_pre (h : Linked key leaf (pre ++ (x, u) :: post))
    (hframe : ∀ q l, leaf q = some l → q ≠ x → leaf' q = leaf q) :
    contents leaf' pre = contents leaf pre := by
  apply contents_congr
  intro z hz
  have ⟨_, _, _, l, hl⟩ := h.at_mem (List.mem_append_left _ hz)
  have ⟨_, hx⟩ := h.at
  exact hframe z.1 l hl.leaf_eq (hx.above.ne z hz)

lemma Linked.contents_post (h : Linked key leaf (pre ++ (x, u) :: post))
    (hframe : ∀ q l, leaf q = some l → q ≠ x → leaf' q = leaf q) :
    contents leaf' post = contents leaf post := by
  apply contents_congr
  intro z hz
  have ⟨_, _, _, l, hl⟩ := h.at_mem (List.mem_append_right _ (List.mem_cons_of_mem _ hz))
  exact hframe z.1 l hl.leaf_eq (h.ne_of_mem_post hz)

end Contents

/-! ### Searches -/

section Searches

lemma Unique.at (h : Unique key leaf (pre ++ (x, u) :: post)) :
    ∃ l, LinkedAt key leaf pre x u l ∧ LinkedAt (low key) leaf (raised pre) x (raise u) l := by
  have ⟨l, hl⟩ := h.linked.at
  have hstrict := h.strict
  rw [raised_append, raised_cons] at hstrict
  have ⟨l', hl'⟩ := hstrict.at
  have heq := Option.some.inj (hl.leaf_eq.symm.trans hl'.leaf_eq)
  subst heq
  exact ⟨l, hl, hl'⟩

lemma unique_single (h : leaf x = some ⟨[], none⟩) : Unique key leaf [(x, ⊤)] := by
  refine ⟨linked_single h, linked_single h, ?_⟩
  rw [contents_cons h]
  exact List.nodup_nil

/-- The entries with a key are all on the leaf the key is sent to. -/
lemma Unique.entriesAt_contents (h : Unique key leaf (pre ++ (x, u) :: post)) (hl : leaf x = some l)
    (hlt : ∀ b ∈ pre, b.2 < (k : WithTop K)) (hle : (k : WithTop K) ≤ u) :
    entriesAt key k (contents leaf (pre ++ (x, u) :: post)) = entriesAt key k l.entries := by
  rw [contents_append, contents_cons hl, entriesAt_append, entriesAt_append]
  have hpre : entriesAt key k (contents leaf pre) = [] := by
    apply entriesAt_eq_nil
    intro e he heq
    have ⟨z, hz, lz, hlz, hmem⟩ := mem_contents.mp he
    have ⟨_, _, _, l', hl'⟩ := h.linked.at_mem (List.mem_append_left _ hz)
    have heql := Option.some.inj (hlz.symm.trans hl'.leaf_eq)
    subst heql heq
    exact absurd (hlt z hz) (not_lt.mpr (hl'.le_bound e hmem))
  have hpost : entriesAt key k (contents leaf post) = [] := by
    apply entriesAt_eq_nil
    intro e he heq
    have ⟨z, hz, lz, hlz, hmem⟩ := mem_contents.mp he
    have ⟨front, back, hback⟩ := List.append_of_mem hz
    subst hback heq
    have h' : Unique key leaf ((pre ++ (x, u) :: front) ++ z :: back) := by simpa using h
    have ⟨l', _, hstrict⟩ := h'.at
    have heql := Option.some.inj (hlz.symm.trans hstrict.leaf_eq)
    subst heql
    have hlow := hstrict.above.le (x, raise u) (by simp) e hmem
    exact absurd (raise_le_low.mp hlow) (not_lt.mpr hle)
  rw [hpre, hpost, List.nil_append, List.append_nil]

/-- A search finds the entries of the live leaves that have the key. -/
theorem Unique.found_eq (h : Unique key leaf seq) (hps : Search key leaf seq k ps) :
    found key leaf k ps = entriesAt key k (contents leaf seq) := by
  have ⟨x, hx, hw⟩ := hps
  have ⟨pre, u, post, hseq, hlt, hle⟩ := route_eq_some.mp hx
  subst hseq
  have ⟨l, hl, hstrict⟩ := h.at
  have ⟨ws, hws⟩ := hl.next.exists_walk key k
  have hnil : found key leaf k ws = [] := by
    apply List.flatMap_eq_nil_iff.mpr
    intro p hp
    have ⟨lp, hlp, hab⟩ := hstrict.next.of_mem_walk hws hp
    rw [foundOn_eq hlp]
    apply entriesAt_eq_nil
    intro e he heq
    subst heq
    have hlow := hab.le (x, raise u) (by simp) e he
    exact absurd (raise_le_low.mp hlow) (not_lt.mpr hle)
  rw [hl.found_eq hws hw, hnil, List.append_nil, h.entriesAt_contents hl.leaf_eq hlt hle]

end Searches

/-! ### Changes -/

section Changes

/-- The changed leaf stays apart from those before it when its new entries do. -/
lemma Rewritten.strict (h : Rewritten key leaf leaf' pre x u l l')
    (hx : LinkedAt (low key) leaf (raised pre) x (raise u) l)
    (hlt : ∀ z ∈ pre, ∀ e ∈ l'.entries, z.2 < key e) :
    Rewritten (low key) leaf leaf' (raised pre) x (raise u) l l' := by
  refine ⟨hx, h.new, h.frame, ?_, ?_, h.next⟩
  · intro e he
    exact low_le_raise.mpr (h.le_bound e he)
  · intro y hy e he
    have ⟨z, hz, heq⟩ := exists_of_mem_raised hy
    subst heq
    exact raise_le_low.mpr (hlt z hz e he)

lemma LinkedAt.lt_of_low (hx : LinkedAt (low key) leaf (raised pre) x (raise u) l) :
    ∀ z ∈ pre, ∀ e ∈ l.entries, z.2 < key e := by
  intro z hz e he
  exact raise_le_low.mp (hx.above.le _ (mem_raised hz) e he)

lemma Split.strict {lo hi : List E} {sep : K} (h : Split key leaf leaf' pre x u l e a b lo hi sep)
    (hx : LinkedAt (low key) leaf (raised pre) x (raise u) l)
    (hnodup : ((lo ++ hi).map key).Nodup) :
    Parted (low key) leaf leaf' (raised pre) x (raise u) l a b lo hi (raise sep) := by
  have hlt : ∀ z ∈ pre, ∀ c ∈ lo ++ hi, z.2 < key c := by
    intro z hz c hc
    rcases List.mem_append.mp (h.perm.mem_iff.mp hc) with hc | hc
    · exact hx.lt_of_low z hz c hc
    · rw [List.mem_singleton.mp hc]
      exact h.lt_new z hz
  refine ⟨hx, h.ne, h.fresh_left, h.fresh_right, h.new_left, h.new_right, h.frame, ?_, ?_, ?_, ?_,
    ?_, ?_, ?_⟩
  · apply h.keep.imp_left
    intro hpre
    rw [hpre, raised_nil]
  · intro c hc
    exact low_le_raise.mpr (WithTop.coe_le_coe.mpr (h.lo_le c hc))
  · intro c hc
    apply raise_le_low.mpr
    apply WithTop.coe_lt_coe.mpr
    apply lt_of_le_of_ne (h.le_hi c hc)
    intro heq
    have ⟨d, hd, hsep⟩ := h.sep_mem
    rw [List.map_append] at hnodup
    exact List.disjoint_of_nodup_append hnodup (List.mem_map_of_mem hd)
      (by rw [hsep, heq]; exact List.mem_map_of_mem hc)
  · exact raise_le_raise.mpr h.parted.sep_le
  · intro y hy
    have ⟨z, hz, heq⟩ := exists_of_mem_raised hy
    subst heq
    exact raise_le_raise.mpr (h.parted.le_sep z hz)
  · intro c hc
    exact low_le_raise.mpr (h.le_bound (List.mem_append_right _ hc))
  · intro c hc y hy
    have ⟨z, hz, heq⟩ := exists_of_mem_raised hy
    subst heq
    exact raise_le_low.mpr (hlt z hz c (List.mem_append_left _ hc))

lemma Fused.strict (h : Fused key leaf leaf' pre a ua la b ub lb l')
    (ha : LinkedAt (low key) leaf (raised pre) a (raise ua) la)
    (hb : LinkedAt (low key) leaf (raised (pre ++ [(a, ua)])) b (raise ub) lb)
    (hm : ∀ e ∈ l'.entries, e ∈ la.entries ∨ e ∈ lb.entries) :
    Fused (low key) leaf leaf' (raised pre) a (raise ua) la b (raise ub) lb l' := by
  refine ⟨ha, by simpa using hb, h.new_left, h.new_right, h.frame, ?_, ?_, h.next⟩
  · intro e he
    exact low_le_raise.mpr (h.le_bound e he)
  · intro y hy e he
    have ⟨z, hz, heq⟩ := exists_of_mem_raised hy
    subst heq
    apply raise_le_low.mpr
    rcases hm e he with he | he
    · exact ha.lt_of_low z hz e he
    · exact hb.lt_of_low z (List.mem_append_left _ hz) e he

/-- The entry `e` is removed from the live leaf it is sent to, which may be fused with a neighbour. -/
inductive Shrunk (key : E → K) (leaf leaf' : P → Option (Leaf P E)) (e : E) :
    List (P × WithTop K) → List (P × WithTop K) → Prop where
  | erase {pre post : List (P × WithTop K)} {x : P} {u : WithTop K} {l l' : Leaf P E} :
      Rewritten key leaf leaf' pre x u l l' → l.entries.Perm (e :: l'.entries) →
      Shrunk key leaf leaf' e (pre ++ (x, u) :: post) (pre ++ (x, u) :: post)
  | fuse {pre post : List (P × WithTop K)} {a b : P} {ua ub : WithTop K} {la lb l' : Leaf P E} :
      Fused key leaf leaf' pre a ua la b ub lb l' →
      (la.entries ++ lb.entries).Perm (e :: l'.entries) →
      Shrunk key leaf leaf' e (pre ++ (a, ua) :: (b, ub) :: post) (pre ++ (a, ub) :: post)

/-- The live leaves hold one more entry. -/
lemma Grown.contents (h : Grown key leaf leaf' e seq seq') (hs : Linked key leaf seq) :
    (contents leaf' seq').Perm (e :: contents leaf seq) := by
  cases h with
  | append h _ =>
    have hframe : ∀ q l, leaf q = some l → q ≠ _ → leaf' q = leaf q := fun q _ _ hq => h.frame q hq
    rw [contents_append, contents_append, contents_cons h.new, contents_cons h.old.leaf_eq,
      hs.contents_pre hframe, hs.contents_post hframe]
    classical
    rw [List.perm_iff_count]
    intro c
    simp only [List.count_append, List.count_cons, List.count_nil]
    omega
  | split h =>
    have hframe : ∀ q l, leaf q = some l → q ≠ _ → leaf' q = leaf q :=
      fun q l hl hq => h.parted.frame_of_leaf hl hq
    rw [contents_append, contents_append, contents_cons h.new_left, contents_cons h.new_right,
      contents_cons h.old.leaf_eq, hs.contents_pre hframe, hs.contents_post hframe]
    classical
    rw [List.perm_iff_count]
    intro c
    have hcount := h.perm.count_eq c
    simp only [List.count_append, List.count_cons, List.count_nil] at hcount ⊢
    omega

/-- The live leaves hold one entry less. -/
lemma Shrunk.contents (h : Shrunk key leaf leaf' e seq seq') (hs : Linked key leaf seq) :
    (contents leaf seq).Perm (e :: contents leaf' seq') := by
  cases h with
  | erase h hperm =>
    have hframe : ∀ q l, leaf q = some l → q ≠ _ → leaf' q = leaf q := fun q _ _ hq => h.frame q hq
    rw [contents_append, contents_append, contents_cons h.new, contents_cons h.old.leaf_eq,
      hs.contents_pre hframe, hs.contents_post hframe]
    classical
    rw [List.perm_iff_count]
    intro c
    have hcount := hperm.count_eq c
    simp only [List.count_append, List.count_cons] at hcount ⊢
    omega
  | @fuse pre post a b ua ub la lb l' h hperm =>
    have hs' : Linked key leaf ((pre ++ [(a, ua)]) ++ (b, ub) :: post) := by simpa using hs
    have hpre : LeafChain.contents leaf' pre = LeafChain.contents leaf pre := by
      apply contents_congr
      intro z hz
      exact h.frame z.1 (h.left.above.ne z hz) (h.right.above.ne z (List.mem_append_left _ hz))
    have hpost : LeafChain.contents leaf' post = LeafChain.contents leaf post := by
      apply contents_congr
      intro z hz
      exact h.frame z.1 (hs.ne_of_mem_post (List.mem_cons_of_mem _ hz)) (hs'.ne_of_mem_post hz)
    rw [contents_append, contents_append, contents_cons h.new_left, contents_cons h.left.leaf_eq,
      contents_cons h.right.leaf_eq, hpre, hpost]
    classical
    rw [List.perm_iff_count]
    intro c
    have hcount := hperm.count_eq c
    simp only [List.count_append, List.count_cons] at hcount ⊢
    omega

/-- A key that is not on the live leaves may be added. -/
theorem Grown.unique (h : Grown key leaf leaf' e seq seq') (hs : Unique key leaf seq)
    (hnew : ∀ c ∈ LeafChain.contents leaf seq, key c ≠ key e) : Unique key leaf' seq' := by
  have hperm := h.contents hs.linked
  have hnodup : ((LeafChain.contents leaf' seq').map key).Nodup := by
    apply (hperm.map key).nodup_iff.mpr
    rw [List.map_cons, List.nodup_cons]
    refine ⟨?_, hs.nodup⟩
    intro hmem
    have ⟨c, hc, heq⟩ := List.mem_map.mp hmem
    exact hnew c hc heq
  refine ⟨h.linked hs.linked, ?_, hnodup⟩
  have hstrict := hs.strict
  cases h with
  | append h hlt =>
    have ⟨_, hl, hx⟩ := hs.at
    have heq := Option.some.inj (h.old.leaf_eq.symm.trans hl.leaf_eq)
    subst heq
    rw [raised_append, raised_cons] at hstrict ⊢
    apply (h.strict hx ?_).linked hstrict
    intro z hz c hc
    rcases List.mem_append.mp hc with hc | hc
    · exact hx.lt_of_low z hz c hc
    · rw [List.mem_singleton.mp hc]
      exact hlt z hz
  | split h =>
    have ⟨_, hl, hx⟩ := hs.at
    have heq := Option.some.inj (h.old.leaf_eq.symm.trans hl.leaf_eq)
    subst heq
    rw [raised_append, raised_cons] at hstrict
    rw [raised_append, raised_cons, raised_cons]
    apply (h.strict hx ?_).linked hstrict
    rw [contents_append, contents_cons h.new_left, contents_cons h.new_right] at hnodup
    apply List.Nodup.sublist _ hnodup
    apply List.Sublist.map
    apply List.Sublist.trans _ (List.sublist_append_right _ _)
    exact List.Sublist.append_left (List.sublist_append_left _ _) _

theorem Shrunk.unique (h : Shrunk key leaf leaf' e seq seq') (hs : Unique key leaf seq) :
    Unique key leaf' seq' := by
  have hperm := h.contents hs.linked
  have hnodup : ((LeafChain.contents leaf' seq').map key).Nodup := by
    have := (hperm.map key).nodup_iff.mp hs.nodup
    rw [List.map_cons] at this
    exact (List.nodup_cons.mp this).2
  have hstrict := hs.strict
  cases h with
  | erase h hentries =>
    have ⟨_, hl, hx⟩ := hs.at
    have heq := Option.some.inj (h.old.leaf_eq.symm.trans hl.leaf_eq)
    subst heq
    refine ⟨h.linked hs.linked, ?_, hnodup⟩
    rw [raised_append, raised_cons] at hstrict ⊢
    apply (h.strict hx ?_).linked hstrict
    intro z hz c hc
    exact hx.lt_of_low z hz c (hentries.mem_iff.mpr (List.mem_cons_of_mem _ hc))
  | @fuse pre post a b ua ub la lb l' h hentries =>
    have ⟨_, hl, ha⟩ := hs.at
    have heq := Option.some.inj (h.left.leaf_eq.symm.trans hl.leaf_eq)
    subst heq
    have hs' : Unique key leaf ((pre ++ [(a, ua)]) ++ (b, ub) :: post) := by simpa using hs
    have ⟨_, hl', hb⟩ := hs'.at
    have heq := Option.some.inj (h.right.leaf_eq.symm.trans hl'.leaf_eq)
    subst heq
    refine ⟨h.linked hs.linked, ?_, hnodup⟩
    rw [raised_append, raised_cons, raised_cons] at hstrict
    rw [raised_append, raised_cons]
    apply (h.strict ha hb ?_).linked hstrict
    intro c hc
    exact List.mem_append.mp (hentries.mem_iff.mpr (List.mem_cons_of_mem _ hc))

end Changes

end LeafChain

end RdbRs
