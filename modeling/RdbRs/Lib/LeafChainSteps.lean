import RdbRs.Lib.LeafChain

/-!
# Changes of a chain of leaves

A leaf is rewritten, split into two fresh leaves, or fused with the live leaf behind it. Each
change keeps the leaves linked, and what a search finds afterwards is compared with what it found
before.
-/

namespace RdbRs

namespace LeafChain

variable {P E K : Type} [LinearOrder K] {key : E → K} {leaf leaf' : P → Option (Leaf P E)}
  {before pre post seq : List (P × WithTop K)} {p x : P} {u : WithTop K} {l l' : Leaf P E}
  {k j : K} {ps ws : List P}

/-! ### Searches -/

lemma route_eq_some : route seq k = some x ↔ ∃ pre u post, seq = pre ++ (x, u) :: post ∧
    (∀ b ∈ pre, b.2 < (k : WithTop K)) ∧ (k : WithTop K) ≤ u := by
  unfold route
  rw [Option.map_eq_some_iff]
  constructor
  · rintro ⟨⟨y, u⟩, hfind, rfl⟩
    obtain ⟨hle, pre, post, rfl, hpre⟩ := List.find?_eq_some_iff_append.mp hfind
    exact ⟨pre, u, post, rfl, by simpa using hpre, by simpa using hle⟩
  · rintro ⟨pre, u, post, rfl, hpre, hle⟩
    refine ⟨(x, u), ?_, rfl⟩
    apply List.find?_eq_some_iff_append.mpr
    exact ⟨by simpa using hle, pre, post, rfl, by simpa using hpre⟩

lemma route_of_le (hpre : ∀ b ∈ pre, b.2 < (k : WithTop K)) (hle : (k : WithTop K) ≤ u) :
    route (pre ++ (x, u) :: post) k = some x :=
  route_eq_some.mpr ⟨pre, u, post, rfl, hpre, hle⟩

lemma route_append : route (pre ++ post) k = (route pre k).or (route post k) := by
  simp only [route, List.find?_append]
  cases List.find? (fun z => decide ((k : WithTop K) ≤ z.2)) pre <;> rfl

lemma route_cons : route ((x, u) :: post) k = if (k : WithTop K) ≤ u then some x else route post k := by
  by_cases hle : (k : WithTop K) ≤ u <;> simp [route, hle]

lemma route_eq_none : route seq k = none ↔ ∀ z ∈ seq, z.2 < (k : WithTop K) := by
  simp [route]

lemma Linked.at (h : Linked key leaf (pre ++ (x, u) :: post)) :
    ∃ l, LinkedAt key leaf pre x u l := by
  have := (linkedFrom_append.mp h.linked).2
  exact this.1

lemma Linked.exists_route (h : Linked key leaf seq) (k : K) : ∃ x, route seq k = some x := by
  obtain ⟨z, hz, htop⟩ := h.covers
  have hsome : (seq.find? fun z => decide ((k : WithTop K) ≤ z.2)).isSome := by
    apply List.find?_isSome.mpr
    exact ⟨z, hz, by simp [htop]⟩
  obtain ⟨y, hy⟩ := Option.isSome_iff_exists.mp hsome
  exact ⟨y.1, by rw [route, hy, Option.map_some]⟩

/-- What lies behind a live leaf is not below its bound. -/
lemma LinkedAt.found_next_nil (h : LinkedAt key leaf before x u l) (hw : Walk key leaf k l.next ws)
    (hk : (k : WithTop K) < u) : found key leaf k ws = [] := by
  apply List.flatMap_eq_nil_iff.mpr
  intro p hp
  obtain ⟨lp, hlp, hab⟩ := h.next.of_mem_walk hw hp
  rw [foundOn_eq hlp]
  apply entriesAt_eq_nil
  rintro e he rfl
  have hle := hab.le (x, u) (by simp) e he
  exact absurd hk (not_lt.mpr hle)

/-- A search that comes to a live leaf finds its entries and what the link leads to. -/
lemma LinkedAt.walk (h : LinkedAt key leaf before x u l) (hw : Walk key leaf k l.next ws) :
    ∃ rs, Walk key leaf k (some x) (x :: rs) ∧
      found key leaf k (x :: rs) = entriesAt key k l.entries ++ found key leaf k ws := by
  apply Walk.cons h.leaf_eq hw
  rintro ⟨e, he, hlt⟩
  exact h.found_next_nil hw ((WithTop.coe_lt_coe.mpr hlt).trans_le (h.le_bound e he))

lemma Walk.head_mem (hw : Walk key leaf k (some x) ps) : x ∈ ps := by
  cases hw <;> exact List.mem_cons_self

lemma LinkedAt.found_eq (h : LinkedAt key leaf before x u l) (hw : Walk key leaf k l.next ws)
    (hx : Walk key leaf k (some x) ps) :
    found key leaf k ps = entriesAt key k l.entries ++ found key leaf k ws := by
  obtain ⟨rs, hrs, hfound⟩ := h.walk hw
  rw [hx.unique hrs, hfound]

/-- Every search ends. -/
lemma Linked.exists_search (h : Linked key leaf seq) (k : K) : ∃ ps, Search key leaf seq k ps := by
  obtain ⟨x, hx⟩ := h.exists_route k
  obtain ⟨pre, u, post, rfl, -, -⟩ := route_eq_some.mp hx
  obtain ⟨l, hl⟩ := h.at
  obtain ⟨ws, hws⟩ := hl.next.exists_walk key k
  obtain ⟨rs, hrs, -⟩ := hl.walk hws
  exact ⟨_, x, hx, hrs⟩

/-- A search only visits the leaf it starts at and leaves that are none of those before it. -/
lemma Linked.not_mem_search (h : Linked key leaf (pre ++ (x, u) :: post))
    (hw : Walk key leaf k (some x) ps) {b : P × WithTop K} (hb : b ∈ pre) : b.1 ∉ ps := by
  intro hmem
  obtain ⟨l, hl⟩ := h.at
  have hchain : Chain leaf (Above key pre) (some x) := by
    refine .cons hl.leaf_eq hl.above ?_
    exact hl.next.mono fun p l _ hab => hab.anti fun b hb => List.mem_append_left _ hb
  obtain ⟨l', -, hab⟩ := hchain.of_mem_walk hw hmem
  exact hab.ne b hb rfl

lemma Linked.at_mem (h : Linked key leaf seq) {z : P × WithTop K} (hz : z ∈ seq) :
    ∃ pre post, seq = pre ++ z :: post ∧ ∃ l, LinkedAt key leaf pre z.1 z.2 l := by
  have ⟨pre, post, hseq⟩ := List.append_of_mem hz
  subst hseq
  exact ⟨pre, post, rfl, h.at⟩

/-- The live leaves behind one are different leaves. -/
lemma Linked.ne_of_mem_post (h : Linked key leaf (pre ++ (x, u) :: post)) {z : P × WithTop K}
    (hz : z ∈ post) : z.1 ≠ x := by
  have ⟨front, back, hpost⟩ := List.append_of_mem hz
  subst hpost
  have h' : Linked key leaf ((pre ++ (x, u) :: front) ++ z :: back) := by simpa using h
  have ⟨l, hl⟩ := h'.at
  exact (hl.above.ne (x, u) (by simp)).symm

/-! ### Splicing -/

lemma Linked.splice (mid mid' : List (P × WithTop K)) (h : Linked key leaf (pre ++ (mid ++ post)))
    (hpre : LinkedFrom key leaf' [] pre) (hmid : LinkedFrom key leaf' pre mid')
    (hpost : Rebased leaf leaf' (pre ++ mid) (pre ++ mid'))
    (hcovers : (∃ z ∈ mid, z.2 = ⊤) → ∃ z ∈ mid', z.2 = ⊤) :
    Linked key leaf' (pre ++ (mid' ++ post)) := by
  obtain ⟨hlinked, z, hz, htop⟩ := h
  rw [← List.append_assoc] at hlinked
  constructor
  · apply linkedFrom_append.mpr
    refine ⟨hpre, ?_⟩
    apply linkedFrom_append.mpr
    refine ⟨hmid, ?_⟩
    exact (linkedFrom_append.mp hlinked).2.rebase hpost
  · simp only [List.mem_append] at hz ⊢
    rcases hz with hz | hz | hz
    · exact ⟨z, .inl hz, htop⟩
    · obtain ⟨z', hz', htop'⟩ := hcovers ⟨z, hz, htop⟩
      exact ⟨z', .inr (.inl hz'), htop'⟩
    · exact ⟨z, .inr (.inr hz), htop⟩

lemma Linked.linkedFrom_pre (h : Linked key leaf (pre ++ post)) : LinkedFrom key leaf [] pre :=
  (linkedFrom_append.mp h.linked).1

/-! ### Rewriting a leaf -/

/-- The live leaf `x` has new entries. Its link is kept or cut. -/
structure Rewritten (key : E → K) (leaf leaf' : P → Option (Leaf P E)) (pre : List (P × WithTop K))
    (x : P) (u : WithTop K) (l l' : Leaf P E) : Prop where
  old : LinkedAt key leaf pre x u l
  new : leaf' x = some l'
  frame : ∀ p, p ≠ x → leaf' p = leaf p
  le_bound : ∀ e ∈ l'.entries, key e ≤ u
  bound_le : ∀ b ∈ pre, ∀ e ∈ l'.entries, b.2 ≤ key e
  next : l'.next = l.next ∨ l'.next = none

lemma Rewritten.linkedAt (h : Rewritten key leaf leaf' pre x u l l') :
    LinkedAt key leaf' pre x u l' := by
  refine ⟨h.new, ⟨h.old.above.ne, h.bound_le⟩, h.le_bound, h.old.bound_le, ?_⟩
  rcases h.next with hn | hn
  · rw [hn]
    apply h.old.next.congr
    intro p _ _ hab
    exact h.frame p (hab.ne (x, u) (by simp)).symm
  · rw [hn]
    exact .nil

lemma Rewritten.linked (h : Rewritten key leaf leaf' pre x u l l')
    (hs : Linked key leaf (pre ++ (x, u) :: post)) : Linked key leaf' (pre ++ (x, u) :: post) := by
  have hx := h.linkedAt
  have hpre : LinkedFrom key leaf' [] pre := by
    apply hs.linkedFrom_pre.patch
    intro p
    by_cases hp : p = x
    · subst hp
      apply Or.inr
      refine .cons hx.leaf_eq hx.above ?_
      exact hx.next.mono fun p l _ hab => hab.anti fun b hb => List.mem_append_left _ hb
    · exact .inl (h.frame p hp)
  apply hs.splice [(x, u)] [(x, u)] hpre (linkedFrom_singleton.mpr ⟨l', hx⟩)
  · refine ⟨fun b hb => ⟨b, hb, le_rfl⟩, fun b hb => .inl ⟨b, hb, rfl⟩, ?_⟩
    intro p _ _ hne
    exact h.frame p (hne (x, u) (by simp)).symm
  · exact id

/-- What the searches that come to the leaf find, and that the others find what they found. -/
lemma Rewritten.search (h : Rewritten key leaf leaf' pre x u l l')
    (hps : Search key leaf seq j ps) : ∃ ps', Search key leaf' seq j ps' ∧
      ((x ∉ ps ∧ found key leaf' j ps' = found key leaf j ps) ∨
        (x ∈ ps ∧ ∃ front ws ns, Walk key leaf j l.next ws ∧ Walk key leaf j l'.next ns ∧
          found key leaf j ps = front ++ (entriesAt key j l.entries ++ found key leaf j ws) ∧
          found key leaf' j ps' = front ++ (entriesAt key j l'.entries ++ found key leaf j ns))) := by
  obtain ⟨y, hy, hw⟩ := hps
  by_cases hx : x ∈ ps
  · obtain ⟨qs, rs, rfl, hqs⟩ := List.eq_append_cons_of_mem hx
    obtain ⟨ws, hws⟩ := h.old.next.exists_walk key j
    obtain ⟨ns, hns, hns'⟩ : ∃ ns, Walk key leaf j l'.next ns ∧ ∀ p ∈ ns, leaf' p = leaf p := by
      rcases h.next with hn | hn
      · refine ⟨ws, by rwa [hn], ?_⟩
        intro p hp
        obtain ⟨_, _, hab⟩ := h.old.next.of_mem_walk hws hp
        exact h.frame p (hab.ne (x, u) (by simp)).symm
      · exact ⟨[], by rw [hn]; exact .nil, by simp⟩
    have hframe : ∀ p ∈ qs, leaf' p = leaf p := by
      intro p hp
      apply h.frame
      rintro rfl
      exact hqs hp
    obtain ⟨rs', hrs', hfound'⟩ := h.linkedAt.walk (hns.congr hns')
    refine ⟨_, ⟨y, hy, hw.replace hframe hrs'⟩, .inr ⟨hx, found key leaf j qs, ws, ns, hws, hns, ?_, ?_⟩⟩
    · rw [found_append, h.old.found_eq hws hw.suffix]
    · rw [found_append, found_congr hframe, hfound', found_congr hns']
  · have hframe : ∀ p ∈ ps, leaf' p = leaf p := by
      intro p hp
      apply h.frame
      rintro rfl
      exact hx hp
    exact ⟨ps, ⟨y, hy, hw.congr hframe⟩, .inl ⟨hx, found_congr hframe⟩⟩

/-- A search after an entry has been appended to the leaf its key is sent to. -/
lemma Rewritten.search_append {e : E} (h : Rewritten key leaf leaf' pre x u l l')
    (hentries : l'.entries = l.entries ++ [e]) (hnext : l'.next = l.next)
    (hroute : route seq (key e) = some x) (hps : Search key leaf seq j ps) :
    ∃ ps', Search key leaf' seq j ps' ∧
      (found key leaf' j ps').Perm (found key leaf j ps ++ if key e = j then [e] else []) := by
  obtain ⟨ps', hps', hfound⟩ := h.search hps
  refine ⟨ps', hps', ?_⟩
  rcases hfound with ⟨hx, hfound⟩ | ⟨-, front, ws, ns, hws, hns, hfound, hfound'⟩
  · have hne : key e ≠ j := by
      rintro rfl
      obtain ⟨y, hy, hw⟩ := hps
      obtain rfl := Option.some.inj (hy.symm.trans hroute)
      exact hx hw.head_mem
    rw [hfound, if_neg hne, List.append_nil]
  · rw [hnext] at hns
    obtain rfl := hws.unique hns
    rw [hfound, hfound', hentries, entriesAt_append, entriesAt_singleton, List.append_assoc,
      List.append_assoc, List.append_assoc]
    apply List.Perm.append_left
    apply List.Perm.append_left
    exact List.perm_append_comm

lemma entriesAt_of_perm_cons (key : E → K) (j : K) {e : E} {es es' : List E} (h : es.Perm (e :: es')) :
    (entriesAt key j es).Perm ((if key e = j then [e] else []) ++ entriesAt key j es') := by
  have h' := entriesAt_perm key j h
  rwa [← List.singleton_append, entriesAt_append, entriesAt_singleton] at h'

/-- A search after an entry has been removed and the link cut: what lay behind the leaf is lost. -/
lemma Rewritten.search_remove {e : E} (h : Rewritten key leaf leaf' pre x u l l')
    (hentries : l.entries.Perm (e :: l'.entries)) (hnext : l'.next = none)
    (hroute : route seq (key e) = some x) (hps : Search key leaf seq j ps) :
    ∃ ps', Search key leaf' seq j ps' ∧
      ((x ∉ ps ∧ key e ≠ j ∧ found key leaf' j ps' = found key leaf j ps) ∨
        (x ∈ ps ∧ ∃ ws, Walk key leaf j l.next ws ∧ (found key leaf j ps).Perm
          ((if key e = j then [e] else []) ++ found key leaf' j ps' ++ found key leaf j ws))) := by
  obtain ⟨ps', hps', hfound⟩ := h.search hps
  refine ⟨ps', hps', ?_⟩
  rcases hfound with ⟨hx, hfound⟩ | ⟨hx, front, ws, ns, hws, hns, hfound, hfound'⟩
  · refine .inl ⟨hx, ?_, hfound⟩
    rintro rfl
    obtain ⟨y, hy, hw⟩ := hps
    obtain rfl := Option.some.inj (hy.symm.trans hroute)
    exact hx hw.head_mem
  · refine .inr ⟨hx, ws, hws, ?_⟩
    rw [hnext] at hns
    cases hns
    rw [hfound, hfound', found_nil, List.append_nil]
    -- both sides have the same number of copies of each entry
    classical
    rw [List.perm_iff_count]
    intro c
    have hcount := (entriesAt_of_perm_cons key j hentries).count_eq c
    simp only [List.count_append] at hcount ⊢
    omega

/-! ### Splitting a leaf -/

/-- The live leaf `x` is replaced by two fresh leaves with the bounds `v` and `u`. The old leaf is no
longer live, but leaves before it may still link to it. -/
structure Parted (key : E → K) (leaf leaf' : P → Option (Leaf P E)) (pre : List (P × WithTop K))
    (x : P) (u : WithTop K) (l : Leaf P E) (a b : P) (lo hi : List E) (v : WithTop K) : Prop where
  old : LinkedAt key leaf pre x u l
  ne : a ≠ b
  fresh_left : leaf a = none
  fresh_right : leaf b = none
  new_left : leaf' a = some ⟨lo, some b⟩
  new_right : leaf' b = some ⟨hi, l.next⟩
  frame : ∀ p, p ≠ a → p ≠ b → p ≠ x → leaf' p = leaf p
  keep : pre = [] ∨ leaf' x = leaf x
  lo_le : ∀ c ∈ lo, key c ≤ v
  le_hi : ∀ c ∈ hi, v ≤ key c
  sep_le : v ≤ u
  le_sep : ∀ z ∈ pre, z.2 ≤ v
  le_bound : ∀ c ∈ hi, key c ≤ u
  bound_le : ∀ c ∈ lo, ∀ z ∈ pre, z.2 ≤ key c

section Parted

variable {a b : P} {lo hi : List E} {v : WithTop K}

/-- The fresh leaves are none of those that were there. -/
lemma Parted.ne_of_leaf (h : Parted key leaf leaf' pre x u l a b lo hi v)
    (hp : ∃ l, leaf p = some l) : p ≠ a ∧ p ≠ b := by
  have ⟨lp, hlp⟩ := hp
  constructor
  · intro heq
    rw [heq, h.fresh_left] at hlp
    cases hlp
  · intro heq
    rw [heq, h.fresh_right] at hlp
    cases hlp

lemma Parted.ne_of_mem (h : Parted key leaf leaf' pre x u l a b lo hi v)
    (hs : LinkedFrom key leaf [] pre) {z : P × WithTop K} (hz : z ∈ pre) : z.1 ≠ a ∧ z.1 ≠ b := by
  obtain ⟨front, back, rfl⟩ := List.append_of_mem hz
  obtain ⟨⟨lz, hlz⟩, -⟩ := (linkedFrom_append.mp hs).2
  exact h.ne_of_leaf ⟨lz, hlz.leaf_eq⟩

/-- Only the old leaf and leaves that were not there may change. -/
lemma Parted.frame_of_leaf (h : Parted key leaf leaf' pre x u l a b lo hi v)
    (hl : leaf p = some l') (hx : p ≠ x) : leaf' p = leaf p := by
  have ⟨ha, hb⟩ := h.ne_of_leaf ⟨l', hl⟩
  exact h.frame p ha hb hx

lemma Parted.rebased (h : Parted key leaf leaf' pre x u l a b lo hi v) :
    Rebased leaf leaf' (pre ++ [(x, u)]) (pre ++ [(a, v), (b, u)]) := by
  constructor
  · simp only [List.mem_append, List.mem_cons, List.not_mem_nil, or_false]
    rintro z (hz | rfl | rfl)
    · exact ⟨z, .inl hz, le_rfl⟩
    · exact ⟨(x, u), .inr rfl, h.sep_le⟩
    · exact ⟨(x, u), .inr rfl, le_rfl⟩
  · simp only [List.mem_append, List.mem_cons, List.not_mem_nil, or_false]
    rintro z (hz | rfl | rfl)
    · exact .inl ⟨z, .inl hz, rfl⟩
    · exact .inr h.fresh_left
    · exact .inr h.fresh_right
  · intro p l hl hne
    exact h.frame_of_leaf hl (hne (x, u) (by simp)).symm

lemma Parted.linkedAt_right (h : Parted key leaf leaf' pre x u l a b lo hi v)
    (hs : LinkedFrom key leaf [] pre) : LinkedAt key leaf' (pre ++ [(a, v)]) b u ⟨hi, l.next⟩ := by
  refine ⟨h.new_right, ⟨?_, ?_⟩, h.le_bound, ?_, ?_⟩
  · intro z hz
    rcases List.mem_append.mp hz with hz | hz
    · exact (h.ne_of_mem hs hz).2
    · rw [List.mem_singleton.mp hz]
      exact h.ne
  · intro z hz c hc
    rcases List.mem_append.mp hz with hz | hz
    · exact (h.le_sep z hz).trans (h.le_hi c hc)
    · rw [List.mem_singleton.mp hz]
      exact h.le_hi c hc
  · intro z hz
    rcases List.mem_append.mp hz with hz | hz
    · exact h.old.bound_le z hz
    · rw [List.mem_singleton.mp hz]
      exact h.sep_le
  · rw [List.append_assoc]
    exact h.rebased.chain h.old.next

lemma Parted.linkedAt_left (h : Parted key leaf leaf' pre x u l a b lo hi v)
    (hs : LinkedFrom key leaf [] pre) : LinkedAt key leaf' pre a v ⟨lo, some b⟩ := by
  refine ⟨h.new_left, ⟨fun z hz => (h.ne_of_mem hs hz).1, ?_⟩, h.lo_le, h.le_sep, ?_⟩
  · exact fun z hz c hc => h.bound_le c hc z hz
  · have hb := h.linkedAt_right hs
    refine .cons hb.leaf_eq hb.above ?_
    exact hb.next.mono fun p l _ hab => hab.anti fun z hz => List.mem_append_left _ hz

lemma Parted.linked (h : Parted key leaf leaf' pre x u l a b lo hi v)
    (hs : Linked key leaf (pre ++ (x, u) :: post)) :
    Linked key leaf' (pre ++ (a, v) :: (b, u) :: post) := by
  have hlinked := hs.linkedFrom_pre
  have hleft := h.linkedAt_left hlinked
  have hright := h.linkedAt_right hlinked
  have hpre : LinkedFrom key leaf' [] pre := by
    rcases h.keep with rfl | hkeep
    · trivial
    apply hlinked.patch
    intro p
    by_cases ha : p = a
    · subst ha
      apply Or.inr
      refine .cons hleft.leaf_eq hleft.above ?_
      exact hleft.next.mono fun p l _ hab => hab.anti fun z hz => List.mem_append_left _ hz
    by_cases hb : p = b
    · subst hb
      apply Or.inr
      refine .cons hright.leaf_eq (hright.above.anti fun z hz => List.mem_append_left _ hz) ?_
      exact hright.next.mono fun p l _ hab => hab.anti fun z hz => by
        exact List.mem_append_left _ (List.mem_append_left _ hz)
    by_cases hx : p = x
    · subst hx
      exact .inl hkeep
    · exact .inl (h.frame p ha hb hx)
  apply hs.splice [(x, u)] [(a, v), (b, u)] hpre
  · exact ⟨⟨_, hleft⟩, ⟨_, hright⟩, trivial⟩
  · exact h.rebased
  · rintro ⟨z, hz, htop⟩
    obtain rfl := List.mem_singleton.mp hz
    exact ⟨(b, u), by simp, htop⟩

end Parted

/-- The live leaf `x`, with a new entry, is copied to two fresh leaves. The bound of the left one is
a key on it. -/
structure Split (key : E → K) (leaf leaf' : P → Option (Leaf P E)) (pre : List (P × WithTop K))
    (x : P) (u : WithTop K) (l : Leaf P E) (e : E) (a b : P) (lo hi : List E) (sep : K) : Prop where
  old : LinkedAt key leaf pre x u l
  ne : a ≠ b
  fresh_left : leaf a = none
  fresh_right : leaf b = none
  new_left : leaf' a = some ⟨lo, some b⟩
  new_right : leaf' b = some ⟨hi, l.next⟩
  frame : ∀ p, p ≠ a → p ≠ b → p ≠ x → leaf' p = leaf p
  keep : pre = [] ∨ leaf' x = leaf x
  perm : (lo ++ hi).Perm (l.entries ++ [e])
  lo_le : ∀ e ∈ lo, key e ≤ sep
  le_hi : ∀ e ∈ hi, sep ≤ key e
  sep_mem : ∃ e ∈ lo, key e = sep
  new_le : key e ≤ u
  lt_new : ∀ b ∈ pre, b.2 < key e

section Split

variable {e : E} {a b : P} {lo hi : List E} {sep : K}

lemma Split.le_bound (h : Split key leaf leaf' pre x u l e a b lo hi sep) {c : E}
    (hc : c ∈ lo ++ hi) : key c ≤ u := by
  rcases List.mem_append.mp (h.perm.mem_iff.mp hc) with hc | hc
  · exact h.old.le_bound c hc
  · rw [List.mem_singleton.mp hc]
    exact h.new_le

lemma Split.bound_le (h : Split key leaf leaf' pre x u l e a b lo hi sep) {c : E}
    (hc : c ∈ lo ++ hi) : ∀ z ∈ pre, z.2 ≤ key c := by
  intro z hz
  rcases List.mem_append.mp (h.perm.mem_iff.mp hc) with hc | hc
  · exact h.old.above.le z hz c hc
  · rw [List.mem_singleton.mp hc]
    exact (h.lt_new z hz).le

lemma Split.parted (h : Split key leaf leaf' pre x u l e a b lo hi sep) :
    Parted key leaf leaf' pre x u l a b lo hi sep := by
  obtain ⟨c, hc, hsep⟩ := h.sep_mem
  refine ⟨h.old, h.ne, h.fresh_left, h.fresh_right, h.new_left, h.new_right, h.frame, h.keep,
    ?_, ?_, ?_, ?_, ?_, ?_⟩
  · exact fun c hc => WithTop.coe_le_coe.mpr (h.lo_le c hc)
  · exact fun c hc => WithTop.coe_le_coe.mpr (h.le_hi c hc)
  · rw [← hsep]
    exact h.le_bound (List.mem_append_left _ hc)
  · rw [← hsep]
    exact h.bound_le (List.mem_append_left _ hc)
  · exact fun c hc => h.le_bound (List.mem_append_right _ hc)
  · exact fun c hc => h.bound_le (List.mem_append_left _ hc)

lemma Split.linked (h : Split key leaf leaf' pre x u l e a b lo hi sep)
    (hs : Linked key leaf (pre ++ (x, u) :: post)) :
    Linked key leaf' (pre ++ (a, (sep : WithTop K)) :: (b, u) :: post) :=
  h.parted.linked hs

/-- A search that came to the old leaf finds the same and the new entry in the fresh ones. -/
lemma Split.walk (h : Split key leaf leaf' pre x u l e a b lo hi sep)
    (hs : LinkedFrom key leaf [] pre) (hw : Walk key leaf j (some x) ps) :
    ∃ ps', Walk key leaf' j (some (if j ≤ sep then a else b)) ps' ∧
      (found key leaf' j ps').Perm (found key leaf j ps ++ if key e = j then [e] else []) := by
  have hleft := h.parted.linkedAt_left hs
  have hright := h.parted.linkedAt_right hs
  obtain ⟨ws, hws⟩ := h.old.next.exists_walk key j
  have hframe : ∀ p ∈ ws, leaf' p = leaf p := by
    intro p hp
    obtain ⟨lp, hlp, hab⟩ := h.old.next.of_mem_walk hws hp
    exact h.parted.frame_of_leaf hlp (hab.ne (x, u) (by simp)).symm
  obtain ⟨rs, hrs, hfoundb⟩ := hright.walk (hws.congr hframe)
  rw [found_congr hframe] at hfoundb
  have hperm := entriesAt_perm key j h.perm
  rw [entriesAt_append, entriesAt_append, entriesAt_singleton] at hperm
  rw [h.old.found_eq hws hw]
  by_cases hle : j ≤ sep
  · obtain ⟨qs, hqs, hfounda⟩ := hleft.walk hrs
    refine ⟨a :: qs, by rwa [if_pos hle], ?_⟩
    rw [hfounda, hfoundb]
    classical
    rw [List.perm_iff_count]
    intro c
    have hcount := hperm.count_eq c
    simp only [List.count_append] at hcount ⊢
    omega
  · refine ⟨b :: rs, by rwa [if_neg hle], ?_⟩
    have hlo : entriesAt key j lo = [] := by
      apply entriesAt_eq_nil
      rintro c hc rfl
      exact hle (h.lo_le c hc)
    rw [hlo, List.nil_append] at hperm
    rw [hfoundb]
    classical
    rw [List.perm_iff_count]
    intro c
    have hcount := hperm.count_eq c
    simp only [List.count_append] at hcount ⊢
    omega

/-- A search after a split. -/
lemma Split.search (h : Split key leaf leaf' pre x u l e a b lo hi sep)
    (hs : Linked key leaf (pre ++ (x, u) :: post))
    (hps : Search key leaf (pre ++ (x, u) :: post) j ps) :
    ∃ ps', Search key leaf' (pre ++ (a, (sep : WithTop K)) :: (b, u) :: post) j ps' ∧
      (found key leaf' j ps').Perm (found key leaf j ps ++ if key e = j then [e] else []) := by
  have hnew : route pre (key e) = none := route_eq_none.mpr h.lt_new
  obtain ⟨y, hy, hw⟩ := hps
  simp only [Search, route_append, route_cons] at hy ⊢
  rcases hrpre : route pre j with _ | y'
  · rw [hrpre, Option.none_or] at hy
    rw [Option.none_or]
    by_cases hle : (j : WithTop K) ≤ u
    · -- the key was sent to the old leaf
      rw [if_pos hle] at hy
      obtain rfl := Option.some.inj hy
      obtain ⟨ps', hps', hfound⟩ := h.walk hs.linkedFrom_pre hw
      refine ⟨ps', ⟨_, ?_, hps'⟩, hfound⟩
      by_cases hsep : j ≤ sep
      · rw [if_pos (WithTop.coe_le_coe.mpr hsep), if_pos hsep]
      · rw [if_neg (by rwa [WithTop.coe_le_coe]), if_pos hle, if_neg hsep]
    · -- the key is sent to a leaf behind the old one
      rw [if_neg hle] at hy
      obtain ⟨post₁, uy, post₂, rfl, -, -⟩ := route_eq_some.mp hy
      have hframe : ∀ p ∈ ps, leaf' p = leaf p := by
        intro p hp
        obtain ⟨lp, hlp⟩ := hw.leaf_of_mem hp
        apply h.parted.frame_of_leaf hlp
        rintro rfl
        have hs' : Linked key leaf ((pre ++ (p, u) :: post₁) ++ (y, uy) :: post₂) := by
          simpa using hs
        exact hs'.not_mem_search hw (by simp : (p, u) ∈ pre ++ (p, u) :: post₁) hp
      have hne : key e ≠ j := by
        rintro rfl
        exact hle h.new_le
      refine ⟨ps, ⟨y, ?_, hw.congr hframe⟩, ?_⟩
      · rw [if_neg (fun hsep => hle (hsep.trans h.parted.sep_le)), if_neg hle, hy]
      · rw [found_congr hframe, if_neg hne, List.append_nil]
  · -- the key is sent to a leaf before the old one, which may still be on its way
    rw [hrpre, Option.some_or] at hy
    rw [Option.some_or]
    have hkeep : leaf' x = leaf x := by
      rcases h.keep with rfl | hkeep
      · cases hrpre
      · exact hkeep
    have hframe : ∀ p ∈ ps, leaf' p = leaf p := by
      intro p hp
      obtain ⟨lp, hlp⟩ := hw.leaf_of_mem hp
      by_cases hx : p = x
      · rw [hx, hkeep]
      · exact h.parted.frame_of_leaf hlp hx
    have hne : key e ≠ j := by
      rintro rfl
      rw [hnew] at hrpre
      cases hrpre
    refine ⟨ps, ⟨y, hy, hw.congr hframe⟩, ?_⟩
    rw [found_congr hframe, if_neg hne, List.append_nil]

end Split

/-! ### Adding an entry -/

/-- The entry `e` is added to the leaf it is sent to, which may be split on the way. -/
inductive Grown (key : E → K) (leaf leaf' : P → Option (Leaf P E)) (e : E) :
    List (P × WithTop K) → List (P × WithTop K) → Prop where
  | append {pre post : List (P × WithTop K)} {x : P} {u : WithTop K} {l : Leaf P E} :
      Rewritten key leaf leaf' pre x u l ⟨l.entries ++ [e], l.next⟩ → (∀ z ∈ pre, z.2 < key e) →
      Grown key leaf leaf' e (pre ++ (x, u) :: post) (pre ++ (x, u) :: post)
  | split {pre post : List (P × WithTop K)} {x a b : P} {u : WithTop K} {l : Leaf P E} {lo hi : List E}
      {sep : K} : Split key leaf leaf' pre x u l e a b lo hi sep →
      Grown key leaf leaf' e (pre ++ (x, u) :: post) (pre ++ (a, (sep : WithTop K)) :: (b, u) :: post)

section Grown

variable {e : E} {seq' : List (P × WithTop K)}

lemma Grown.linked (h : Grown key leaf leaf' e seq seq') (hs : Linked key leaf seq) :
    Linked key leaf' seq' := by
  cases h with
  | append h _ => exact h.linked hs
  | split h => exact h.linked hs

/-- A search finds what it found before, and the new entry if it has the key. -/
lemma Grown.search (h : Grown key leaf leaf' e seq seq') (hs : Linked key leaf seq)
    (hps : Search key leaf seq j ps) : ∃ ps', Search key leaf' seq' j ps' ∧
      (found key leaf' j ps').Perm (found key leaf j ps ++ if key e = j then [e] else []) := by
  cases h with
  | append h hlt =>
    exact h.search_append rfl rfl (route_of_le hlt (h.le_bound e (by simp))) hps
  | split h => exact h.search hs hps

end Grown

end LeafChain

end RdbRs
