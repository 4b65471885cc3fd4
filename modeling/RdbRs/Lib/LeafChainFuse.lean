import RdbRs.Lib.LeafChainSteps

/-!
# Fusing two live leaves

The entries of a live leaf and of the live leaf behind it end up in the first of them. The second
is left empty and without a link. It is no longer live, but other leaves may still link to it.
-/

namespace RdbRs

namespace LeafChain

variable {P E K : Type} [LinearOrder K] {key : E → K} {leaf leaf' : P → Option (Leaf P E)}
  {pre post seq : List (P × WithTop K)} {p a b : P} {ua ub : WithTop K} {la lb l' : Leaf P E}
  {j : K} {ps ws : List P}

/-- The live leaves `a` and `b` are fused. The link of the fused leaf is that of `b` or is cut. -/
structure Fused (key : E → K) (leaf leaf' : P → Option (Leaf P E)) (pre : List (P × WithTop K))
    (a : P) (ua : WithTop K) (la : Leaf P E) (b : P) (ub : WithTop K) (lb l' : Leaf P E) : Prop where
  left : LinkedAt key leaf pre a ua la
  right : LinkedAt key leaf (pre ++ [(a, ua)]) b ub lb
  new_left : leaf' a = some l'
  new_right : leaf' b = some ⟨[], none⟩
  frame : ∀ p, p ≠ a → p ≠ b → leaf' p = leaf p
  le_bound : ∀ e ∈ l'.entries, key e ≤ ub
  bound_le : ∀ z ∈ pre, ∀ e ∈ l'.entries, z.2 ≤ key e
  next : l'.next = lb.next ∨ l'.next = none

lemma Fused.bounds (h : Fused key leaf leaf' pre a ua la b ub lb l') : ua ≤ ub :=
  h.right.bound_le (a, ua) (by simp)

/-- The leaves behind `b` do not change. -/
lemma Fused.frame_of_above (h : Fused key leaf leaf' pre a ua la b ub lb l') {l : Leaf P E}
    (hab : Above key (pre ++ [(a, ua)] ++ [(b, ub)]) p l) : leaf' p = leaf p :=
  h.frame p (hab.ne (a, ua) (by simp)).symm (hab.ne (b, ub) (by simp)).symm

lemma Fused.rebased (h : Fused key leaf leaf' pre a ua la b ub lb l') :
    Rebased leaf leaf' (pre ++ [(a, ua), (b, ub)]) (pre ++ [(a, ub)]) := by
  constructor
  · simp only [List.mem_append, List.mem_cons, List.not_mem_nil, or_false]
    rintro z (hz | rfl)
    · exact ⟨z, .inl hz, le_rfl⟩
    · exact ⟨(b, ub), .inr (.inr rfl), le_rfl⟩
  · simp only [List.mem_append, List.mem_cons, List.not_mem_nil, or_false]
    rintro z (hz | rfl)
    · exact .inl ⟨z, .inl hz, rfl⟩
    · exact .inl ⟨(a, ua), .inr (.inl rfl), rfl⟩
  · intro p l _ hne
    exact h.frame p (hne (a, ua) (by simp)).symm (hne (b, ub) (by simp)).symm

lemma Fused.linkedAt (h : Fused key leaf leaf' pre a ua la b ub lb l') :
    LinkedAt key leaf' pre a ub l' := by
  refine ⟨h.new_left, ⟨h.left.above.ne, h.bound_le⟩, h.le_bound, ?_, ?_⟩
  · exact fun z hz => (h.left.bound_le z hz).trans h.bounds
  · rcases h.next with hn | hn
    · rw [hn]
      have hnext := h.right.next
      rw [List.append_assoc] at hnext
      exact h.rebased.chain hnext
    · rw [hn]
      exact .nil

lemma Fused.linked (h : Fused key leaf leaf' pre a ua la b ub lb l')
    (hs : Linked key leaf (pre ++ (a, ua) :: (b, ub) :: post)) :
    Linked key leaf' (pre ++ (a, ub) :: post) := by
  have ha := h.linkedAt
  have hpre : LinkedFrom key leaf' [] pre := by
    apply hs.linkedFrom_pre.patch
    intro p
    by_cases hpa : p = a
    · subst hpa
      apply Or.inr
      refine .cons ha.leaf_eq ha.above ?_
      exact ha.next.mono fun p l _ hab => hab.anti fun z hz => List.mem_append_left _ hz
    by_cases hpb : p = b
    · subst hpb
      apply Or.inr
      refine .cons h.new_right ⟨fun z hz => ?_, by simp⟩ .nil
      exact h.right.above.ne z (List.mem_append_left _ hz)
    · exact .inl (h.frame p hpa hpb)
  apply hs.splice [(a, ua), (b, ub)] [(a, ub)] hpre (linkedFrom_singleton.mpr ⟨l', ha⟩) h.rebased
  rintro ⟨z, hz, htop⟩
  simp only [List.mem_cons, List.not_mem_nil, or_false] at hz
  rcases hz with rfl | rfl
  · exact ⟨(a, ub), by simp, top_le_iff.mp (htop ▸ h.bounds)⟩
  · exact ⟨(a, ub), by simp, htop⟩

/-- How the search for `j` that visited `ps` and the one that visits `ps'` after the fusion go. -/
inductive Fused.Course (key : E → K) (leaf leaf' : P → Option (Leaf P E)) (pre : List (P × WithTop K))
    (a : P) (ua : WithTop K) (la : Leaf P E) (b : P) (lb l' : Leaf P E) (j : K) (ps ps' : List P) :
    Prop where
  /-- It came to `a`. -/
  | left (front : List E) {ws ns : List P} : a ∈ ps → (j : WithTop K) ≤ ua →
      Walk key leaf j la.next ws → Walk key leaf j l'.next ns →
      found key leaf j ps = front ++ (entriesAt key j la.entries ++ found key leaf j ws) →
      found key leaf' j ps' = front ++ (entriesAt key j l'.entries ++ found key leaf j ns) →
      Course key leaf leaf' pre a ua la b lb l' j ps ps'
  /-- It started at `b`. -/
  | right {ws ns : List P} : a ∉ ps → b ∈ ps → ua < j → ps.head? = some b →
      Walk key leaf j lb.next ws → Walk key leaf j l'.next ns →
      found key leaf j ps = entriesAt key j lb.entries ++ found key leaf j ws →
      found key leaf' j ps' = entriesAt key j l'.entries ++ found key leaf j ns →
      Course key leaf leaf' pre a ua la b lb l' j ps ps'
  /-- It came to `b`, from a leaf before `a`, past `a`. -/
  | past (front : List E) {ws : List P} : a ∉ ps → b ∈ ps → (∃ z ∈ pre, (j : WithTop K) ≤ z.2) →
      ps.head? ≠ some b → Walk key leaf j lb.next ws →
      found key leaf j ps = front ++ (entriesAt key j lb.entries ++ found key leaf j ws) →
      found key leaf' j ps' = front → Course key leaf leaf' pre a ua la b lb l' j ps ps'
  | other : a ∉ ps → b ∉ ps → found key leaf' j ps' = found key leaf j ps →
      Course key leaf leaf' pre a ua la b lb l' j ps ps'

/-- A search that comes to the fused leaf. -/
lemma Fused.walk (h : Fused key leaf leaf' pre a ua la b ub lb l') (j : K) :
    ∃ ns rs, Walk key leaf j l'.next ns ∧ Walk key leaf' j (some a) rs ∧
      found key leaf' j rs = entriesAt key j l'.entries ++ found key leaf j ns := by
  obtain ⟨ns, hns, hframe⟩ : ∃ ns, Walk key leaf j l'.next ns ∧ ∀ p ∈ ns, leaf' p = leaf p := by
    rcases h.next with hn | hn
    · obtain ⟨ns, hns⟩ := h.right.next.exists_walk key j
      refine ⟨ns, by rwa [hn], ?_⟩
      intro p hp
      obtain ⟨_, _, hab⟩ := h.right.next.of_mem_walk hns hp
      exact h.frame_of_above hab
    · exact ⟨[], by rw [hn]; exact .nil, by simp⟩
  obtain ⟨rs, hrs, hfound⟩ := h.linkedAt.walk (hns.congr hframe)
  exact ⟨ns, _, hns, hrs, by rw [hfound, found_congr hframe]⟩

/-- The leaf that was emptied ends every search that still comes to it. -/
lemma Fused.walk_right (h : Fused key leaf leaf' pre a ua la b ub lb l') (j : K) :
    Walk key leaf' j (some b) [b] ∧ found key leaf' j [b] = [] := by
  refine ⟨.step h.new_right (by simp) .nil, ?_⟩
  rw [found_cons, foundOn_eq h.new_right, found_nil]
  rfl

/-- A search that started before `a`. -/
lemma Fused.search_before (h : Fused key leaf leaf' pre a ua la b ub lb l') {y : P}
    (hs : Linked key leaf (pre ++ (a, ua) :: (b, ub) :: post)) (hy : route pre j = some y)
    (hw : Walk key leaf j (some y) ps) : ∃ ps', Walk key leaf' j (some y) ps' ∧
      Fused.Course key leaf leaf' pre a ua la b lb l' j ps ps' := by
  obtain ⟨front, u, back, hpre, -, hle⟩ := route_eq_some.mp hy
  have hmem : (y, u) ∈ pre := by rw [hpre]; simp
  have hframe (qs : List P) (ha : a ∉ qs) (hb : b ∉ qs) : ∀ p ∈ qs, leaf' p = leaf p := by
    intro p hp
    apply h.frame
    · rintro rfl
      exact ha hp
    · rintro rfl
      exact hb hp
  by_cases ha : a ∈ ps
  · obtain ⟨qs, rs, rfl, hqa⟩ := List.eq_append_cons_of_mem ha
    have hqb : b ∉ qs := by
      intro hb
      obtain ⟨q₁, q₂, rfl⟩ := List.append_of_mem hb
      rw [List.append_assoc, List.cons_append] at hw
      have hs' : Linked key leaf ((pre ++ [(a, ua)]) ++ (b, ub) :: post) := by simpa using hs
      exact hs'.not_mem_search hw.suffix (by simp : (a, ua) ∈ pre ++ [(a, ua)]) (by simp)
    obtain ⟨ws, hws⟩ := h.left.next.exists_walk key j
    obtain ⟨ns, rs', hns, hrs', hfound⟩ := h.walk j
    refine ⟨_, hw.replace (hframe qs hqa hqb) hrs', ?_⟩
    refine .left (found key leaf j qs) ha (hle.trans (h.left.bound_le _ hmem)) hws hns ?_ ?_
    · rw [found_append, h.left.found_eq hws hw.suffix]
    · rw [found_append, found_congr (hframe qs hqa hqb), hfound]
  by_cases hb : b ∈ ps
  · obtain ⟨qs, rs, rfl, hqb⟩ := List.eq_append_cons_of_mem hb
    have hqa : a ∉ qs := fun hqa => ha (List.mem_append_left _ hqa)
    obtain ⟨ws, hws⟩ := h.right.next.exists_walk key j
    obtain ⟨hwb, hfound⟩ := h.walk_right j
    refine ⟨_, hw.replace (hframe qs hqa hqb) hwb, ?_⟩
    refine .past (found key leaf j qs) ha hb ⟨_, hmem, hle⟩ ?_ hws ?_ ?_
    · have hhead : (qs ++ b :: rs).head? = some y := by
        generalize qs ++ b :: rs = r at hw
        cases hw <;> rfl
      rw [hhead]
      rintro heq
      obtain rfl := Option.some.inj heq
      exact h.right.above.ne (y, u) (List.mem_append_left _ hmem) rfl
    · rw [found_append, h.right.found_eq hws hw.suffix]
    · rw [found_append, found_congr (hframe qs hqa hqb), hfound, List.append_nil]
  · exact ⟨ps, hw.congr (hframe ps ha hb), .other ha hb (found_congr (hframe ps ha hb))⟩

/-- A search after the fusion. -/
lemma Fused.search (h : Fused key leaf leaf' pre a ua la b ub lb l')
    (hs : Linked key leaf (pre ++ (a, ua) :: (b, ub) :: post))
    (hps : Search key leaf (pre ++ (a, ua) :: (b, ub) :: post) j ps) :
    ∃ ps', Search key leaf' (pre ++ (a, ub) :: post) j ps' ∧
      Fused.Course key leaf leaf' pre a ua la b lb l' j ps ps' := by
  obtain ⟨y, hy, hw⟩ := hps
  simp only [Search, route_append, route_cons] at hy ⊢
  rcases hrpre : route pre j with _ | y'
  · rw [hrpre, Option.none_or] at hy
    rw [Option.none_or]
    have hs' : Linked key leaf ((pre ++ [(a, ua)]) ++ (b, ub) :: post) := by simpa using hs
    by_cases hja : (j : WithTop K) ≤ ua
    · rw [if_pos hja] at hy
      obtain rfl := Option.some.inj hy
      obtain ⟨ws, hws⟩ := h.left.next.exists_walk key j
      obtain ⟨ns, rs, hns, hrs, hfound⟩ := h.walk j
      refine ⟨rs, ⟨a, if_pos (hja.trans h.bounds), hrs⟩, .left [] hw.head_mem hja hws hns ?_ ?_⟩
      · exact h.left.found_eq hws hw
      · exact hfound
    by_cases hjb : (j : WithTop K) ≤ ub
    · rw [if_neg hja, if_pos hjb] at hy
      obtain rfl := Option.some.inj hy
      obtain ⟨ws, hws⟩ := h.right.next.exists_walk key j
      obtain ⟨ns, rs, hns, hrs, hfound⟩ := h.walk j
      refine ⟨rs, ⟨a, if_pos hjb, hrs⟩, .right ?_ hw.head_mem (lt_of_not_ge hja) ?_ hws hns ?_ hfound⟩
      · exact hs'.not_mem_search hw (by simp : (a, ua) ∈ pre ++ [(a, ua)])
      · cases hw <;> rfl
      · exact h.right.found_eq hws hw
    · rw [if_neg hja, if_neg hjb] at hy
      obtain ⟨post₁, uy, post₂, rfl, -, -⟩ := route_eq_some.mp hy
      have hsy : Linked key leaf ((pre ++ (a, ua) :: (b, ub) :: post₁) ++ (y, uy) :: post₂) := by
        simpa using hs
      have ha : a ∉ ps := hsy.not_mem_search hw (by simp : (a, ua) ∈ _)
      have hb : b ∉ ps := hsy.not_mem_search hw (by simp : (b, ub) ∈ _)
      have hframe : ∀ p ∈ ps, leaf' p = leaf p := by
        intro p hp
        apply h.frame
        · rintro rfl
          exact ha hp
        · rintro rfl
          exact hb hp
      refine ⟨ps, ⟨y, ?_, hw.congr hframe⟩, .other ha hb (found_congr hframe)⟩
      rw [if_neg hjb, hy]
  · rw [hrpre, Option.some_or] at hy
    rw [Option.some_or]
    obtain rfl := Option.some.inj hy
    obtain ⟨ps', hps', hcourse⟩ := h.search_before hs hrpre hw
    exact ⟨ps', ⟨y', rfl, hps'⟩, hcourse⟩

/-! ### Removing an entry and fusing -/

lemma Search.head_eq (hps : Search key leaf seq j ps) {x : P} (hx : route seq j = some x) :
    ps.head? = some x := by
  obtain ⟨y, hy, hw⟩ := hps
  obtain rfl := Option.some.inj (hy.symm.trans hx)
  cases hw <;> rfl

lemma mem_of_head?_eq {x : P} (h : ps.head? = some x) : x ∈ ps := List.mem_of_mem_head? h

/-- An entry of `a` is removed on the way. A search that came to `a` finds what it would have found
from `b` on in place of what lay behind `a`. -/
lemma Fused.search_removeLeft {e : E} {es : List E}
    (h : Fused key leaf leaf' pre a ua la b ub lb l') (hla : la.entries.Perm (e :: es))
    (hl' : l'.entries.Perm (es ++ lb.entries)) (hnext : l'.next = lb.next)
    (hpre : ∀ z ∈ pre, z.2 < key e) (hle : key e ≤ ua)
    (hs : Linked key leaf (pre ++ (a, ua) :: (b, ub) :: post))
    (hps : Search key leaf (pre ++ (a, ua) :: (b, ub) :: post) j ps) :
    ∃ ps', Search key leaf' (pre ++ (a, ub) :: post) j ps' ∧
      ((a ∉ ps ∧ key e ≠ j ∧ (found key leaf' j ps').Perm (found key leaf j ps)) ∨
        (a ∈ ps ∧ ∃ ws vs, Walk key leaf j la.next ws ∧ Walk key leaf j (some b) vs ∧
          (found key leaf j ps ++ found key leaf j vs).Perm
            ((if key e = j then [e] else []) ++ found key leaf' j ps' ++ found key leaf j ws))) := by
  have hne (ha : a ∉ ps) : key e ≠ j := by
    rintro rfl
    exact ha (mem_of_head?_eq (hps.head_eq (route_of_le hpre hle)))
  obtain ⟨ps', hps', hcourse⟩ := h.search hs hps
  refine ⟨ps', hps', ?_⟩
  have hat := entriesAt_perm key j hl'
  rw [entriesAt_append] at hat
  cases hcourse with
  | left front ha hj hws hns hfound hfound' =>
    rw [hnext] at hns
    obtain ⟨rs, hrs, hvs⟩ := h.right.walk hns
    refine .inr ⟨ha, _, _, hws, hrs, ?_⟩
    rw [hfound, hfound', hvs]
    classical
    rw [List.perm_iff_count]
    intro c
    have hcount := hat.count_eq c
    have hcount' := (entriesAt_of_perm_cons key j hla).count_eq c
    simp only [List.count_append] at hcount hcount' ⊢
    omega
  | @right ws ns ha hb hj _ hws hns hfound hfound' =>
    rw [hnext] at hns
    obtain rfl := hws.unique hns
    refine .inl ⟨ha, hne ha, ?_⟩
    have hes : entriesAt key j es = [] := by
      apply entriesAt_eq_nil
      rintro c hc rfl
      have hc' : c ∈ la.entries := hla.mem_iff.mpr (List.mem_cons_of_mem _ hc)
      exact absurd hj (not_lt.mpr (h.left.le_bound c hc'))
    rw [hes, List.nil_append] at hat
    rw [hfound, hfound']
    exact hat.append_right _
  | past front ha _ hz _ hws hfound hfound' =>
    refine .inl ⟨ha, hne ha, ?_⟩
    obtain ⟨z, hz, hj⟩ := hz
    have hlt : (j : WithTop K) < ua := hj.trans_lt ((hpre z hz).trans_le hle)
    have hat' : entriesAt key j lb.entries = [] := by
      apply entriesAt_eq_nil
      rintro c hc rfl
      exact absurd hlt (not_lt.mpr (h.right.above.le (a, ua) (by simp) c hc))
    rw [hfound, hfound', hat', h.right.found_next_nil hws (hlt.trans_le h.bounds), List.nil_append,
      List.append_nil]
  | other ha _ hfound => exact .inl ⟨ha, hne ha, by rw [hfound]⟩

/-- An entry of `b` is removed on the way, and with it the link of `b`. -/
lemma Fused.search_removeRight {e : E} {es : List E}
    (h : Fused key leaf leaf' pre a ua la b ub lb l') (hlb : lb.entries.Perm (e :: es))
    (hl' : l'.entries.Perm (la.entries ++ es)) (hnext : l'.next = none)
    (hlt : ua < key e) (hle : key e ≤ ub)
    (hs : Linked key leaf (pre ++ (a, ua) :: (b, ub) :: post))
    (hps : Search key leaf (pre ++ (a, ua) :: (b, ub) :: post) j ps) :
    ∃ ps', Search key leaf' (pre ++ (a, ub) :: post) j ps' ∧
      ((a ∈ ps ∧ key e ≠ j ∧ ∃ ws, Walk key leaf j la.next ws ∧
          (found key leaf j ps ++ entriesAt key j lb.entries).Perm
            (found key leaf' j ps' ++ found key leaf j ws)) ∨
        (a ∉ ps ∧ ps.head? = some b ∧ ∃ ws, Walk key leaf j lb.next ws ∧ (found key leaf j ps).Perm
          ((if key e = j then [e] else []) ++ found key leaf' j ps' ++ found key leaf j ws)) ∨
        (a ∉ ps ∧ b ∈ ps ∧ ps.head? ≠ some b ∧ key e ≠ j ∧ ∃ ws, Walk key leaf j lb.next ws ∧
          found key leaf j ws = [] ∧ (found key leaf j ps).Perm
            (found key leaf' j ps' ++ entriesAt key j lb.entries)) ∨
        (a ∉ ps ∧ b ∉ ps ∧ key e ≠ j ∧ found key leaf' j ps' = found key leaf j ps)) := by
  have hroute : route (pre ++ (a, ua) :: (b, ub) :: post) (key e) = some b := by
    rw [← List.singleton_append, ← List.append_assoc]
    apply route_of_le _ hle
    intro z hz
    rcases List.mem_append.mp hz with hz | hz
    · exact (h.left.bound_le z hz).trans_lt hlt
    · rwa [List.mem_singleton.mp hz]
  obtain ⟨ps', hps', hcourse⟩ := h.search hs hps
  refine ⟨ps', hps', ?_⟩
  have hat := entriesAt_perm key j hl'
  have hat' := entriesAt_of_perm_cons key j hlb
  rw [entriesAt_append] at hat
  cases hcourse with
  | left front ha hj hws hns hfound hfound' =>
    have hne : key e ≠ j := by
      rintro rfl
      exact absurd hlt (not_lt.mpr hj)
    refine .inl ⟨ha, hne, _, hws, ?_⟩
    rw [hnext] at hns
    cases hns
    rw [if_neg hne] at hat'
    rw [hfound, hfound', found_nil]
    classical
    rw [List.perm_iff_count]
    intro c
    have hcount := hat.count_eq c
    have hcount' := hat'.count_eq c
    simp only [List.count_append, List.count_nil] at hcount hcount' ⊢
    omega
  | right ha _ hj hhead hws hns hfound hfound' =>
    refine .inr (.inl ⟨ha, hhead, _, hws, ?_⟩)
    rw [hnext] at hns
    cases hns
    have hla : entriesAt key j la.entries = [] := by
      apply entriesAt_eq_nil
      rintro c hc rfl
      exact absurd hj (not_lt.mpr (h.left.le_bound c hc))
    rw [hla] at hat
    rw [hfound, hfound', found_nil]
    classical
    rw [List.perm_iff_count]
    intro c
    have hcount := hat.count_eq c
    have hcount' := hat'.count_eq c
    simp only [List.count_append, List.count_nil] at hcount hcount' ⊢
    omega
  | past front ha hb hz hhead hws hfound hfound' =>
    obtain ⟨z, hz, hj⟩ := hz
    have hlt' : (j : WithTop K) < key e := (hj.trans (h.left.bound_le z hz)).trans_lt hlt
    have hne : key e ≠ j := by
      rintro rfl
      exact lt_irrefl _ hlt'
    have hnil := h.right.found_next_nil hws (hlt'.trans_le hle)
    refine .inr (.inr (.inl ⟨ha, hb, hhead, hne, _, hws, hnil, ?_⟩))
    rw [hfound, hfound', hnil, List.append_nil]
  | other ha hb hfound =>
    refine .inr (.inr (.inr ⟨ha, hb, ?_, hfound⟩))
    rintro rfl
    exact hb (mem_of_head?_eq (hps.head_eq hroute))

end LeafChain

end RdbRs
