import RdbRs.Lib.SecondChance
import RdbRs.Lib.Triple
import RdbRs.Storage.BufferPoolSpec

/-!
# The victim of the clock

`select_clock_frame` is the second chance clock on the frames of a pool: the occupied frames without
pin are the candidates, the reference bits are the marks. `Swept` is the pool after some rounds.
-/

namespace RdbRs

namespace BufferPool

/-- The frames as the clock sees them. -/
def ring (p : BufferPool) : Ring where
  size := p.frames.length
  hand := p.handIndex
  candidate index := ∃ f, p.frame? ⟨index⟩ = some f ∧ f.pinCount = 0
  marked index := ∃ f, p.frame? ⟨index⟩ = some f ∧ f.referenced = true

/-- A frame after `n` rounds. -/
def sweptFrame (p : BufferPool) (n : Nat) (id : FrameId) (f : BufferFrame) : BufferFrame :=
  if f.pinCount = 0 ∧ p.ring.Passed n id.id then f.unreferenced else f

/-- The pool after `n` rounds. -/
structure Swept (p : BufferPool) (n : Nat) (q : BufferPool) : Prop where
  length_eq : q.frames.length = p.frames.length
  pageTable_eq : q.pageTable = p.pageTable
  handIndex_eq : q.handIndex = p.ring.slot n
  frame_eq (id : FrameId) : q.frame? id = (p.frame? id).map (p.sweptFrame n id)

section Sweeping

variable {p q : BufferPool} {id : FrameId} {f : BufferFrame} {n : Nat}

lemma sweptFrame_succ_of_ne (h : p.ring.slot n ≠ id.id) : p.sweptFrame (n + 1) id = p.sweptFrame n id := by
  funext f
  have hpassed : p.ring.Passed (n + 1) id.id ↔ p.ring.Passed n id.id := by
    rw [Ring.passed_succ, or_iff_left h]
  unfold sweptFrame
  simp only [hpassed]

lemma sweptFrame_of_pinned (h : 0 < f.pinCount) : p.sweptFrame n id f = f := by
  unfold sweptFrame
  rw [if_neg (fun hfree => absurd hfree.1 (by omega))]

/-- The hand takes the reference bit of the frame it is at. -/
lemma sweptFrame_succ_self (h : f.pinCount = 0) :
    p.sweptFrame (n + 1) ⟨p.ring.slot n⟩ f = f.unreferenced := by
  unfold sweptFrame
  rw [if_pos ⟨h, Ring.passed_succ.mpr (Or.inr rfl)⟩]

@[simp] lemma pinCount_sweptFrame : (p.sweptFrame n id f).pinCount = f.pinCount := by
  unfold sweptFrame
  split <;> rfl

@[simp] lemma pageKey_sweptFrame : (p.sweptFrame n id f).pageKey = f.pageKey := by
  unfold sweptFrame
  split <;> rfl

@[simp] lemma unreferenced_sweptFrame : (p.sweptFrame n id f).unreferenced = f.unreferenced := by
  unfold sweptFrame
  split <;> rfl

lemma referenced_sweptFrame (h : f.pinCount = 0) : (p.sweptFrame n id f).referenced = true ↔
    f.referenced = true ∧ ¬p.ring.Passed n id.id := by
  unfold sweptFrame
  by_cases hpassed : p.ring.Passed n id.id
  · rw [if_pos ⟨h, hpassed⟩]
    constructor
    · intro hbit
      cases hbit
    · intro hbit
      exact absurd hpassed hbit.2
  · rw [if_neg (fun hfree => hpassed hfree.2)]
    exact ⟨fun hbit => ⟨hbit, hpassed⟩, And.left⟩

lemma swept_zero (h : p.Wf) : Swept p 0 p where
  length_eq := rfl
  pageTable_eq := rfl
  handIndex_eq := (Nat.mod_eq_of_lt h.hand_lt).symm
  frame_eq id := by
    have hsame : p.sweptFrame 0 id = fun f => f := by
      funext f
      unfold sweptFrame
      rw [if_neg]
      intro ⟨_, i, hi, _⟩
      exact absurd hi (Nat.not_lt_zero i)
    rw [hsame, Option.map_id']

lemma Swept.moveHand_eq (h : Swept p n q) : (q.handIndex + 1) % q.frames.length = p.ring.slot (n + 1) := by
  rw [h.length_eq, h.handIndex_eq]
  exact Ring.slot_succ

/-- A round that leaves the frame at the hand as it is. -/
lemma Swept.pass (h : Swept p n q)
    (hsame : ∀ f, p.frame? ⟨p.ring.slot n⟩ = some f →
      p.sweptFrame (n + 1) ⟨p.ring.slot n⟩ f = p.sweptFrame n ⟨p.ring.slot n⟩ f) :
    Swept p (n + 1) { q with handIndex := (q.handIndex + 1) % q.frames.length } := by
  refine ⟨h.length_eq, h.pageTable_eq, h.moveHand_eq, ?_⟩
  intro id
  have hframe : q.frame? id = (p.frame? id).map (p.sweptFrame n id) := h.frame_eq id
  show q.frame? id = _
  by_cases hid : p.ring.slot n = id.id
  · rw [← frameId_eq hid] at hframe ⊢
    rw [hframe]
    cases hp : p.frame? ⟨p.ring.slot n⟩ with
    | none => rfl
    | some f => rw [Option.map_some, Option.map_some, hsame f hp]
  · rw [sweptFrame_succ_of_ne hid, hframe]

/-- A round that clears a reference bit. -/
lemma Swept.clear (h : Swept p n q) (hf : p.frame? ⟨p.ring.slot n⟩ = some f) (hpin : f.pinCount = 0) :
    Swept p (n + 1) (setFrame { q with handIndex := (q.handIndex + 1) % q.frames.length }
      ⟨p.ring.slot n⟩ f.unreferenced) := by
  refine ⟨?_, h.pageTable_eq, h.moveHand_eq, ?_⟩
  · rw [length_frames_setFrame]
    exact h.length_eq
  · intro id
    by_cases hid : p.ring.slot n = id.id
    · rw [← frameId_eq hid]
      have hlt := lt_of_frame? hf
      rw [frame?_setFrame_self (by rw [h.length_eq]; exact hlt), hf, Option.map_some,
        sweptFrame_succ_self hpin]
    · have hne : id ≠ ⟨p.ring.slot n⟩ := by
        intro heq
        rw [heq] at hid
        exact hid rfl
      rw [frame?_setFrame_of_ne hne, sweptFrame_succ_of_ne hid, ← h.frame_eq id]
      rfl

end Sweeping

/-! ### The loop -/

/-- Where the clock stops: `n` rounds have been made, the last of them at the frame it returns. -/
structure StopsIn (p : BufferPool) (n : Nat) (r : Option FrameId × BufferPool) (i : Nat) : Prop where
  lt : i < n
  stops : p.ring.Stops i
  first : ∀ i' < i, ¬p.ring.Stops i'
  frame_eq : r.1 = some ⟨p.ring.slot i⟩
  swept : Swept p (i + 1) r.2

section Loop

variable {p q : BufferPool} {f : BufferFrame} {m n : Nat}

lemma ring_stops_iff : p.ring.Stops n ↔ ∃ f, p.frame? ⟨p.ring.slot n⟩ = some f ∧ f.pinCount = 0 ∧
    (f.referenced = true → p.ring.Passed n (p.ring.slot n)) := by
  constructor
  · intro ⟨⟨f, hf, hpin⟩, hmark⟩
    exact ⟨f, hf, hpin, fun hbit => hmark ⟨f, hf, hbit⟩⟩
  · intro ⟨f, hf, hpin, hmark⟩
    refine ⟨⟨f, hf, hpin⟩, ?_⟩
    intro ⟨g, hg, hbit⟩
    rw [hf] at hg
    cases hg
    exact hmark hbit

/-- The loop stops in the first round in which the ring does, if it makes so many rounds. -/
lemma clockLoop_spec (h : Swept p m q) (hfirst : ∀ i < m, ¬p.ring.Stops i) :
    (∃ i, StopsIn p (m + n) (clockLoop n q) i) ∨
      (clockLoop n q).1 = none ∧ Swept p (m + n) (clockLoop n q).2 ∧
        ∀ i < m + n, ¬p.ring.Stops i := by
  induction n generalizing m q with
  | zero => exact Or.inr ⟨rfl, h, hfirst⟩
  | succ n ih =>
    -- a round that does not stop leaves the rest to the next ones
    have hon (q' : BufferPool) (hq' : Swept p (m + 1) q') (hstep : clockLoop (n + 1) q = clockLoop n q')
        (hstops : ¬p.ring.Stops m) : (∃ i, StopsIn p (m + (n + 1)) (clockLoop (n + 1) q) i) ∨
          (clockLoop (n + 1) q).1 = none ∧ Swept p (m + (n + 1)) (clockLoop (n + 1) q).2 ∧
            ∀ i < m + (n + 1), ¬p.ring.Stops i := by
      have hsum : m + (n + 1) = m + 1 + n := by omega
      rw [hstep, hsum]
      apply ih hq'
      intro i hi
      cases Nat.lt_or_eq_of_le (Nat.le_of_lt_succ hi) with
      | inl hlt => exact hfirst i hlt
      | inr heq => rwa [heq]
    have hframe : BufferPool.frame? { q with handIndex := (q.handIndex + 1) % q.frames.length }
        ⟨q.handIndex⟩ = (p.frame? ⟨p.ring.slot m⟩).map (p.sweptFrame m ⟨p.ring.slot m⟩) := by
      rw [← h.frame_eq, ← h.handIndex_eq]
      rfl
    cases hf : p.frame? ⟨p.ring.slot m⟩ with
    | none =>
      rw [hf, Option.map_none] at hframe
      apply hon _ (h.pass (fun f hf' => by rw [hf] at hf'; cases hf'))
      · simp only [clockLoop, hframe]
      · intro hstops
        have ⟨f, hf', _⟩ := ring_stops_iff.mp hstops
        rw [hf] at hf'
        cases hf'
    | some f =>
      rw [hf, Option.map_some] at hframe
      have hstops : p.ring.Stops m ↔ f.pinCount = 0 ∧
          (f.referenced = true → p.ring.Passed m (p.ring.slot m)) := by
        rw [ring_stops_iff, hf]
        simp
      by_cases hpin : 0 < f.pinCount
      · apply hon _ (h.pass _)
        · simp only [clockLoop, hframe, pinCount_sweptFrame, gt_iff_lt, hpin, if_true]
        · intro hstop
          have := (hstops.mp hstop).1
          omega
        · intro g hg
          rw [hf] at hg
          cases hg
          rw [sweptFrame_of_pinned hpin, sweptFrame_of_pinned hpin]
      · have hzero : f.pinCount = 0 := by omega
        have hbit := @referenced_sweptFrame p ⟨p.ring.slot m⟩ f m hzero
        by_cases href : (p.sweptFrame m ⟨p.ring.slot m⟩ f).referenced = true
        · apply hon _ (h.clear hf hzero)
          · simp only [clockLoop, hframe, pinCount_sweptFrame, gt_iff_lt, hpin, if_false, href, if_true,
              unreferenced_sweptFrame]
            rw [h.handIndex_eq]
          · intro hstop
            have ⟨hmarked, hnew⟩ := hbit.mp href
            exact hnew ((hstops.mp hstop).2 hmarked)
        · left
          have hstep : clockLoop (n + 1) q = (some ⟨p.ring.slot m⟩,
              { q with handIndex := (q.handIndex + 1) % q.frames.length }) := by
            simp only [clockLoop, hframe, pinCount_sweptFrame, gt_iff_lt, hpin, if_false, href,
              Bool.false_eq_true]
            rw [h.handIndex_eq]
          refine ⟨m, ⟨by omega, hstops.mpr ⟨hzero, ?_⟩, hfirst, by rw [hstep], ?_⟩⟩
          · intro hmarked
            by_contra hnew
            exact href (hbit.mpr ⟨hmarked, hnew⟩)
          · rw [hstep]
            apply h.pass
            intro g hg
            rw [hf] at hg
            cases hg
            rw [sweptFrame_succ_self hzero, ← unreferenced_sweptFrame (p := p) (n := m)]
            unfold BufferFrame.unreferenced
            rw [← Bool.eq_false_iff.mpr href]

end Loop

/-! ### The victim -/

/-- What a selection may do: the pages, the pins, the dirty bits and the table stay. -/
structure ClockSelects (p p' : BufferPool) (victim : Option PageKey) : Prop where
  found : victim.isSome ↔ ∃ id f, p.frame? id = some f ∧ f.pinCount = 0
  unpinned {key : PageKey} : victim = some key → ∃ id f, p.pageTable.get key = some id ∧
    p.frame? id = some f ∧ f.pageKey = key ∧ f.pinCount = 0 ∧
      (f.referenced = true → ∀ id' g, p.frame? id' = some g → g.pinCount = 0 → g.referenced = true)
  pinned_eq {id : FrameId} {f : BufferFrame} : p.frame? id = some f → 0 < f.pinCount →
    p'.frame? id = some f
  frame_eq (id : FrameId) :
    (p'.frame? id).map BufferFrame.unreferenced = (p.frame? id).map BufferFrame.unreferenced
  length_eq : p'.frames.length = p.frames.length
  pageTable_eq : p'.pageTable = p.pageTable

section Victims

variable {p p' : BufferPool} {id : FrameId} {f : BufferFrame} {n : Nat}

lemma Swept.pinned_eq (h : Swept p n p') (hf : p.frame? id = some f) (hpin : 0 < f.pinCount) :
    p'.frame? id = some f := by
  rw [h.frame_eq, hf, Option.map_some, sweptFrame_of_pinned hpin]

lemma Swept.unreferenced_eq (h : Swept p n p') (id : FrameId) :
    (p'.frame? id).map BufferFrame.unreferenced = (p.frame? id).map BufferFrame.unreferenced := by
  rw [h.frame_eq, Option.map_map]
  congr 1
  funext f
  exact unreferenced_sweptFrame

lemma Swept.wf (h : Swept p n p') (hwf : p.Wf) : p'.Wf := by
  refine ⟨by rw [h.length_eq]; exact hwf.capacity, ?_, ?_, ?_⟩
  · rw [h.handIndex_eq, h.length_eq]
    exact Nat.mod_lt _ hwf.capacity
  · intro key id hid
    rw [h.pageTable_eq] at hid
    have ⟨f, hf, hkey⟩ := hwf.framed hid
    refine ⟨p.sweptFrame n id f, ?_, ?_⟩
    · rw [h.frame_eq, hf, Option.map_some]
    · rw [pageKey_sweptFrame, hkey]
  · intro id g hg
    rw [h.frame_eq, Option.map_eq_some_iff] at hg
    have ⟨f, hf, hgf⟩ := hg
    rw [h.pageTable_eq, ← hgf, pageKey_sweptFrame, hwf.tabled hf]

/-- The whole loop: two laps find a candidate if there is one. -/
lemma Wf.selectClockFrame_spec (h : p.Wf) :
    (∃ i, StopsIn p (p.frames.length * 2) p.selectClockFrame i) ∨
      p.selectClockFrame.1 = none ∧ Swept p (p.frames.length * 2) p.selectClockFrame.2 ∧
        ∀ id f, p.frame? id = some f → f.pinCount ≠ 0 := by
  have hempty : p.frames.isEmpty = false := by
    rw [List.isEmpty_eq_false_iff_exists_mem]
    exact ⟨_, List.getElem_mem h.capacity⟩
  have hloop : p.selectClockFrame = clockLoop (p.frames.length * 2) p := by
    rw [selectClockFrame, hempty, if_neg Bool.false_ne_true]
  have hspec := clockLoop_spec (n := p.frames.length * 2) (swept_zero h) (fun i hi => by omega)
  rw [Nat.zero_add] at hspec
  rw [hloop]
  cases hspec with
  | inl hstop => exact Or.inl hstop
  | inr hnone =>
    have ⟨hnone, hswept, hnever⟩ := hnone
    refine Or.inr ⟨hnone, hswept, ?_⟩
    intro id f hf hpin
    have ⟨i, hi, hstop⟩ := Ring.exists_stops (r := p.ring) (lt_of_frame? hf) ⟨f, hf, hpin⟩
    exact hnever i hi hstop

/-- The selection of a pool whose table and frames agree. -/
lemma Wf.selectClockVictim_selects (h : p.Wf) : ∃ victim p',
    selectClockVictim.run p = .ok victim p' ∧ ClockSelects p p' victim ∧ p'.Wf := by
  have hspec := h.selectClockFrame_spec
  cases hselect : p.selectClockFrame with | mk found q
  rw [hselect] at hspec
  cases hspec with
  | inl hstop =>
    have ⟨i, hi⟩ := hstop
    obtain rfl : found = some ⟨p.ring.slot i⟩ := hi.frame_eq
    have ⟨f, hf, hpin, _⟩ := ring_stops_iff.mp hi.stops
    have hq : Swept p (i + 1) q := hi.swept
    have hframe : q.getFrame ⟨p.ring.slot i⟩ = .ok f.unreferenced := by
      apply getFrame_eq
      rw [hq.frame_eq, hf, Option.map_some, sweptFrame_succ_self hpin]
    refine ⟨some f.pageKey, q, ?_, ⟨?_, ?_, hq.pinned_eq, hq.unreferenced_eq, hq.length_eq,
      hq.pageTable_eq⟩, hq.wf h⟩
    · simp only [selectClockVictim, hselect, hframe]
      rfl
    · exact ⟨fun _ => ⟨_, f, hf, hpin⟩, fun _ => rfl⟩
    · intro key hkey
      cases hkey
      refine ⟨⟨p.ring.slot i⟩, f, h.tabled hf, hf, rfl, hpin, ?_⟩
      intro hbit id' g hg hgpin
      have ⟨g', hg', hmark⟩ := hi.stops.fair hi.first ⟨f, hf, hbit⟩ (lt_of_frame? hg) ⟨g, hg, hgpin⟩
      rw [hg] at hg'
      cases hg'
      exact hmark
  | inr hnone =>
    have ⟨hnone, hq, hpinned⟩ := hnone
    obtain rfl : found = none := hnone
    refine ⟨none, q, ?_, ⟨?_, ?_, hq.pinned_eq, hq.unreferenced_eq, hq.length_eq, hq.pageTable_eq⟩,
      hq.wf h⟩
    · simp only [selectClockVictim, hselect]
    · constructor
      · intro hsome
        cases hsome
      · intro ⟨id, f, hf, hpin⟩
        exact absurd hpin (hpinned id f hf)
    · intro key hkey
      cases hkey

end Victims

/-! ### Between two calls -/

/-- Reference bits and the hand are not seen. -/
structure SameFrames (p p' : BufferPool) : Prop where
  idle : p'.Idle
  cached_eq : p'.cached = p.cached

section Idle

variable {p p' : BufferPool} {id : FrameId} {f : BufferFrame} {victim : Option PageKey}

/-- Two frames differ in the reference bit only. -/
lemma ClockSelects.exists_frame (h : ClockSelects p p' victim) (hf : p'.frame? id = some f) :
    ∃ g, p.frame? id = some g ∧ g.unreferenced = f.unreferenced := by
  have hframe := h.frame_eq id
  rw [hf, Option.map_some] at hframe
  exact Option.map_eq_some_iff.mp hframe.symm

lemma ClockSelects.sameFrames (h : ClockSelects p p' victim) (hwf : p'.Wf) (hidle : p.Idle) :
    SameFrames p p' := by
  refine ⟨⟨hwf, ?_⟩, ?_⟩
  · intro id f hf
    have ⟨g, hg, heq⟩ := h.exists_frame hf
    have hpin : g.pinCount = 0 := hidle.unpinned hg
    show f.unreferenced.pinCount = 0
    rw [← heq]
    exact hpin
  · have hsee (q : BufferPool) (key : PageKey) : q.cached key = (q.pageTable.get key).bind fun id =>
        ((q.frame? id).map BufferFrame.unreferenced).map fun f => (f.page, f.isDirty) := by
      unfold cached
      rw [Option.map_bind]
      congr 1
      funext id
      rw [Function.comp_apply, Option.map_map]
      rfl
    funext key
    rw [hsee, hsee, h.pageTable_eq]
    simp only [h.frame_eq]

lemma exists_frame_of_isFull (hfull : p.isFull = true) {i : Nat} (hi : i < p.frames.length) :
    ∃ f, p.frame? ⟨i⟩ = some f := by
  rw [isFull, List.all_eq_true] at hfull
  obtain ⟨f, hf⟩ := Option.isSome_iff_exists.mp (hfull _ (List.getElem_mem hi))
  exact ⟨f, frame?_eq_some.mpr (by rw [List.getElem?_eq_getElem hi, hf])⟩

lemma selectClockVictim_ok (h : p.Idle) : ∃ victim p', selectClockVictim.run p = .ok victim p' ∧
    SameFrames p p' ∧ (∀ key, victim = some key → ∃ c, p.cached key = some c) ∧
    (p.isFull = true → victim ≠ none) := by
  have ⟨victim, p', hrun, hselects, hwf⟩ := h.toWf.selectClockVictim_selects
  refine ⟨victim, p', hrun, hselects.sameFrames hwf h, ?_, ?_⟩
  · intro key hkey
    have ⟨id, f, _, hf, heq, _⟩ := hselects.unpinned hkey
    rw [← heq]
    exact ⟨_, h.cached_eq hf⟩
  · intro hfull
    have ⟨f, hf⟩ := exists_frame_of_isFull hfull h.capacity
    have hsome := hselects.found.mpr ⟨_, f, hf, h.unpinned hf⟩
    exact Option.isSome_iff_ne_none.mp hsome

end Idle

/-! ### Every pool -/

/-- The pools the operations lead to. A guard that is never dropped leaves its pin behind. -/
inductive Reachable : BufferPool → Prop
  | new (capacity : Nat) : Reachable (new capacity)
  | fetchCachedPage {p p' : BufferPool} (key : PageKey) : Reachable p →
      ((fetchCachedPage key).run p).Returns p' → Reachable p'
  | insertPage {p p' : BufferPool} (key : PageKey) (page : Page) : Reachable p →
      ((insertPage key page).run p).Returns p' → Reachable p'
  | removePage {p p' : BufferPool} (key : PageKey) : Reachable p →
      ((removePage key).run p).Returns p' → Reachable p'
  | selectClockVictim {p p' : BufferPool} : Reachable p →
      (selectClockVictim.run p).Returns p' → Reachable p'
  | cleanFrame {p p' : BufferPool} (key : PageKey) : Reachable p →
      ((cleanFrame key).run p).Returns p' → Reachable p'
  | pageMut {p : BufferPool} {guard : FrameId} {f : BufferFrame} (page : Page) : Reachable p →
      p.frame? guard = some f → Reachable (p.setFrame guard (f.pageMut page))
  | dropGuard {p : BufferPool} {guard : FrameId} {f : BufferFrame} : Reachable p →
      p.frame? guard = some f → Reachable (p.setFrame guard f.dropGuard)

section Reachability

variable {p p' : BufferPool} {id : FrameId} {f : BufferFrame} {key : PageKey} {page : Page}
  {victim : Option PageKey}

/-- The invariant of the pools: a pool without frames has no room for a hand either. -/
def Sound (p : BufferPool) : Prop := p.Wf ∨ p = new 0

lemma new_sound {capacity : Nat} : (new capacity).Sound := by
  cases capacity with
  | zero => exact Or.inr rfl
  | succ capacity => exact Or.inl (idle_new (Nat.succ_pos capacity)).toWf

lemma frame?_new_zero : (new 0).frame? id = none := rfl

lemma Sound.wf (h : p.Sound) (hf : p.frame? id = some f) : p.Wf := by
  cases h with
  | inl hwf => exact hwf
  | inr hnew =>
    rw [hnew, frame?_new_zero] at hf
    cases hf

lemma Sound.setFrame (h : p.Sound) (hf : p.frame? id = some f) {g : BufferFrame}
    (hkey : g.pageKey = f.pageKey) : (p.setFrame id g).Sound := Or.inl ((h.wf hf).setFrame hf hkey)

lemma pageKey_dropGuard : f.dropGuard.pageKey = f.pageKey := by
  unfold BufferFrame.dropGuard BufferFrame.unpin
  split
  · rename_i g hunpin
    split at hunpin
    · cases hunpin
    · cases hunpin
      rfl
  · rfl

lemma fetchCachedPage_keeps : Exec.Keeps Sound (fetchCachedPage key) := by
  intro p hp
  unfold fetchCachedPage
  dsimp only
  cases hid : p.pageTable.get key with
  | none => exact hp
  | some id =>
    dsimp only
    cases hf : p.frame? id with
    | none => exact hp
    | some f => exact hp.setFrame hf rfl

lemma cleanFrame_keeps : Exec.Keeps Sound (cleanFrame key) := by
  intro p hp
  unfold cleanFrame
  dsimp only
  cases hid : p.getFrameId key with
  | error e => exact hp
  | ok id =>
    dsimp only
    cases hf : p.getFrame id with
    | error e => exact hp
    | ok f => exact hp.setFrame (getFrame_eq_ok.mp hf) rfl

lemma selectClockVictim_keeps : Exec.Keeps Sound selectClockVictim := by
  intro p hp
  cases hp with
  | inl hwf =>
    have ⟨victim, p', hrun, _, hwf'⟩ := hwf.selectClockVictim_selects
    rw [hrun]
    exact Or.inl hwf'
  | inr hnew =>
    rw [hnew]
    exact Or.inr rfl

lemma insertFrame_keeps : Exec.Keeps Sound (insertFrame f) := by
  intro p hp
  unfold insertFrame
  dsimp only
  cases hindex : p.frames.findIdx? Option.isNone with
  | none => exact hp
  | some index =>
    unfold PageTable.insert
    dsimp only
    cases htable : p.pageTable.table f.pageKey with
    | some id => exact hp
    | none =>
      have hslot := getElem?_of_findIdx? hindex
      have hwf : p.Wf := by
        cases hp with
        | inl hwf => exact hwf
        | inr hnew =>
          rw [hnew] at hslot
          cases hslot
      have hc : p.cached f.pageKey = none := hwf.cached_eq_none.mpr htable
      exact Or.inl (hwf.filled hslot hc).1

lemma insertPage_keeps : Exec.Keeps Sound (insertPage key page) :=
  insertFrame_keeps.bind fun _ => (Exec.keeps_query _).bind fun _ => Exec.keeps_pure

lemma removePage_keeps : Exec.Keeps Sound (removePage key) := by
  intro p hp
  unfold removePage
  simp only [Exec.run_bind, Exec.run_query]
  cases hid : p.getFrameId key with
  | error e => exact hp
  | ok id =>
    simp only [Outcome.andThen_ok]
    cases hf : p.getFrame id with
    | error e => exact hp
    | ok f =>
      simp only [Outcome.andThen_ok]
      have hf' := getFrame_eq_ok.mp hf
      have hwf := hp.wf hf'
      have hkey : f.pageKey = key := hwf.pageKey_eq hid hf'
      by_cases hpin : f.pinCount > 0
      · rw [if_pos hpin]
        exact hp
      · rw [if_neg hpin]
        by_cases hdirty : f.isDirty = true
        · rw [if_pos hdirty]
          exact hp
        · rw [if_neg hdirty, ← hkey]
          exact Or.inl (hwf.emptied hf').1

theorem Reachable.sound (h : Reachable p) : p.Sound := by
  induction h with
  | new capacity => exact new_sound
  | fetchCachedPage key _ hrun ih => exact fetchCachedPage_keeps.of_returns ih hrun
  | insertPage key page _ hrun ih =>
    exact insertPage_keeps.of_returns ih hrun
  | removePage key _ hrun ih => exact removePage_keeps.of_returns ih hrun
  | selectClockVictim _ hrun ih => exact selectClockVictim_keeps.of_returns ih hrun
  | cleanFrame key _ hrun ih => exact cleanFrame_keeps.of_returns ih hrun
  | pageMut page _ hf ih => exact ih.setFrame hf rfl
  | dropGuard _ hf ih => exact ih.setFrame hf pageKey_dropGuard

lemma selectClockVictim_new_zero : selectClockVictim.run (new 0) = .ok none (new 0) := rfl

/-- A selection never fails, and it is fair whatever has happened before. -/
theorem selectClockVictim_fair (h : Reachable p) :
    ∃ victim p', selectClockVictim.run p = .ok victim p' ∧ ClockSelects p p' victim := by
  cases h.sound with
  | inl hwf =>
    have ⟨victim, p', hrun, hselects, _⟩ := hwf.selectClockVictim_selects
    exact ⟨victim, p', hrun, hselects⟩
  | inr hnew =>
    subst hnew
    refine ⟨none, new 0, selectClockVictim_new_zero, ⟨?_, ?_, fun hf _ => hf, fun _ => rfl, rfl, rfl⟩⟩
    · constructor
      · intro hsome
        cases hsome
      · intro ⟨id, f, hf, _⟩
        cases hf
    · intro key hkey
      cases hkey

end Reachability

/-- Three frames, of which the first one is still pinned: its page stays, and that of the second one is the
victim. -/
theorem selectClockVictim_fair_three : ∃ p p', Reachable p ∧
    (∃ f, p.frame? ⟨0⟩ = some f ∧ f.pinCount = 1) ∧ (∃ f, p.frame? ⟨1⟩ = some f ∧ f.pinCount = 0) ∧
    (∃ f, p.frame? ⟨2⟩ = some f ∧ f.pinCount = 0) ∧
    selectClockVictim.run p = .ok (some ⟨.heap ⟨1⟩, ⟨1⟩⟩) p' ∧ ClockSelects p p' (some ⟨.heap ⟨1⟩, ⟨1⟩⟩) := by
  have h₀ := Reachable.insertPage ⟨.heap ⟨1⟩, ⟨0⟩⟩ .newRaw (.new 3) (Or.inl ⟨⟨0⟩, rfl⟩)
  have h₁ := Reachable.insertPage ⟨.heap ⟨1⟩, ⟨1⟩⟩ .newRaw h₀ (Or.inl ⟨⟨1⟩, rfl⟩)
  have h₂ := Reachable.insertPage ⟨.heap ⟨1⟩, ⟨2⟩⟩ .newRaw h₁ (Or.inl ⟨⟨2⟩, rfl⟩)
  have h₃ := @Reachable.dropGuard _ ⟨1⟩ _ h₂ rfl
  have h₄ := @Reachable.dropGuard _ ⟨2⟩ _ h₃ rfl
  have ⟨victim, p', hrun, hselects⟩ := selectClockVictim_fair h₄
  obtain rfl : some ⟨.heap ⟨1⟩, ⟨1⟩⟩ = victim := (Outcome.ok.inj hrun).1
  exact ⟨_, p', h₄, ⟨_, rfl, rfl⟩, ⟨_, rfl, rfl⟩, ⟨_, rfl, rfl⟩, hrun, hselects⟩

end BufferPool

end RdbRs
