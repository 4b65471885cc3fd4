import RdbRs.Index.TreeCalls

/-!
# What a tree leaves alone

The calls of a tree change no pages but those of its own relation, and its reads change none.
-/

namespace RdbRs

open Exec

variable {σ : Type} [PageStore σ] {key : PageKey} {contents : RelationId → Option (List Page)} {s s' : σ}

/-- Every relation but one has these pages. -/
def ElsewhereAt (r : RelationId) (contents : RelationId → Option (List Page)) (s : σ) : Prop :=
  ∀ r', r' ≠ r → PageStore.pages s r' = contents r'

lemma ElsewhereAt.of_eq {r : RelationId} (h : ElsewhereAt r contents s)
    (heq : PageStore.pages s' = PageStore.pages s) : ElsewhereAt r contents s' := by
  intro r' hr'
  rw [heq]
  exact h r' hr'

lemma ElsewhereAt.of_update {r : RelationId} {ps : Option (List Page)} (h : ElsewhereAt r contents s)
    (heq : PageStore.pages s' = Function.update (PageStore.pages s) r ps) : ElsewhereAt r contents s' := by
  intro r' hr'
  rw [heq, Function.update_of_ne hr']
  exact h r' hr'

namespace PageStore

/-- An access behind a guard: the page is there and is cached afterwards, or nothing happens. -/
lemma access_elsewhere {α : Type} (key : PageKey) (body : Page → α × Option Page) :
    Triple (ElsewhereAt key.relationId contents) (access key body : Exec StorageError σ α)
      (fun _ s => ElsewhereAt key.relationId contents s ∧ Cached s key)
      (ElsewhereAt key.relationId contents) := by
  intro s hs
  cases hpage : (pages s key.relationId).bind fun ps => ps[key.pageId.index]? with
  | some p =>
    obtain ⟨ps, hps, hp⟩ := Option.bind_eq_some_iff.mp hpage
    obtain ⟨s', hrun, hcached, hpages⟩ := access_ok key body hps hp
    rw [hrun]
    exact ⟨hs.of_update hpages, hcached⟩
  | none =>
    obtain ⟨e, s', hrun, hpages⟩ := access_err key body hpage
    rw [hrun]
    exact hs.of_eq hpages

/-- A read changes nothing. -/
lemma keeps_fetchPage (key : PageKey) :
    Keeps (fun s : σ => pages s = contents) (fetchPage key : Exec StorageError σ Page) := by
  intro s hs
  unfold fetchPage
  cases hpage : (pages s key.relationId).bind fun ps => ps[key.pageId.index]? with
  | some p =>
    obtain ⟨ps, hps, hp⟩ := Option.bind_eq_some_iff.mp hpage
    obtain ⟨s', hrun, -, hpages⟩ := access_ok key (fun p => (p, (none : Option Page))) hps hp
    rw [hrun]
    have hset : ps.set key.pageId.index p = ps := by
      apply List.ext_getElem?
      intro i
      rw [List.getElem?_set]
      split
      · next h =>
        rw [← h, hp]
        simp [(List.getElem?_eq_some_iff.mp hp).1]
      · rfl
    simp only [Option.getD_none, hset] at hpages
    rw [← hps, Function.update_eq_self] at hpages
    exact hpages.trans hs
  | none =>
    obtain ⟨e, s', hrun, hpages⟩ := access_err key (fun p => (p, (none : Option Page))) hpage
    rw [hrun]
    exact hpages.trans hs

lemma allocatePage_elsewhere (r : RelationId) :
    Keeps (ElsewhereAt r contents) (allocatePage r : Exec StorageError σ PageId) := by
  intro s hs
  by_cases hroom : ∃ ps, pages s r = some ps ∧ ps.length < maxPages σ
  · obtain ⟨ps, hps, hlt⟩ := hroom
    obtain ⟨s', hrun, hpages⟩ := allocate_ok hps hlt
    rw [hrun]
    exact hs.of_update hpages
  · push Not at hroom
    obtain ⟨e, s', hrun, hpages⟩ := allocate_err (s := s) (r := r)
      fun ps hps => le_antisymm (length_le hps) (hroom ps hps)
    rw [hrun]
    exact hs.of_eq hpages

end PageStore

namespace BTree

variable (tree : BTree) (contents : RelationId → Option (List Page))

/-- The pages of the other relations stay as they are. -/
lemma elsewhereRules : tree.CallRules (ElsewhereAt tree.relationId contents) fun pageId (s : σ) =>
    ElsewhereAt tree.relationId contents s ∧ PageStore.Cached s (tree.pageKey pageId) where
  fetchPage _ := (PageStore.access_elsewhere _ _).mapErr _ |>.imp (fun _ hs => hs) (fun _ _ hs => hs.1)
    fun _ hs => hs
  allocatePage := (PageStore.allocatePage_elsewhere _).mapErr _
  writePage pageId bytes := (PageStore.access_elsewhere (tree.pageKey pageId) _).mapErr _
  flushPage pageId := by
    apply Triple.mapErr
    intro s hs
    obtain ⟨s', hrun, hpages⟩ := PageStore.flush_ok hs.2
    rw [hrun]
    exact hs.1.of_eq hpages
  onPage {ε α changed call} pageId _ := by
    apply ((PageStore.access_elsewhere (tree.pageKey pageId) _).mapErr _).imp (fun _ hs => hs) _
      fun _ hs => hs
    intro o s hs
    cases o with
    | ok a q =>
      change if changed a then _ else _
      split
      · exact hs
      · exact hs.1
    | err e q => exact hs.1
    | panic => exact hs.1
    | diverge => exact hs.1

end BTree

end RdbRs
