import RdbRs.Lib.Halts
import RdbRs.Storage.PageStore

/-!
# Calls on a page store return

Every access, allocation and creation returns `Ok` or `Err`, and so does a flush of a page that is in memory.
-/

namespace RdbRs

open Exec

namespace PageStore

variable {σ : Type} [PageStore σ] {F : Prop} {P : σ → Prop}

/-- An access returns what the body says of some page, which is then in memory. -/
lemma halts_access {α : Type} (key : PageKey) (body : Page → α × Option Page) :
    Halts F P (access key body : Exec StorageError σ α) fun a s => (∃ p, a = (body p).1) ∧ Cached s key := by
  intro s _
  cases hpage : (pages s key.relationId).bind fun ps => ps[key.pageId.index]? with
  | none =>
    obtain ⟨e, s', hrun, -⟩ := access_err key body hpage
    rw [hrun]
    trivial
  | some p =>
    obtain ⟨ps, hps, hp⟩ := Option.bind_eq_some_iff.mp hpage
    obtain ⟨s', hrun, hcached, -⟩ := access_ok key body hps hp
    rw [hrun]
    exact ⟨⟨p, rfl⟩, hcached⟩

lemma total_fetchPage (key : PageKey) : Total (fetchPage key : Exec StorageError σ Page) :=
  (halts_access key _).total

lemma halts_writePage (key : PageKey) (bytes : Page) :
    Halts F P (writePage key bytes : Exec StorageError σ Unit) fun _ s => Cached s key :=
  (halts_access key _).imp id (fun _ hs => hs) fun _ _ hs => hs.2

lemma halts_withPageMut {ε α : Type} (key : PageKey) (call : Exec ε Page α) :
    Halts F P (withPageMut key call : Exec StorageError σ _) fun o s => (∃ p, o = call.run p) ∧ Cached s key :=
  halts_access key _

lemma halts_flushPage (key : PageKey) :
    Halts F (fun s => Cached s key) (flushPage key : Exec StorageError σ Unit) fun _ _ => True := by
  intro s hs
  obtain ⟨s', hrun, -⟩ := flush_ok hs
  rw [hrun]
  trivial

lemma total_allocatePage (r : RelationId) : Total (allocatePage r : Exec StorageError σ PageId) := by
  intro s
  by_cases hroom : ∃ ps, pages s r = some ps ∧ ps.length < maxPages σ
  · obtain ⟨ps, hps, hlt⟩ := hroom
    obtain ⟨s', hrun, -⟩ := allocate_ok hps hlt
    rw [hrun]
    exact Outcome.ends_ok
  · have hfull (ps : List Page) (hps : pages s r = some ps) : ps.length = maxPages σ :=
      Nat.le_antisymm (length_le hps) (Nat.le_of_not_lt fun hlt => hroom ⟨ps, hps, hlt⟩)
    obtain ⟨e, s', hrun, -⟩ := allocate_err hfull
    rw [hrun]
    exact Outcome.ends_err

lemma total_createRelation (r : RelationId) : Total (createRelation r : Exec StorageError σ Unit) := by
  intro s
  obtain ⟨s', hrun, -⟩ := create_ok s r
  rw [hrun]
  exact Outcome.ends_ok

end PageStore

end RdbRs
