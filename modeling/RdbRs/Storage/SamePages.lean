import RdbRs.Lib.Coupling
import RdbRs.Storage.Durability

/-!
# Managers with the same pages

Whatever their pools hold, two managers that show the same pages return the same from every call, and show the same
pages afterwards.
-/

namespace RdbRs

open Exec

namespace ReliableManager

open StorageManager

/-- Both managers show the same pages. -/
def SamePages (s t : ReliableManager) : Prop := PageStore.pages s = PageStore.pages t

/-- Both managers show the same pages, and have this one in memory. -/
structure Held (key : PageKey) (s t : ReliableManager) : Prop where
  samePages : SamePages s t
  left : PageStore.Cached s key
  right : PageStore.Cached t key

section Errors

variable {s t : ReliableManager} {key : PageKey} {r : RelationId}

/-- The lengths of the files can be told from the pages. -/
lemma lengths_eq_pages (s : ReliableManager) (r : RelationId) :
    s.1.lengths r = (PageStore.pages s r).map List.length := by
  show _ = (pagesOf s.1.lengths s.1.view.shown r).map List.length
  rw [pagesOf, Option.map_map]
  cases s.1.lengths r with
  | none => rfl
  | some n => rw [Option.map_some, Function.comp_apply, List.length_map, List.length_range]

lemma SamePages.lengths_eq (h : SamePages s t) (r : RelationId) : s.1.lengths r = t.1.lengths r := by
  rw [lengths_eq_pages, lengths_eq_pages, h]

lemma SamePages.missing_eq (h : SamePages s t) (key : PageKey) :
    s.1.relationFileManager.missing key = t.1.relationFileManager.missing key := by
  rw [missing_eq_lengths, missing_eq_lengths, h.lengths_eq]

/-- The access of a page that is not there. -/
lemma access_missing {α : Type} (body : Page → α × Option Page)
    (h : ((PageStore.pages s key.relationId).bind fun ps => ps[key.pageId.index]?) = none) :
    ∃ s', (PageStore.access key body).run s =
        .err (.relationFileManager (s.1.relationFileManager.missing key)) s' ∧ SamePages s' s := by
  have hshown : s.shown key = none := (s.2.shown_eq_pages key).trans h
  rcases access_cases s key body with ⟨p, s', _, hp, _⟩ | ⟨s', hrun, _, hquiet⟩
  · rw [hshown] at hp
    cases hp
  · exact ⟨s', hrun, hquiet.pages_eq s.2.toValid⟩

end Errors

end ReliableManager

namespace RelationFileManager

variable {m m' : RelationFileManager} {r : RelationId} {e : RelationFileManagerError}

/-- Why a relation does not get a new page. -/
lemma allocatePage_err (h : m.Reliable) (hregistered : m.registeredRelations r = (m.data.files r).isSome)
    (hrun : (allocatePage r).run m = .err e m') :
    e = if (m.data.files r).isSome then .pager .io else .relationNotRegistered r := by
  rw [allocatePage, run_bind, openRelationFile] at hrun
  simp only [hregistered, h 0] at hrun
  cases hfile : m.data.files r with
  | none =>
    simp only [hfile, Option.isSome_none, Bool.false_eq_true, if_false, Outcome.andThen_err] at hrun
    cases hrun
    rfl
  | some pages =>
    simp only [hfile, Option.isSome_some, if_true, Outcome.andThen_ok] at hrun
    split at hrun
    · cases hrun
    · cases hrun
      rfl

end RelationFileManager

namespace ReliableManager

open StorageManager

section Calls

variable {s t : ReliableManager} {key : PageKey} {r : RelationId}

/-- Why a relation does not get a new page. -/
lemma allocatePage_err {e : StorageError} {s' : ReliableManager}
    (hrun : (PageStore.allocatePage r).run s = .err e s') :
    e = .relationFileManager (if (s.1.lengths r).isSome then .pager .io else .relationNotRegistered r) := by
  rcases StorageManager.allocatePage_cases s.2.toValid r with ⟨pages, u, hok, _⟩ | ⟨e', u, herr, _⟩
  · have hok' : (PageStore.allocatePage r).run s = .ok _ ⟨u, _⟩ := run_restrict_ok (allocatePage_reliable r) hok
    rw [hok'] at hrun
    cases hrun
  · have herr' : (PageStore.allocatePage r).run s = .err e' ⟨u, _⟩ :=
      run_restrict_err (allocatePage_reliable r) herr
    rw [herr'] at hrun
    cases hrun
    rw [StorageManager.allocatePage, run_bind] at herr
    rcases s.1.relationFileManager.allocatePage_cases r with ⟨pages, _, hfile, _⟩ | ⟨e', m, hfile, _⟩
    · rw [file_ok hfile] at herr
      cases herr
    · rw [file_err hfile] at herr
      cases herr
      rw [RelationFileManager.allocatePage_err s.2.faultless (s.2.registered_eq r) hfile]
      show _ = StorageError.relationFileManager
        (if ((s.1.relationFileManager.data.files r).map List.length).isSome then _ else _)
      rw [Option.isSome_map]

lemma matches_access {α : Type} (key : PageKey) (body : Page → α × Option Page) :
    Couples SamePages (Held key) SamePages (PageStore.access key body) (PageStore.access key body) := by
  intro s t hst
  have hpages : PageStore.pages s = PageStore.pages t := hst
  cases hpage : (PageStore.pages s key.relationId).bind fun ps => ps[key.pageId.index]? with
  | none =>
    obtain ⟨s', hrun, hs'⟩ := access_missing body hpage
    rw [hpages] at hpage
    obtain ⟨t', hrun', ht'⟩ := access_missing body hpage
    rw [hrun, hrun', hst.missing_eq key]
    exact .err ((hs'.trans hst).trans ht'.symm)
  | some p =>
    obtain ⟨ps, hps, hp⟩ := Option.bind_eq_some_iff.mp hpage
    obtain ⟨s', hrun, hcached, hs'⟩ := PageStore.access_ok key body hps hp
    rw [hpages] at hps
    obtain ⟨t', hrun', hcached', ht'⟩ := PageStore.access_ok key body hps hp
    rw [hrun, hrun']
    exact .ok ⟨by rw [SamePages, hs', ht', hpages], hcached, hcached'⟩

lemma matches_fetchPage (key : PageKey) :
    Matches SamePages (PageStore.fetchPage key) (PageStore.fetchPage key) := by
  intro s t hst
  exact (matches_access key (fun p => (p, none)) s t hst).imp (fun _ _ h => h.samePages) fun _ _ h => h

lemma matches_withPageMut {ε α : Type} (key : PageKey) (call : Exec ε Page α) :
    Couples SamePages (Held key) SamePages (PageStore.withPageMut key call) (PageStore.withPageMut key call) :=
  matches_access key _

lemma matches_flushPage (key : PageKey) :
    Couples (Held key) SamePages SamePages (PageStore.flushPage key) (PageStore.flushPage key) := by
  intro s t hst
  obtain ⟨s', hrun, hs'⟩ := PageStore.flush_ok hst.left
  obtain ⟨t', hrun', ht'⟩ := PageStore.flush_ok hst.right
  rw [hrun, hrun']
  exact .ok ((hs'.trans hst.samePages).trans ht'.symm)

lemma matches_allocatePage (r : RelationId) :
    Matches SamePages (PageStore.allocatePage r) (PageStore.allocatePage r) := by
  intro s t hst
  have hpages : PageStore.pages s = PageStore.pages t := hst
  by_cases hroom : ∃ ps, PageStore.pages s r = some ps ∧ ps.length < PageStore.maxPages ReliableManager
  · obtain ⟨ps, hps, hlt⟩ := hroom
    obtain ⟨s', hrun, hs'⟩ := PageStore.allocate_ok hps hlt
    rw [hpages] at hps
    obtain ⟨t', hrun', ht'⟩ := PageStore.allocate_ok hps hlt
    rw [hrun, hrun']
    exact .ok (by rw [SamePages, hs', ht', hpages])
  · have hfull (ps : List Page) (hps : PageStore.pages s r = some ps) :
        ps.length = PageStore.maxPages ReliableManager := by
      have hnot : ¬ ps.length < PageStore.maxPages ReliableManager := fun hlt => hroom ⟨ps, hps, hlt⟩
      exact Nat.le_antisymm (PageStore.length_le hps) (Nat.le_of_not_lt hnot)
    obtain ⟨e, s', hrun, hs'⟩ := PageStore.allocate_err hfull
    rw [hpages] at hfull
    obtain ⟨e', t', hrun', ht'⟩ := PageStore.allocate_err hfull
    have he : e = e' := by rw [allocatePage_err hrun, allocatePage_err hrun', hst.lengths_eq]
    rw [hrun, hrun', he]
    exact .err ((hs'.trans hst).trans ht'.symm)

lemma matches_createRelation (r : RelationId) :
    Matches SamePages (PageStore.createRelation r) (PageStore.createRelation r) := by
  intro s t hst
  have hpages : PageStore.pages s = PageStore.pages t := hst
  obtain ⟨s', hrun, hs'⟩ := PageStore.create_ok s r
  obtain ⟨t', hrun', ht'⟩ := PageStore.create_ok t r
  rw [hrun, hrun']
  exact .ok (by rw [SamePages, hs', ht', hpages])

lemma matches_pageCount (r : RelationId) :
    Matches SamePages (PageStore.pageCount r) (PageStore.pageCount r) := by
  intro s t hst
  obtain ⟨s', hlen, hshown, hrun⟩ := pageCount_run s r
  obtain ⟨t', hlen', hshown', hrun'⟩ := pageCount_run t r
  have hsame {u u' : ReliableManager} (hlen : u'.1.lengths = u.1.lengths) (hshown : u'.shown = u.shown) :
      SamePages u' u := by
    show pagesOf u'.1.lengths u'.shown = pagesOf u.1.lengths u.shown
    rw [hlen, hshown]
  have hst' : SamePages s' t' := ((hsame hlen hshown).trans hst).trans (hsame hlen' hshown').symm
  rw [hrun, hrun', hst.lengths_eq, hst.missing_eq]
  cases t.1.lengths r with
  | some n => exact .ok hst'
  | none => exact .err hst'

end Calls

end ReliableManager

end RdbRs
