import Mathlib.Logic.Function.Basic
import RdbRs.Catalog.Types
import RdbRs.Storage.SlottedPage

/-!
# The page store

What heap tables and indexes see of the storage manager while its reads and writes succeed:
relations made of pages that are fetched, written through a guard, flushed and appended.
`FileStore` is the store without a buffer.
-/

namespace RdbRs

structure PageKey where
  relationId : RelationId
  pageId : PageId
  deriving DecidableEq

inductive BufferPoolError where
  | noFreeFrame
  | pageAlreadyCached
  | alreadyUnpinned
  | pageNotCached
  | pagePinned
  | pageDirty
  deriving DecidableEq

inductive PagerError where
  | io
  | invalidFileSize
  | pageNotAllocated (pageId : PageId)
  | pageOffsetOverflow (pageId : PageId)
  deriving DecidableEq

inductive RelationFileManagerError where
  | relationNotRegistered (relationId : RelationId)
  | io
  | pager (error : PagerError)
  deriving DecidableEq

inductive StorageError where
  | bufferPool (error : BufferPoolError)
  | relationFileManager (error : RelationFileManagerError)
  deriving DecidableEq

/-- A store with its content `pages` and the laws of its calls. A relation cannot grow beyond
`maxPages`, which is where the offsets of its file end. -/
class PageStore (σ : Type) where
  /-- `fetch_page`, a use of the guard and its drop: the body reads the page and may write it. -/
  access {α : Type} (key : PageKey) (body : Page → α × Option Page) : Exec StorageError σ α
  flushPage (key : PageKey) : Exec StorageError σ Unit
  allocatePage (relationId : RelationId) : Exec StorageError σ PageId
  createRelation (relationId : RelationId) : Exec StorageError σ Unit
  pageCount (relationId : RelationId) : Exec StorageError σ Nat
  /-- The pages of each relation that has been created. -/
  pages : σ → RelationId → Option (List Page)
  /-- The page is in memory, so that it can be flushed. -/
  Cached : σ → PageKey → Prop
  maxPages : Nat
  maxPages_le : maxPages ≤ 2 ^ 64
  length_le {s : σ} {r : RelationId} {ps : List Page} : pages s r = some ps → ps.length ≤ maxPages
  access_ok {α : Type} {s : σ} (key : PageKey) {ps : List Page} {p : Page}
    (body : Page → α × Option Page) : pages s key.relationId = some ps →
      ps[key.pageId.index]? = some p →
      ∃ s', (access key body).run s = .ok (body p).1 s' ∧ Cached s' key ∧
        pages s' = Function.update (pages s) key.relationId
          (some (ps.set key.pageId.index ((body p).2.getD p)))
  access_err {α : Type} {s : σ} (key : PageKey) (body : Page → α × Option Page) :
      ((pages s key.relationId).bind fun ps => ps[key.pageId.index]?) = none →
      ∃ e s', (access key body).run s = .err e s' ∧ pages s' = pages s
  flush_ok {s : σ} {key : PageKey} : Cached s key →
      ∃ s', (flushPage key).run s = .ok () s' ∧ pages s' = pages s
  allocate_ok {s : σ} {r : RelationId} {ps : List Page} : pages s r = some ps →
      ps.length < maxPages → ∃ s', (allocatePage r).run s = .ok (PageId.new ps.length) s' ∧
        pages s' = Function.update (pages s) r (some (ps ++ [Page.new]))
  allocate_err {s : σ} {r : RelationId} : (∀ ps, pages s r = some ps → ps.length = maxPages) →
      ∃ e s', (allocatePage r).run s = .err e s' ∧ pages s' = pages s
  create_ok (s : σ) (r : RelationId) :
      ∃ s', (createRelation r).run s = .ok () s' ∧
        pages s' = Function.update (pages s) r (some ((pages s r).getD []))
  count_ok {s : σ} {r : RelationId} {ps : List Page} : pages s r = some ps →
      ∃ s', (pageCount r).run s = .ok ps.length s' ∧ pages s' = pages s

namespace PageStore

variable {σ : Type} [PageStore σ]

/-- `fetch_page(key)?.page()`. -/
def fetchPage (key : PageKey) : Exec StorageError σ Page := access key fun p => (p, none)

/-- `fetch_page(key)?.page_mut()` overwritten. -/
def writePage (key : PageKey) (bytes : Page) : Exec StorageError σ Unit :=
  access key fun _ => ((), some bytes)

/-- `fetch_page(key)?` and a call on `guard.page_mut()`, whose result is a value. -/
def withPageMut {ε α : Type} (key : PageKey) (call : Exec ε Page α) :
    Exec StorageError σ (Outcome ε Page α) :=
  access key fun p =>
    let o := call.run p
    (o, match o with
      | .ok _ q => some q
      | .err _ q => some q
      | _ => none)

section WithPageMut

variable {ε α : Type} {s : σ} {ps : List Page} {p : Page}

lemma withPageMut_ok (key : PageKey) (call : Exec ε Page α) (hps : pages s key.relationId = some ps)
    (hp : ps[key.pageId.index]? = some p) : ∃ s', (withPageMut key call).run s = .ok (call.run p) s' ∧
      Cached s' key ∧
      (∀ a q, call.run p = .ok a q → pages s' = Function.update (pages s) key.relationId
        (some (ps.set key.pageId.index q))) ∧
      ∀ e q, call.run p = .err e q → pages s' = Function.update (pages s) key.relationId
        (some (ps.set key.pageId.index q)) := by
  have ⟨s', hrun, hcached, hpages⟩ := access_ok key (fun p =>
    let o := call.run p
    (o, match o with
      | .ok _ q => some q
      | .err _ q => some q
      | _ => none)) hps hp
  refine ⟨s', hrun, hcached, ?_, ?_⟩
  · intro a q hcall
    simp only [hcall] at hpages
    exact hpages
  · intro e q hcall
    simp only [hcall] at hpages
    exact hpages

lemma withPageMut_err (key : PageKey) (call : Exec ε Page α)
    (h : ((pages s key.relationId).bind fun ps => ps[key.pageId.index]?) = none) :
    ∃ e s', (withPageMut key call).run s = .err e s' ∧ pages s' = pages s :=
  access_err key _ h

end WithPageMut

end PageStore

/-! ### Files without a buffer -/

/-- The number of pages whose offsets fit in sixty-four bits. -/
def maxFilePages : Nat := 2 ^ 51

lemma maxFilePages_le : maxFilePages ≤ 2 ^ 64 := by decide

structure FileStore where
  files : RelationId → Option (List Page)
  bounded : ∀ r ps, files r = some ps → ps.length ≤ maxFilePages

namespace FileStore

def empty : FileStore := ⟨fun _ => none, by simp⟩

/-- The store with one file replaced. -/
def put (s : FileStore) (r : RelationId) (ps : List Page) (h : ps.length ≤ maxFilePages) : FileStore :=
  ⟨Function.update s.files r (some ps), by
    intro r' ps' h'
    by_cases hr : r' = r
    · subst hr
      rw [Function.update_self, Option.some.injEq] at h'
      rwa [← h']
    · rw [Function.update_of_ne hr] at h'
      exact s.bounded r' ps' h'⟩

def access {α : Type} (key : PageKey) (body : Page → α × Option Page) :
    Exec StorageError FileStore α := ⟨fun s =>
  match h : s.files key.relationId with
  | none => .err (.relationFileManager (.relationNotRegistered key.relationId)) s
  | some ps =>
    match ps[key.pageId.index]? with
    | none => .err (.relationFileManager (.pager .io)) s
    | some p => .ok (body p).1 (s.put key.relationId (ps.set key.pageId.index ((body p).2.getD p))
        (by rw [List.length_set]; exact s.bounded _ _ h))⟩

def allocatePage (r : RelationId) : Exec StorageError FileStore PageId := ⟨fun s =>
  match s.files r with
  | none => .err (.relationFileManager (.relationNotRegistered r)) s
  | some ps =>
    if h : ps.length < maxFilePages then
      .ok (PageId.new ps.length) (s.put r (ps ++ [Page.new]) (by rw [List.length_append]; exact h))
    else .err (.relationFileManager (.pager .io)) s⟩

def createRelation (r : RelationId) : Exec StorageError FileStore Unit := ⟨fun s =>
  match h : s.files r with
  | none => .ok () (s.put r [] (Nat.zero_le _))
  | some ps => .ok () (s.put r ps (s.bounded _ _ h))⟩

def pageCount (r : RelationId) : Exec StorageError FileStore Nat := ⟨fun s =>
  match s.files r with
  | none => .err (.relationFileManager (.relationNotRegistered r)) s
  | some ps => .ok ps.length s⟩

end FileStore

instance : PageStore FileStore where
  access := FileStore.access
  flushPage _ := pure ()
  allocatePage := FileStore.allocatePage
  createRelation := FileStore.createRelation
  pageCount := FileStore.pageCount
  pages := FileStore.files
  Cached _ _ := True
  maxPages := maxFilePages
  maxPages_le := maxFilePages_le
  length_le h := FileStore.bounded _ _ _ h
  access_ok := by
    intro α s key ps p body hps hp
    refine ⟨s.put key.relationId (ps.set key.pageId.index ((body p).2.getD p))
      (by rw [List.length_set]; exact s.bounded _ _ hps), ?_, trivial, rfl⟩
    simp only [FileStore.access]
    split
    · rename_i h
      rw [h] at hps
      cases hps
    · rename_i ps' h
      obtain rfl : ps' = ps := Option.some.inj (h.symm.trans hps)
      simp only [hp]
  access_err := by
    intro α s key body h
    simp only [FileStore.access]
    split
    · exact ⟨_, _, rfl, rfl⟩
    · rename_i ps hps
      rw [hps, Option.bind_some] at h
      simp only [h]
      exact ⟨_, _, rfl, rfl⟩
  flush_ok _ := ⟨_, rfl, rfl⟩
  allocate_ok := by
    intro s r ps hps hlt
    refine ⟨s.put r (ps ++ [Page.new]) (by rw [List.length_append]; exact hlt), ?_, rfl⟩
    simp only [FileStore.allocatePage, hps, hlt, dite_true]
  allocate_err := by
    intro s r h
    simp only [FileStore.allocatePage]
    split
    · exact ⟨_, _, rfl, rfl⟩
    · rename_i ps hps
      rw [dif_neg (by rw [h ps hps]; exact Nat.lt_irrefl _)]
      exact ⟨_, _, rfl, rfl⟩
  create_ok := by
    intro s r
    simp only [FileStore.createRelation]
    split
    · rename_i h
      exact ⟨_, rfl, by rw [h]; rfl⟩
    · rename_i ps h
      have hget : (s.files r).getD [] = ps := by rw [h, Option.getD_some]
      exact ⟨_, rfl, by rw [hget]; rfl⟩
  count_ok := by
    intro s r ps hps
    refine ⟨s, ?_, rfl⟩
    simp only [FileStore.pageCount, hps]

lemma FileStore.ext_pages {s s' : FileStore} (h : PageStore.pages s = PageStore.pages s') : s = s' := by
  cases s
  cases s'
  cases h
  rfl

end RdbRs
