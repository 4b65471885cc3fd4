import RdbRs.Catalog.CatalogRuns
import RdbRs.Database.PoolTransparency
import RdbRs.Database.Sessions
import RdbRs.Index.DurableRuns

/-!
# Restarts

The files are enough at any time: every statement leaves the rows and the entries of the indexes in the files, and
the catalog as long as it has an encoding. A database that is opened on them goes on where the other one stopped.
-/

namespace RdbRs

open Exec ReliableManager

/-! ### Pages -/

section Pages

variable {s t : ReliableManager} {r : RelationId} {ps qs : List Page} {p q : Page} {i : Nat}

lemma ReliableManager.shown_of_pages (hps : PageStore.pages s r = some ps) (hp : ps[i]? = some p) :
    s.shown ⟨r, PageId.new i⟩ = some p := by
  have hlt : i < ps.length := (List.getElem?_eq_some_iff.mp hp).1
  have hindex : (PageId.new i).index = i := PageId.index_new (by
    have hlen := PageStore.length_le hps
    have hmax := PageStore.maxPages_le (σ := ReliableManager)
    omega)
  have hshown : s.shown ⟨r, PageId.new i⟩ = _ := s.2.shown_eq_pages ⟨r, PageId.new i⟩
  rw [hshown, show s.1.pages r = some ps from hps, Option.bind_some, hindex, hp]

lemma ReliableManager.Mirrors.pages_length (h : Mirrors s t) (hps : PageStore.pages s r = some ps) :
    ∃ qs, PageStore.pages t r = some qs ∧ qs.length = ps.length := by
  have hlen := h.lengths_eq
  have hr := congrFun hlen r
  rw [lengths_eq_pages, lengths_eq_pages, hps, Option.map_some, Option.map_eq_some_iff] at hr
  exact hr

lemma ReliableManager.Mirrors.alike_pages (h : Mirrors s t) (hps : PageStore.pages s r = some ps)
    (hqs : PageStore.pages t r = some qs) (hp : ps[i]? = some p) (hq : qs[i]? = some q) :
    Alike ⟨r, PageId.new i⟩ p q := h.alike (shown_of_pages hps hp) (shown_of_pages hqs hq)

/-- A manager with pages like those of another one resumes it. -/
lemma ReliableManager.Mirrors.resumes (h : Mirrors s t) : Resumes s t := by
  constructor
  · rintro table n rows ⟨ps, hps, hn, hpages⟩
    obtain ⟨qs, hqs, hlen⟩ := h.pages_length hps
    refine ⟨qs, hqs, hlen.trans hn, ?_, ?_⟩
    · intro i q hq
      have hlt : i < ps.length := hlen ▸ (List.getElem?_eq_some_iff.mp hq).1
      have hp : ps[i]? = some ps[i] := List.getElem?_eq_getElem hlt
      obtain ⟨m, hm, hq'⟩ := alike_heap.mp (h.alike_pages hps hqs hp hq)
      rwa [(hpages.page hp).unique hm]
    · intro id hid
      apply hpages.absent
      rwa [← hlen]
  · intro table hnone
    have hr := congrFun h.lengths_eq (.heap table)
    rw [lengths_eq_pages, lengths_eq_pages, hnone, Option.map_none, Option.map_eq_none_iff] at hr
    exact hr
  · intro index
    cases hps : PageStore.pages s (.index index) with
    | none =>
      have hr := congrFun h.lengths_eq (.index index)
      rw [lengths_eq_pages, lengths_eq_pages, hps, Option.map_none, Option.map_eq_none_iff] at hr
      exact hr
    | some ps =>
      obtain ⟨qs, hqs, hlen⟩ := h.pages_length hps
      rw [hqs, Option.some.injEq]
      apply List.ext_getElem hlen
      intro i hi hi'
      exact (alike_index.mp (h.alike_pages hps hqs (List.getElem?_eq_getElem hi')
        (List.getElem?_eq_getElem hi))).symm

end Pages

/-! ### What statements leave in the files -/

section Settled

lemma keeps_onTable {α : Type} {tableId : TableId} {call : HeapTable → Exec TableError ReliableManager α}
    (h : Keeps Settled (call (HeapTable.new tableId))) :
    Keeps Settled (TableManager.getOrOpenTable tableId >>= call) := by
  unfold TableManager.getOrOpenTable
  rw [bind_assoc]
  exact Keeps.bind ((keeps_query _).mapErr _) fun _ => h

/-- Every call of the engine leaves the files settled. -/
lemma settled_engines [UnstableSort] : EnginesMatch fun s t : ReliableManager => s = t ∧ s.Settled where
  createTable _ := ((keeps_createRelation _).mapErr _).matches
  insertRow t row := (keeps_onTable (HeapTable.keeps_insert t row)).matches
  updateRow t rowId row := (keeps_onTable (HeapTable.keeps_update t rowId row)).matches
  deleteRow t rowId := (keeps_onTable (HeapTable.keeps_delete t rowId)).matches
  scanRows t := (keeps_onTable (HeapTable.keeps_scan t)).matches
  getRow t rowId := (keeps_onTable (HeapTable.keeps_get t rowId)).matches
  createRelation _ := (keeps_createRelation _).matches
  registerRelation _ := (keeps_query _).matches
  createTree i keyType := (BTree.CallRules.create fun root => BTree.settledRules i root keyType).matches
  insert i root keyType key rowId := ((BTree.settledRules i root keyType).insert key rowId).matches
  delete i root keyType key rowId := ((BTree.settledRules i root keyType).delete key rowId).matches
  search i root keyType key := (BTree.keeps_search (BTree.settledRules i root keyType).fetchPage key).matches

end Settled

/-- The file holds the catalog, if that has an encoding. -/
def Saved (catalog : Catalog) : Prop :=
  (∃ bytes, catalog.metadata.toBytes = .ok bytes) → Loads catalog.file catalog.metadata

section Saved

variable {catalog : Catalog} {m m' : DatabaseMetadata} {file : List UInt8}

lemma loads_of_save {catalog' : Catalog} (hrun : Catalog.save.run catalog = .ok () catalog') :
    Loads catalog'.file catalog'.metadata := by
  obtain ⟨file, m⟩ := catalog
  cases hbytes : m.toBytes with
  | ok bytes =>
    rw [run_save_ok hbytes] at hrun
    cases hrun
    exact loads_of_toBytes hbytes
  | error e =>
    rw [run_save_err hbytes] at hrun
    cases hrun

/-- What a call leaves that saves the catalog where it has changed it. -/
lemma saves_or {x : Exec CatalogError Catalog Unit}
    (h : (∃ e, x.run catalog = .err e catalog) ∨ ∃ m, x.run catalog = Catalog.save.run ⟨catalog.file, m⟩) :
    (∀ catalog', x.run catalog = .ok () catalog' → Loads catalog'.file catalog'.metadata) ∧
      ∀ e catalog', x.run catalog = .err e catalog' → Saved catalog → Saved catalog' := by
  rcases h with ⟨e, herr⟩ | ⟨m, hsave⟩
  · constructor
    · intro catalog' hrun
      rw [herr] at hrun
      cases hrun
    · intro e catalog' hrun hsaved
      rw [herr] at hrun
      cases hrun
      exact hsaved
  · constructor
    · intro catalog' hrun
      rw [hsave] at hrun
      exact loads_of_save hrun
    · intro e catalog' hrun _ hbytes
      obtain ⟨bytes, hbytes⟩ := hbytes
      rw [hsave] at hrun
      cases hm : m.toBytes with
      | ok bytes =>
        rw [run_save_ok hm] at hrun
        cases hrun
      | error e =>
        rw [run_save_err hm] at hrun
        cases hrun
        rw [hm] at hbytes
        cases hbytes

lemma addTable_saves (table : TableMetadata) (catalog : Catalog) :
    (∃ e, (Catalog.addTable table).run catalog = .err e catalog) ∨
      ∃ m, (Catalog.addTable table).run catalog = Catalog.save.run ⟨catalog.file, m⟩ := by
  obtain ⟨file, m⟩ := catalog
  rw [run_addTable]
  cases m.addTable table with
  | ok m' => exact .inr ⟨m', rfl⟩
  | error e => exact .inl ⟨_, rfl⟩

lemma addIndex_saves (index : IndexMetadata) (catalog : Catalog) :
    (∃ e, (Catalog.addIndex index).run catalog = .err e catalog) ∨
      ∃ m, (Catalog.addIndex index).run catalog = Catalog.save.run ⟨catalog.file, m⟩ := by
  obtain ⟨file, m⟩ := catalog
  rw [run_addIndex]
  cases m.addIndex index with
  | ok m' => exact .inr ⟨m', rfl⟩
  | error e => exact .inl ⟨_, rfl⟩

lemma keeps_saved {x : Exec CatalogError Catalog Unit} (h : ∀ catalog,
    (∃ e, x.run catalog = .err e catalog) ∨ ∃ m, x.run catalog = Catalog.save.run ⟨catalog.file, m⟩) :
    Keeps Saved x := by
  intro catalog hsaved
  obtain ⟨hok, herr⟩ := saves_or (h catalog)
  cases hrun : x.run catalog with
  | ok a catalog' => exact fun _ => hok catalog' hrun
  | err e catalog' => exact herr e catalog' hrun hsaved
  | panic => trivial
  | diverge => trivial

lemma catalogKeeps_saved : CatalogKeeps Saved :=
  ⟨fun table => keeps_saved (addTable_saves table), fun index => keeps_saved (addIndex_saves index)⟩

end Saved

/-! ### Opening the files again -/

section Opened

variable {s : ReliableManager} {capacity : Nat}

/-- A manager that is opened on the files of a settled one is settled. -/
lemma ReliableManager.Settled.opened (h : s.Settled) (hcapacity : 0 < capacity) :
    (opened s.1.relationFileManager.data capacity hcapacity).Settled := by
  intro key p q hp hq
  have hp : s.stored key = some p := hp
  have hq : s.stored key = some q := hq
  obtain rfl := Option.some.inj (hp.symm.trans hq)
  cases hshown : s.shown key with
  | none =>
    rw [shown_eq_none, hp] at hshown
    cases hshown
  | some p' => exact (h key p p' hp hshown).symm.right

end Opened

/-- The catalog file and the files of the relations. -/
structure DataDir where
  catalog : List UInt8
  relations : FileStore

namespace Database

/-- `Database::open`. The new manager reads the files of the relations when they are needed. -/
def openDatabase (capacity : Nat) (h : 0 < capacity) (name : String) :
    Exec DatabaseError DataDir (Database ReliableManager) := do
  let metadata ← Exec.mapErr .catalog
    (Exec.zoom DataDir.catalog (fun file dir => { dir with catalog := file }) (Catalog.openCatalog name))
  let dir ← Exec.gets id
  pure ⟨⟨dir.catalog, metadata⟩, .opened dir.relations capacity h⟩

/-- What the database leaves on disk. -/
def dataDir (db : Database ReliableManager) : DataDir :=
  ⟨db.catalog.file, db.storage.1.relationFileManager.data⟩

/-- The metadata can be written to the catalog file. -/
def Encodes (db : Database ReliableManager) : Prop := ∃ bytes, db.catalog.metadata.toBytes = .ok bytes

/-- The files have what the database has, but for a catalog without an encoding. -/
structure Kept (db : Database ReliableManager) : Prop where
  saved : Saved db.catalog
  settled : db.storage.Settled

section Opening

variable {db db' : Database ReliableManager} {dir dir' : DataDir} {capacity : Nat} {hcapacity : 0 < capacity}
  {name : String}

lemma run_openDatabase (capacity : Nat) (hcapacity : 0 < capacity) (name : String) (dir : DataDir) :
    (openDatabase capacity hcapacity name).run dir =
      match (Catalog.openCatalog name).run dir.catalog with
      | .ok metadata file => .ok ⟨⟨file, metadata⟩, .opened dir.relations capacity hcapacity⟩ ⟨file, dir.relations⟩
      | .err e file => .err (.catalog e) ⟨file, dir.relations⟩
      | .panic => .panic
      | .diverge => .diverge := by
  unfold openDatabase
  rw [run_bind, run_mapErr, run_zoom]
  cases (Catalog.openCatalog name).run dir.catalog <;> rfl

/-- Only what the catalog file holds is in a catalog that has just been opened. -/
lemma loads_of_open (hrun : (openDatabase capacity hcapacity name).run dir = .ok db dir') :
    Loads db.catalog.file db.catalog.metadata ∧ db.storage = .opened dir.relations capacity hcapacity := by
  rw [run_openDatabase] at hrun
  rcases openCatalog_cases dir.catalog name with ⟨m, file, hopen, hloads⟩ | ⟨e, herr⟩
  · rw [hopen] at hrun
    cases hrun
    exact ⟨hloads, rfl⟩
  · rw [herr] at hrun
    cases hrun

/-- A database whose catalog has an encoding is opened again with the same catalog, whatever name is asked for. -/
lemma Kept.run_open (h : db.Kept) (hbytes : db.Encodes) (capacity : Nat) (hcapacity : 0 < capacity)
    (name : String) : (openDatabase capacity hcapacity name).run db.dataDir =
      .ok ⟨db.catalog, .opened db.storage.1.relationFileManager.data capacity hcapacity⟩ db.dataDir := by
  rw [run_openDatabase, show db.dataDir.catalog = db.catalog.file from rfl,
    run_openCatalog_of_loads (h.saved hbytes)]
  rfl

lemma Kept.resumes (h : db.Kept) (hcapacity : 0 < capacity) :
    Resumes db.storage (.opened db.storage.1.relationFileManager.data capacity hcapacity) :=
  (mirrors_opened h.settled hcapacity).resumes

/-- A database that has just been created is new. -/
lemma new_of_open (hrun : (openDatabase capacity hcapacity name).run ⟨[], .empty⟩ = .ok db dir') :
    db.catalog.metadata = ⟨name, [], [], .empty⟩ ∧ db.Kept ∧ ∀ r, PageStore.pages db.storage r = none := by
  obtain ⟨hloads, hstorage⟩ := loads_of_open hrun
  refine ⟨?_, ⟨fun _ => hloads, ?_⟩, ?_⟩
  · rw [run_openDatabase, run_openCatalog_nil] at hrun
    by_cases hlen : (utf8Bytes name).length ≤ u16Max
    · rw [if_pos hlen] at hrun
      cases hrun
      rfl
    · rw [if_neg hlen] at hrun
      cases hrun
  · rw [hstorage]
    exact settled_opened hcapacity fun _ _ _ hfile => by cases hfile
  · intro r
    rw [hstorage]
    exact congrFun (pages_opened .empty capacity hcapacity) r

end Opening

section Kept

variable [UnstableSort]

omit [UnstableSort] in
lemma beside_iff_kept {db db' : Database ReliableManager} :
    Beside Saved (fun s t : ReliableManager => s = t ∧ s.Settled) db db' ↔ db = db' ∧ db.Kept := by
  constructor
  · intro h
    obtain ⟨catalog, storage⟩ := db
    obtain ⟨catalog', storage'⟩ := db'
    obtain rfl : catalog = catalog' := h.catalog
    obtain rfl : storage = storage' := h.storage.1
    exact ⟨rfl, h.holds, h.storage.2⟩
  · rintro ⟨rfl, hkept⟩
    exact ⟨rfl, hkept.saved, rfl, hkept.settled⟩

/-- A statement leaves in the files what it leaves in the database. -/
lemma keeps_kept (statement : Statement) :
    Exec.Keeps Kept (execute statement : Exec DatabaseError (Database ReliableManager) ExecuteResult) := by
  apply Matches.keeps
  intro db db' hdb
  have himp (db db' : Database ReliableManager)
      (h : Beside Saved (fun s t : ReliableManager => s = t ∧ s.Settled) db db') : db = db' ∧ db.Kept :=
    beside_iff_kept.mp h
  exact (settled_engines.execute catalogKeeps_saved statement db db' (beside_iff_kept.mpr hdb)).imp himp himp

end Kept

/-! ### Programs that follow each other -/

/-- Statements and their replies, from a new data directory on, over any number of programs. A program opens the
files where the one before it stopped, which may be after any statement that leaves a catalog with an encoding. -/
inductive ProgramRun [UnstableSort] (name : String) : Database ReliableManager → List Reply → Prop
  | created {db : Database ReliableManager} {dir : DataDir} {capacity : Nat} {hcapacity : 0 < capacity} :
      (openDatabase capacity hcapacity name).run ⟨[], .empty⟩ = .ok db dir → ProgramRun name db []
  | returned {db db' : Database ReliableManager} {replies : List Reply} {statement : Statement}
      {result : ExecuteResult} : ProgramRun name db replies → (execute statement).run db = .ok result db' →
      StaysInStep db db' statement BoundStatement.Unlinks →
      ProgramRun name db' (replies ++ [(statement, some result)])
  | failed {db db' : Database ReliableManager} {replies : List Reply} {statement : Statement} {e : DatabaseError} :
      ProgramRun name db replies → (execute statement).run db = .err e db' →
      StaysInStep db db' statement (fun bound => bound.Disturbs e) →
      ProgramRun name db' (replies ++ [(statement, none)])
  | reopened {db db' : Database ReliableManager} {replies : List Reply} {dir : DataDir} {capacity : Nat}
      {hcapacity : 0 < capacity} {databaseName : String} : ProgramRun name db replies → db.Encodes →
      (openDatabase capacity hcapacity databaseName).run db.dataDir = .ok db' dir → ProgramRun name db' replies

section Runs

variable [UnstableSort] {db db' : Database ReliableManager} {name : String} {replies : List Reply}

/-- The programs are one session, whose database the files keep. -/
lemma ProgramRun.session (h : ProgramRun name db replies) : Session name db replies ∧ db.Kept := by
  induction h with
  | @created db dir capacity hcapacity hrun =>
    obtain ⟨hnew, hkept, hnone⟩ := new_of_open hrun
    obtain ⟨⟨file, metadata⟩, storage⟩ := db
    obtain rfl : metadata = _ := hnew
    exact ⟨.start hnone, hkept⟩
  | returned _ hrun hstays ih =>
    exact ⟨ih.1.returned hrun hstays, (keeps_kept _).of_returns ih.2 (.inl ⟨_, hrun⟩)⟩
  | failed _ hrun hstays ih =>
    exact ⟨ih.1.failed hrun hstays, (keeps_kept _).of_returns ih.2 (.inr ⟨_, hrun⟩)⟩
  | @reopened db db' replies dir capacity hcapacity databaseName _ hbytes hrun ih =>
    obtain ⟨hsession, hkept⟩ := ih
    rw [hkept.run_open hbytes] at hrun
    cases hrun
    exact ⟨hsession.resumed (hkept.resumes hcapacity), hkept.saved, hkept.settled.opened hcapacity⟩

/-- Whatever the programs do, the replies are those of a run of what the statements mean, every index is in step,
and the next program finds the same catalog, the same rows and indexes in step exactly if the catalog has an
encoding. -/
theorem programRun_means (h : ProgramRun name db replies) :
    (∀ index ∈ db.catalog.metadata.indexes, IndexAgrees db index) ∧ (View.empty name).Runs replies db.view ∧
      ∀ capacity (hcapacity : 0 < capacity) databaseName, db.Encodes ↔
        ∃ db', (openDatabase capacity hcapacity databaseName).run db.dataDir = .ok db' db.dataDir ∧
          db'.catalog = db.catalog ∧ db'.view = db.view ∧
          ∀ index ∈ db'.catalog.metadata.indexes, IndexAgrees db' index := by
  obtain ⟨hsession, hkept⟩ := h.session
  refine ⟨hsession.agrees, hsession.runs, ?_⟩
  intro capacity hcapacity databaseName
  constructor
  · intro hbytes
    have hresumes := hkept.resumes hcapacity
    refine ⟨_, hkept.run_open hbytes capacity hcapacity databaseName, rfl, ?_, ?_⟩
    · exact view_of_resumes hsession.reached.intact hresumes
    · exact (hsession.resumed hresumes).agrees
  · rintro ⟨db', hrun, hcatalog, -, -⟩
    obtain ⟨hloads, -⟩ := loads_of_open hrun
    rw [hcatalog] at hloads
    exact hloads.toBytes_ok

end Runs

open OutOfStep

/-- A new data directory, whose catalog file has been written. -/
def newDir : DataDir :=
  match (openDatabase 1 Nat.one_pos "d").run ⟨[], .empty⟩ with
  | .ok _ dir => dir
  | _ => ⟨[], .empty⟩

def newPages : Database ReliableManager :=
  ⟨⟨newDir.catalog, ⟨"d", [], [], .empty⟩⟩, .opened newDir.relations 1 Nat.one_pos⟩

/-- A table and a row, through one frame. -/
def saved : Database ReliableManager :=
  afterAll [.createTable ⟨"t", [⟨"k", .int⟩, ⟨"n", .varchar⟩]⟩, .insert ⟨"t", [.integer 1, .string "a"]⟩] newPages

/-- An index on them, through two frames. -/
def keyed : Database ReliableManager :=
  afterAll [.createIndex ⟨"onKey", "t", "k"⟩]
    ⟨saved.catalog, .opened saved.storage.1.relationFileManager.data 2 Nat.two_pos⟩

/-- The row and its entry are deleted. -/
def emptied : Database ReliableManager := afterAll [.delete deleteRows] keyed

lemma run_emptied : (execute (.delete deleteRows)).run keyed = .ok (.command 1) emptied :=
  run_afterAll (by decide +kernel)

lemma tableById_emptied : emptied.catalog.metadata.tableById ⟨1⟩ = some tableT := by decide +kernel

def onKeyEmptied : IndexedColumn emptied.catalog.metadata onKey where
  tableMeta := tableT
  position := 0
  column := ⟨⟨1⟩, "k", .int⟩
  keyType := .int
  table_eq := tableById_emptied
  position_eq := onKeyColumn.position_eq
  column_eq := onKeyColumn.column_eq
  keyType_eq := onKeyColumn.keyType_eq

lemma staysInStep_emptied (hreached : Reached emptied) :
    StaysInStep keyed emptied (.delete deleteRows) BoundStatement.Unlinks := by
  have hindexes : emptied.catalog.metadata.indexes = [onKey] := by decide +kernel
  intro bound _ index hindex _
  rw [hindexes] at hindex
  obtain rfl := List.mem_singleton.mp hindex
  have hmem : onKey ∈ emptied.catalog.metadata.indexes := by
    rw [hindexes]
    exact List.mem_cons_self
  apply hreached.agrees_of_leaf [] hmem onKeyEmptied
  · exact eq_leaf_of_leavesOf (by decide +kernel)
  · decide +kernel
  · exact List.nodup_nil

/-- Three programs: a table and a row, an index and the deletion of the row, and one that finds no row. -/
theorem programRun_means_emptied : ∃ replies : List Reply,
    replies.map Prod.snd = [some .success, some (.command 1), some .success, some (.command 1)] ∧
      (∀ index ∈ emptied.catalog.metadata.indexes, IndexAgrees emptied index) ∧
      (View.empty "d").Runs replies emptied.view ∧
      ∃ db', (openDatabase 1 Nat.one_pos "e").run emptied.dataDir = .ok db' emptied.dataDir ∧
        db'.view = emptied.view := by
  have hopen : (openDatabase 1 Nat.one_pos "d").run ⟨[], .empty⟩ = .ok newPages newDir := rfl
  obtain ⟨db₁, hcreate, hinsert⟩ : ∃ db₁ : Database ReliableManager,
      (execute (.createTable ⟨"t", [⟨"k", .int⟩, ⟨"n", .varchar⟩]⟩)).run newPages = .ok .success db₁ ∧
      (execute (.insert ⟨"t", [.integer 1, .string "a"]⟩)).run db₁ = .ok (.command 1) saved :=
    ⟨_, rfl, rfl⟩
  have hindex : (execute (.createIndex ⟨"onKey", "t", "k"⟩)).run
      ⟨saved.catalog, .opened saved.storage.1.relationFileManager.data 2 Nat.two_pos⟩ = .ok .success keyed :=
    run_afterAll (by decide +kernel)
  have hrow : StaysInStep db₁ saved (.insert ⟨"t", [.integer 1, .string "a"]⟩) BoundStatement.Unlinks := by
    intro bound _ index hmem
    have hnone : saved.catalog.metadata.indexes = [] := rfl
    rw [hnone] at hmem
    cases hmem
  have hfirst := ((ProgramRun.created hopen).returned hcreate (staysInStep_of_creates trivial)).returned hinsert hrow
  have hbytes : saved.Encodes := ⟨_, rfl⟩
  have hsecond := (hfirst.reopened hbytes (hfirst.session.2.run_open hbytes 2 Nat.two_pos "e")).returned hindex
    (staysInStep_of_creates trivial)
  have hreached : Reached emptied := hsecond.session.1.reached.step (.inl ⟨_, run_emptied⟩)
  obtain ⟨hagrees, hruns, hreopens⟩ := programRun_means (hsecond.returned run_emptied (staysInStep_emptied hreached))
  have hbytes' : emptied.Encodes := by
    have hvalue : emptied.catalog.metadata.toBytes.toOption.isSome = true := by decide +kernel
    cases hresult : emptied.catalog.metadata.toBytes with
    | ok bytes => exact ⟨bytes, hresult⟩
    | error e =>
      rw [hresult] at hvalue
      cases hvalue
  obtain ⟨db', hopen', -, hview, -⟩ := (hreopens 1 Nat.one_pos "e").mp hbytes'
  exact ⟨_, rfl, hagrees, hruns, db', hopen', hview⟩

end Database

end RdbRs
