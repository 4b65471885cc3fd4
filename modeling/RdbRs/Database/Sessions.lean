import RdbRs.Database.Refinement

/-!
# Sessions

Statements that are executed one after the other, on a store that may be opened again between them. While every
index that loses entries, or is touched by a statement that fails, is in step afterwards, all of them stay in
step, and the session is a run of what its statements mean.
-/

namespace RdbRs

open Exec

namespace Database

section Sessions

variable {σ : Type} [PageStore σ] [UnstableSort] {db db' : Database σ} {name : String} {replies : List Reply}
  {statement : Statement} {result : ExecuteResult} {e : DatabaseError} {index : IndexMetadata}

/-- What a statement has done to the indexes that it takes entries from. -/
def StaysInStep (db db' : Database σ) (statement : Statement)
    (disturbs : BoundStatement → IndexMetadata → Prop) : Prop :=
  ∀ bound, (Binder.mk db.catalog.metadata).bind statement = .ok bound →
    ∀ index ∈ db'.catalog.metadata.indexes, disturbs bound index → IndexAgrees db' index

/-- Statements and their replies, from a new database on. Each statement leaves in step the indexes that it takes
entries from, or, if it fails, those that it disturbs. -/
inductive Session (name : String) : Database σ → List Reply → Prop
  | start {file : List UInt8} {s : σ} : (∀ r, PageStore.pages s r = none) →
      Session name ⟨⟨file, ⟨name, [], [], .empty⟩⟩, s⟩ []
  | returned {db db' : Database σ} {replies : List Reply} {statement : Statement} {result : ExecuteResult} :
      Session name db replies → (execute statement).run db = .ok result db' →
      StaysInStep db db' statement BoundStatement.Unlinks →
      Session name db' (replies ++ [(statement, some result)])
  | failed {db db' : Database σ} {replies : List Reply} {statement : Statement} {e : DatabaseError} :
      Session name db replies → (execute statement).run db = .err e db' →
      StaysInStep db db' statement (fun bound => bound.Disturbs e) →
      Session name db' (replies ++ [(statement, none)])
  | resumed {db : Database σ} {replies : List Reply} {s : σ} : Session name db replies →
      Resumes db.storage s → Session name ⟨db.catalog, s⟩ replies

lemma Session.reached (h : Session name db replies) : Reached db := by
  induction h with
  | start hs => exact .start hs
  | returned _ hrun _ ih => exact ih.step (.inl ⟨_, hrun⟩)
  | failed _ hrun _ ih => exact ih.step (.inr ⟨_, hrun⟩)
  | resumed _ hresumes ih => exact ih.resumed hresumes

lemma returned_agrees (h : Reached db) (hrun : (execute statement).run db = .ok result db')
    (hstays : StaysInStep db db' statement BoundStatement.Unlinks)
    (hagrees : ∀ index ∈ db.catalog.metadata.indexes, IndexAgrees db index)
    (hindex : index ∈ db'.catalog.metadata.indexes) : IndexAgrees db' index := by
  by_cases hlinked : ∀ bound, (Binder.mk db.catalog.metadata).bind statement = .ok bound → ¬ bound.Unlinks index
  · exact h.linked hrun hindex (hagrees index) hlinked
  · push Not at hlinked
    obtain ⟨bound, hbind, hunlinks⟩ := hlinked
    exact hstays bound hbind index hindex hunlinks

lemma failed_agrees (h : Reached db) (hrun : (execute statement).run db = .err e db')
    (hstays : StaysInStep db db' statement (fun bound => bound.Disturbs e))
    (hagrees : ∀ index ∈ db.catalog.metadata.indexes, IndexAgrees db index)
    (hindex : index ∈ db'.catalog.metadata.indexes) : IndexAgrees db' index := by
  by_cases hspared : ∀ bound, (Binder.mk db.catalog.metadata).bind statement = .ok bound →
      ¬ bound.Disturbs e index
  · exact h.spared hrun hindex (hagrees index) hspared
  · push Not at hspared
    obtain ⟨bound, hbind, hdisturbs⟩ := hspared
    exact hstays bound hbind index hindex hdisturbs

/-- Every index is in step throughout a session. -/
lemma Session.agrees (h : Session name db replies) :
    ∀ index ∈ db.catalog.metadata.indexes, IndexAgrees db index := by
  induction h with
  | start hs => rintro index ⟨⟩
  | returned hsession hrun hstays ih =>
    exact fun index hindex => returned_agrees hsession.reached hrun hstays ih hindex
  | failed hsession hrun hstays ih =>
    exact fun index hindex => failed_agrees hsession.reached hrun hstays ih hindex
  | resumed hsession hresumes ih =>
    exact fun index hindex => (ih index hindex).resumes hsession.reached.intact hresumes hindex

/-- A store that resumes another one has the same rows. -/
lemma view_of_resumes {s : σ} (h : Intact db) (hresumes : Resumes db.storage s) :
    view ⟨db.catalog, s⟩ = db.view := by
  obtain ⟨-, heap, hcarries⟩ := h
  rw [view_eq hcarries, show view ⟨db.catalog, s⟩ = viewOf db.catalog.metadata heap from view_eq (hcarries.resumes hresumes)]

/-- A new database has no rows. -/
lemma view_new (hdb : db.catalog.metadata = ⟨name, [], [], .empty⟩)
    (hs : ∀ r, PageStore.pages db.storage r = none) : db.view = View.empty name := by
  have hcarries : Carries db.catalog.metadata (fun _ _ => none) db.storage := by
    rw [hdb]
    exact ⟨fun t => .inr ⟨hs _, rfl⟩, by rintro t id row ⟨⟩, by rintro index ⟨⟩⟩
  rw [view_eq hcarries, hdb]
  rfl

omit [UnstableSort] in
/-- All indexes agree, so that the rows a statement reads are those it selects. -/
lemma readsAgree_of_all (h : ∀ index ∈ db.catalog.metadata.indexes, IndexAgrees db index)
    (bound : BoundStatement) : ReadsAgree db bound :=
  fun _ _ _ _ index hindex _ => h index hindex

/-- The replies are those of a run of what the statements mean. -/
lemma Session.runs (h : Session name db replies) : (View.empty name).Runs replies db.view := by
  induction h with
  | start hs =>
    rw [view_new rfl hs]
    exact .start
  | @returned db db' replies statement result hsession hrun hstays ih =>
    apply ih.step
    obtain ⟨bound, hbind, hmeans⟩ := hsession.reached.returned_means
      (fun bound _ => readsAgree_of_all hsession.agrees bound) hrun
    exact .returns hbind hmeans
  | @failed db db' replies statement e hsession hrun hstays ih =>
    apply ih.step
    rcases hsession.reached.failed_means (fun bound _ => readsAgree_of_all hsession.agrees bound) hrun with
      ⟨⟨error, hbind⟩, hview⟩ | ⟨bound, hbind, hpart⟩
    · rw [hview]
      exact .refused hbind
    · exact .stops hbind hpart
  | resumed hsession hresumes ih =>
    rwa [view_of_resumes hsession.reached.intact hresumes]

/-- A session is a run of what its statements mean, with the same replies. -/
theorem session_means (h : Session name db replies) :
    (∀ index ∈ db.catalog.metadata.indexes, IndexAgrees db index) ∧
      (View.empty name).Runs replies db.view := ⟨h.agrees, h.runs⟩

/-- An index of one leaf agrees with its table if the leaf has the keys of the rows that a scan finds. -/
lemma Reached.agrees_of_leaf (h : Reached db) (pairs : List (BTreeKey × RowId))
    (hindex : index ∈ db.catalog.metadata.indexes) (on : IndexedColumn db.catalog.metadata index)
    (hleaf : on.tree.nodesAt db.storage index.rootPageId = .leaf ⟨pairs.map fun e => ⟨e.1, e.2⟩, none⟩)
    (hrows : ((TableManager.scanRows index.tableId).run db.storage).value?.map
      (List.filterMap fun row => (on.key row.2).map fun k => (k, row.1)) = some pairs)
    (hnodup : pairs.Nodup) : IndexAgrees db index := by
  obtain ⟨-, heap, hcarries⟩ := h.intact
  obtain ⟨on', hreach⟩ := hcarries.tree index hindex
  obtain rfl := Subsingleton.elim on on'
  obtain ⟨live, s', hrun, -, -, hmem⟩ := scanRows_ok hcarries on.table_eq
  rw [hrun, Outcome.value?, Option.map_some, Option.some.injEq] at hrows
  refine (indexAgrees_iff hcarries).mpr ⟨on, pairs, ?_, Multiset.coe_nodup.mpr hnodup, ?_⟩
  · intro k hk
    rw [hreach.sound.searchRows_root hk hleaf, Multiset.filter_coe, Multiset.map_coe, rowsAt, List.filter_map,
      List.map_map]
    rfl
  · intro k id
    rw [Multiset.mem_coe, ← hrows, List.mem_filterMap]
    constructor
    · rintro ⟨⟨id', row⟩, hlive, hpair⟩
      obtain ⟨k', hk, heq⟩ := Option.map_eq_some_iff.mp hpair
      cases heq
      exact ⟨row, (hmem _).mp hlive, hk⟩
    · rintro ⟨row, hrow, hk⟩
      exact ⟨(id, row), (hmem (id, row)).mpr hrow, by rw [hk, Option.map_some]⟩

end Sessions

open OutOfStep

/-- A statement that creates takes no entry from an index. -/
lemma staysInStep_of_creates {σ : Type} [PageStore σ] {db db' : Database σ} {statement : Statement}
    (h : statement.Creates) : StaysInStep db db' statement BoundStatement.Unlinks :=
  fun _ hbind _ _ hunlinks => absurd hunlinks.1 (h.touches hbind)

/-- The row has a new name. -/
def renamed : Database FileStore := afterAll [.update (setName "b")] indexed

lemma run_renamed : (execute (.update (setName "b"))).run indexed = .ok (.command 1) renamed :=
  run_afterAll (by decide +kernel)

lemma tableById_renamed : renamed.catalog.metadata.tableById ⟨1⟩ = some tableT := by decide +kernel

def onNameRenamed : IndexedColumn renamed.catalog.metadata onName where
  tableMeta := tableT
  position := 1
  column := ⟨⟨2⟩, "n", .varchar⟩
  keyType := .varchar
  table_eq := tableById_renamed
  position_eq := onNameColumn.position_eq
  column_eq := onNameColumn.column_eq
  keyType_eq := onNameColumn.keyType_eq

/-- The statement takes the entry of the old name from its index, and puts in that of the new one. -/
lemma staysInStep_renamed :
    StaysInStep indexed renamed (.update (setName "b")) BoundStatement.Unlinks := by
  have hreached : Reached renamed := reached_indexed.1.step (.inl ⟨_, run_renamed⟩)
  intro bound hbind index hindex hunlinks
  rw [bind_setName] at hbind
  cases hbind
  have hindexes : renamed.catalog.metadata.indexes = [onKey, onName] := by decide +kernel
  rw [hindexes] at hindex
  rcases List.mem_cons.mp hindex with rfl | hindex
  · -- its column is not assigned
    obtain ⟨⟨a, ha, -, hcolumn⟩, -⟩ := hunlinks
    rw [List.mem_singleton.mp ha] at hcolumn
    cases hcolumn
  · obtain rfl := List.mem_singleton.mp hindex
    have hmem : onName ∈ renamed.catalog.metadata.indexes := by
      rw [hindexes]
      exact List.mem_cons_of_mem _ List.mem_cons_self
    apply hreached.agrees_of_leaf [(.varchar "b", firstRow)] hmem onNameRenamed
    · exact eq_leaf_of_leavesOf (by decide +kernel)
    · decide +kernel
    · decide

/-- A table, a row, two indexes, an `INSERT` into a table that is not there, and an `UPDATE` of an indexed column. -/
theorem session_means_renamed : ∃ replies : List Reply,
    replies.map Prod.snd = [some .success, some (.command 1), some .success, some .success, none, some (.command 1)] ∧
      (∀ index ∈ renamed.catalog.metadata.indexes, IndexAgrees renamed index) ∧
      (View.empty "d").Runs replies renamed.view := by
  have hstart : Session "d" newFiles [] := .start fun _ => rfl
  obtain ⟨db₁, hcreate, hinsert⟩ : ∃ db₁ : Database FileStore,
      (execute (.createTable ⟨"t", [⟨"k", .int⟩, ⟨"n", .varchar⟩]⟩)).run newFiles = .ok .success db₁ ∧
      (execute (.insert ⟨"t", [.integer 1, .string "a"]⟩)).run db₁ = .ok (.command 1) withRow :=
    ⟨_, rfl, rfl⟩
  obtain ⟨db₂, honKey, honName⟩ : ∃ db₂ : Database FileStore,
      (execute (.createIndex ⟨"onKey", "t", "k"⟩)).run withRow = .ok .success db₂ ∧
      (execute (.createIndex ⟨"onName", "t", "n"⟩)).run db₂ = .ok .success indexed :=
    ⟨_, rfl, rfl⟩
  obtain ⟨e, hmissing⟩ : ∃ e, (execute (.insert ⟨"u", []⟩)).run indexed = .err e indexed := ⟨_, rfl⟩
  have hrow : StaysInStep db₁ withRow (.insert ⟨"t", [.integer 1, .string "a"]⟩) BoundStatement.Unlinks := by
    rintro bound - index ⟨⟩
  have hnone : StaysInStep indexed indexed (.insert ⟨"u", []⟩) (fun bound => bound.Disturbs e) := by
    intro bound hbind
    cases hbind
  have hsession := (((((hstart.returned hcreate (staysInStep_of_creates trivial)).returned hinsert hrow).returned
    honKey (staysInStep_of_creates trivial)).returned honName (staysInStep_of_creates trivial)).failed
      hmissing hnone).returned run_renamed staysInStep_renamed
  exact ⟨_, rfl, session_means hsession⟩

end Database

end RdbRs
