import RdbRs.Database.FailedStatements
import RdbRs.Database.Meaning
import RdbRs.Database.StoreContents

/-!
# Statements do what they mean

The tables of a database seen by their values. On a database whose indexes agree where a statement reads, the
statement does to them what it means, and what it returns is what it means.
-/

namespace RdbRs

open Exec

namespace Database

/-- The values that a row stores, by the columns of its table. -/
def valuesOf (database : DatabaseMetadata) (t : TableId) (row : Row) : List Value :=
  Executor.decoded row (((database.tableById t).map fun tableMeta => tableMeta.columns).getD [])

/-- The values of the rows of a heap. -/
def viewOf (database : DatabaseMetadata) (heap : TableId → RowId → Option Row) : View :=
  ⟨database, fun t id => (heap t id).map (valuesOf database t)⟩

/-- The catalog, and the values of the rows that are stored. -/
def view {σ : Type} [PageStore σ] (db : Database σ) : View := viewOf db.catalog.metadata (storedRow db.storage)

/-- The change of the values of a row. -/
def shownChange (database : DatabaseMetadata) (change : Change TableId RowId Row) :
    Change TableId RowId (List Value) :=
  (change.1, change.2.map (valuesOf database change.1.1))

section Views

variable {database database' : DatabaseMetadata} {heap : TableId → RowId → Option Row}
  {changes : List (Change TableId RowId Row)} {t : TableId} {row : Row} {values : List Value}
  {table : BoundTable} {tableRow : TableRow}

@[simp] lemma viewOf_tables {id : RowId} :
    (viewOf database heap).tables t id = (heap t id).map (valuesOf database t) := rfl

lemma viewOf_changed : viewOf database (changed heap changes) =
    ⟨database, changed (viewOf database heap).tables (changes.map (shownChange database))⟩ := by
  rw [viewOf]
  congr 1
  funext t id
  exact map_changed (valuesOf database) t id

lemma valuesOf_encodes (h : IndexManager.Encodes database t values row) : valuesOf database t row = values := by
  obtain ⟨tableMeta, htable, hencode⟩ := h
  rw [valuesOf, htable]
  exact Executor.decoded_of_encode hencode

lemma stored_eq (hencoded : Executor.HoldsEncoded database heap) :
    (viewOf database heap).stored = Executor.storedValues ⟨database⟩ heap := by
  funext t id
  rw [View.stored, viewOf]
  simp only
  cases hrow : heap t id with
  | none =>
    rw [Executor.storedValues, hrow]
    cases database.tableById t <;> rfl
  | some row =>
    rw [Option.map_some, Option.getD_some]
    exact valuesOf_encodes (Executor.encodes_stored hencoded hrow)

/-- The values of the rows in a larger catalog. -/
lemma viewOf_extends (hext : Extends database database') (hencoded : Executor.HoldsEncoded database heap) :
    viewOf database' heap = ⟨database', (viewOf database heap).tables⟩ := by
  rw [viewOf]
  congr 1
  funext t id
  cases hrow : heap t id with
  | none => rw [viewOf_tables, hrow, Option.map_none, Option.map_none]
  | some row =>
    obtain ⟨tableMeta, values, htable, -⟩ := hencoded t id row hrow
    rw [viewOf_tables, hrow, Option.map_some, Option.map_some, valuesOf, valuesOf, hext _ _ htable, htable]

/-! ### What a FROM clause reads -/

lemma has_iff : (viewOf database heap).Has table tableRow ↔ ∃ e : RowId × Row,
    heap table.tableId e.1 = some e.2 ∧ Executor.shownRow ⟨database⟩ table e = tableRow := by
  rw [View.Has, viewOf_tables]
  constructor
  · rintro ⟨hinstance, hvalues⟩
    obtain ⟨row, hrow, hvalue⟩ := Option.map_eq_some_iff.mp hvalues
    refine ⟨(tableRow.rowId, row), hrow, ?_⟩
    rw [Executor.shownRow, ← hinstance]
    exact congrArg (TableRow.mk tableRow.rowId tableRow.instanceId) hvalue
  · rintro ⟨e, hrow, rfl⟩
    refine ⟨rfl, ?_⟩
    rw [show (Executor.shownRow ⟨database⟩ table e).rowId = e.1 from rfl, hrow]
    rfl

lemma has_isOf (hencoded : Executor.HoldsEncoded database heap)
    (h : (viewOf database heap).Has table tableRow) : tableRow.IsOf database table := by
  obtain ⟨e, hrow, rfl⟩ := has_iff.mp h
  obtain ⟨tableMeta, values, htable, -⟩ := hencoded _ _ _ hrow
  have hlive : ∀ e' ∈ [e], heap table.tableId e'.1 = some e'.2 := by
    intro e' he
    rwa [List.mem_singleton.mp he]
  have hshown : Executor.shownRows ⟨database⟩ table [e] = [Executor.shownRow ⟨database⟩ table e] :=
    Executor.shownRows_eq htable
  have hshows : ∀ tableRow ∈ Executor.shownRows ⟨database⟩ table [e],
      Executor.IsLive database heap table tableRow := Executor.shownRows_live hencoded hlive
  rw [hshown] at hshows
  exact (hshows _ List.mem_cons_self).1.1

end Views

section Fetches

variable {database : DatabaseMetadata} {c : Contents} {filter : Option BoundExpression}
  {table : BoundTable} {tableRow : TableRow} {tableRows : List TableRow} {from_ : BoundFromClause}
  {rows : List QueryRow} {row : QueryRow}

lemma IsFetch.nodup (h : IsFetch database c filter table tableRows)
    (htable : ∃ tableMeta, database.tableById table.tableId = some tableMeta) : tableRows.Nodup := by
  obtain ⟨tableMeta, hmeta⟩ := htable
  obtain ⟨live, hfetched, rfl⟩ := h
  have hshown : Executor.shownRows ⟨database⟩ table live = live.map (Executor.shownRow ⟨database⟩ table) :=
    Executor.shownRows_eq hmeta
  rw [hshown]
  apply hfetched.nodup.map_on
  intro a ha b hb heq
  have hid : a.1 = b.1 := congrArg TableRow.rowId heq
  have hrow := hfetched.stored a ha
  rw [hid, hfetched.stored b hb, Option.some.injEq] at hrow
  exact Prod.ext hid hrow.symm

/-- A fetch returns rows of the table, and all that the comparison of its lookup selects. -/
lemma IsFetch.has (h : IsFetch database c filter table tableRows)
    (htable : ∃ tableMeta, database.tableById table.tableId = some tableMeta) :
    (∀ tableRow ∈ tableRows, (viewOf database c.rows).Has table tableRow) ∧
      ∀ tableRow, (viewOf database c.rows).Has table tableRow →
        Executor.Selects ⟨database⟩ filter table tableRow → tableRow ∈ tableRows := by
  obtain ⟨tableMeta, hmeta⟩ := htable
  obtain ⟨live, hfetched, rfl⟩ := h
  have hshown : Executor.shownRows ⟨database⟩ table live = live.map (Executor.shownRow ⟨database⟩ table) :=
    Executor.shownRows_eq hmeta
  rw [hshown]
  constructor
  · intro tableRow hmem
    obtain ⟨e, he, rfl⟩ := List.mem_map.mp hmem
    exact has_iff.mpr ⟨e, hfetched.stored e he, rfl⟩
  · intro tableRow hhas hselects
    obtain ⟨e, hrow, rfl⟩ := has_iff.mp hhas
    exact List.mem_map_of_mem (hfetched.complete e hrow hselects)

/-- The joined rows that pass the filter are those that are selected. -/
lemma IsJoin.selects (h : IsJoin database c filter from_ rows)
    (hencoded : Executor.HoldsEncoded database c.rows) (hfits : ReadsFit database (from_, filter)) :
    (viewOf database c.rows).Selects from_ filter (Executor.passing ⟨database⟩ filter rows) := by
  obtain ⟨tableRows, rfl, hfetch⟩ := h
  have htables : ∀ table ∈ collectTables from_, ∃ tableMeta, database.tableById table.tableId = some tableMeta :=
    hfits.from_.table
  have hhas : ∀ table ∈ collectTables from_, ∀ tableRow ∈ tableRows table,
      (viewOf database c.rows).Has table tableRow :=
    fun table hmem => ((hfetch table hmem).has (htables table hmem)).1
  have hjoined {row : QueryRow} : row ∈ Executor.joinedRows ⟨database⟩ tableRows from_ ↔
      Executor.IsOneOfEach tableRows (collectTables from_) row ∧
        ∀ on ∈ from_.conditions, Executor.Equates ⟨database⟩ row on :=
    Executor.mem_joinedRows hfits.from_ hfits.scope
      fun table hmem tableRow htableRow => has_isOf hencoded (hhas table hmem tableRow htableRow)
  constructor
  · apply Executor.passing_nodup
    exact Executor.joinedRows_nodup fun table hmem => (hfetch table hmem).nodup (htables table hmem)
  · intro row
    rw [Executor.mem_passing, hjoined, View.Picks, and_assoc]
    apply and_congr_left
    rintro ⟨-, hfilter⟩
    constructor
    · intro hrows
      exact Executor.IsOneOfEach.forall₂ hrows hhas
    · intro hrows
      -- a row that passes the filter is selected by every lookup
      have hfrom : row.IsFrom database (collectTables from_) := hrows.imp fun _ _ hhas => has_isOf hencoded hhas
      have hpasses : row ∈ Executor.passing ⟨database⟩ filter [row] :=
        Executor.mem_passing.mpr ⟨List.mem_singleton_self row, hfilter⟩
      have hkeeps : row.tableRows.all (Executor.keeps ⟨database⟩ (collectTables from_) filter) :=
        Executor.keeps_of_passing hfits.scope hfrom hfits.filter hpasses
      rw [List.all_eq_true] at hkeeps
      have hboth : List.Forall₂ (fun table tableRow => (table ∈ collectTables from_ ∧
          tableRow ∈ row.tableRows) ∧ (viewOf database c.rows).Has table tableRow)
          (collectTables from_) row.tableRows :=
        List.forall₂_iff_zip.mpr ⟨hrows.length_eq, fun hzip => ⟨List.of_mem_zip hzip, List.forall₂_zip hrows hzip⟩⟩
      apply hboth.imp
      rintro table tableRow ⟨⟨htable, htableRow⟩, hhas⟩
      apply ((hfetch table htable).has (htables table htable)).2 tableRow hhas
      exact Executor.selects_of_keeps htable hfits.filter hhas.1 (hkeeps tableRow htableRow)

end Fetches

/-! ### Changes -/

section Changes

variable {database : DatabaseMetadata} {heap : TableId → RowId → Option Row}

lemma valuesOf_newRow {stored : TableId → RowId → List Value} {hits : List (QueryRow × BoundAssignment)}
    {entries : List PreparedUpdate} (h : Executor.Updates ⟨database⟩ stored hits entries) {e : PreparedUpdate}
    (he : e ∈ entries) : valuesOf database e.tableId e.newRow = e.newValues := by
  obtain ⟨tableMeta, htable, hdecode⟩ := h.decodes e he
  exact valuesOf_encodes ⟨tableMeta, htable, (Tuple.decode_eq_ok.mp (hdecode ())).1⟩

lemma assigns_of_updates {hits : List (QueryRow × BoundAssignment)} {entries : List PreparedUpdate}
    (hencoded : Executor.HoldsEncoded database heap)
    (h : Executor.Updates ⟨database⟩ (Executor.storedValues ⟨database⟩ heap) hits entries) :
    (viewOf database heap).Assigns hits ((entries.map PreparedUpdate.change).map (shownChange database)) := by
  have hkeys : ((entries.map PreparedUpdate.change).map (shownChange database)).map Prod.fst =
      entries.map PreparedUpdate.key := by
    rw [List.map_map, List.map_map]
    rfl
  constructor
  · rw [hkeys]
    exact h.distinct
  · intro key
    rw [hkeys]
    exact h.covers key
  · intro change hchange
    obtain ⟨_, hmem, rfl⟩ := List.mem_map.mp hchange
    obtain ⟨e, he, rfl⟩ := List.mem_map.mp hmem
    refine ⟨e.newValues, congrArg some (valuesOf_newRow h he), ?_⟩
    rw [stored_eq hencoded]
    exact h.new e he

variable (database) in
lemma drops_of_removes {stored : TableId → RowId → List Value} {hits : List (QueryRow × BoundTable)}
    {entries : List PreparedDelete} (h : Executor.Removes stored hits entries) :
    View.Drops hits ((entries.map PreparedDelete.change).map (shownChange database)) := by
  have hkeys : ((entries.map PreparedDelete.change).map (shownChange database)).map Prod.fst =
      entries.map PreparedDelete.key := by
    rw [List.map_map, List.map_map]
    rfl
  constructor
  · rw [hkeys]
    exact h.distinct
  · intro key
    rw [hkeys]
    exact h.covers key
  · intro change hchange
    obtain ⟨_, hmem, rfl⟩ := List.mem_map.mp hchange
    obtain ⟨e, -, rfl⟩ := List.mem_map.mp hmem
    rfl

end Changes

/-! ### Statements -/

section Statements

variable {σ : Type} [PageStore σ] [UnstableSort] {catalog : Catalog} {heap : TableId → RowId → Option Row}
  {K : Set IndexId} {s₀ : σ} {db db' : Database σ} {bound : BoundStatement} {e : DatabaseError}
  {V : List QueryRow → Prop} {result : ExecuteResult} {changes : List (Change TableId RowId Row)}

lemma view_eq (hcarries : Carries db.catalog.metadata heap db.storage) :
    db.view = viewOf db.catalog.metadata heap := by
  rw [view, funext (storedRow_eq hcarries)]

lemma view_of_made (h : Made K catalog heap s₀ changes db) : db.view = ⟨catalog.metadata,
    changed (viewOf catalog.metadata heap).tables (changes.map (shownChange catalog.metadata))⟩ := by
  obtain ⟨rfl, hs⟩ := h
  rw [view_eq hs.carries, viewOf_changed]

lemma view_of_untouched (hcarries : Carries catalog.metadata heap s₀) (h : Untouched catalog s₀ db) :
    db.view = viewOf catalog.metadata heap :=
  view_of_made (K := Set.univ) (h.made hcarries)

lemma creates_of_tableAdded {bound : BoundCreateTable} (h : TableAdded catalog heap s₀ bound db) :
    (viewOf catalog.metadata heap).Creates (.createTable bound) db.view := by
  obtain ⟨table, ⟨hname, hcolumns⟩, hadd, hfile, hs⟩ := h
  have hnone : catalog.metadata.tableById table.id = none := by
    obtain ⟨⟨hids, -⟩, -⟩ := DatabaseMetadata.addTable_eq_ok.mp hadd
    exact List.find?_eq_none.mpr fun t ht => by simpa using hids t ht
  rw [view_eq (hs.carries.addTable hadd hfile), viewOf_extends (extends_addTable hadd) hs.carries.encoded]
  apply View.Creates.table hname hcolumns hadd
  intro id
  rw [viewOf_tables, hs.carries.rows_eq_none hnone, Option.map_none]

lemma creates_of_indexAdded {bound : BoundCreateIndex} (h : IndexAdded K catalog heap s₀ bound db) :
    (viewOf catalog.metadata heap).Creates (.createIndex bound) db.view := by
  obtain ⟨index, ⟨hname, htable, hcolumn⟩, -, hadd, on, m, -, hs⟩ := h
  rw [view_eq (hs.2.carries.addIndex hadd on hs.1.1),
    viewOf_extends (extends_addIndex hadd) hs.2.carries.encoded]
  exact View.Creates.index hname htable hcolumn hadd

omit [UnstableSort] in
/-- What an insertion has stored. -/
lemma does_of_inserted {bound : BoundInsert} {id : RowId} {row : Row} (hnone : heap bound.tableId id = none)
    (hencodes : IndexManager.Encodes catalog.metadata bound.tableId bound.values row) :
    (viewOf catalog.metadata heap).Does (.insert bound) (.command 1)
      ([((bound.tableId, id), some row)].map (shownChange catalog.metadata)) := by
  have hchange : shownChange catalog.metadata ((bound.tableId, id), some row) =
      ((bound.tableId, id), some bound.values) := by
    rw [shownChange, Option.map_some, valuesOf_encodes hencodes]
  rw [List.map_singleton, hchange]
  apply View.Does.insert
  rw [viewOf_tables, hnone, Option.map_none]

/-- The rows that a statement reads are those it selects. -/
def Selecting (database : DatabaseMetadata) (heap : TableId → RowId → Option Row) (from_ : BoundFromClause)
    (filter : Option BoundExpression) (V : List QueryRow → Prop) : Prop :=
  ∀ rows, V rows → (viewOf database heap).Selects from_ filter (Executor.passing ⟨database⟩ filter rows)

lemma Updated.does {bound : BoundUpdate} {entries done : List PreparedUpdate}
    (h : Updated K catalog heap s₀ V bound entries done db)
    (hencoded : Executor.HoldsEncoded catalog.metadata heap)
    (hselects : Selecting catalog.metadata heap bound.from_ bound.filter V) :
    (viewOf catalog.metadata heap).Does (.update bound) (.command entries.length)
      ((entries.map PreparedUpdate.change).map (shownChange catalog.metadata)) := by
  obtain ⟨rows, hV, -, hupdates⟩ := h.prepared
  have hdoes := View.Does.update (hselects rows hV) (assigns_of_updates hencoded hupdates)
  rwa [List.length_map, List.length_map] at hdoes

lemma Deleted.does {bound : BoundDelete} {entries done : List PreparedDelete}
    (h : Deleted K catalog heap s₀ V bound entries done db)
    (hselects : Selecting catalog.metadata heap bound.from_ bound.filter V) :
    (viewOf catalog.metadata heap).Does (.delete bound) (.command entries.length)
      ((entries.map PreparedDelete.change).map (shownChange catalog.metadata)) := by
  obtain ⟨rows, hV, -, hremoves⟩ := h.prepared
  have hdoes := View.Does.delete (hselects rows hV) (drops_of_removes catalog.metadata hremoves)
  rwa [List.length_map, List.length_map] at hdoes

/-- What a statement that has succeeded has done is what it means. -/
lemma means_of_done (hcarries : Carries catalog.metadata heap s₀)
    (hselects : ∀ p ∈ bound.reads, Selecting catalog.metadata heap p.1 p.2 V)
    (h : Done K catalog heap s₀ V bound result db) :
    (viewOf catalog.metadata heap).Means bound result db.view := by
  cases bound with
  | createTable bound =>
    obtain ⟨rfl, hadded⟩ := h
    exact .creates (creates_of_tableAdded hadded)
  | createIndex bound =>
    obtain ⟨rfl, hadded⟩ := h
    exact .creates (creates_of_indexAdded hadded)
  | insert bound =>
    obtain ⟨rfl, id, row, hnone, hencodes, hmade, -⟩ := h
    rw [view_of_made hmade]
    exact .changes (does_of_inserted hnone hencodes)
  | select bound =>
    obtain ⟨rows, results, hV, rfl, hanswers, hdb⟩ := h
    rw [view_of_untouched hcarries hdb]
    exact .changes (.select (hselects _ rfl rows hV) hanswers)
  | update bound =>
    obtain ⟨entries, rfl, hupdated⟩ := h
    rw [view_of_made hupdated.made]
    exact .changes (hupdated.does hcarries.encoded (hselects _ rfl))
  | delete bound =>
    obtain ⟨entries, rfl, hdeleted⟩ := h
    rw [view_of_made hdeleted.made]
    exact .changes (hdeleted.does (hselects _ rfl))

/-- What a statement that has failed has done is a part of what it means. -/
lemma meansInPart_of_stopped (hcarries : Carries catalog.metadata heap s₀)
    (hselects : ∀ p ∈ bound.reads, Selecting catalog.metadata heap p.1 p.2 V)
    (h : Stopped K catalog heap s₀ V bound e db) :
    (viewOf catalog.metadata heap).MeansInPart bound db.view := by
  have hnothing {K : Set IndexId} (hmade : Made K catalog heap s₀ [] db) :
      (viewOf catalog.metadata heap).MeansInPart bound db.view := by
    rw [view_of_made hmade]
    exact .nothing
  cases bound with
  | createTable bound =>
    rcases h with hmade | hadded
    · exact hnothing hmade
    · exact .creates (creates_of_tableAdded hadded)
  | createIndex bound =>
    rcases h with hmade | hadded
    · exact hnothing hmade
    · exact .creates (creates_of_indexAdded hadded)
  | insert bound =>
    rcases h with ⟨-, hmade⟩ | ⟨-, id, row, hnone, hencodes, hmade, -⟩
    · exact hnothing hmade
    · rw [view_of_made hmade]
      exact .changes (does_of_inserted hnone hencodes) List.prefix_rfl
  | select bound => exact hnothing (K := Set.univ) (Untouched.made hcarries h)
  | update bound =>
    rcases h with hdb | ⟨-, entries, done, hupdated⟩
    · exact hnothing (K := Set.univ) (hdb.made hcarries)
    · rw [view_of_made hupdated.made]
      exact .changes (hupdated.does hcarries.encoded (hselects _ rfl)) ((hupdated.part.map _).map _)
  | delete bound =>
    rcases h with hdb | ⟨-, entries, done, hdeleted⟩
    · exact hnothing (K := Set.univ) (hdb.made hcarries)
    · rw [view_of_made hdeleted.made]
      exact .changes (hdeleted.does (hselects _ rfl)) ((hdeleted.part.map _).map _)

/-- The indexes on the tables that the statement reads agree with them. -/
def ReadsAgree (db : Database σ) (bound : BoundStatement) : Prop :=
  ∀ p ∈ bound.reads, ∀ table ∈ collectTables p.1, ∀ index ∈ db.catalog.metadata.indexes,
    index.tableId = table.tableId → IndexAgrees db index

/-- A statement reads the rows it selects, where the indexes agree. -/
lemma execute_selects (statement : Statement) (hnumbered : Numbered db.catalog.metadata)
    (hcarries : Carries db.catalog.metadata heap db.storage)
    (hagree : ∀ bound, (Binder.mk db.catalog.metadata).bind statement = .ok bound → ReadsAgree db bound) :
    ∃ V : List QueryRow → Prop, (∀ bound, (Binder.mk db.catalog.metadata).bind statement = .ok bound →
        ∀ p ∈ bound.reads, Selecting db.catalog.metadata heap p.1 p.2 V) ∧
      Ends (Untouched db.catalog db.storage) (execute statement)
        (fun result db' => ∃ bound, (Binder.mk db.catalog.metadata).bind statement = .ok bound ∧
          Done (spared db.catalog.metadata bound) db.catalog heap db.storage V bound result db')
        fun e db' => (∃ error, (Binder.mk db.catalog.metadata).bind statement = .error error) ∧
            Untouched db.catalog db.storage db' ∨
          ∃ bound, (Binder.mk db.catalog.metadata).bind statement = .ok bound ∧
            Stopped (spared db.catalog.metadata bound) db.catalog heap db.storage V bound e db' := by
  refine ⟨fun rows => ∀ bound, (Binder.mk db.catalog.metadata).bind statement = .ok bound →
    ∀ p ∈ bound.reads, IsJoin db.catalog.metadata (storeContents db.catalog.metadata heap db.storage) p.2 p.1
      rows, ?_, ?_⟩
  · intro bound hbind p hp rows hV
    have hrows := storeContents_rows hcarries
    have hselects := (hV bound hbind p hp).selects (by rw [hrows]; exact hcarries.encoded)
      (BoundStatement.reads_fit hbind hp)
    rwa [hrows] at hselects
  · apply execute_ends statement hnumbered hcarries
    intro bound hbind p hp
    have hreads := readsRows_joins hcarries (BoundStatement.reads_fit hbind hp)
      fun table hmem index hindex ht =>
        (indexAgrees_iff hcarries).mp (hagree bound hbind p hp table hmem index hindex ht)
    apply hreads.imp (fun _ hdb => hdb) _ fun _ hdb => hdb
    rintro rows db' ⟨⟨hlive, hjoin⟩, hdb⟩
    refine ⟨⟨hlive, ?_⟩, hdb⟩
    intro bound' hbind' p' hp'
    obtain rfl := Except.ok.inj (hbind.symm.trans hbind')
    obtain rfl := Option.some.inj ((Option.mem_def.mp hp).symm.trans (Option.mem_def.mp hp'))
    exact hjoin

lemma Reached.returned_means {statement : Statement} (h : Reached db)
    (hagree : ∀ bound, (Binder.mk db.catalog.metadata).bind statement = .ok bound → ReadsAgree db bound)
    (hrun : (execute statement).run db = .ok result db') :
    ∃ bound, (Binder.mk db.catalog.metadata).bind statement = .ok bound ∧ db.view.Means bound result db'.view := by
  obtain ⟨hnumbered, heap, hcarries⟩ := h.intact
  obtain ⟨V, hselects, hends⟩ := execute_selects statement hnumbered hcarries hagree
  obtain ⟨bound, hbind, hdone⟩ := hends.of_ok ⟨rfl, rfl⟩ hrun
  rw [view_eq hcarries]
  exact ⟨bound, hbind, means_of_done hcarries (hselects bound hbind) hdone⟩

lemma Reached.failed_means {statement : Statement} (h : Reached db)
    (hagree : ∀ bound, (Binder.mk db.catalog.metadata).bind statement = .ok bound → ReadsAgree db bound)
    (hrun : (execute statement).run db = .err e db') :
    (∃ error, (Binder.mk db.catalog.metadata).bind statement = .error error) ∧ db'.view = db.view ∨
      ∃ bound, (Binder.mk db.catalog.metadata).bind statement = .ok bound ∧
        db.view.MeansInPart bound db'.view := by
  obtain ⟨hnumbered, heap, hcarries⟩ := h.intact
  obtain ⟨V, hselects, hends⟩ := execute_selects statement hnumbered hcarries hagree
  rw [view_eq hcarries]
  rcases hends.of_err ⟨rfl, rfl⟩ hrun with ⟨herror, hdb⟩ | ⟨bound, hbind, hstopped⟩
  · exact .inl ⟨herror, view_of_untouched hcarries hdb⟩
  · exact .inr ⟨bound, hbind, meansInPart_of_stopped hcarries (hselects bound hbind) hstopped⟩

/-- Where the indexes of the tables it reads agree with them, a statement that succeeds does what it means, and
a statement that fails a part of it. -/
theorem execute_means {statement : Statement} (hreached : Reached db)
    (hagree : ∀ bound, (Binder.mk db.catalog.metadata).bind statement = .ok bound → ReadsAgree db bound) :
    (∀ result db', (execute statement).run db = .ok result db' →
      ∃ bound, (Binder.mk db.catalog.metadata).bind statement = .ok bound ∧
        db.view.Means bound result db'.view) ∧
    ∀ e db', (execute statement).run db = .err e db' →
      (∃ error, (Binder.mk db.catalog.metadata).bind statement = .error error) ∧ db'.view = db.view ∨
        ∃ bound, (Binder.mk db.catalog.metadata).bind statement = .ok bound ∧
          db.view.MeansInPart bound db'.view :=
  ⟨fun _ _ hrun => hreached.returned_means hagree hrun, fun _ _ hrun => hreached.failed_means hagree hrun⟩

end Statements

open OutOfStep

/-- `UPDATE t SET n = 'b' WHERE k = 1;` reads its row through an index on `k`. -/
theorem execute_means_onKey :
    let statement : Statement := .update ⟨.table ⟨"t", none⟩, [⟨⟨none, "n"⟩, .string "b"⟩],
      some (.comparison (.column ⟨none, "k"⟩) .equal (.literal (.integer 1)))⟩
    ∃ db', (execute statement).run indexed = .ok (.command 1) db' ∧
      ∃ bound, (Binder.mk indexed.catalog.metadata).bind statement = .ok bound ∧
        indexed.view.Means bound (.command 1) db'.view := by
  intro statement
  obtain ⟨hreached, hagrees⟩ := reached_indexed
  have hvalue : ((execute statement).run indexed).value? = some (.command 1) := by decide +kernel
  obtain ⟨db', hrun⟩ := Outcome.value?_eq_some.mp hvalue
  refine ⟨db', hrun, (execute_means hreached ?_).1 _ _ hrun⟩
  exact fun bound _ p _ table _ index hindex _ => hagrees index hindex

end Database

end RdbRs
