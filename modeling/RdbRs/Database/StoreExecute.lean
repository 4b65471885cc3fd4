import RdbRs.Database.StoreCatalog

/-!
# `execute` on a page store

What a statement leaves, when it succeeds and when it fails: the changes of the rows that it has made, and
trees that it has not touched.
-/

namespace RdbRs

open Exec

namespace BoundStatement

/-- The FROM clause and the filter of a statement that reads rows. -/
def reads : BoundStatement → Option (BoundFromClause × Option BoundExpression)
  | select bound => some (bound.from_, bound.filter)
  | update bound => some (bound.from_, bound.filter)
  | delete bound => some (bound.from_, bound.filter)
  | _ => none

/-- The statement may add an entry to the index or take one from it. -/
def Touches (statement : BoundStatement) (index : IndexMetadata) : Prop :=
  match statement with
  | insert bound => index.tableId = bound.tableId
  | update bound => ∃ a ∈ bound.assignments,
      a.column.tableId = index.tableId ∧ a.column.columnId = index.columnId
  | delete bound => ∃ table ∈ bound.targets, table.tableId = index.tableId
  | _ => False

/-- The statement may take an entry from the index. -/
def Unlinks (statement : BoundStatement) (index : IndexMetadata) : Prop :=
  statement.Touches index ∧ ∀ bound, statement ≠ insert bound

end BoundStatement

namespace Binder

variable {self : Binder} {statement : Statement}

lemma bind_select {bound : BoundSelect} (h : self.bind statement = .ok (.select bound)) :
    ∃ select, self.bindSelect select = .ok bound := by
  cases statement with
  | select select =>
    obtain ⟨bound, hbind, heq⟩ := except_bind_eq_ok.mp h
    cases heq
    exact ⟨select, hbind⟩
  | _ =>
    obtain ⟨bound, -, heq⟩ := except_bind_eq_ok.mp h
    cases heq

lemma bind_insert {bound : BoundInsert} (h : self.bind statement = .ok (.insert bound)) :
    ∃ insert, self.bindInsert insert = .ok bound := by
  cases statement with
  | insert insert =>
    obtain ⟨bound, hbind, heq⟩ := except_bind_eq_ok.mp h
    cases heq
    exact ⟨insert, hbind⟩
  | _ =>
    obtain ⟨bound, -, heq⟩ := except_bind_eq_ok.mp h
    cases heq

lemma bind_update {bound : BoundUpdate} (h : self.bind statement = .ok (.update bound)) :
    ∃ update, self.bindUpdate update = .ok bound := by
  cases statement with
  | update update =>
    obtain ⟨bound, hbind, heq⟩ := except_bind_eq_ok.mp h
    cases heq
    exact ⟨update, hbind⟩
  | _ =>
    obtain ⟨bound, -, heq⟩ := except_bind_eq_ok.mp h
    cases heq

lemma bind_delete {bound : BoundDelete} (h : self.bind statement = .ok (.delete bound)) :
    ∃ delete, self.bindDelete delete = .ok bound := by
  cases statement with
  | delete delete =>
    obtain ⟨bound, hbind, heq⟩ := except_bind_eq_ok.mp h
    cases heq
    exact ⟨delete, hbind⟩
  | _ =>
    obtain ⟨bound, -, heq⟩ := except_bind_eq_ok.mp h
    cases heq

end Binder

/-- What the binder has checked of a FROM clause and its filter. -/
structure ReadsFit (database : DatabaseMetadata) (p : BoundFromClause × Option BoundExpression) : Prop where
  from_ : p.1.Fits database
  scope : Scope (collectTables p.1)
  filter : ∀ f ∈ p.2, f.Fits database (collectTables p.1)

lemma BoundStatement.reads_fit {database : DatabaseMetadata} {statement : Statement} {bound : BoundStatement}
    {p : BoundFromClause × Option BoundExpression} (hbind : (Binder.mk database).bind statement = .ok bound)
    (hp : p ∈ bound.reads) : ReadsFit database p := by
  cases bound with
  | select bound =>
    obtain ⟨select, hselect⟩ := Binder.bind_select hbind
    cases hp
    have hfits := Binder.bindSelect_fits hselect
    exact ⟨Binder.bindSelect_from hselect, hfits.scope, hfits.filter⟩
  | update bound =>
    obtain ⟨update, hupdate⟩ := Binder.bind_update hbind
    cases hp
    have hfits := Binder.bindUpdate_fits hupdate
    exact ⟨Binder.bindUpdate_from hupdate, hfits.scope, hfits.filter⟩
  | delete bound =>
    obtain ⟨delete, hdelete⟩ := Binder.bind_delete hbind
    cases hp
    have hfits := Binder.bindDelete_fits hdelete
    exact ⟨Binder.bindDelete_from hdelete, hfits.scope, hfits.filter⟩
  | _ => cases hp

namespace Database

/-- The indexes there are that the statement does not touch. -/
def spared (database : DatabaseMetadata) (bound : BoundStatement) : Set IndexId :=
  {i | i ∈ givenIds database ∧ ∀ index ∈ database.indexes, index.id = i → ¬ bound.Touches index}

section Stores

variable {σ : Type} [PageStore σ] [UnstableSort] {catalog : Catalog}
  {heap : TableId → RowId → Option Row} {K : Set IndexId} {s₀ : σ} {bound : BoundStatement}

/-- What a bound statement leaves that succeeds, where `V` holds of the rows it reads. -/
def Done (K : Set IndexId) (catalog : Catalog) (heap : TableId → RowId → Option Row) (s₀ : σ)
    (V : List QueryRow → Prop) (bound : BoundStatement) (result : ExecuteResult) (db : Database σ) : Prop :=
  match bound with
  | .createTable bound => result = .success ∧ TableAdded catalog heap s₀ bound db
  | .createIndex bound => result = .success ∧ IndexAdded K catalog heap s₀ bound db
  | .insert bound => result = .command 1 ∧ Inserted K catalog heap s₀ bound db
  | .select bound => Selected catalog s₀ V bound result db
  | .update bound => ∃ entries, result = .command entries.length ∧
      Updated K catalog heap s₀ V bound entries entries db
  | .delete bound => ∃ entries, result = .command entries.length ∧
      Deleted K catalog heap s₀ V bound entries entries db

/-- What a bound statement leaves that fails with this error. -/
def Stopped (K : Set IndexId) (catalog : Catalog) (heap : TableId → RowId → Option Row) (s₀ : σ)
    (V : List QueryRow → Prop) (bound : BoundStatement) (e : DatabaseError) (db : Database σ) : Prop :=
  match bound with
  | .createTable bound => Made Set.univ catalog heap s₀ [] db ∨ TableAdded catalog heap s₀ bound db
  | .createIndex bound => Made K catalog heap s₀ [] db ∨ IndexAdded K catalog heap s₀ bound db
  | .insert bound => ¬ e.OfIndex ∧ Made Set.univ catalog heap s₀ [] db ∨
      e.OfIndex ∧ Unindexed K catalog heap s₀ bound db
  | .select _ => Untouched catalog s₀ db
  | .update bound => Untouched catalog s₀ db ∨
      e.OfStorage ∧ ∃ entries done, Updated K catalog heap s₀ V bound entries done db
  | .delete bound => Untouched catalog s₀ db ∨
      e.OfStorage ∧ ∃ entries done, Deleted K catalog heap s₀ V bound entries done db

lemma executeBound_ends {statement : Statement} {V : List QueryRow → Prop}
    (hnumbered : Numbered catalog.metadata) (hcarries : Carries catalog.metadata heap s₀)
    (hbind : (Binder.mk catalog.metadata).bind statement = .ok bound)
    (hreads : ∀ p ∈ bound.reads, ReadsRows catalog heap s₀ p.1 p.2 V) :
    Ends (Untouched catalog s₀) (executeBound bound)
      (Done (spared catalog.metadata bound) catalog heap s₀ V bound)
      (Stopped (spared catalog.metadata bound) catalog heap s₀ V bound) := by
  cases bound with
  | createTable bound => exact (createTable_triple hcarries).ends fun _ _ hdb => hdb
  | createIndex bound => exact (createIndex_triple hnumbered (fun i hi => hi.1) hcarries).ends fun _ _ hdb => hdb
  | insert bound =>
    obtain ⟨insert, hinsert⟩ := Binder.bind_insert hbind
    apply executeInsert_ends hcarries (Binder.bindInsert_fits hinsert)
    exact fun index hindex ht hmem => hmem.2 index hindex rfl ht
  | select bound =>
    obtain ⟨select, hselect⟩ := Binder.bind_select hbind
    exact (executeSelect_triple hselect (hreads _ rfl)).ends fun _ _ hdb => hdb
  | update bound =>
    obtain ⟨update, hupdate⟩ := Binder.bind_update hbind
    apply executeUpdate_ends hcarries hupdate (hreads _ rfl)
    exact fun index hindex hmem a ha ht hcolumn => hmem.2 index hindex rfl ⟨a, ha, ht, hcolumn⟩
  | delete bound =>
    obtain ⟨delete, hdelete⟩ := Binder.bind_delete hbind
    apply executeDelete_ends hcarries hdelete (hreads _ rfl)
    exact fun index hindex hmem table htable ht => hmem.2 index hindex rfl ⟨table, htable, ht⟩

/-- A statement that is not bound changes nothing. -/
lemma execute_ends (statement : Statement) {V : List QueryRow → Prop}
    (hnumbered : Numbered catalog.metadata) (hcarries : Carries catalog.metadata heap s₀)
    (hreads : ∀ bound, (Binder.mk catalog.metadata).bind statement = .ok bound →
      ∀ p ∈ bound.reads, ReadsRows catalog heap s₀ p.1 p.2 V) :
    Ends (Untouched catalog s₀) (execute statement)
      (fun result db => ∃ bound, (Binder.mk catalog.metadata).bind statement = .ok bound ∧
        Done (spared catalog.metadata bound) catalog heap s₀ V bound result db)
      fun e db => (∃ error, (Binder.mk catalog.metadata).bind statement = .error error) ∧
          Untouched catalog s₀ db ∨
        ∃ bound, (Binder.mk catalog.metadata).bind statement = .ok bound ∧
          Stopped (spared catalog.metadata bound) catalog heap s₀ V bound e db := by
  unfold execute
  apply Ends.bind_of (V := fun metadata => metadata = catalog.metadata) (Q := fun _ => Untouched catalog s₀)
  · exact fun db hdb => ⟨congrArg Catalog.metadata hdb.1, hdb⟩
  rintro metadata rfl
  cases hbind : (Binder.mk catalog.metadata).bind statement with
  | error error =>
    intro db hdb
    exact .inl ⟨⟨error, rfl⟩, hdb⟩
  | ok bound =>
    rw [Exec.liftExcept_ok, Exec.mapErr_pure, Exec.pure_bind]
    apply (executeBound_ends hnumbered hcarries hbind (hreads bound hbind)).imp fun _ hdb => hdb
    · exact fun result db hdb => ⟨bound, rfl, hdb⟩
    · exact fun e db hdb => .inr ⟨bound, rfl, hdb⟩

/-- A statement reads live rows. -/
lemma reads_live {statement : Statement} (hcarries : Carries catalog.metadata heap s₀)
    (hbind : (Binder.mk catalog.metadata).bind statement = .ok bound) :
    ∀ p ∈ bound.reads, ReadsRows catalog heap s₀ p.1 p.2 fun _ => True := by
  intro p hp
  have hfits := BoundStatement.reads_fit hbind hp
  exact readsRows_live hcarries hfits.from_ hfits.scope

end Stores

end Database

end RdbRs
