import Mathlib.Data.Option.Basic
import RdbRs.Storage.ReliableManager
import RdbRs.Table.HeapTableSpec

/-!
# Runs of heap tables

Tables under any sequence of calls, each of which may fail, through one storage manager whose pool
may hold as little as one page.
-/

namespace RdbRs

inductive HeapCall where
  | insert (row : Row)
  | update (rowId : RowId) (row : Row)
  | delete (rowId : RowId)
  | get (rowId : RowId)
  | scan

namespace HeapCall

/-- Runs the call and returns the id whose row it changed. -/
def exec {σ : Type} [PageStore σ] (table : HeapTable) : HeapCall → Exec TableError σ (Option RowId)
  | insert row => do return some (← table.insert row)
  | update rowId row => do
    table.update rowId row
    return some rowId
  | delete rowId => do
    table.delete rowId
    return some rowId
  | get rowId => do
    let _ ← table.get rowId
    return none
  | scan => do
    let _ ← table.scan
    return none

/-- What the call leaves under the id it changed. -/
def stored : HeapCall → Option Row
  | insert row => some row
  | update _ row => some row
  | _ => none

/-- The rows after a call that returned `Ok`. -/
def after (call : HeapCall) (touched : Option RowId) (rows : RowId → Option Row) :
    RowId → Option Row :=
  match touched with
  | some id => Function.update rows id call.stored
  | none => rows

end HeapCall

namespace HeapTable

section Step

variable {σ : Type} [PageStore σ] {table : HeapTable} {s : σ} {n : Nat} {rows : RowId → Option Row}

/-- A call whose result is replaced by the id it changed. -/
lemma KeepsRows.andThen_ok {α β : Type} {o : Outcome TableError σ α}
    {after : α → (RowId → Option Row) → Prop} {after' : β → (RowId → Option Row) → Prop} (f : α → β)
    (h : table.KeepsRows s rows after o) (hf : ∀ a rows', after a rows' → after' (f a) rows') :
    table.KeepsRows s rows after' (o.andThen fun a s => .ok (f a) s) := by
  cases o with
  | ok a s' =>
    have ⟨n, rows', ha, hshows⟩ := h
    exact ⟨n, rows', hf a rows' ha, hshows⟩
  | err e s' => exact h
  | panic => trivial
  | diverge => trivial

/-- One call on a table. -/
lemma Shows.exec_keepsRows (h : table.Shows n rows s) (call : HeapCall) :
    table.KeepsRows s rows (fun touched rows' => rows' = call.after touched rows)
      ((call.exec table).run s) := by
  cases call with
  | insert row =>
    apply (h.insert_keepsRows row).andThen_ok some
    intro id rows' hrows
    exact hrows.2
  | update rowId row =>
    apply (h.changeRow_keepsRows (updateRow_changesRow rowId.slotId row)).andThen_ok fun _ => some rowId
    intro _ rows' hrows
    exact hrows.2
  | delete rowId =>
    apply (h.changeRow_keepsRows (deleteRow_changesRow rowId.slotId)).andThen_ok fun _ => some rowId
    intro _ rows' hrows
    exact hrows.2
  | get rowId =>
    have ⟨s', hshows, hspares, hget⟩ := h.get_eq rowId
    unfold HeapCall.exec
    rw [Exec.run_bind]
    cases hrow : rows rowId with
    | some row =>
      rw [hrow] at hget
      rw [hget]
      exact ⟨n, rows, rfl, hshows, hspares⟩
    | none =>
      rw [hrow] at hget
      have ⟨e, hget⟩ := hget
      rw [hget]
      exact ⟨n, hshows, hspares⟩
  | scan =>
    have ⟨live, s', hscan, _, _, hshows, hspares⟩ := h.scan_ok
    unfold HeapCall.exec
    rw [Exec.run_bind, hscan]
    exact ⟨n, rows, rfl, hshows, hspares⟩

end Step

/-- The managers of runs, with the rows last stored in each table and not deleted since. -/
inductive Run : ReliableManager → (TableId → Option (RowId → Option Row)) → Prop where
  | start {capacity : Nat} {tables : TableId → Option (RowId → Option Row)} (data : FileStore)
      (hcapacity : 0 < capacity) : (∀ t, Option.Rel HeapPages (data.files (.heap t)) (tables t)) →
      Run (.opened data capacity hcapacity) tables
  | created {s s' : ReliableManager} {tables : TableId → Option (RowId → Option Row)} {t : TableId} :
      Run s tables → (PageStore.createRelation (.heap t)).run s = .ok () s' →
      Run s' (Function.update tables t (some ((tables t).getD fun _ => none)))
  | ok {s s' : ReliableManager} {tables : TableId → Option (RowId → Option Row)} {t : TableId}
      {rows : RowId → Option Row} {call : HeapCall} {touched : Option RowId} : Run s tables →
      tables t = some rows → (call.exec (.new t)).run s = .ok touched s' →
      Run s' (Function.update tables t (some (call.after touched rows)))
  | err {s s' : ReliableManager} {tables : TableId → Option (RowId → Option Row)} {t : TableId}
      {rows : RowId → Option Row} {call : HeapCall} {e : TableError} : Run s tables →
      tables t = some rows → (call.exec (.new t)).run s = .err e s' → Run s' tables

section Runs

variable {s s' : ReliableManager} {tables : TableId → Option (RowId → Option Row)} {t : TableId}
  {rows rows' : RowId → Option Row}

/-- The heap files hold the rows of the tables. -/
def Holds (s : ReliableManager) (tables : TableId → Option (RowId → Option Row)) : Prop :=
  ∀ t, Option.Rel HeapPages (PageStore.pages s (.heap t)) (tables t)

lemma Holds.shows (h : Holds s tables) (ht : tables t = some rows) : ∃ n, (new t).Shows n rows s := by
  have hrel := h t
  rw [ht] at hrel
  cases hps : PageStore.pages s (.heap t) with
  | none =>
    rw [hps] at hrel
    cases hrel
  | some ps =>
    rw [hps] at hrel
    cases hrel with
    | some hheap => exact ⟨ps.length, ps, hps, rfl, hheap⟩

lemma Holds.step {n : Nat} (h : Holds s tables) (hshows : (new t).Shows n rows' s')
    (hspares : (new t).Spares s s') : Holds s' (Function.update tables t (some rows')) := by
  intro t'
  by_cases heq : t' = t
  · subst heq
    have ⟨ps, hps, _, hheap⟩ := hshows
    have hps : PageStore.pages s' (.heap t') = some ps := hps
    rw [Function.update_self, hps]
    exact .some hheap
  · have hne : RelationId.heap t' ≠ (new t).relationId := fun hrel => heq (RelationId.heap.inj hrel)
    rw [Function.update_of_ne heq, hspares _ hne]
    exact h t'

/-- The rows of every table are in its pages. -/
lemma Run.holds (h : Run s tables) : Holds s tables := by
  induction h with
  | start data hcapacity hdata =>
    intro t
    have hpages : PageStore.pages (ReliableManager.opened data _ hcapacity) = data.files :=
      ReliableManager.pages_opened data _ hcapacity
    rw [hpages]
    exact hdata t
  | @created s s' tables t _ hrun ih =>
    have ⟨s₁, hrun', hpages⟩ := PageStore.create_ok s (.heap t)
    cases hrun'.symm.trans hrun
    intro t'
    rw [hpages]
    by_cases heq : t' = t
    · subst heq
      rw [Function.update_self, Function.update_self]
      have hrel := ih t'
      cases hps : PageStore.pages s (.heap t') with
      | none =>
        rw [hps] at hrel
        cases htab : tables t' with
        | none => exact .some heapPages_nil
        | some rows =>
          rw [htab] at hrel
          cases hrel
      | some ps =>
        rw [hps] at hrel
        cases htab : tables t' with
        | none =>
          rw [htab] at hrel
          cases hrel
        | some rows =>
          rw [htab] at hrel
          exact hrel
    · have hne : RelationId.heap t' ≠ .heap t := fun hrel => heq (RelationId.heap.inj hrel)
      rw [Function.update_of_ne hne, Function.update_of_ne heq]
      exact ih t'
  | @ok s s' tables t rows call touched _ ht hrun ih =>
    have ⟨n, hshows⟩ := ih.shows ht
    have hstep := hshows.exec_keepsRows call
    rw [hrun] at hstep
    have ⟨n', rows', hrows, hshows', hspares⟩ := hstep
    subst hrows
    exact ih.step hshows' hspares
  | @err s s' tables t rows call e _ ht hrun ih =>
    have ⟨n, hshows⟩ := ih.shows ht
    have hstep := hshows.exec_keepsRows call
    rw [hrun] at hstep
    have ⟨n', hshows', hspares⟩ := hstep
    have hstep := ih.step hshows' hspares
    rwa [← ht, Function.update_eq_self] at hstep

/-- What a table shows of its rows. -/
structure ActsAsMap (t : TableId) (rows : RowId → Option Row) (s : ReliableManager) : Prop where
  get_returns (id : RowId) : ∃ s', (((new t).get id).run s).Returns s'
  get_eq (id : RowId) : (((new t).get id).run s).value? = rows id
  insert_fresh {row : Row} {id : RowId} {s' : ReliableManager} :
    ((new t).insert row).run s = .ok id s' → rows id = none
  update_live {id : RowId} {row : Row} {s' : ReliableManager} :
    ((new t).update id row).run s = .ok () s' → rows id ≠ none
  delete_live {id : RowId} {s' : ReliableManager} :
    ((new t).delete id).run s = .ok () s' → rows id ≠ none
  scan_eq : ∃ live s', (new t).scan.run s = .ok live s' ∧ live.Pairwise Before ∧
    ∀ id row, (id, row) ∈ live ↔ rows id = some row
  ok_frame {call : HeapCall} {touched : Option RowId} {s' : ReliableManager} :
    (call.exec (.new t)).run s = .ok touched s' → ∀ id, touched ≠ some id →
      (((new t).get id).run s').value? = (((new t).get id).run s).value?
  err_frame {call : HeapCall} {e : TableError} {s' : ReliableManager} :
    (call.exec (.new t)).run s = .err e s' → ∀ id,
      (((new t).get id).run s').value? = (((new t).get id).run s).value?

/-- A heap table is a map from row ids to rows, whatever the calls on it and on other tables. -/
theorem run_actsAsMap (h : Run s tables) (ht : tables t = some rows) : ActsAsMap t rows s := by
  have ⟨n, hshows⟩ := h.holds.shows ht
  constructor
  · intro id
    have ⟨s', _, _, hget⟩ := hshows.get_eq id
    cases hrow : rows id with
    | some row =>
      rw [hrow] at hget
      exact ⟨s', .inl ⟨row, hget⟩⟩
    | none =>
      rw [hrow] at hget
      exact ⟨s', .inr hget⟩
  · exact hshows.get_value
  · intro row id s' hrun
    have hstep := hshows.insert_keepsRows row
    rw [hrun] at hstep
    have ⟨_, _, hinserts, _⟩ := hstep
    exact hinserts.1
  · intro id row s' hrun
    have hstep := hshows.changeRow_keepsRows (updateRow_changesRow id.slotId row)
    rw [show (new t).changeRow id.pageId _ = (new t).update id row from rfl, hrun] at hstep
    have ⟨_, _, hlive, _⟩ := hstep
    exact hlive.1
  · intro id s' hrun
    have hstep := hshows.changeRow_keepsRows (deleteRow_changesRow id.slotId)
    rw [show (new t).changeRow id.pageId _ = (new t).delete id from rfl, hrun] at hstep
    have ⟨_, _, hlive, _⟩ := hstep
    exact hlive.1
  · have ⟨live, s', hscan, hordered, hmem, _⟩ := hshows.scan_ok
    exact ⟨live, s', hscan, hordered, hmem⟩
  · intro call touched s' hrun id hid
    have hstep := hshows.exec_keepsRows call
    rw [hrun] at hstep
    have ⟨n', rows', hrows, hshows', _⟩ := hstep
    rw [hshows'.get_value, hshows.get_value, hrows]
    cases touched with
    | none => rfl
    | some id' =>
      have hne : id ≠ id' := fun heq => hid (congrArg some heq.symm)
      exact Function.update_of_ne hne ..
  · intro call e s' hrun id
    have hstep := hshows.exec_keepsRows call
    rw [hrun] at hstep
    have ⟨n', hshows', _⟩ := hstep
    rw [hshows'.get_value, hshows.get_value]

/-- Two rows through a pool of one frame. -/
theorem run_actsAsMap_twoRows : ∃ s rows, ActsAsMap ⟨1⟩ rows s ∧
    rows (RowId.ofSlot 0) = some ⟨[1, 2, 3]⟩ ∧ rows (RowId.ofSlot 1) = some ⟨[4]⟩ := by
  have hstart : Run (.opened .empty 1 Nat.one_pos) fun _ => none :=
    .start .empty Nat.one_pos fun _ => .none
  have hcreate := @Run.created _ _ _ ⟨1⟩ hstart rfl
  have hfirst := @Run.ok _ _ _ ⟨1⟩ _ (.insert ⟨[1, 2, 3]⟩) _ hcreate (Function.update_self ..) rfl
  have hsecond := @Run.ok _ _ _ ⟨1⟩ _ (.insert ⟨[4]⟩) _ hfirst (Function.update_self ..) rfl
  exact ⟨_, _, run_actsAsMap hsecond (Function.update_self ..), rfl, rfl⟩

end Runs

end HeapTable

end RdbRs
