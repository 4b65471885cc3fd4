import RdbRs.Index.TreeDurable
import RdbRs.Table.HeapTableDurable

/-!
# Durable runs

Tables and trees in any order through one storage manager. After each call the files are enough: a
manager opened on them returns the same rows and the same row ids.
-/

namespace RdbRs

open Exec ReliableManager

/-- The call has come back, with `Ok` or with `Err`. -/
abbrev Comes {ε α : Type} (call : Exec ε ReliableManager α) (s s' : ReliableManager) : Prop :=
  (call.run s).Returns s'

/-- The managers of runs from one that is opened on files whose heap pages were left by rows. The
trees may have any root and any key type. -/
inductive DurableRun [UnstableSort] : ReliableManager → Prop where
  | start {capacity : Nat} (data : FileStore) (hcapacity : 0 < capacity) :
      (∀ t ps p, data.files (.heap t) = some ps → p ∈ ps → ∃ m, PageRun p m) →
      DurableRun (.opened data capacity hcapacity)
  | relation {s s' : ReliableManager} {r : RelationId} : DurableRun s →
      Comes (PageStore.createRelation r) s s' → DurableRun s'
  | insert {s s' : ReliableManager} {t : TableId} {row : Row} : DurableRun s →
      Comes ((HeapTable.new t).insert row) s s' → DurableRun s'
  | update {s s' : ReliableManager} {t : TableId} {rowId : RowId} {row : Row} : DurableRun s →
      Comes ((HeapTable.new t).update rowId row) s s' → DurableRun s'
  | delete {s s' : ReliableManager} {t : TableId} {rowId : RowId} : DurableRun s →
      Comes ((HeapTable.new t).delete rowId) s s' → DurableRun s'
  | get {s s' : ReliableManager} {t : TableId} {rowId : RowId} : DurableRun s →
      Comes ((HeapTable.new t).get rowId) s s' → DurableRun s'
  | scan {s s' : ReliableManager} {t : TableId} : DurableRun s →
      Comes (HeapTable.new t).scan s s' → DurableRun s'
  | treeCreate {s s' : ReliableManager} {i : IndexId} {keyType : BTreeKeyType} : DurableRun s →
      Comes (BTree.create i keyType) s s' → DurableRun s'
  | treeInsert {s s' : ReliableManager} {i : IndexId} {root : PageId} {keyType : BTreeKeyType}
      {key : BTreeKey} {rowId : RowId} : DurableRun s →
      Comes ((BTree.open' i root keyType).insert key rowId) s s' → DurableRun s'
  | treeDelete {s s' : ReliableManager} {i : IndexId} {root : PageId} {keyType : BTreeKeyType}
      {key : BTreeKey} {rowId : RowId} : DurableRun s →
      Comes ((BTree.open' i root keyType).delete key rowId) s s' → DurableRun s'
  | treeSearch {s s' : ReliableManager} {i : IndexId} {root : PageId} {keyType : BTreeKeyType}
      {key : BTreeKey} : DurableRun s →
      Comes ((BTree.open' i root keyType).search key) s s' → DurableRun s'

/-- The results of two calls, without the states they leave. -/
abbrev SameResult {ε α : Type} (call : Exec ε ReliableManager α) (s t : ReliableManager) : Prop :=
  (call.run s).mapState (fun _ => ()) = (call.run t).mapState fun _ => ()

/-- All reads of the two managers return the same. -/
structure SameReads (s t : ReliableManager) : Prop where
  get (id : TableId) (rowId : RowId) : SameResult ((HeapTable.new id).get rowId) s t
  scan (id : TableId) : SameResult (HeapTable.new id).scan s t
  search (i : IndexId) (root : PageId) (keyType : BTreeKeyType) (key : BTreeKey) :
    SameResult ((BTree.open' i root keyType).search key) s t

lemma sameReads_of_mirrors {s t : ReliableManager} (h : Mirrors s t) : SameReads s t where
  get id rowId := (HeapTable.agree_get id rowId).result_eq h
  scan id := (HeapTable.agree_scan id).result_eq h
  search i root keyType key := (BTree.agree_search i root keyType key).result_eq h

section Runs

/-- A manager that has just been opened has changed nothing. -/
lemma settled_opened {capacity : Nat} {data : FileStore} (hcapacity : 0 < capacity)
    (hdata : ∀ t ps p, data.files (.heap t) = some ps → p ∈ ps → ∃ m, PageRun p m) :
    (opened data capacity hcapacity).Settled := by
  intro key p q hp hq
  have hp : data.contents key = some p := hp
  have hq : data.contents key = some q := hq
  obtain rfl := Option.some.inj (hp.symm.trans hq)
  obtain ⟨r, pageId⟩ := key
  cases r with
  | index i => exact alike_index.mpr rfl
  | heap t =>
    rw [FileStore.contents, Option.bind_eq_some_iff] at hp
    have ⟨ps, hps, hpage⟩ := hp
    have ⟨m, hm⟩ := hdata t ps p hps (List.mem_of_getElem? hpage)
    exact ⟨m, hm, hm⟩

variable [UnstableSort] {s : ReliableManager}

/-- Every call flushes what it has changed. -/
lemma DurableRun.settled (h : DurableRun s) : s.Settled := by
  induction h with
  | start data hcapacity hdata => exact settled_opened hcapacity hdata
  | relation _ hrun ih => exact (keeps_createRelation _).of_returns ih hrun
  | insert _ hrun ih => exact (HeapTable.keeps_insert _ _).of_returns ih hrun
  | update _ hrun ih => exact (HeapTable.keeps_update _ _ _).of_returns ih hrun
  | delete _ hrun ih => exact (HeapTable.keeps_delete _ _).of_returns ih hrun
  | get _ hrun ih => exact (HeapTable.keeps_get _ _).of_returns ih hrun
  | scan _ hrun ih => exact (HeapTable.keeps_scan _).of_returns ih hrun
  | treeCreate _ hrun ih => exact (BTree.CallRules.create fun root => BTree.settledRules _ root _).of_returns ih hrun
  | treeInsert _ hrun ih => exact ((BTree.settledRules _ _ _).insert _ _).of_returns ih hrun
  | treeDelete _ hrun ih => exact ((BTree.settledRules _ _ _).delete _ _).of_returns ih hrun
  | treeSearch _ hrun ih => exact (BTree.keeps_search (BTree.settledRules _ _ _).fetchPage _).of_returns ih hrun

/-- A restart after any call is not noticed, whatever the capacity of the new pool. -/
theorem durableRun_restart (h : DurableRun s) {capacity : Nat} (hcapacity : 0 < capacity) :
    SameReads s (opened s.1.relationFileManager.data capacity hcapacity) :=
  sameReads_of_mirrors (mirrors_opened h.settled hcapacity)

end Runs

/-- A row and an index entry through a pool of one frame. -/
theorem durableRun_restart_inserted : ∃ s, DurableRun s ∧
    SameReads s (opened s.1.relationFileManager.data 1 Nat.one_pos) := by
  have hstart : DurableRun (.opened .empty 1 Nat.one_pos) :=
    .start .empty Nat.one_pos fun _ _ _ h => by cases h
  have hheap := @DurableRun.relation _ _ _ (.heap ⟨1⟩) hstart (.inl ⟨_, rfl⟩)
  have hindex := @DurableRun.relation _ _ _ (.index ⟨1⟩) hheap (.inl ⟨_, rfl⟩)
  have hrow := @DurableRun.insert _ _ _ ⟨1⟩ ⟨[1, 2, 3]⟩ hindex (.inl ⟨_, rfl⟩)
  have htree := @DurableRun.treeCreate _ _ _ ⟨1⟩ .boolean hrow (.inl ⟨_, rfl⟩)
  have hentry := @DurableRun.treeInsert _ _ _ ⟨1⟩ (PageId.new 0) .boolean (.boolean true) (.ofSlot 0) htree
    (.inl ⟨_, rfl⟩)
  exact ⟨_, hentry, durableRun_restart hentry Nat.one_pos⟩

end RdbRs
