import RdbRs.Executor.Orders
import RdbRs.Executor.Sums
import RdbRs.Lib.Grouping

/-!
# Groups

`GROUP BY` partitions the rows that pass the filter: one group for each distinct key, in the
order of the first rows, sorted afterwards if there is an order.
-/

namespace RdbRs

namespace Executor

variable {σ : Type} {self : Executor} {tables : List BoundTable} {rows : List QueryRow}
  {row : QueryRow} {groupBy : List BoundColumnReference}

/-- The values of the grouping columns. -/
def keyOf (self : Executor) (groupBy : List BoundColumnReference) (row : QueryRow) : List Value :=
  groupBy.map (self.valueOf row)

/-- The rows with a key. -/
def groupOf (self : Executor) (groupBy : List BoundColumnReference) (rows : List QueryRow)
    (key : List Value) : List QueryRow := withKey (self.keyOf groupBy) rows key

/-- The keys of the rows, in the order of their first occurrences. -/
def keysOf (self : Executor) (groupBy : List BoundColumnReference) (rows : List QueryRow) :
    List (List Value) := firsts (rows.map (self.keyOf groupBy))

lemma groupKey_eq (hscope : Scope tables) (hrow : row.IsFrom self.database tables)
    (hgroup : ∀ c ∈ groupBy, ∃ dataType, c.IsIn self.database tables dataType) :
    (self.groupKey row groupBy : Exec ExecutorError σ _) = pure (self.keyOf groupBy row) := by
  have hround (acc : List Value) (c : BoundColumnReference) (hc : c ∈ groupBy) :
      (self.columnValue row c >>= fun value => pure (acc ++ [value]) : Exec ExecutorError σ _) =
        pure (acc ++ [self.valueOf row c]) := by
    have ⟨dataType, hin⟩ := hgroup c hc
    rw [columnValue_eq hscope hrow hin, Exec.pure_bind]
  rw [groupKey, Exec.foldlM_push hround, List.nil_append, keyOf, List.map_eq_flatMap]

/-- The groups of the rows done so far, with the map of their positions. -/
def Grouped (executor : Executor) (groupBy : List BoundColumnReference) (done : List QueryRow)
    (grouping : Grouping) : Prop :=
  Indexed (executor.keyOf groupBy) (fun rows key => ⟨key, executor.groupOf groupBy rows key⟩) done
    grouping.groups grouping.indices

/-- A row joins the group of its key, or opens a new one. -/
lemma groupRow_grouped {done : List QueryRow} {grouping : Grouping} (hscope : Scope tables)
    (hrow : row.IsFrom self.database tables)
    (hgroup : ∀ c ∈ groupBy, ∃ dataType, c.IsIn self.database tables dataType)
    (h : Grouped self groupBy done grouping) :
    ∃ grouping', (self.groupRow groupBy grouping row : Exec ExecutorError σ _) = pure grouping' ∧
      Grouped self groupBy (done ++ [row]) grouping' := by
  have hself : self.groupOf groupBy (done ++ [row]) (self.keyOf groupBy row) =
      self.groupOf groupBy done (self.keyOf groupBy row) ++ [row] := withKey_concat_self
  have hothers : ∀ key ∈ done.map (self.keyOf groupBy), key ≠ self.keyOf groupBy row →
      (⟨key, self.groupOf groupBy (done ++ [row]) key⟩ : RowGroup) =
        ⟨key, self.groupOf groupBy done key⟩ := by
    intro key _ hne
    rw [groupOf, withKey_concat_of_ne hne]
    rfl
  rw [groupRow, groupKey_eq hscope hrow hgroup, Exec.pure_bind]
  cases hget : grouping.indices.get (self.keyOf groupBy row) with
  | some i =>
    have ⟨hat, hgrouped⟩ := h.join hget hothers
    have hlt : i < grouping.groups.length := (List.getElem?_eq_some_iff.mp hat).1
    rw [hself] at hgrouped
    simp only [Exec.index_eq hat, Exec.assign_eq hlt, Exec.pure_bind]
    exact ⟨_, rfl, hgrouped⟩
  | none =>
    have hnone : self.groupOf groupBy done (self.keyOf groupBy row) = [] := by
      apply withKey_eq_nil
      intro hmem
      have ⟨i, hi⟩ := List.mem_iff_getElem?.mp (mem_firsts.mpr hmem)
      rw [(h.positions_iff _ i).mpr hi] at hget
      cases hget
    have hgrouped := h.push hget hothers
    rw [hself, hnone] at hgrouped
    exact ⟨_, rfl, hgrouped⟩

/-- The groups of the rows. -/
lemma groupRows_eq (hscope : Scope tables) (hrows : ∀ row ∈ rows, row.IsFrom self.database tables)
    (hgroup : ∀ c ∈ groupBy, ∃ dataType, c.IsIn self.database tables dataType) :
    (self.groupRows rows groupBy : Exec ExecutorError σ _) =
      pure ((self.keysOf groupBy rows).map fun key => ⟨key, self.groupOf groupBy rows key⟩) := by
  have hinit : Grouped self groupBy [] ⟨[], HashMap.new⟩ := indexed_nil
  have ⟨grouping, hrun, hgrouped⟩ :=
    Exec.foldlM_invariant (f := (self.groupRow groupBy : _ → _ → Exec ExecutorError σ _))
      (fun done grouping => Grouped self groupBy done grouping) hinit
      fun done row acc hrow h => groupRow_grouped hscope (hrows row hrow) hgroup h
  rw [groupRows, hrun, Exec.pure_bind, hgrouped.entries_eq]
  rfl

lemma mem_keysOf {key : List Value} :
    key ∈ self.keysOf groupBy rows ↔ ∃ row ∈ rows, self.keyOf groupBy row = key := by
  rw [keysOf, mem_firsts, List.mem_map]

lemma mem_groupOf {key : List Value} :
    row ∈ self.groupOf groupBy rows key ↔ row ∈ rows ∧ self.keyOf groupBy row = key := by
  rw [groupOf, withKey, List.mem_filter, decide_eq_true_eq]

/-! ### The order of the groups -/

/-- Groups are sorted by the value that their rows have in a grouping column. -/
def GroupsOrdered (executor : Executor) (groupBy : List BoundColumnReference) (rows : List QueryRow)
    (order : BoundOrderBy) (a b : List Value) : Prop :=
  ∀ r ∈ executor.groupOf groupBy rows a, ∀ r' ∈ executor.groupOf groupBy rows b,
    order.direction.Ordered (executor.valueOf r order.column) (executor.valueOf r' order.column)

/-- The position of a grouping column. -/
lemma findIdx_groupBy (self : Executor) {c : BoundColumnReference} (h : c ∈ groupBy) :
    ∃ i, groupBy.findIdx? (fun groupColumn => groupColumn = c) = some i ∧ i < groupBy.length ∧
      ∀ row, (self.keyOf groupBy row)[i]? = some (self.valueOf row c) := by
  have hfound : (groupBy.findIdx? fun groupColumn => groupColumn = c).isSome := by
    rw [List.findIdx?_isSome, List.any_eq_true]
    exact ⟨c, h, decide_eq_true rfl⟩
  have ⟨i, hi⟩ := Option.isSome_iff_exists.mp hfound
  have ⟨hlt, hc, _⟩ := List.findIdx?_eq_some_iff_getElem.mp hi
  refine ⟨i, hi, hlt, fun row => ?_⟩
  rw [keyOf, List.getElem?_map, List.getElem?_eq_getElem hlt, of_decide_eq_true hc]
  rfl

lemma orderGroups_eq (hscope : Scope tables) (hrows : ∀ row ∈ rows, row.IsFrom self.database tables)
    {order : BoundOrderBy} {dataType : DataType} (horder : order.column ∈ groupBy)
    (hin : order.column.IsIn self.database tables dataType) :
    ∃ keys : List (List Value), keys.Perm (self.keysOf groupBy rows) ∧
      keys.Pairwise (self.GroupsOrdered groupBy rows order) ∧
        (orderGroups ((self.keysOf groupBy rows).map fun key => ⟨key, self.groupOf groupBy rows key⟩)
          groupBy order : Exec ExecutorError σ _) =
            pure (keys.map fun key => ⟨key, self.groupOf groupBy rows key⟩) := by
  have ⟨i, hi, hlt, hvalue⟩ := findIdx_groupBy self horder
  have hgetD (row : QueryRow) : (self.keyOf groupBy row).getD i .null = self.valueOf row order.column := by
    rw [List.getD_eq_getElem?_getD, hvalue, Option.getD_some]
  have htype : ∀ key ∈ self.keysOf groupBy rows, (key.getD i .null).HasType dataType := by
    intro key hkey
    have ⟨row, hrow, heq⟩ := mem_keysOf.mp hkey
    rw [← heq, hgetD]
    exact valueOf_hasType hscope (hrows row hrow) hin
  have ⟨hperm, hsorted⟩ := sortBy_ordered htype order.direction
  refine ⟨_, hperm, ?_, ?_⟩
  · apply hsorted.imp
    intro a b hab r hr r' hr'
    rw [← hgetD r, ← hgetD r', (mem_groupOf.mp hr).2, (mem_groupOf.mp hr').2]
    exact hab
  · have hlen : ¬ (2 ≤ ((self.keysOf groupBy rows).map fun key =>
          (⟨key, self.groupOf groupBy rows key⟩ : RowGroup)).length ∧
        ∃ group ∈ ((self.keysOf groupBy rows).map fun key =>
          (⟨key, self.groupOf groupBy rows key⟩ : RowGroup)), group.key.length ≤ i) := by
      intro ⟨_, group, hmem, hle⟩
      have ⟨key, hkey, hgroup⟩ := List.mem_map.mp hmem
      have ⟨row, _, heq⟩ := mem_keysOf.mp hkey
      rw [← hgroup] at hle
      simp only [← heq, keyOf, List.length_map] at hle
      omega
    rw [orderGroups, hi, Exec.okOr_some, Exec.pure_bind, if_neg hlen]
    simp only
    rw [sortBy_map]
    split
    · rw [List.map_reverse]
    · rfl

/-! ### The rows of the groups -/

/-- What a projection shows for a group. -/
def CellOf (executor : Executor) (group : List QueryRow) (projection : BoundProjection) (v : Value) :
    Prop :=
  match projection with
  | .column c => ∀ row ∈ group, v = executor.valueOf row c
  | .aggregate .countAll => ∃ n : Int64, v = .bigInt n ∧ n.toInt = group.length
  | .aggregate (.sum c) => exactSum (executor.addends c group) = .ok v
  | .all => False

/-- The rows of a grouped `SELECT` before `LIMIT`: the keys of the groups and, for each key, what
the projections show for the group. -/
structure GroupedRows (executor : Executor) (groupBy : List BoundColumnReference) (bound : BoundSelect)
    (rows : List QueryRow) (keys : List (List Value)) (results : List (List Value)) : Prop where
  distinct : keys.Nodup
  covers : ∀ key, key ∈ keys ↔ ∃ row ∈ rows, executor.keyOf groupBy row = key
  firstOccurrences : bound.orderBy = none →
    keys.Pairwise fun a b =>
      (rows.map (executor.keyOf groupBy)).idxOf a < (rows.map (executor.keyOf groupBy)).idxOf b
  ordered : ∀ order ∈ bound.orderBy, keys.Pairwise (executor.GroupsOrdered groupBy rows order)
  cells : List.Forall₂ (fun key result =>
    List.Forall₂ (executor.CellOf (executor.groupOf groupBy rows key)) bound.projections result)
      keys results
  counts : (keys.map fun key => (executor.groupOf groupBy rows key).length).sum = rows.length

/-- The groups in the order of the statement. -/
lemma orderedGroups_eq {bound : BoundSelect} (hfits : Binder.SelectFits self.database bound)
    (hgroup : bound.groupBy = some groupBy)
    (hrows : ∀ row ∈ rows, row.IsFrom self.database (collectTables bound.from_)) :
    ∃ keys : List (List Value), keys.Perm (self.keysOf groupBy rows) ∧
      (bound.orderBy = none → keys = self.keysOf groupBy rows) ∧
      (∀ order ∈ bound.orderBy, keys.Pairwise (self.GroupsOrdered groupBy rows order)) ∧
      (match bound.orderBy with
        | some order => orderGroups ((self.keysOf groupBy rows).map fun key =>
            ⟨key, self.groupOf groupBy rows key⟩) groupBy order
        | none => pure ((self.keysOf groupBy rows).map fun key => ⟨key, self.groupOf groupBy rows key⟩) :
          Exec ExecutorError σ _) = pure (keys.map fun key => ⟨key, self.groupOf groupBy rows key⟩) := by
  cases horder : bound.orderBy with
  | none => exact ⟨_, List.Perm.rfl, fun _ => rfl, by simp, rfl⟩
  | some order =>
    have hvalid := hfits.groupedOrder
    have ⟨dataType, hin⟩ := hfits.orderBy order (by rw [horder]; rfl)
    rw [horder, hgroup, validateOrderBy] at hvalid
    have hmem : order.column ∈ groupBy := by
      split at hvalid
      · next hcontains => exact List.contains_iff_mem.mp hcontains
      · cases hvalid
    have ⟨keys, hperm, hsorted, hrun⟩ := orderGroups_eq (σ := σ) hfits.scope hrows hmem hin
    refine ⟨keys, hperm, fun h => (by cases h), ?_, hrun⟩
    intro o ho
    cases ho
    exact hsorted

/-- A grouped `SELECT` aggregates the groups in the order of the statement. -/
lemma selectGroups_eq {bound : BoundSelect} (hfits : Binder.SelectFits self.database bound)
    (hgroup : bound.groupBy = some groupBy)
    (hrows : ∀ row ∈ rows, row.IsFrom self.database (collectTables bound.from_)) :
    ∃ keys : List (List Value), keys.Perm (self.keysOf groupBy rows) ∧
      (bound.orderBy = none → keys = self.keysOf groupBy rows) ∧
      (∀ order ∈ bound.orderBy, keys.Pairwise (self.GroupsOrdered groupBy rows order)) ∧
      (self.selectGroups rows groupBy bound : Exec ExecutorError σ _) =
        self.aggregateGroups (keys.map fun key => ⟨key, self.groupOf groupBy rows key⟩) groupBy
          bound.projections >>= fun results => pure (truncate bound.limit results) := by
  have hcolumns := hfits.groupBy groupBy (by rw [hgroup]; rfl)
  have ⟨keys, hperm, hfirst, hsorted, horder⟩ := orderedGroups_eq (σ := σ) hfits hgroup hrows
  refine ⟨keys, hperm, hfirst, hsorted, ?_⟩
  rw [selectGroups, groupRows_eq hfits.scope hrows hcolumns, Exec.pure_bind]
  cases ho : bound.orderBy with
  | none =>
    rw [ho] at horder
    simp only at horder ⊢
    rw [horder, Exec.pure_bind]
  | some order =>
    rw [ho] at horder
    simp only at horder ⊢
    rw [horder, Exec.pure_bind]

/-- The projections of a grouped `SELECT`. -/
lemma projections_of_grouped {bound : BoundSelect} (hfits : Binder.SelectFits self.database bound)
    (hgroup : bound.groupBy = some groupBy) {p : BoundProjection} (hp : p ∈ bound.projections) :
    p ≠ .all ∧ ∀ c, p = .column c → c ∈ groupBy := by
  have hvalid := hfits.groupedProjections
  rw [hgroup, validateProjection] at hvalid
  split at hvalid
  · next hall =>
    have hone := List.all_eq_true.mp hall p hp
    constructor
    · intro heq
      simp [heq, BoundProjection.fits] at hone
    · intro c heq
      simpa [heq, BoundProjection.fits] using hone
  · cases hvalid

end Executor

end RdbRs
