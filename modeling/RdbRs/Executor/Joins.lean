import RdbRs.Executor.TypedRows

/-!
# Joins

The hash join returns what the nested loop join returns, in the same order: it either looks the
value of one column up among the values of the other one, or falls back to the nested loop.
-/

namespace RdbRs

lemma Value.compare_equal (a b : Value) : a.compare .equal b = decide (b = a ∧ a ≠ .null) := by
  unfold compare
  by_cases ha : a = .null
  · simp [ha]
  · by_cases hb : b = .null
    · simp [ha, hb, Ne.symm ha]
    · simp [ha, hb, eq_comm]

lemma BoundColumnReference.isIn_append {database : DatabaseMetadata} {tables tables' : List BoundTable}
    {c : BoundColumnReference} {dataType : DataType} :
    c.IsIn database (tables ++ tables') dataType ↔
      c.IsIn database tables dataType ∨ c.IsIn database tables' dataType := by
  unfold IsIn
  constructor
  · intro ⟨table, hmem, hrest⟩
    exact (List.mem_append.mp hmem).imp (fun h => ⟨table, h, hrest⟩) fun h => ⟨table, h, hrest⟩
  · intro h
    cases h with
    | inl h =>
      have ⟨table, hmem, hrest⟩ := h
      exact ⟨table, List.mem_append_left _ hmem, hrest⟩
    | inr h =>
      have ⟨table, hmem, hrest⟩ := h
      exact ⟨table, List.mem_append_right _ hmem, hrest⟩

namespace Executor

variable {σ : Type} {self : Executor} {leftRow rightRow : QueryRow} {leftRows rightRows : List QueryRow}
  {condition : BoundJoinCondition}

/-! ### The nested loop -/

/-- The joined rows, in the order of the nested loop. -/
def joined (test : QueryRow → QueryRow → Bool) (leftRows rightRows : List QueryRow) : List QueryRow :=
  leftRows.flatMap fun leftRow => (rightRows.filter (test leftRow)).map (joinRows leftRow)

lemma nestedLoopJoin_eq {test : QueryRow → QueryRow → Bool}
    (h : ∀ leftRow ∈ leftRows, ∀ rightRow ∈ rightRows,
      (self.matchesJoinCondition leftRow rightRow condition : Exec ExecutorError σ _) =
        pure (test leftRow rightRow)) :
    (self.nestedLoopJoin leftRows rightRows condition : Exec ExecutorError σ _) =
      pure (joined test leftRows rightRows) := by
  apply Exec.foldlM_push
  intro joinedRows leftRow hleft
  apply Exec.foldlM_filter
  intro acc rightRow hright
  rw [h leftRow hleft rightRow hright, Exec.pure_bind]

/-! ### The hash table -/

section Hash

variable {hash : HashMap Value (List Nat)} {build probe : QueryRow → Value} {v : Value}

/-- The positions of the rows with a value that is not `NULL`. -/
def positionsOf (build : QueryRow → Value) (v : Value) (rows : List QueryRow) (start : Nat) : List Nat :=
  ((rows.zipIdx start).filter fun p => decide (build p.1 = v ∧ v ≠ .null)).map Prod.snd

lemma positionsOf_cons {row : QueryRow} {rows : List QueryRow} {start : Nat} :
    positionsOf build v (row :: rows) start =
      (if build row = v ∧ v ≠ .null then [start] else []) ++ positionsOf build v rows (start + 1) := by
  rw [positionsOf, List.zipIdx_cons, List.filter_cons]
  split
  · next h =>
    rw [if_pos (of_decide_eq_true h)]
    rfl
  · next h =>
    rw [if_neg (fun hv => h (decide_eq_true hv))]
    rfl

/-- The loop over the right rows collects the positions of each value. -/
lemma buildHash_eq (start : Nat) (hash : HashMap Value (List Nat))
    (h : ∀ row ∈ rightRows, ∃ column, hashJoinColumn row condition = some column ∧
      (self.columnValue row column : Exec ExecutorError σ _) = pure (build row)) :
    ∃ hash', (self.buildHash condition rightRows start hash : Exec ExecutorError σ _) =
        pure (some hash') ∧
      ∀ v, (hash'.get v).getD [] = (hash.get v).getD [] ++ positionsOf build v rightRows start := by
  induction rightRows generalizing start hash with
  | nil => exact ⟨hash, rfl, fun v => (List.append_nil _).symm⟩
  | cons row rightRows ih =>
    have ⟨column, hcolumn, hvalue⟩ := h row List.mem_cons_self
    have hlater := fun hash : HashMap Value (List Nat) =>
      ih (start + 1) hash fun r hr => h r (List.mem_cons_of_mem row hr)
    rw [buildHash, hcolumn]
    simp only [hvalue, Exec.pure_bind]
    split
    · next hnull =>
      have ⟨hash', hrun, hget⟩ := hlater (hash.insert (build row) ((hash.get (build row)).getD [] ++ [start]))
      refine ⟨hash', hrun, fun v => ?_⟩
      rw [hget v, positionsOf_cons, HashMap.get_insert]
      by_cases hv : v = build row
      · subst hv
        simp [hnull]
      · rw [if_neg hv, if_neg (fun heq => hv heq.1.symm), List.nil_append]
    · next hnull =>
      have ⟨hash', hrun, hget⟩ := hlater hash
      refine ⟨hash', hrun, fun v => ?_⟩
      have hnone : ¬ (build row = v ∧ v ≠ .null) := fun ⟨heq, hv⟩ => hnull (heq ▸ hv)
      rw [hget v, positionsOf_cons, if_neg hnone, List.nil_append]

/-- The rows at the positions of a value are the rows with the value. -/
lemma joinIndexes_eq {joinedRows : List QueryRow} :
    (joinIndexes rightRows leftRow joinedRows (positionsOf build v rightRows 0) :
        Exec ExecutorError σ _) =
      pure (joinedRows ++
        (rightRows.filter fun row => decide (build row = v ∧ v ≠ .null)).map (joinRows leftRow)) := by
  have hrows : (rightRows.filter fun row => decide (build row = v ∧ v ≠ .null)) =
      ((rightRows.zipIdx 0).filter fun p => decide (build p.1 = v ∧ v ≠ .null)).map Prod.fst := by
    have hmap := List.filter_map (f := Prod.fst) (l := rightRows.zipIdx 0)
      (p := fun row => decide (build row = v ∧ v ≠ .null))
    rwa [List.zipIdx_map_fst] at hmap
  have hmem : ∀ p ∈ ((rightRows.zipIdx 0).filter fun p => decide (build p.1 = v ∧ v ≠ .null)),
      rightRows[p.2]? = some p.1 := by
    intro p hp
    exact List.mem_zipIdx_iff_getElem?.mp (List.mem_filter.mp hp).1
  rw [hrows, positionsOf, joinIndexes]
  clear hrows
  generalize ((rightRows.zipIdx 0).filter fun p => decide (build p.1 = v ∧ v ≠ .null)) = pairs at *
  induction pairs generalizing joinedRows with
  | nil => exact congrArg pure (List.append_nil _).symm
  | cons p pairs ih =>
    rw [List.map_cons, Exec.foldlM_cons, Exec.index_eq (hmem p List.mem_cons_self), Exec.pure_bind,
      Exec.pure_bind, ih fun q hq => hmem q (List.mem_cons_of_mem p hq), List.map_cons, List.map_cons,
      List.append_assoc, List.singleton_append]

/-- The loop over the left rows joins each of them with the right rows of its value. -/
lemma probeHash_eq {joinedRows : List QueryRow}
    (hhash : ∀ v, (hash.get v).getD [] = positionsOf build v rightRows 0)
    (h : ∀ row ∈ leftRows, ∃ column, hashJoinColumn row condition = some column ∧
      (self.columnValue row column : Exec ExecutorError σ _) = pure (probe row)) :
    (self.probeHash rightRows condition hash leftRows joinedRows : Exec ExecutorError σ _) =
      pure (some (joinedRows ++ joined (fun leftRow rightRow =>
        decide (build rightRow = probe leftRow ∧ probe leftRow ≠ .null)) leftRows rightRows)) := by
  induction leftRows generalizing joinedRows with
  | nil => exact congrArg (fun rows => pure (some rows)) (List.append_nil _).symm
  | cons leftRow leftRows ih =>
    have ⟨column, hcolumn, hvalue⟩ := h leftRow List.mem_cons_self
    rw [probeHash, hcolumn]
    simp only [hvalue, Exec.pure_bind]
    rw [hhash, joinIndexes_eq, Exec.pure_bind, ih fun r hr => h r (List.mem_cons_of_mem leftRow hr),
      joined, joined, List.flatMap_cons, List.append_assoc]

/-- Where every right row has a column to build with and every left row one to probe with. -/
lemma hashJoin_eq (build probe : QueryRow → Value)
    (hright : ∀ row ∈ rightRows, ∃ column, hashJoinColumn row condition = some column ∧
      (self.columnValue row column : Exec ExecutorError σ _) = pure (build row))
    (hleft : ∀ row ∈ leftRows, ∃ column, hashJoinColumn row condition = some column ∧
      (self.columnValue row column : Exec ExecutorError σ _) = pure (probe row)) :
    (self.hashJoin leftRows rightRows condition : Exec ExecutorError σ _) =
      pure (joined (fun leftRow rightRow =>
        decide (build rightRow = probe leftRow ∧ probe leftRow ≠ .null)) leftRows rightRows) := by
  have ⟨hash, hbuild, hget⟩ := buildHash_eq 0 HashMap.new hright
  have hhash (v : Value) : (hash.get v).getD [] = positionsOf build v rightRows 0 := by
    rw [hget v]
    rfl
  rw [hashJoin, hbuild, Exec.pure_bind]
  simp only
  rw [probeHash_eq hhash hleft, Exec.pure_bind]
  rfl

/-- Where the right rows have no column, the hash join is the nested loop. -/
lemma hashJoin_of_right (h : ∀ row ∈ rightRows, hashJoinColumn row condition = none)
    (hne : rightRows ≠ []) :
    (self.hashJoin leftRows rightRows condition : Exec ExecutorError σ _) =
      self.nestedLoopJoin leftRows rightRows condition := by
  cases rightRows with
  | nil => exact absurd rfl hne
  | cons row rightRows => rw [hashJoin, buildHash, h row List.mem_cons_self, Exec.pure_bind]

/-- Where the left rows have no column, the hash join is the nested loop. -/
lemma hashJoin_of_left
    (hright : ∀ row ∈ rightRows, ∃ column, hashJoinColumn row condition = some column ∧
      (self.columnValue row column : Exec ExecutorError σ _) = pure (build row))
    (h : ∀ row ∈ leftRows, hashJoinColumn row condition = none) (hne : leftRows ≠ []) :
    (self.hashJoin leftRows rightRows condition : Exec ExecutorError σ _) =
      self.nestedLoopJoin leftRows rightRows condition := by
  have ⟨hash, hbuild, _⟩ := buildHash_eq 0 HashMap.new hright
  cases leftRows with
  | nil => exact absurd rfl hne
  | cons row leftRows =>
    rw [hashJoin, hbuild, Exec.pure_bind]
    simp only
    rw [probeHash, h row List.mem_cons_self, Exec.pure_bind]

end Hash

/-! ### Joins of typed rows -/

section Typed

variable {tables tables' : List BoundTable} {row : QueryRow} {c : BoundColumnReference}
  {dataType : DataType}

/-- A row without the table of a column. -/
lemma findTableRow_apart (hscope : Scope (tables ++ tables')) (h : row.IsFrom self.database tables)
    (hc : c.IsIn self.database tables' dataType) : ¬ (row.findTableRow c.instanceId).isSome := by
  intro hsome
  have ⟨table, hmem, heq⟩ := (QueryRow.findTableRow_isSome h).mp hsome
  have ⟨table', hmem', heq', _⟩ := hc
  rw [Scope, List.map_append] at hscope
  have hdisjoint := List.disjoint_of_nodup_append hscope
  apply hdisjoint (List.mem_map.mpr ⟨table, hmem, rfl⟩)
  exact List.mem_map.mpr ⟨table', hmem', heq'.trans heq.symm⟩

lemma findTableRow_here (h : row.IsFrom self.database tables)
    (hc : c.IsIn self.database tables dataType) : (row.findTableRow c.instanceId).isSome := by
  have ⟨table, hmem, heq, _⟩ := hc
  exact (QueryRow.findTableRow_isSome h).mpr ⟨table, hmem, heq⟩

lemma hashJoinColumn_left (h : row.IsFrom self.database tables)
    (hleft : condition.left.IsIn self.database tables dataType) :
    hashJoinColumn row condition = some condition.left := if_pos (findTableRow_here h hleft)

lemma hashJoinColumn_right (hscope : Scope (tables ++ tables')) (h : row.IsFrom self.database tables)
    (hleft : condition.left.IsIn self.database tables' dataType)
    (hright : condition.right.IsIn self.database tables dataType) :
    hashJoinColumn row condition = some condition.right := by
  rw [hashJoinColumn, if_neg (findTableRow_apart hscope h hleft),
    if_pos (findTableRow_here h hright)]

lemma hashJoinColumn_none (hscope : Scope (tables ++ tables')) (h : row.IsFrom self.database tables)
    (hleft : condition.left.IsIn self.database tables' dataType)
    (hright : condition.right.IsIn self.database tables' dataType) :
    hashJoinColumn row condition = none := by
  rw [hashJoinColumn, if_neg (findTableRow_apart hscope h hleft),
    if_neg (findTableRow_apart hscope h hright)]

/-- The value of a column in one of two rows. -/
def valueIn (self : Executor) (leftRow rightRow : QueryRow) (column : BoundColumnReference) : Value :=
  if (leftRow.findTableRow column.instanceId).isSome then self.valueOf leftRow column
  else self.valueOf rightRow column

variable (hscope : Scope (tables ++ tables')) (hleft : leftRow.IsFrom self.database tables)
  (hright : rightRow.IsFrom self.database tables')

include hscope hleft hright

omit hright in
lemma valueIn_right (hc : c.IsIn self.database tables' dataType) :
    self.valueIn leftRow rightRow c = self.valueOf rightRow c :=
  if_neg (findTableRow_apart hscope hleft hc)

omit hscope hright in
lemma valueIn_left (hc : c.IsIn self.database tables dataType) :
    self.valueIn leftRow rightRow c = self.valueOf leftRow c := if_pos (findTableRow_here hleft hc)

lemma joinColumnValue_eq (hc : c.IsIn self.database (tables ++ tables') dataType) :
    (self.joinColumnValue leftRow rightRow c : Exec ExecutorError σ _) =
      pure (self.valueIn leftRow rightRow c) := by
  cases BoundColumnReference.isIn_append.mp hc with
  | inl hhere =>
    rw [joinColumnValue, if_pos (findTableRow_here hleft hhere), valueIn_left hleft hhere]
    exact columnValue_eq hscope.left hleft hhere
  | inr hthere =>
    rw [joinColumnValue, if_neg (findTableRow_apart hscope hleft hthere),
      if_pos (findTableRow_here hright hthere), valueIn_right hscope hleft hthere]
    exact columnValue_eq hscope.swap.left hright hthere

lemma matchesJoinCondition_eq
    (hl : condition.left.IsIn self.database (tables ++ tables') dataType)
    (hr : condition.right.IsIn self.database (tables ++ tables') dataType) :
    (self.matchesJoinCondition leftRow rightRow condition : Exec ExecutorError σ _) =
      pure (decide (self.valueIn leftRow rightRow condition.right =
        self.valueIn leftRow rightRow condition.left ∧
          self.valueIn leftRow rightRow condition.left ≠ .null)) := by
  rw [matchesJoinCondition, joinColumnValue_eq hscope hleft hright hl, Exec.pure_bind,
    joinColumnValue_eq hscope hleft hright hr, Exec.pure_bind, Value.compare_equal]

end Typed

lemma joined_congr {test test' : QueryRow → QueryRow → Bool}
    (h : ∀ leftRow ∈ leftRows, ∀ rightRow ∈ rightRows, test leftRow rightRow = test' leftRow rightRow) :
    joined test leftRows rightRows = joined test' leftRows rightRows := by
  apply List.flatMap_congr
  intro leftRow hleft
  rw [List.filter_congr fun rightRow hright => h leftRow hleft rightRow hright]

lemma joined_nil {test : QueryRow → QueryRow → Bool} : joined test leftRows [] = [] := by
  simp [joined]

/-- Whether two rows meet the condition of their join. -/
def meets (self : Executor) (condition : BoundJoinCondition) (leftRow rightRow : QueryRow) : Bool :=
  decide (self.valueIn leftRow rightRow condition.right = self.valueIn leftRow rightRow condition.left ∧
    self.valueIn leftRow rightRow condition.left ≠ .null)

section Joined

variable {tables tables' : List BoundTable} {dataType : DataType}
  (hscope : Scope (tables ++ tables'))
  (hl : condition.left.IsIn self.database (tables ++ tables') dataType)
  (hr : condition.right.IsIn self.database (tables ++ tables') dataType)
  (hleft : ∀ row ∈ leftRows, row.IsFrom self.database tables)
  (hright : ∀ row ∈ rightRows, row.IsFrom self.database tables')

include hscope hl hr hleft hright

lemma nestedLoopJoin_joined :
    (self.nestedLoopJoin leftRows rightRows condition : Exec ExecutorError σ _) =
      pure (joined (self.meets condition) leftRows rightRows) :=
  nestedLoopJoin_eq fun l hlm r hrm =>
    matchesJoinCondition_eq hscope (hleft l hlm) (hright r hrm) hl hr

/-- The hash join returns the rows that meet the condition, whichever sides its columns belong to. -/
lemma hashJoin_joined :
    (self.hashJoin leftRows rightRows condition : Exec ExecutorError σ _) =
      pure (joined (self.meets condition) leftRows rightRows) := by
  have hnested := nestedLoopJoin_joined (σ := σ) hscope hl hr hleft hright
  have hvalue (tables : List BoundTable) (row : QueryRow) (c : BoundColumnReference)
      (hs : Scope tables) (hrow : row.IsFrom self.database tables)
      (hc : c.IsIn self.database tables dataType) :
      (self.columnValue row c : Exec ExecutorError σ _) = pure (self.valueOf row c) :=
    columnValue_eq hs hrow hc
  cases BoundColumnReference.isIn_append.mp hl with
  | inl hleftL =>
    have hprobe : ∀ row ∈ leftRows, ∃ column, hashJoinColumn row condition = some column ∧
        (self.columnValue row column : Exec ExecutorError σ _) =
          pure (self.valueOf row condition.left) := fun row hrow =>
      ⟨_, hashJoinColumn_left (hleft row hrow) hleftL,
        hvalue _ row _ hscope.left (hleft row hrow) hleftL⟩
    cases BoundColumnReference.isIn_append.mp hr with
    | inl hrightL =>
      -- both columns on the left: the right rows have none
      cases rightRows with
      | nil =>
        rw [hashJoin_eq (fun _ => .null) _ (by simp) hprobe, joined_nil, joined_nil]
      | cons row rightRows =>
        rw [hashJoin_of_right (fun r hrm =>
          hashJoinColumn_none hscope.swap (hright r hrm) hleftL hrightL) (List.cons_ne_nil _ _)]
        exact hnested
    | inr hrightR =>
      rw [hashJoin_eq (fun row => self.valueOf row condition.right) _ ?_ hprobe]
      · congr 1
        apply joined_congr
        intro l hlm r hrm
        rw [meets, valueIn_left (hleft l hlm) hleftL,
          valueIn_right hscope (hleft l hlm) hrightR]
      · intro row hrow
        exact ⟨_, hashJoinColumn_right hscope.swap (hright row hrow) hleftL hrightR,
          hvalue _ row _ hscope.swap.left (hright row hrow) hrightR⟩
  | inr hleftR =>
    have hbuild : ∀ row ∈ rightRows, ∃ column, hashJoinColumn row condition = some column ∧
        (self.columnValue row column : Exec ExecutorError σ _) =
          pure (self.valueOf row condition.left) := fun row hrow =>
      ⟨_, hashJoinColumn_left (hright row hrow) hleftR,
        hvalue _ row _ hscope.swap.left (hright row hrow) hleftR⟩
    cases BoundColumnReference.isIn_append.mp hr with
    | inl hrightL =>
      -- the condition is written the other way round
      rw [hashJoin_eq _ (fun row => self.valueOf row condition.right) hbuild ?_]
      · congr 1
        apply joined_congr
        intro l hlm r hrm
        rw [meets, valueIn_left (hleft l hlm) hrightL,
          valueIn_right hscope (hleft l hlm) hleftR]
        grind
      · intro row hrow
        exact ⟨_, hashJoinColumn_right hscope (hleft row hrow) hleftR hrightL,
          hvalue _ row _ hscope.left (hleft row hrow) hrightL⟩
    | inr hrightR =>
      -- both columns on the right: the left rows have none
      cases leftRows with
      | nil => exact hashJoin_eq _ (fun _ => .null) hbuild (by simp)
      | cons row leftRows =>
        rw [hashJoin_of_left hbuild (fun l hlm =>
          hashJoinColumn_none hscope (hleft l hlm) hleftR hrightR) (List.cons_ne_nil _ _)]
        exact hnested

end Joined

/-- The hash join and the nested loop return the same rows in the same order, whichever sides
the columns of the condition belong to. -/
theorem hashJoin_eq_nestedLoopJoin {left right : BoundFromClause} {on : JoinCondition}
    (hscope : Scope (collectTables left ++ collectTables right))
    (hbind : (Binder.mk self.database).bindJoinCondition left right on = .ok condition)
    (hleft : ∀ row ∈ leftRows, row.IsFrom self.database (collectTables left))
    (hright : ∀ row ∈ rightRows, row.IsFrom self.database (collectTables right)) :
    ∃ rows, (self.hashJoin leftRows rightRows condition : Exec ExecutorError σ _) = pure rows ∧
      (self.nestedLoopJoin leftRows rightRows condition : Exec ExecutorError σ _) = pure rows := by
  have ⟨dataType, hl, hr⟩ := Binder.bindJoinCondition_isIn hbind
  exact ⟨_, hashJoin_joined hscope hl hr hleft hright,
    nestedLoopJoin_joined hscope hl hr hleft hright⟩

/-- `FROM t a JOIN t b ON b.name = a.name`. -/
theorem hashJoin_eq_nestedLoopJoin_selfJoin :
    let leftRows : List QueryRow := [⟨[ledgerRow 0 0 7 .null "x"]⟩, ⟨[ledgerRow 0 1 8 .null "y"]⟩]
    let rightRows : List QueryRow := [⟨[ledgerRow 1 0 7 .null "x"]⟩, ⟨[ledgerRow 1 1 8 .null "y"]⟩]
    let condition : BoundJoinCondition := ⟨⟨⟨1⟩, ⟨1⟩, ⟨3⟩⟩, ⟨⟨1⟩, ⟨0⟩, ⟨3⟩⟩⟩
    ∃ rows, (hashJoin ⟨ledger⟩ leftRows rightRows condition : Exec ExecutorError Unit _) = pure rows ∧
      (nestedLoopJoin ⟨ledger⟩ leftRows rightRows condition : Exec ExecutorError Unit _) = pure rows := by
  intro leftRows rightRows condition
  have hbind : (Binder.mk ledger).bindJoinCondition (.table ⟨⟨1⟩, ⟨0⟩, some "a"⟩)
      (.table ⟨⟨1⟩, ⟨1⟩, some "b"⟩) ⟨⟨some "b", "name"⟩, ⟨some "a", "name"⟩⟩ = .ok condition := rfl
  have hleft : ∀ row ∈ leftRows, row.IsFrom ledger [⟨⟨1⟩, ⟨0⟩, some "a"⟩] := by
    intro row hrow
    simp only [leftRows, List.mem_cons, List.not_mem_nil, or_false] at hrow
    rcases hrow with rfl | rfl
    all_goals exact .cons (ledgerRow_isOf trivial) .nil
  have hright : ∀ row ∈ rightRows, row.IsFrom ledger [⟨⟨1⟩, ⟨1⟩, some "b"⟩] := by
    intro row hrow
    simp only [rightRows, List.mem_cons, List.not_mem_nil, or_false] at hrow
    rcases hrow with rfl | rfl
    all_goals exact .cons (ledgerRow_isOf trivial) .nil
  exact hashJoin_eq_nestedLoopJoin (by decide) hbind hleft hright

end Executor

end RdbRs
