import RdbRs.Database.Agreement
import RdbRs.Lib.Triple

/-!
# Index maintenance

A change of a row is followed by a round for each index of its table. A round brings its index in step
with the change and leaves the other indexes alone. None of them misses an entry.
-/

namespace RdbRs

def IndexError.IsEntryNotFound : IndexError → Prop
  | entryNotFound _ _ => True
  | _ => False

/-- The errors an index in step with its table may stop with. -/
def IndexError.Other (e : IndexError) : Prop := ¬ e.IsEntryNotFound

namespace IndexManager

variable {σ : Type} [Engine σ] {Shows : σ → Contents → Prop} {database : DatabaseMetadata}
  {catalog : Catalog} {c : Contents} {index : IndexMetadata} {on : IndexedColumn database index}
  {m : Multiset (BTreeKey × RowId)} {rows : RowId → Option Row} {tableId : TableId} {id : RowId}
  {row row' : Row} {v : Value} {k : BTreeKey}

/-! ### Entries -/

lemma openIndexBtree_succeeds {P : σ → Prop}
    (hregister : Exec.Succeeds P (Engine.registerRelation index.id) fun _ => P)
    (htype : v.HasType on.column.dataType) (hk : valueToBtreeKey v = some k) :
    Exec.Succeeds P (openIndexBtree index.id index.rootPageId k.keyType)
      (fun tree s => tree = on.tree ∧ P s) := by
  apply (hregister.mapErr IndexError.storage).bind
  intro _
  apply Exec.succeeds_pure
  intro s hs
  exact ⟨IndexedColumn.tree_eq htype hk, hs⟩

lemma registerRelation_succeeds (h : ReadLaws Shows) (hm : c.entries on.tree = some m) :
    Exec.Succeeds (Shows · c) (Engine.registerRelation index.id) fun _ => (Shows · c) := by
  intro s hs
  obtain ⟨s', hrun, hs'⟩ := h.registerRelation_ok hs hm rfl
  exact ⟨(), s', hrun, hs'⟩

/-- States by the entries of the tree of an index. The tree can be opened, and an insertion that succeeds adds
its entry. -/
structure Fills (on : IndexedColumn database index) (S : Multiset (BTreeKey × RowId) → σ → Prop) : Prop where
  opens {m : Multiset (BTreeKey × RowId)} :
    Exec.Succeeds (S m) (Engine.registerRelation index.id) fun _ => S m
  inserts {m : Multiset (BTreeKey × RowId)} {k : BTreeKey} {id : RowId} :
    Exec.Yields (S m) (Engine.insert on.tree k id) (fun _ => S ((k, id) ::ₘ m)) fun _ => True

lemma fills_withTree (h : Engine.Lawful Shows) (c : Contents) (on : IndexedColumn database index) :
    Fills on fun m s => Shows s (c.withTree on.tree m) where
  opens := registerRelation_succeeds h.reads Contents.entries_withTree_self
  inserts {m k id} := by
    intro s hs
    cases hrun : (Engine.insert on.tree k id).run s with
    | ok _ s' =>
      have hs' := h.trees.insert_ok hs Contents.entries_withTree_self hrun
      rwa [Contents.withTree_withTree] at hs'
    | err e s' => trivial
    | panic => trivial
    | diverge => trivial

/-- The index is in step with a new row. -/
lemma insertEntry_yields {S : Multiset (BTreeKey × RowId) → σ → Prop} (h : Fills on S)
    (hentries : EntriesOf on.key rows m) (hrow : rows id = none) (hv : on.value row = some v)
    (htype : v.HasType on.column.dataType) :
    Exec.Yields (S m) (insertEntry index v id)
      (fun _ s => ∃ m', S m' s ∧ EntriesOf on.key (Function.update rows id (some row)) m')
      IndexError.Other := by
  have hkey := IndexedColumn.key_eq hv
  unfold insertEntry
  split
  · next k hk =>
    apply (openIndexBtree_succeeds h.opens htype hk).yields.bind
    intro tree s hs
    rw [hs.1]
    apply (h.inserts.mapErr IndexError.btree IndexError.Other fun _ _ => not_false).imp (fun _ hs => hs) _ s hs.2
    exact fun _ s' hs' => ⟨_, hs', hentries.insert hrow (hkey.trans hk)⟩
  · next hk =>
    apply Exec.yields_pure
    exact fun s hs => ⟨m, hs, hentries.insert_none hrow (hkey.trans hk)⟩

/-- The index is in step without a row that was there. -/
lemma deleteEntry_yields (h : Engine.Lawful Shows) (hm : c.entries on.tree = some m)
    (hentries : EntriesOf on.key rows m) (hrow : rows id = some row) (hv : on.value row = some v)
    (htype : v.HasType on.column.dataType) :
    Exec.Yields (Shows · c) (deleteEntry index v id)
      (fun _ s => ∃ m', Shows s (c.withTree on.tree m') ∧
        EntriesOf on.key (Function.update rows id none) m') IndexError.Other := by
  have hkey := IndexedColumn.key_eq hv
  unfold deleteEntry
  split
  · next k hk =>
    apply (openIndexBtree_succeeds (registerRelation_succeeds h.reads hm) htype hk).yields.bind
    intro tree
    apply Exec.Yields.bind (Q := fun found s => found = true ∧ Shows s (c.withTree on.tree (m.erase (k, id))))
    · intro s hs
      rw [hs.1, Exec.run_mapErr]
      cases hrun : (Engine.delete on.tree k id).run s with
      | ok found s' =>
        -- the entry of a live row is there
        have ⟨hfound, hs'⟩ := h.trees.delete_ok hs.2 hm hrun
        exact ⟨hfound.mpr (hentries.mem hrow (hkey.trans hk)), hs'⟩
      | err e s' => exact not_false
      | panic => trivial
      | diverge => trivial
    · intro found s hs
      rw [hs.1]
      exact ⟨_, hs.2, hentries.erase hrow (hkey.trans hk)⟩
  · next hk =>
    apply Exec.yields_pure
    intro s hs
    refine ⟨m, ?_, hentries.erase_none hrow (hkey.trans hk)⟩
    rwa [Contents.withTree_self hm]

/-! ### Rounds -/

/-- The entries of the index are those of the rows, and nothing else has changed. -/
structure Changed (database : DatabaseMetadata) (index : IndexMetadata) (rows : RowId → Option Row)
    (c c' : Contents) : Prop where
  heap : c'.heap = c.heap
  tracks : Tracks database c' index rows
  others : ∀ tree, tree.relationId ≠ .index index.id → c'.entries tree = c.entries tree

lemma changed_withTree (h : EntriesOf on.key rows m) :
    Changed database index rows c (c.withTree on.tree m) where
  heap := rfl
  tracks := ⟨on, m, Contents.entries_withTree_self, h⟩
  others := by
    intro tree hne
    apply Contents.entries_withTree_of_ne
    intro heq
    rw [heq] at hne
    exact hne rfl

/-- The values are those of the row. -/
def Encodes (database : DatabaseMetadata) (tableId : TableId) (values : List Value) (row : Row) : Prop :=
  ∃ tableMeta, database.tableById tableId = some tableMeta ∧
    Tuple.encode values tableMeta.columns = .ok row

lemma Encodes.table {values : List Value} (h : Encodes database tableId values row) :
    ∃ tableMeta, database.tableById tableId = some tableMeta := by
  obtain ⟨tableMeta, htable, -⟩ := h
  exact ⟨tableMeta, htable⟩

lemma Encodes.isEncoded {values : List Value} (h : Encodes database tableId values row) :
    Executor.IsEncoded database tableId row := by
  have ⟨tableMeta, htable, hencode⟩ := h
  exact ⟨tableMeta, values, htable, hencode⟩

/-- The value a round looks at is the one of the row. -/
lemma Encodes.value_eq {values : List Value} (h : Encodes database index.tableId values row)
    (on : IndexedColumn database index) :
    ∃ v, values[on.position]? = some v ∧ on.value row = some v ∧ v.HasType on.column.dataType := by
  have ⟨v, hv, htype⟩ := on.value_of_encoded h.isEncoded
  have ⟨tableMeta, htable, hencode⟩ := h
  rw [on.table_eq] at htable
  cases htable
  refine ⟨v, ?_, hv, htype⟩
  rwa [IndexedColumn.value, Executor.decoded_of_encode hencode] at hv

lemma indexColumnPosition_eq (on : IndexedColumn catalog.metadata index) :
    catalog.indexColumnPosition index.tableId index.columnId = .ok on.position := by
  rw [Catalog.indexColumnPosition, Catalog.indexTable, on.table_eq]
  simp only [except_bind_ok, on.position_eq]

lemma insertIndex_yields {values : List Value} (h : Engine.Lawful Shows) (hrow : rows id = none)
    (hencodes : Encodes catalog.metadata index.tableId values row)
    (htracks : Tracks catalog.metadata c index rows) :
    Exec.Yields (Shows · c) (insertIndex catalog index.tableId id values index)
      (fun _ s => ∃ c', Shows s c' ∧
        Changed catalog.metadata index (Function.update rows id (some row)) c c') IndexError.Other := by
  have ⟨on, m, hm, hentries⟩ := htracks
  have ⟨v, hget, hv, htype⟩ := hencodes.value_eq on
  rw [insertIndex, indexColumnPosition_eq on, Exec.liftExcept_ok, Exec.mapErr_pure, Exec.pure_bind,
    Exec.index_eq hget, Exec.pure_bind]
  apply (insertEntry_yields (fills_withTree h c on) hentries hrow hv htype).imp
  · intro s hs
    rwa [Contents.withTree_self hm]
  · rintro _ s ⟨m', hs', hentries'⟩
    exact ⟨_, hs', changed_withTree hentries'⟩

lemma deleteIndex_yields {values : List Value} (h : Engine.Lawful Shows) (hrow : rows id = some row)
    (hencodes : Encodes catalog.metadata index.tableId values row)
    (htracks : Tracks catalog.metadata c index rows) :
    Exec.Yields (Shows · c) (deleteIndex catalog index.tableId id values index)
      (fun _ s => ∃ c', Shows s c' ∧
        Changed catalog.metadata index (Function.update rows id none) c c') IndexError.Other := by
  have ⟨on, m, hm, hentries⟩ := htracks
  have ⟨v, hget, hv, htype⟩ := hencodes.value_eq on
  rw [deleteIndex, indexColumnPosition_eq on, Exec.liftExcept_ok, Exec.mapErr_pure, Exec.pure_bind,
    Exec.index_eq hget, Exec.pure_bind]
  apply (deleteEntry_yields h hm hentries hrow hv htype).imp fun _ hs => hs
  intro _ s hs
  have ⟨m', hs', hentries'⟩ := hs
  exact ⟨_, hs', changed_withTree hentries'⟩

/-- A round of an update removes the old entry and adds the new one, unless the value stays. -/
lemma updateIndex_yields {oldValues newValues : List Value} (h : Engine.Lawful Shows)
    (hrow : rows id = some row) (hold : Encodes catalog.metadata index.tableId oldValues row)
    (hnew : Encodes catalog.metadata index.tableId newValues row')
    (htracks : Tracks catalog.metadata c index rows) :
    Exec.Yields (Shows · c) (updateIndex catalog index.tableId id oldValues newValues index)
      (fun _ s => ∃ c', Shows s c' ∧
        Changed catalog.metadata index (Function.update rows id (some row')) c c') IndexError.Other := by
  have ⟨on, m, hm, hentries⟩ := htracks
  have ⟨v, hget, hv, htype⟩ := hold.value_eq on
  have ⟨v', hget', hv', htype'⟩ := hnew.value_eq on
  rw [updateIndex, indexColumnPosition_eq on, Exec.liftExcept_ok, Exec.mapErr_pure, Exec.pure_bind,
    Exec.index_eq hget, Exec.pure_bind, Exec.index_eq hget', Exec.pure_bind]
  by_cases hne : v ≠ v'
  · rw [if_pos hne]
    apply (deleteEntry_yields h hm hentries hrow hv htype).bind
    intro _ s hs
    have ⟨m₁, hs₁, hentries₁⟩ := hs
    have hinsert := insertEntry_yields (fills_withTree h c on) hentries₁ (Function.update_self ..) hv' htype'
    apply hinsert.imp (fun _ hs => hs) _ s hs₁
    intro _ s' hs'
    have ⟨m₂, hs₂, hentries₂⟩ := hs'
    rw [Function.update_idem] at hentries₂
    exact ⟨_, hs₂, changed_withTree hentries₂⟩
  · rw [if_neg hne]
    rw [not_not.mp hne] at hv
    apply Exec.yields_pure
    intro s hs
    have hkey : on.key row' = on.key row := by
      rw [IndexedColumn.key_eq hv, IndexedColumn.key_eq hv']
    rw [← Contents.withTree_self hm] at hs
    exact ⟨_, hs, changed_withTree (hentries.replace hrow hkey)⟩

/-! ### Loops -/

section Loops

variable {rows' : RowId → Option Row} {heap : TableId → RowId → Option Row}
  {f : IndexMetadata → Exec IndexError σ PUnit}

omit [Engine σ] in
/-- The rounds for indexes with distinct ids do not meet. -/
lemma forM_yields {l : List IndexMetadata} (hnodup : (l.map fun index => index.id).Nodup)
    (hround : ∀ index ∈ l, ∀ c, Tracks database c index rows → Exec.Yields (Shows · c) (f index)
      (fun _ s => ∃ c', Shows s c' ∧ Changed database index rows' c c') IndexError.Other)
    (htracks : ∀ index ∈ l, Tracks database c index rows) :
    Exec.Yields (Shows · c) (l.forM f) (fun _ s => ∃ c', Shows s c' ∧ c'.heap = c.heap ∧
      (∀ index ∈ l, Tracks database c' index rows') ∧
        ∀ tree, (∀ index ∈ l, tree.relationId ≠ .index index.id) → c'.entries tree = c.entries tree)
      IndexError.Other := by
  induction l generalizing c with
  | nil =>
    apply Exec.yields_pure
    intro s hs
    exact ⟨c, hs, rfl, by simp, fun _ _ => rfl⟩
  | cons a l ih =>
    rw [List.map_cons, List.nodup_cons] at hnodup
    have hne : ∀ index ∈ l, index.id ≠ a.id :=
      fun index hindex heq => hnodup.1 (List.mem_map.mpr ⟨index, hindex, heq⟩)
    rw [Exec.forM_cons]
    apply (hround a List.mem_cons_self c (htracks a List.mem_cons_self)).bind
    intro _ s hs
    have ⟨c₁, hs₁, hchanged⟩ := hs
    have hlater : ∀ index ∈ l, Tracks database c₁ index rows := by
      intro index hindex
      apply (htracks index (List.mem_cons_of_mem a hindex)).congr
      intro tree htree
      apply hchanged.others
      rw [htree]
      intro heq
      exact hne index hindex (RelationId.index.inj heq)
    have hrest := ih hnodup.2 (fun index hindex => hround index (List.mem_cons_of_mem a hindex)) hlater
    apply hrest.imp (fun _ hs => hs) _ s hs₁
    intro _ s' hs'
    have ⟨c₂, hs₂, hheap, htracks₂, hothers⟩ := hs'
    refine ⟨c₂, hs₂, hheap.trans hchanged.heap, ?_, ?_⟩
    · intro index hindex
      cases List.mem_cons.mp hindex with
      | inl heq =>
        rw [heq]
        apply hchanged.tracks.congr
        intro tree htree
        apply hothers
        intro index' hindex'
        rw [htree]
        intro heq'
        exact hne index' hindex' (RelationId.index.inj heq').symm
      | inr hmem => exact htracks₂ index hmem
    · intro tree htree
      rw [hothers tree fun index hindex => htree index (List.mem_cons_of_mem a hindex),
        hchanged.others tree (htree a List.mem_cons_self)]

omit [Engine σ] in
/-- A change of the rows of a table brings the indexes of the table in step. -/
lemma indexes_yields {tableMeta : TableMetadata}
    (htable : catalog.metadata.tableById tableId = some tableMeta)
    (hround : ∀ index, index.tableId = tableId → ∀ c, Tracks catalog.metadata c index (heap tableId) →
      Exec.Yields (Shows · c) (f index)
        (fun _ s => ∃ c', Shows s c' ∧ Changed catalog.metadata index rows' c c') IndexError.Other)
    (htracks : AllTrack catalog.metadata c heap) :
    Exec.Yields (Shows · c)
      (Exec.mapErr .catalog (Exec.liftExcept (catalog.indexTable tableId)) >>= fun table =>
        (indexesOf catalog table).forM f)
      (fun _ s => ∃ c', Shows s c' ∧ c'.heap = c.heap ∧
        AllTrack catalog.metadata c' (Function.update heap tableId rows')) IndexError.Other := by
  have hindexTable : catalog.indexTable tableId = .ok tableMeta := by
    rw [Catalog.indexTable, htable]
  have hmem {index : IndexMetadata} : index ∈ indexesOf catalog tableMeta ↔
      index ∈ catalog.metadata.indexes ∧ index.tableId = tableId := by
    rw [indexesOf, List.mem_filter, Binder.tableById_id htable, decide_eq_true_iff]
  have hnodup := catalog.metadata.consistent.indexIds
  have hloop := forM_yields
    (hnodup.sublist (List.filter_sublist.map _) : ((indexesOf catalog tableMeta).map _).Nodup)
    (fun index hindex => hround index (hmem.mp hindex).2)
    (fun index hindex => (hmem.mp hindex).2 ▸ htracks index (hmem.mp hindex).1)
  rw [hindexTable, Exec.liftExcept_ok, Exec.mapErr_pure, Exec.pure_bind]
  apply hloop.imp fun _ hs => hs
  intro _ s hs
  have ⟨c', hs', hheap, htracks', hothers⟩ := hs
  refine ⟨c', hs', hheap, ?_⟩
  intro index hindex
  by_cases hid : index.tableId = tableId
  · rw [hid, Function.update_self]
    exact htracks' index (hmem.mpr ⟨hindex, hid⟩)
  · rw [Function.update_of_ne hid]
    apply (htracks index hindex).congr
    intro tree htree
    apply hothers
    intro index' hindex'
    rw [htree]
    intro heq
    have hsame : index = index' :=
      List.inj_on_of_nodup_map hnodup hindex (hmem.mp hindex').1 (RelationId.index.inj heq)
    rw [hsame] at hid
    exact hid (hmem.mp hindex').2

end Loops

lemma insertRow_yields {values : List Value} {heap : TableId → RowId → Option Row}
    (h : Engine.Lawful Shows) (hrow : heap tableId id = none)
    (hencodes : Encodes catalog.metadata tableId values row)
    (htracks : AllTrack catalog.metadata c heap) :
    Exec.Yields (Shows · c) (insertRow catalog tableId id values)
      (fun _ s => ∃ c', Shows s c' ∧ c'.heap = c.heap ∧ AllTrack catalog.metadata c'
        (Function.update heap tableId (Function.update (heap tableId) id (some row)))) IndexError.Other := by
  have ⟨tableMeta, htable, _⟩ := hencodes
  apply indexes_yields htable _ htracks
  intro index hid c htracks
  cases hid
  exact insertIndex_yields h hrow hencodes htracks

lemma deleteRow_yields {values : List Value} {heap : TableId → RowId → Option Row}
    (h : Engine.Lawful Shows) (hrow : heap tableId id = some row)
    (hencodes : Encodes catalog.metadata tableId values row)
    (htracks : AllTrack catalog.metadata c heap) :
    Exec.Yields (Shows · c) (deleteRow catalog tableId id values)
      (fun _ s => ∃ c', Shows s c' ∧ c'.heap = c.heap ∧ AllTrack catalog.metadata c'
        (Function.update heap tableId (Function.update (heap tableId) id none))) IndexError.Other := by
  have ⟨tableMeta, htable, _⟩ := hencodes
  apply indexes_yields htable _ htracks
  intro index hid c htracks
  cases hid
  exact deleteIndex_yields h hrow hencodes htracks

lemma updateRow_yields {oldValues newValues : List Value} {heap : TableId → RowId → Option Row}
    (h : Engine.Lawful Shows) (hrow : heap tableId id = some row)
    (hold : Encodes catalog.metadata tableId oldValues row)
    (hnew : Encodes catalog.metadata tableId newValues row')
    (htracks : AllTrack catalog.metadata c heap) :
    Exec.Yields (Shows · c) (updateRow catalog tableId id oldValues newValues)
      (fun _ s => ∃ c', Shows s c' ∧ c'.heap = c.heap ∧ AllTrack catalog.metadata c'
        (Function.update heap tableId (Function.update (heap tableId) id (some row')))) IndexError.Other := by
  have ⟨tableMeta, htable, _⟩ := hold
  apply indexes_yields htable _ htracks
  intro index hid c htracks
  cases hid
  exact updateIndex_yields h hrow hold hnew htracks

/-! ### Lookups -/

/-- Typed values are equal in a comparison when they have one key. -/
lemma key_eq_some_iff (hk : valueToBtreeKey v = some k) :
    on.key row = some k ↔ ∃ w, on.value row = some w ∧ w.compare .equal v := by
  rw [IndexedColumn.key, Option.bind_eq_some_iff]
  have hnull : v ≠ .null := by
    intro heq
    rw [heq] at hk
    cases hk
  constructor
  · rintro ⟨w, hw, hkey⟩
    refine ⟨w, hw, ?_⟩
    rw [valueToBtreeKey_injective hkey hk, Value.compare_equal]
    simp [hnull]
  · rintro ⟨w, hw, hequal⟩
    rw [Value.compare_equal, decide_eq_true_iff] at hequal
    rw [hequal.1] at hk
    exact ⟨w, hw, hk⟩

/-- A search finds the rows whose value is equal to the given one, each of them once. -/
lemma searchRowIds_succeeds (h : ReadLaws Shows) (hm : c.entries on.tree = some m)
    (hentries : EntriesOf on.key rows m) (htype : v.HasType on.column.dataType) :
    Exec.Succeeds (Shows · c) (searchRowIds index v) fun ids s => (ids.Nodup ∧
      ∀ id, id ∈ ids ↔ ∃ row, rows id = some row ∧ ∃ w, on.value row = some w ∧ w.compare .equal v) ∧
        Shows s c := by
  unfold searchRowIds
  split
  · next k hk =>
    apply (openIndexBtree_succeeds (registerRelation_succeeds h hm) htype hk).bind
    intro tree s hs
    have hkeyType : k.keyType = on.tree.keyType := keyType_of_hasType htype hk on.keyType_eq
    have ⟨ids, s', hrun, hs', hids⟩ := h.search_ok hs.2 hm hkeyType
    refine ⟨ids, s', by rw [hs.1, Exec.run_mapErr, hrun, Outcome.mapErr_ok], ?_, hs'⟩
    have ⟨hnodup, hmem⟩ := hentries.lookup hids
    apply And.intro hnodup
    intro id
    rw [hmem]
    apply exists_congr
    intro row
    rw [key_eq_some_iff hk]
  · next hk =>
    -- no row is equal to `NULL`
    rw [valueToBtreeKey_eq_none.mp hk]
    apply Exec.succeeds_pure
    intro s hs
    refine ⟨⟨List.nodup_nil, ?_⟩, hs⟩
    intro id
    simp [Value.compare]

/-! ### Backfill -/

/-- The pairs the first loop of `backfill` collects. -/
def backfillEntries (on : IndexedColumn database index) (live : List (RowId × Row)) : List (Value × RowId) :=
  live.map fun e => ((on.value e.2).getD .null, e.1)

omit [Engine σ] in
lemma backfillEntries_eq {live : List (RowId × Row)}
    (hencoded : ∀ e ∈ live, Executor.IsEncoded database index.tableId e.2) :
    (live.foldlM (backfillEntry on.tableMeta on.position) [] : Exec IndexError σ _) =
      pure (backfillEntries on live) := by
  have hround (acc : List (Value × RowId)) (e : RowId × Row) (he : e ∈ live) :
      (backfillEntry on.tableMeta on.position acc e : Exec IndexError σ _) =
        pure (acc ++ [((on.value e.2).getD .null, e.1)]) := by
    have ⟨v, hv, _⟩ := on.value_of_encoded (hencoded e he)
    have ⟨tableMeta, values, htable, hencode⟩ := hencoded e he
    rw [on.table_eq] at htable
    cases htable
    rw [hv, Option.getD_some]
    rw [IndexedColumn.value, Executor.decoded_of_encode hencode] at hv
    rw [backfillEntry, Executor.decode_eq_pure hencode, Exec.mapErr_pure, Exec.pure_bind, Exec.index_eq hv, Exec.pure_bind]
  rw [Exec.foldlM_push hround, List.nil_append, ← List.map_eq_flatMap, backfillEntries]

/-- The second loop of `backfill`: the entries so far are those of the rows that are done. -/
lemma insertEntries_yields {S : Multiset (BTreeKey × RowId) → σ → Prop} (h : Fills on S)
    {live : List (RowId × Row)} (hnodup : live.Nodup) (hlive : ∀ e, e ∈ live ↔ rows e.1 = some e.2)
    (hencoded : ∀ e ∈ live, Executor.IsEncoded database index.tableId e.2) :
    Exec.Yields (S 0) ((backfillEntries on live).forM fun entry => insertEntry index entry.1 entry.2)
      (fun _ s => ∃ m, S m s ∧ EntriesOf on.key rows m) IndexError.Other := by
  let P (done _ : List (RowId × Row)) (s : σ) : Prop := ∃ m p, S m s ∧ EntriesOf on.key p m ∧
    ∀ id row, p id = some row ↔ (id, row) ∈ done
  have hloop : Exec.Yields (P [] live)
      (live.forM fun e => insertEntry index ((on.value e.2).getD .null) e.1) (fun _ => P live [])
      IndexError.Other := by
    apply Exec.yields_forM
    intro done e rest hsplit
    have hmem : e ∈ live := by
      rw [hsplit]
      simp
    have ⟨v, hv, htype⟩ := on.value_of_encoded (hencoded e hmem)
    rw [hv, Option.getD_some]
    apply Exec.yields_exists
    intro m
    apply Exec.yields_exists
    intro p s hs
    have ⟨hs, hentries, hdone⟩ := hs
    have hnew : p e.1 = none := by
      apply Option.eq_none_iff_forall_ne_some.mpr
      intro row hrow
      have hin := (hdone _ _).mp hrow
      have hrow' : rows e.1 = some row := (hlive (e.1, row)).mp (by rw [hsplit]; simp [hin])
      rw [(hlive e).mp hmem] at hrow'
      cases hrow'
      rw [hsplit] at hnodup
      exact (List.nodup_append.mp hnodup).2.2 e hin e List.mem_cons_self rfl
    apply (insertEntry_yields h hentries hnew hv htype).imp (fun _ hs => hs) _ s hs
    intro _ s' hs'
    have ⟨m', hs', hentries'⟩ := hs'
    refine ⟨m', _, hs', hentries', ?_⟩
    intro id row
    rw [List.mem_append, List.mem_singleton]
    by_cases heq : id = e.1
    · rw [heq, Function.update_self, ← hdone, hnew]
      simp [Prod.ext_iff, eq_comm]
    · rw [Function.update_of_ne heq, hdone]
      simp [Prod.ext_iff, heq]
  rw [backfillEntries, Exec.forM_map]
  apply hloop.imp
  · intro s hs
    exact ⟨0, fun _ => none, hs, entriesOf_empty, by simp⟩
  · intro _ s hs
    have ⟨m, p, hs, hentries, hdone⟩ := hs
    have hrows : p = rows := by
      funext id
      apply Option.ext
      intro row
      rw [hdone, hlive]
    exact ⟨m, hs, hrows ▸ hentries⟩

/-- A new index is filled with the entries of the rows of its table. -/
lemma backfill_yields {on : IndexedColumn catalog.metadata index}
    {S : Multiset (BTreeKey × RowId) → σ → Prop} (h : Fills on S)
    (hscan : Exec.Succeeds (S 0) (Engine.scanRows index.tableId) fun live s =>
      (live.Nodup ∧ ∀ e, e ∈ live ↔ rows e.1 = some e.2) ∧ S 0 s)
    (hencoded : ∀ id row, rows id = some row → Executor.IsEncoded catalog.metadata index.tableId row) :
    Exec.Yields (S 0) (backfill catalog index) (fun _ s => ∃ m, S m s ∧ EntriesOf on.key rows m)
      IndexError.Other := by
  unfold backfill
  apply ((hscan.mapErr IndexError.table).yields).bind_of
  intro live hlive
  have hrows : ∀ e ∈ live, Executor.IsEncoded catalog.metadata index.tableId e.2 :=
    fun e he => hencoded e.1 e.2 ((hlive.2 e).mp he)
  have htable : catalog.indexTable index.tableId = .ok on.tableMeta := by
    rw [Catalog.indexTable, on.table_eq]
  rw [htable, Exec.liftExcept_ok, Exec.mapErr_pure, Exec.pure_bind, Binder.tableById_id on.table_eq,
    indexColumnPosition_eq on, Exec.liftExcept_ok, Exec.mapErr_pure, Exec.pure_bind,
    backfillEntries_eq hrows, Exec.pure_bind]
  exact insertEntries_yields h hlive.1 hlive.2 hrows

/-- A scan of a table of the contents. -/
lemma scanRows_succeeds (h : ReadLaws Shows) (hheap : c.heap tableId = some rows) :
    Exec.Succeeds (Shows · c) (Engine.scanRows tableId) fun live s =>
      (live.Nodup ∧ ∀ e, e ∈ live ↔ rows e.1 = some e.2) ∧ Shows s c := by
  intro s hs
  obtain ⟨live, s', hrun, hs', hnodup, hmem⟩ := h.scanRows_ok hs hheap
  exact ⟨live, s', hrun, ⟨hnodup, fun e => hmem e.1 e.2⟩, hs'⟩

lemma indexedColumn_of {dataType : DataType} {keyType : BTreeKeyType}
    (h : catalog.indexColumnDataType index.tableId index.columnId = .ok dataType)
    (hkeyType : BTreeKeyType.tryFrom dataType = some keyType) :
    ∃ on : IndexedColumn catalog.metadata index, on.keyType = keyType := by
  unfold Catalog.indexColumnDataType at h
  split at h
  · cases h
  · next tableMeta htable =>
    split at h
    · next column hcolumn =>
      cases h
      have ⟨i, hi, hget⟩ := columnIndex_of_columnById hcolumn
      exact ⟨⟨tableMeta, i, column, keyType, htable, hi, hget, hkeyType⟩, rfl⟩
    · cases h

lemma createIndexBtree_yields (h : TreeLaws Shows) {indexId : IndexId} {dataType : DataType} :
    Exec.Yields (Shows · c) (createIndexBtree indexId dataType)
      (fun root s => ∃ c', Shows s c' ∧ ∃ keyType, BTreeKeyType.tryFrom dataType = some keyType ∧
        c' = c.withTree (BTree.open' indexId root keyType) 0) IndexError.Other := by
  unfold createIndexBtree
  split
  · exact Exec.yields_throw not_false
  · next keyType hkeyType =>
    intro s hs
    rw [Exec.run_bind, Exec.run_mapErr]
    cases hrelation : (Engine.createRelation indexId).run s with
    | ok _ s₁ =>
      rw [Outcome.mapErr_ok, Outcome.andThen_ok, Exec.run_bind, Exec.run_mapErr]
      cases htree : (Engine.createTree indexId keyType).run s₁ with
      | ok tree s₂ =>
        have ⟨hid, htype, hs₂⟩ := h.createTree_ok (h.createRelation_ok hs hrelation) htree
        have heq : BTree.open' indexId tree.rootPageId keyType = tree := by
          rw [BTree.open', ← hid, ← htype]
        exact ⟨_, hs₂, keyType, hkeyType, by rw [heq]⟩
      | err e s₂ => exact not_false
      | panic => trivial
      | diverge => trivial
    | err e s₁ => exact not_false
    | panic => trivial
    | diverge => trivial

end IndexManager

end RdbRs
