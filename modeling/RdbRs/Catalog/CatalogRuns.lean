import RdbRs.Catalog.Catalog
import RdbRs.Catalog.MetadataCodec

/-!
# Runs of the catalog

The catalog changes its metadata before it encodes them. A call whose table or index has no
encoding therefore leaves metadata in memory that the file does not hold; `AllMeet` excludes
these calls and no others.
-/

namespace RdbRs

open Catalog

/-! ### Loading and saving -/

/-- The file holds the metadata, and nothing after it. -/
def Loads (file : List UInt8) (m : DatabaseMetadata) : Prop :=
  (DatabaseMetadata.fromBytes file).run file = .ok (m, file.length) file

section Loads

variable {file bytes : List UInt8} {m : DatabaseMetadata}

lemma Loads.ne_nil (h : Loads file m) : file ≠ [] := by
  intro hnil
  rw [hnil] at h
  cases h

/-- Metadata that were loaded have an encoding. -/
lemma Loads.toBytes_ok (h : Loads file m) : ∃ bytes, m.toBytes = .ok bytes := by
  cases (DatabaseMetadata.toBytes_of_fromBytes h).2 with
  | inl hwhole => exact ⟨_, hwhole⟩
  | inr holder => exact ⟨_, holder.2.2⟩

lemma loads_of_toBytes (h : m.toBytes = .ok bytes) : Loads bytes m := by
  have hread := DatabaseMetadata.fromBytes_toBytes h [] bytes
  rwa [List.append_nil] at hread

lemma run_load (hfile : file ≠ []) : (load file : Exec CatalogError (List UInt8) _).run file =
    (((DatabaseMetadata.fromBytes file).run file).mapErr .schema).andThen fun p s =>
      if p.2 ≠ file.length then .err .trailingCatalogBytes s else .ok (some p.1) s := by
  rw [load, if_neg hfile, Exec.run_bind, Exec.run_mapErr]
  congr 1
  funext p s
  simp only [Exec.run_ite, Exec.run_throw, Exec.run_pure]

lemma load_of_loads (h : Loads file m) :
    (load file : Exec CatalogError (List UInt8) _).run file = .ok (some m) file := by
  rw [run_load h.ne_nil, h]
  simp

/-- Loading a file that is not empty finds its metadata or fails, and changes nothing. -/
lemma load_cases (hfile : file ≠ []) :
    (∃ m, Loads file m) ∨
      ∃ e, (load file : Exec CatalogError (List UInt8) _).run file = .err e file := by
  rw [run_load hfile]
  cases DatabaseMetadata.fromBytes_returns file file with
  | inl hok =>
    have ⟨⟨m, n⟩, hm⟩ := hok
    by_cases hn : n = file.length
    · subst hn
      exact .inl ⟨m, hm⟩
    · refine .inr ⟨.trailingCatalogBytes, ?_⟩
      rw [hm, Outcome.mapErr_ok, Outcome.andThen_ok, if_pos hn]
  | inr herr =>
    have ⟨e, he⟩ := herr
    rw [he]
    exact .inr ⟨_, rfl⟩

lemma run_save_ok (h : m.toBytes = .ok bytes) : save.run ⟨file, m⟩ = .ok () ⟨bytes, m⟩ := by
  simp only [save, Exec.run_bind, Exec.run_mapErr, Exec.run_query, h]
  rfl

lemma run_save_err {e : SchemaError} (h : m.toBytes = .error e) :
    save.run ⟨file, m⟩ = .err (.schema e) ⟨file, m⟩ := by
  simp only [save, Exec.run_bind, Exec.run_mapErr, Exec.run_query, h]
  rfl

lemma run_openCatalog_of_loads (h : Loads file m) (databaseName : String) :
    (openCatalog databaseName).run file = .ok m file := by
  simp only [openCatalog, Exec.run_bind, Exec.run_gets, Outcome.andThen_ok, id_eq, load_of_loads h]
  rfl

/-- Opening a missing or empty file. -/
lemma run_openCatalog_nil (databaseName : String) :
    (openCatalog databaseName).run [] =
      if (utf8Bytes databaseName).length ≤ u16Max then
        .ok ⟨databaseName, [], [], .empty⟩ (DatabaseMetadata.head databaseName 0 ++ [0, 0])
      else .err (.schema (.databaseNameTooLong (utf8Bytes databaseName).length)) [] := by
  have hload : (load [] : Exec CatalogError (List UInt8) _).run [] = .ok none [] := rfl
  have hnew : DatabaseMetadata.new databaseName [] [] = .ok ⟨databaseName, [], [], .empty⟩ := rfl
  simp only [openCatalog, Exec.run_bind, Exec.run_gets, Outcome.andThen_ok, id_eq, hload, hnew,
    Exec.run_mapErr, Exec.run_liftExcept, Outcome.mapErr_ok, Exec.run_zoom]
  split
  · next hlen =>
    have hbytes : (⟨databaseName, [], [], .empty⟩ : DatabaseMetadata).toBytes =
        .ok (DatabaseMetadata.head databaseName 0 ++ [0, 0]) := by
      apply DatabaseMetadata.toBytes_eq_ok.mpr
      exact ⟨hlen, Nat.zero_le _, Nat.zero_le _, [], [], rfl, rfl, by simp; decide⟩
    rw [run_save_ok hbytes]
    rfl
  · next hlen =>
    have hrefused : (⟨databaseName, [], [], .empty⟩ : DatabaseMetadata).toBytes =
        .error (.databaseNameTooLong (utf8Bytes databaseName).length) := by
      simp only [DatabaseMetadata.toBytes, u16TryFrom, if_neg hlen]
      rfl
    rw [run_save_err hrefused]
    rfl

/-- Opening a catalog that fails changes nothing on disk; what a catalog holds once opened is
what the file holds. -/
lemma openCatalog_cases (file : List UInt8) (databaseName : String) :
    (∃ m file', (openCatalog databaseName).run file = .ok m file' ∧ Loads file' m) ∨
      ∃ e, (openCatalog databaseName).run file = .err e file := by
  by_cases hfile : file = []
  · rw [hfile, run_openCatalog_nil]
    split
    · next hlen =>
      refine .inl ⟨_, _, rfl, loads_of_toBytes (DatabaseMetadata.toBytes_eq_ok.mpr ?_)⟩
      exact ⟨hlen, Nat.zero_le _, Nat.zero_le _, [], [], rfl, rfl, by simp; decide⟩
    · exact .inr ⟨_, rfl⟩
  · cases load_cases hfile with
    | inl hloads =>
      have ⟨m, hm⟩ := hloads
      exact .inl ⟨m, file, run_openCatalog_of_loads hm databaseName, hm⟩
    | inr herr =>
      have ⟨e, he⟩ := herr
      refine .inr ⟨e, ?_⟩
      simp only [openCatalog, Exec.run_bind, Exec.run_gets, Outcome.andThen_ok, id_eq, he]
      rfl

/-- Reopening gives the metadata back exactly when the file holds them. -/
lemma loads_iff_reopens :
    Loads file m ↔ ∀ databaseName, (openCatalog databaseName).run file = .ok m file := by
  constructor
  · exact run_openCatalog_of_loads
  · intro h
    cases openCatalog_cases file "" with
    | inl hok =>
      have ⟨m', file', hrun, hloads⟩ := hok
      cases hrun.symm.trans (h "")
      exact hloads
    | inr herr =>
      have ⟨e, he⟩ := herr
      cases he.symm.trans (h "")

end Loads

/-! ### What has an encoding -/

/-- A table whose name, columns and column names fit their `u16` lengths. -/
def TableEncodable (name : String) (columns : List (String × DataType)) : Prop :=
  (utf8Bytes name).length ≤ u16Max ∧ columns.length ≤ u16Max ∧
    ∀ column ∈ columns, (utf8Bytes column.1).length ≤ u16Max

section Encodable

variable {m m' : DatabaseMetadata} {name : String} {columns : List (String × DataType)}

lemma length_columnMetadatas : (columnMetadatas columns).length = columns.length := by
  rw [columnMetadatas, List.length_map, List.length_zipIdx]

lemma names_columnMetadatas :
    (columnMetadatas columns).map (fun column => column.name) = columns.map Prod.fst := by
  rw [columnMetadatas, List.map_map]
  conv_rhs => rw [← List.zipIdx_map_fst 1 columns, List.map_map]
  rfl

lemma forall_columnMetadatas {P : String → Prop} :
    (∀ column ∈ columns, P column.1) ↔ ∀ column ∈ columnMetadatas columns, P column.name := by
  calc (∀ column ∈ columns, P column.1)
      ↔ ∀ text ∈ columns.map Prod.fst, P text := List.forall_mem_map.symm
    _ ↔ ∀ text ∈ (columnMetadatas columns).map (fun column => column.name), P text := by
      rw [names_columnMetadatas]
    _ ↔ ∀ column ∈ columnMetadatas columns, P column.name := List.forall_mem_map

/-- Fewer columns than there are numbers are numbered apart. -/
lemma ids_columnMetadatas (h : columns.length < 2 ^ 32 - 1) :
    ((columnMetadatas columns).map fun column => column.id).Nodup := by
  have hids : (columnMetadatas columns).map (fun column => column.id) =
      (columns.zipIdx 1).map fun p => (⟨UInt32.ofNat p.2⟩ : ColumnId) := by
    rw [columnMetadatas, List.map_map]
    rfl
  have hrange : (columns.zipIdx 1).map (fun p => (⟨UInt32.ofNat p.2⟩ : ColumnId)) =
      (List.range' 1 columns.length).map fun i => ⟨UInt32.ofNat i⟩ := by
    rw [← List.zipIdx_map_snd 1 columns, List.map_map]
    rfl
  rw [hids, hrange]
  apply List.Nodup.map_on _ List.nodup_range'
  intro i hi j hj heq
  have hi := List.mem_range'_1.mp hi
  have hj := List.mem_range'_1.mp hj
  have htoNat := congrArg (fun c : ColumnId => c.id.toNat) heq
  simp only at htoNat
  rwa [UInt32.toNat_ofNat_of_lt' (by show i < 2 ^ 32; omega),
    UInt32.toNat_ofNat_of_lt' (by show j < 2 ^ 32; omega)] at htoNat

lemma tableEncodable_iff {table : TableMetadata} (hname : table.name = name)
    (hcolumns : table.columns = columnMetadatas columns) :
    (∃ bytes, table.toBytes = .ok bytes) ↔ TableEncodable name columns := by
  have hwritten : (∃ bytes, writeMany ColumnMetadata.toBytes (columnMetadatas columns) = .ok bytes) ↔
      ∀ column ∈ columns, (utf8Bytes column.1).length ≤ u16Max := by
    rw [forall_columnMetadatas (P := fun text => (utf8Bytes text).length ≤ u16Max)]
    constructor
    · intro ⟨bytes, hbytes⟩ column hcolumn
      have ⟨first, hfirst⟩ := write_ok_of_writeMany hbytes column hcolumn
      exact (ColumnMetadata.toBytes_eq_ok.mp hfirst).1
    · intro h
      apply writeMany_ok
      intro column hcolumn
      exact ⟨_, ColumnMetadata.toBytes_eq_ok.mpr ⟨h column hcolumn, rfl⟩⟩
  constructor
  · intro ⟨bytes, hbytes⟩
    have ⟨hlen, hcount, columnBytes, hmany, _⟩ := TableMetadata.toBytes_eq_ok.mp hbytes
    rw [hname] at hlen
    rw [hcolumns] at hcount hmany
    exact ⟨hlen, length_columnMetadatas ▸ hcount, hwritten.mp ⟨columnBytes, hmany⟩⟩
  · intro ⟨hlen, hcount, hcolumnNames⟩
    have ⟨columnBytes, hmany⟩ := hwritten.mpr hcolumnNames
    refine ⟨_, TableMetadata.toBytes_eq_ok.mpr ⟨?_, ?_, columnBytes, ?_, rfl⟩⟩
    · rwa [hname]
    · rwa [hcolumns, length_columnMetadatas]
    · rwa [hcolumns]

/-- Metadata with an encoding and a table more have one when the table does. -/
lemma toBytes_addTable_iff {table : TableMetadata} (hm : ∃ bytes, m.toBytes = .ok bytes)
    (hcount : m.tables.length < u16Max) (hadd : m.addTable table = .ok m') :
    (∃ bytes, m'.toBytes = .ok bytes) ↔ ∃ bytes, table.toBytes = .ok bytes := by
  have ⟨bytes, hbytes⟩ := hm
  have ⟨hname, _, hindexCount, tableBytes, indexBytes, htables, hindexes, _⟩ :=
    DatabaseMetadata.toBytes_eq_ok.mp hbytes
  have ⟨_, hname', htables', hindexes'⟩ := DatabaseMetadata.addTable_eq_ok.mp hadd
  constructor
  · intro ⟨bytes', hbytes'⟩
    have ⟨_, _, _, _, _, hmany, _⟩ := DatabaseMetadata.toBytes_eq_ok.mp hbytes'
    rw [htables'] at hmany
    exact write_ok_of_writeMany hmany table (by simp)
  · intro htable
    have ⟨manyBytes, hmany⟩ : ∃ bytes, writeMany TableMetadata.toBytes m'.tables = .ok bytes := by
      rw [htables']
      apply writeMany_ok
      intro t ht
      cases List.mem_append.mp ht with
      | inl hold => exact write_ok_of_writeMany htables t hold
      | inr hnew => exact List.mem_singleton.mp hnew ▸ htable
    refine ⟨_, DatabaseMetadata.toBytes_eq_ok.mpr
      ⟨?_, ?_, ?_, manyBytes, indexBytes, hmany, ?_, rfl⟩⟩
    · rwa [hname']
    · rw [htables', List.length_append, List.length_singleton]
      omega
    · rwa [hindexes']
    · rwa [hindexes']

/-- Metadata with an encoding and an index more have one when its name does. -/
lemma toBytes_addIndex_iff {index : IndexMetadata} (hm : ∃ bytes, m.toBytes = .ok bytes)
    (hcount : m.indexes.length < u16Max) (hadd : m.addIndex index = .ok m') :
    (∃ bytes, m'.toBytes = .ok bytes) ↔ (utf8Bytes index.name).length ≤ u16Max := by
  have ⟨bytes, hbytes⟩ := hm
  have ⟨hname, htableCount, _, tableBytes, indexBytes, htables, hindexes, _⟩ :=
    DatabaseMetadata.toBytes_eq_ok.mp hbytes
  have ⟨_, hname', htables', hindexes'⟩ := DatabaseMetadata.addIndex_eq_ok.mp hadd
  constructor
  · intro ⟨bytes', hbytes'⟩
    have ⟨_, _, _, _, _, _, hmany, _⟩ := DatabaseMetadata.toBytes_eq_ok.mp hbytes'
    rw [hindexes'] at hmany
    have ⟨_, hwritten⟩ := write_ok_of_writeMany hmany index (by simp)
    exact (IndexMetadata.toBytes_eq_ok.mp hwritten).1
  · intro hlen
    have ⟨manyBytes, hmany⟩ : ∃ bytes, writeMany IndexMetadata.toBytes m'.indexes = .ok bytes := by
      rw [hindexes']
      apply writeMany_ok
      intro i hi
      cases List.mem_append.mp hi with
      | inl hold => exact write_ok_of_writeMany hindexes i hold
      | inr hnew =>
        rw [List.mem_singleton.mp hnew]
        exact ⟨_, IndexMetadata.toBytes_eq_ok.mpr ⟨hlen, rfl⟩⟩
    refine ⟨_, DatabaseMetadata.toBytes_eq_ok.mpr
      ⟨?_, ?_, ?_, tableBytes, manyBytes, ?_, hmany, rfl⟩⟩
    · rwa [hname']
    · rwa [htables']
    · rw [hindexes', List.length_append, List.length_singleton]
      omega
    · rwa [htables']

end Encodable

/-! ### Single calls -/

def nextTableId (m : DatabaseMetadata) : TableId := ⟨UInt32.ofNat (m.tables.length + 1)⟩

def nextIndexIdOf (m : DatabaseMetadata) : IndexId := ⟨UInt32.ofNat (m.indexes.length + 1)⟩

/-- A table that is turned away before the metadata change. -/
def TableRefused (m : DatabaseMetadata) (name : String) (columns : List (String × DataType)) : Prop :=
  u16Max ≤ m.tables.length ∨ (∃ t ∈ m.tables, t.name = name) ∨ i32Max ≤ columns.length + 1 ∨
    ¬ (columns.map Prod.fst).Nodup ∨ ∃ t ∈ m.tables, t.id = nextTableId m

/-- An index that is turned away before the metadata change. -/
def IndexRefused (m : DatabaseMetadata) (name : String) (tableId : TableId) (columnId : ColumnId) :
    Prop :=
  (∃ i ∈ m.indexes, i.name = name) ∨ u16Max ≤ m.indexes.length ∨
    (∃ i ∈ m.indexes, i.id = nextIndexIdOf m) ∨
    ¬ ∃ t ∈ m.tables, t.id = tableId ∧ ∃ c ∈ t.columns, c.id = columnId

section Calls

variable {file : List UInt8} {m m' : DatabaseMetadata} {name : String}
  {columns : List (String × DataType)} {tableId : TableId} {columnId : ColumnId} {rootPageId : PageId}

lemma run_addTable {table : TableMetadata} : (addTable table).run ⟨file, m⟩ =
    match m.addTable table with
    | .ok m' => save.run ⟨file, m'⟩
    | .error e => .err (.schema e) ⟨file, m⟩ := by
  simp only [addTable, Exec.run_bind, Exec.run_mapErr, Exec.run_query]
  cases m.addTable table <;> rfl

lemma run_addIndex {index : IndexMetadata} : (addIndex index).run ⟨file, m⟩ =
    match m.addIndex index with
    | .ok m' => save.run ⟨file, m'⟩
    | .error e => .err (.schema e) ⟨file, m⟩ := by
  simp only [addIndex, Exec.run_bind, Exec.run_mapErr, Exec.run_query]
  cases m.addIndex index <;> rfl

lemma find_key_isSome {α β : Type} [DecidableEq β] {f : α → β} {l : List α} {k : β} :
    (l.find? fun a => f a = k).isSome ↔ ∃ a ∈ l, f a = k := by
  simp [List.find?_isSome]

/-- A table is turned away with nothing changed, or added in memory and then saved. -/
lemma createTable_cases (file : List UInt8) (m : DatabaseMetadata) (name : String)
    (columns : List (String × DataType)) :
    (TableRefused m name columns ∧
      ((∃ e, (createTable name columns).run ⟨file, m⟩ = .err e ⟨file, m⟩) ∨
        (createTable name columns).run ⟨file, m⟩ = .panic)) ∨
    (¬ TableRefused m name columns ∧ ∃ table m', table.name = name ∧
      table.columns = columnMetadatas columns ∧ m.addTable table = .ok m' ∧
      (createTable name columns).run ⟨file, m⟩ = save.run ⟨file, m'⟩) := by
  unfold TableRefused
  rw [createTable, Exec.run_bind, buildTableMetadata, Exec.run_bind, Exec.run_gets,
    Outcome.andThen_ok]
  by_cases hcount : u16Max ≤ m.tables.length
  · rw [if_pos hcount]
    exact .inl ⟨.inl hcount, .inl ⟨_, rfl⟩⟩
  · rw [if_neg hcount]
    by_cases hname : (m.table name).isSome
    · rw [if_pos hname]
      exact .inl ⟨.inr (.inl (find_key_isSome.mp hname)), .inl ⟨_, rfl⟩⟩
    · rw [if_neg hname]
      have hfreshName : ¬ ∃ t ∈ m.tables, t.name = name := fun h => hname (find_key_isSome.mpr h)
      by_cases hmany : i32Max ≤ columns.length + 1
      · rw [if_pos hmany]
        exact .inl ⟨.inr (.inr (.inl hmany)), .inr rfl⟩
      · rw [if_neg hmany]
        have hids : ((columnMetadatas columns).map fun column => column.id).Nodup := by
          apply ids_columnMetadatas
          unfold i32Max at hmany
          omega
        rw [Exec.run_mapErr]
        cases hnew : TableMetadata.new (nextTableId m) name (columnMetadatas columns) with
        | error e =>
          have hnames : ¬ (columns.map Prod.fst).Nodup := by
            intro hnodup
            have hself := TableMetadata.new_self
              ⟨nextTableId m, name, columnMetadatas columns, hids, names_columnMetadatas ▸ hnodup⟩
            cases hnew.symm.trans hself
          refine .inl ⟨.inr (.inr (.inr (.inl hnames))), .inl ⟨.schema e, ?_⟩⟩
          have hlift : (Exec.liftExcept (TableMetadata.new (nextTableId m) name
              (columnMetadatas columns)) : Exec SchemaError Catalog _).run ⟨file, m⟩ =
                .err e ⟨file, m⟩ := by
            rw [hnew]
            rfl
          simp only [nextTableId] at hlift
          rw [hlift]
          rfl
        | ok table =>
          have ⟨hid, htableName, htableColumns⟩ := TableMetadata.fields_of_new hnew
          have hnames : (columns.map Prod.fst).Nodup := by
            rw [← names_columnMetadatas, ← htableColumns]
            exact table.distinctNames
          have hlift := liftExcept_ok (s := (⟨file, m⟩ : Catalog)) hnew
          simp only [nextTableId] at hlift
          rw [hlift, Outcome.mapErr_ok, Outcome.andThen_ok, run_addTable]
          cases hadd : m.addTable table with
          | error e =>
            have htaken : ∃ t ∈ m.tables, t.id = nextTableId m := by
              by_contra hfresh
              have ⟨m', hok⟩ := DatabaseMetadata.addTable_ok_iff.mpr
                ⟨fun t ht h => hfresh ⟨t, ht, h.trans hid⟩,
                  fun t ht h => hfreshName ⟨t, ht, h.trans htableName⟩⟩
              cases hadd.symm.trans hok
            exact .inl ⟨.inr (.inr (.inr (.inr htaken))), .inl ⟨_, rfl⟩⟩
          | ok m' =>
            have hfresh := (DatabaseMetadata.addTable_eq_ok.mp hadd).1.1
            refine .inr ⟨?_, table, m', htableName, htableColumns, hadd, rfl⟩
            intro hrefused
            rcases hrefused with h | h | h | h | ⟨t, ht, h⟩
            · exact hcount h
            · exact hfreshName h
            · exact hmany h
            · exact h hnames
            · exact hfresh t ht (h.trans hid.symm)

/-- An index is turned away with nothing changed, or added in memory and then saved. -/
lemma createIndex_cases (file : List UInt8) (m : DatabaseMetadata) (name : String)
    (tableId : TableId) (columnId : ColumnId) (rootPageId : PageId) :
    (IndexRefused m name tableId columnId ∧
      ∃ e, (createIndex name tableId columnId rootPageId).run ⟨file, m⟩ = .err e ⟨file, m⟩) ∨
    (¬ IndexRefused m name tableId columnId ∧
      ∃ m', m.addIndex ⟨nextIndexIdOf m, name, tableId, columnId, rootPageId⟩ = .ok m' ∧
      (createIndex name tableId columnId rootPageId).run ⟨file, m⟩ = save.run ⟨file, m'⟩) := by
  unfold IndexRefused
  rw [createIndex, Exec.run_bind, nextIndexId, Exec.run_bind, Exec.run_gets, Outcome.andThen_ok]
  by_cases hname : (m.index name).isSome
  · rw [if_pos hname]
    exact .inl ⟨.inl (find_key_isSome.mp hname), _, rfl⟩
  · rw [if_neg hname]
    have hfreshName : ¬ ∃ i ∈ m.indexes, i.name = name := fun h => hname (find_key_isSome.mpr h)
    by_cases hcount : u16Max ≤ m.indexes.length
    · rw [if_pos hcount]
      exact .inl ⟨.inr (.inl hcount), _, rfl⟩
    · rw [if_neg hcount, Exec.run_pure, Outcome.andThen_ok, run_addIndex]
      let index : IndexMetadata := ⟨nextIndexIdOf m, name, tableId, columnId, rootPageId⟩
      change (_ ∧ ∃ e, (match m.addIndex index with
        | .ok m' => save.run ⟨file, m'⟩
        | .error e => .err (.schema e) ⟨file, m⟩) = _) ∨ (_ ∧ ∃ m', m.addIndex index = _ ∧
          (match m.addIndex index with
          | .ok m' => save.run ⟨file, m'⟩
          | .error e => .err (.schema e) ⟨file, m⟩) = _)
      cases hadd : m.addIndex index with
      | error e =>
        refine .inl ⟨?_, .schema e, rfl⟩
        by_cases htaken : ∃ i ∈ m.indexes, i.id = nextIndexIdOf m
        · exact .inr (.inr (.inl htaken))
        · refine .inr (.inr (.inr fun hrefers => ?_))
          have hok : ∃ m', m.addIndex index = .ok m' := DatabaseMetadata.addIndex_ok_iff.mpr
            ⟨fun i hi h => htaken ⟨i, hi, h⟩, fun i hi h => hfreshName ⟨i, hi, h⟩, hrefers⟩
          have ⟨m', hm'⟩ := hok
          cases hadd.symm.trans hm'
      | ok m' =>
        have ⟨hfresh, _, hrefers⟩ := (DatabaseMetadata.addIndex_eq_ok.mp hadd).1
        refine .inr ⟨?_, m', rfl, rfl⟩
        intro hrefused
        rcases hrefused with h | h | ⟨i, hi, h⟩ | h
        · exact hfreshName h
        · exact hcount h
        · exact hfresh i hi h
        · exact h hrefers

end Calls

/-! ### Runs -/

namespace CatalogSession

/-- The metadata in memory are what reopening the file gives. -/
def Agrees (s : CatalogSession) : Prop :=
  ∀ m, s.memory = some m → ∀ databaseName, (openCatalog databaseName).run s.file = .ok m s.file

/-- A call that should succeed: nothing turns it away, and what it adds has an encoding. -/
def Valid : CatalogCall → CatalogSession → Prop
  | .openCatalog databaseName, s =>
    s.memory.isSome ∨ s.file = [] ∧ (utf8Bytes databaseName).length ≤ u16Max
  | .createTable name columns, s =>
    ∀ m, s.memory = some m → ¬ TableRefused m name columns ∧ TableEncodable name columns
  | .createIndex name tableId columnId _, s =>
    ∀ m, s.memory = some m → ¬ IndexRefused m name tableId columnId ∧
      (utf8Bytes name).length ≤ u16Max

/-- What a call does to memory and file: afterwards they agree, an error has changed neither,
and a valid call succeeds. -/
structure Keeps (call : CatalogCall) (s : CatalogSession) : Prop where
  agrees : ∀ s', ((perform call).run s).Returns s' → Agrees s'
  unchanged : ∀ e s', (perform call).run s = .err e s' → s' = s
  succeeds : Valid call s → ∃ s', (perform call).run s = .ok () s'

/-- What a call adds has an encoding, or the call is turned away before it adds anything. -/
def Meets : CatalogCall → CatalogSession → Prop
  | .openCatalog _, _ => True
  | .createTable name columns, s =>
    ∀ m, s.memory = some m → TableRefused m name columns ∨ TableEncodable name columns
  | .createIndex name tableId columnId _, s =>
    ∀ m, s.memory = some m → IndexRefused m name tableId columnId ∨
      (utf8Bytes name).length ≤ u16Max

/-- Every call of a run meets its condition in the state it is made in. -/
def AllMeet : CatalogSession → List CatalogCall → Prop
  | _, [] => True
  | s, call :: calls =>
    Meets call s ∧ ∀ s', ((perform call).run s).Returns s' → AllMeet s' calls

/-- Every call of a run keeps memory and file in agreement. -/
def AllKeep : CatalogSession → List CatalogCall → Prop
  | _, [] => True
  | s, call :: calls =>
    Keeps call s ∧ ∀ s', ((perform call).run s).Returns s' → AllKeep s' calls

section Steps

variable {s : CatalogSession} {call : CatalogCall} {file : List UInt8} {m m' : DatabaseMetadata}

lemma agrees_of_loads (h : Loads file m) : Agrees ⟨file, some m⟩ := by
  intro m' hm'
  cases hm'
  exact loads_iff_reopens.mp h

lemma Agrees.loads (h : Agrees s) (hm : s.memory = some m) : Loads s.file m :=
  loads_iff_reopens.mpr (h m hm)

/-- A call that fails or panics on the spot. -/
lemma keeps_refused (hs : Agrees s)
    (hrun : (∃ e, (perform call).run s = .err e s) ∨ (perform call).run s = .panic)
    (hvalid : ¬ Valid call s) : Keeps call s := by
  refine ⟨?_, ?_, fun h => absurd h hvalid⟩
  · intro s' hreturns
    rcases hrun with ⟨e, he⟩ | hpanic
    · rw [he] at hreturns
      rcases hreturns with ⟨_, h⟩ | ⟨_, h⟩ <;> cases h
      exact hs
    · rw [hpanic] at hreturns
      rcases hreturns with ⟨_, h⟩ | ⟨_, h⟩ <;> cases h
  · intro e' s' herr
    rcases hrun with ⟨e, he⟩ | hpanic
    · cases he.symm.trans herr
      rfl
    · cases hpanic.symm.trans herr

/-- A call that changes the metadata and then saves them keeps the agreement exactly when
the new metadata have an encoding. -/
lemma keeps_saved (hne : m' ≠ m)
    (hrun : (perform call).run ⟨file, some m⟩ =
      (save.run ⟨file, m'⟩).mapState fun catalog => ⟨catalog.file, some catalog.metadata⟩) :
    Keeps call ⟨file, some m⟩ ↔ ∃ bytes, m'.toBytes = .ok bytes := by
  cases hbytes : m'.toBytes with
  | ok bytes =>
    rw [run_save_ok hbytes, Outcome.mapState_ok] at hrun
    refine ⟨fun _ => ⟨bytes, rfl⟩, fun _ => ⟨?_, ?_, fun _ => ⟨_, hrun⟩⟩⟩
    · intro s' hreturns
      rw [hrun] at hreturns
      rcases hreturns with ⟨_, h⟩ | ⟨_, h⟩ <;> cases h
      exact agrees_of_loads (loads_of_toBytes hbytes)
    · intro e s' herr
      cases hrun.symm.trans herr
  | error e =>
    rw [run_save_err hbytes, Outcome.mapState_err] at hrun
    constructor
    · intro hkeeps
      have hsame := congrArg CatalogSession.memory (hkeeps.unchanged _ _ hrun)
      exact absurd (Option.some.inj hsame) hne
    · intro ⟨_, h⟩
      cases h

lemma run_performOpen (file : List UInt8) (memory : Option DatabaseMetadata) (databaseName : String) :
    (perform (.openCatalog databaseName)).run ⟨file, memory⟩ =
      match (openCatalog databaseName).run file with
      | .ok metadata file => .ok () ⟨file, some metadata⟩
      | .err e file => .err e ⟨file, none⟩
      | .panic => .panic
      | .diverge => .diverge := rfl

lemma keeps_openCatalog (hs : Agrees s) (databaseName : String) :
    Keeps (.openCatalog databaseName) s := by
  obtain ⟨file, memory⟩ := s
  have hreopen := run_performOpen file memory databaseName
  rcases openCatalog_cases file databaseName with ⟨m, file', hrun, hloads⟩ | ⟨e, herr⟩
  · rw [hrun] at hreopen
    refine ⟨?_, ?_, fun _ => ⟨_, hreopen⟩⟩
    · intro s' hreturns
      rw [hreopen] at hreturns
      rcases hreturns with ⟨_, h⟩ | ⟨_, h⟩ <;> cases h
      exact agrees_of_loads hloads
    · intro e s' herr
      cases hreopen.symm.trans herr
  · have hclosed : memory = none := by
      cases memory with
      | none => rfl
      | some m => cases herr.symm.trans (hs m rfl databaseName)
    subst hclosed
    rw [herr] at hreopen
    apply keeps_refused hs (.inl ⟨e, hreopen⟩)
    intro hvalid
    rcases hvalid with h | ⟨hfile, hlen⟩
    · cases h
    · simp only at hfile
      rw [hfile, run_openCatalog_nil, if_pos hlen] at herr
      cases herr

lemma keeps_closed (hs : Agrees s) (hrun : (perform call).run s = .ok () s) : Keeps call s := by
  refine ⟨?_, ?_, fun _ => ⟨s, hrun⟩⟩
  · intro s' hreturns
    rw [hrun] at hreturns
    rcases hreturns with ⟨_, h⟩ | ⟨_, h⟩ <;> cases h
    exact hs
  · intro e s' herr
    cases hrun.symm.trans herr

lemma keeps_createTable_iff (hloads : Loads file m) (name : String)
    (columns : List (String × DataType)) :
    Keeps (.createTable name columns) ⟨file, some m⟩ ↔
      TableRefused m name columns ∨ TableEncodable name columns := by
  have hperform : (perform (.createTable name columns)).run ⟨file, some m⟩ =
      ((createTable name columns).run ⟨file, m⟩).mapState fun catalog =>
        ⟨catalog.file, some catalog.metadata⟩ := rfl
  rcases createTable_cases file m name columns with
    ⟨hrefused, hrun⟩ | ⟨haccepted, table, m', hname, hcolumns, hadd, hrun⟩
  · refine ⟨fun _ => .inl hrefused, fun _ => ?_⟩
    apply keeps_refused (agrees_of_loads hloads)
    · rw [hperform]
      rcases hrun with ⟨e, he⟩ | hpanic
      · exact .inl ⟨e, by rw [he]; rfl⟩
      · exact .inr (by rw [hpanic]; rfl)
    · exact fun hvalid => (hvalid m rfl).1 hrefused
  · have hcount : m.tables.length < u16Max := by
      by_contra hmany
      exact haccepted (.inl (by omega))
    have hne : m' ≠ m := by
      intro heq
      have htables := (DatabaseMetadata.addTable_eq_ok.mp hadd).2.2.1
      rw [heq] at htables
      exact absurd (congrArg List.length htables) (by simp)
    rw [hrun] at hperform
    calc Keeps (.createTable name columns) ⟨file, some m⟩
        ↔ ∃ bytes, m'.toBytes = .ok bytes := keeps_saved hne hperform
      _ ↔ ∃ bytes, table.toBytes = .ok bytes := toBytes_addTable_iff hloads.toBytes_ok hcount hadd
      _ ↔ TableEncodable name columns := tableEncodable_iff hname hcolumns
      _ ↔ TableRefused m name columns ∨ TableEncodable name columns :=
        (or_iff_right haccepted).symm

lemma keeps_createIndex_iff (hloads : Loads file m) (name : String) (tableId : TableId)
    (columnId : ColumnId) (rootPageId : PageId) :
    Keeps (.createIndex name tableId columnId rootPageId) ⟨file, some m⟩ ↔
      IndexRefused m name tableId columnId ∨ (utf8Bytes name).length ≤ u16Max := by
  have hperform : (perform (.createIndex name tableId columnId rootPageId)).run ⟨file, some m⟩ =
      ((createIndex name tableId columnId rootPageId).run ⟨file, m⟩).mapState fun catalog =>
        ⟨catalog.file, some catalog.metadata⟩ := rfl
  rcases createIndex_cases file m name tableId columnId rootPageId with
    ⟨hrefused, e, hrun⟩ | ⟨haccepted, m', hadd, hrun⟩
  · refine ⟨fun _ => .inl hrefused, fun _ => ?_⟩
    apply keeps_refused (agrees_of_loads hloads)
    · rw [hperform, hrun]
      exact .inl ⟨e, rfl⟩
    · exact fun hvalid => (hvalid m rfl).1 hrefused
  · have hcount : m.indexes.length < u16Max := by
      by_contra hmany
      exact haccepted (.inr (.inl (by omega)))
    have hne : m' ≠ m := by
      intro heq
      have hindexes := (DatabaseMetadata.addIndex_eq_ok.mp hadd).2.2.2
      rw [heq] at hindexes
      exact absurd (congrArg List.length hindexes) (by simp)
    rw [hrun] at hperform
    calc Keeps (.createIndex name tableId columnId rootPageId) ⟨file, some m⟩
        ↔ ∃ bytes, m'.toBytes = .ok bytes := keeps_saved hne hperform
      _ ↔ (utf8Bytes name).length ≤ u16Max := toBytes_addIndex_iff hloads.toBytes_ok hcount hadd
      _ ↔ IndexRefused m name tableId columnId ∨ (utf8Bytes name).length ≤ u16Max :=
        (or_iff_right haccepted).symm

/-- One call: it keeps the agreement exactly when it meets its condition. -/
theorem keeps_iff_meets (hs : Agrees s) : Keeps call s ↔ Meets call s := by
  cases call with
  | openCatalog databaseName => exact ⟨fun _ => trivial, fun _ => keeps_openCatalog hs databaseName⟩
  | createTable name columns =>
    obtain ⟨file, memory⟩ := s
    cases memory with
    | none => exact ⟨fun _ _ h => (by cases h), fun _ => keeps_closed hs rfl⟩
    | some m =>
      rw [keeps_createTable_iff (hs.loads rfl)]
      exact ⟨fun h _ hm => Option.some.inj hm ▸ h, fun h => h m rfl⟩
  | createIndex name tableId columnId rootPageId =>
    obtain ⟨file, memory⟩ := s
    cases memory with
    | none => exact ⟨fun _ _ h => (by cases h), fun _ => keeps_closed hs rfl⟩
    | some m =>
      rw [keeps_createIndex_iff (hs.loads rfl)]
      exact ⟨fun h _ hm => Option.some.inj hm ▸ h, fun h => h m rfl⟩

lemma allMeet_iff_allKeep (hs : Agrees s) (calls : List CatalogCall) :
    AllMeet s calls ↔ AllKeep s calls := by
  induction calls generalizing s with
  | nil => rfl
  | cons call calls ih =>
    rw [AllMeet, AllKeep, keeps_iff_meets hs]
    constructor
    · intro ⟨hmeets, hrest⟩
      have hkeeps := (keeps_iff_meets hs).mpr hmeets
      exact ⟨hmeets, fun s' hs' => (ih (hkeeps.agrees s' hs')).mp (hrest s' hs')⟩
    · intro ⟨hmeets, hrest⟩
      have hkeeps := (keeps_iff_meets hs).mpr hmeets
      exact ⟨hmeets, fun s' hs' => (ih (hkeeps.agrees s' hs')).mpr (hrest s' hs')⟩

end Steps

/-- From any catalog file, memory and file stay in agreement through a run exactly when every
call adds only what has an encoding or is turned away before. -/
theorem run_keeps_iff (file : List UInt8) (calls : List CatalogCall) :
    AllKeep ⟨file, none⟩ calls ↔ AllMeet ⟨file, none⟩ calls := by
  apply Iff.symm
  apply allMeet_iff_allKeep
  intro m hm
  cases hm

/-- A table with a name too long for its length field is added to an empty database and
then not saved. -/
lemma not_keeps_longName {file : List UInt8} {m : DatabaseMetadata} {name : String}
    (hloads : Loads file m) (htables : m.tables = []) (hname : u16Max < (utf8Bytes name).length) :
    ¬ Keeps (.createTable name []) ⟨file, some m⟩ := by
  rw [keeps_createTable_iff hloads]
  intro h
  rcases h with (h | ⟨t, ht, _⟩ | h | h | ⟨t, ht, _⟩) | ⟨hlen, _⟩
  · rw [htables] at h
    exact absurd h (by decide)
  · rw [htables] at ht
    cases ht
  · exact absurd h (by decide)
  · exact h List.nodup_nil
  · rw [htables] at ht
    cases ht
  · omega

/-- A name of 65536 bytes: the table is in memory, and the file is as it was. -/
theorem longName_not_kept : ¬ AllKeep ⟨[], none⟩
    [.openCatalog "d", .createTable (String.ofList (List.replicate 65536 'a')) []] := by
  intro hkeep
  have hopen : (perform (.openCatalog "d")).run ⟨[], none⟩ =
      .ok () ⟨DatabaseMetadata.head "d" 0 ++ [0, 0], some ⟨"d", [], [], .empty⟩⟩ := by
    have hrun := run_openCatalog_nil "d"
    rw [if_pos (by decide)] at hrun
    simp only [perform, reopen, hrun]
  have hloads : Loads (DatabaseMetadata.head "d" 0 ++ [0, 0]) ⟨"d", [], [], .empty⟩ :=
    (hkeep.1.agrees _ (.inl ⟨(), hopen⟩)).loads rfl
  have hcreate := (hkeep.2 _ (.inl ⟨(), hopen⟩)).1
  refine not_keeps_longName hloads rfl ?_ hcreate
  rw [length_utf8Bytes_replicate (by decide), u16Max]
  omega

end CatalogSession

end RdbRs
