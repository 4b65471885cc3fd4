import Mathlib.Data.List.Nodup
import RdbRs.Catalog.Types
import RdbRs.Lib.Codec
import RdbRs.Storage.Page
import RdbRs.Storage.Types

/-!
# Catalog metadata

Columns, tables, indexes and the database with their constructors and their byte formats. A
`TableMetadata` carries that its columns are distinct, a `DatabaseMetadata` that its tables
and indexes are and that every index refers to a column of a table.
-/

namespace RdbRs

inductive SchemaError where
  | unsupportedIndexDataType (dataType : DataType)
  | duplicateColumnName (name : String)
  | duplicateTableName (name : String)
  | duplicateIndexName (name : String)
  | invalidDataTypeTag (tag : UInt8)
  | columnNameTooLong (bytes : Nat)
  | tableNameTooLong (bytes : Nat)
  | indexNameTooLong (bytes : Nat)
  | databaseNameTooLong (bytes : Nat)
  | tooManyColumns
  | tooManyTables
  | tooManyIndexes
  | truncatedColumnMetadata
  | truncatedTableMetadata
  | truncatedIndexMetadata
  | truncatedDatabaseMetadata
  | invalidColumnNameEncoding
  | invalidTableNameEncoding
  | invalidIndexNameEncoding
  | invalidDatabaseNameEncoding
  | duplicateColumnId (id : ColumnId)
  | duplicateTableId (id : TableId)
  | duplicateIndexId (id : IndexId)
  | indexTableNotFound (id : TableId)
  | indexColumnNotFound (tableId : TableId) (columnId : ColumnId)
  deriving DecidableEq

def columnNameLengthPrefixBytes : Nat := 6
def tableNameLengthPrefixBytes : Nat := 6
def indexNameLengthPrefixBytes : Nat := 6
def databaseNameLengthPrefixBytes : Nat := 2

/-- `u16::try_from(n).map_err(|_| e)?`. -/
def u16TryFrom (e : SchemaError) (n : Nat) : Except SchemaError Nat :=
  if n ≤ u16Max then .ok n else .error e

namespace DataType

def tag : DataType → UInt8
  | int => 0
  | bigInt => 1
  | boolean => 2
  | varchar => 3
  | null => 4

def fromTag (tag : UInt8) : Except SchemaError DataType :=
  match tag with
  | 0 => .ok int
  | 1 => .ok bigInt
  | 2 => .ok boolean
  | 3 => .ok varchar
  | 4 => .ok null
  | _ => .error (.invalidDataTypeTag tag)

end DataType

/-- The first element whose key one of `seen` or an earlier element has: the insertions into a
`HashSet` stop there. -/
def firstRepeated {α β : Type} [DecidableEq β] (key : α → β) : List β → List α → Option α
  | _, [] => none
  | seen, a :: rest => if key a ∈ seen then some a else firstRepeated key (key a :: seen) rest

lemma firstRepeated_eq_none {α β : Type} [DecidableEq β] {key : α → β} {seen : List β} {l : List α} :
    firstRepeated key seen l = none ↔ (l.map key).Nodup ∧ ∀ a ∈ l, key a ∉ seen := by
  induction l generalizing seen with
  | nil => simp [firstRepeated]
  | cons a l ih =>
    rw [firstRepeated]
    split
    · next hseen => simp [hseen]
    · next hseen =>
      rw [ih, List.map_cons, List.nodup_cons]
      constructor
      · intro ⟨hnodup, hnew⟩
        refine ⟨⟨?_, hnodup⟩, ?_⟩
        · intro hmem
          have ⟨b, hb, hkey⟩ := List.mem_map.mp hmem
          exact hnew b hb (hkey ▸ List.mem_cons_self)
        · intro b hb
          cases List.mem_cons.mp hb with
          | inl heq => exact heq ▸ hseen
          | inr hmem => exact fun h => hnew b hmem (List.mem_cons_of_mem _ h)
      · intro ⟨⟨hfresh, hnodup⟩, hnew⟩
        refine ⟨hnodup, fun b hb hmem => ?_⟩
        cases List.mem_cons.mp hmem with
        | inl heq => exact hfresh (List.mem_map.mpr ⟨b, hb, heq⟩)
        | inr h => exact hnew b (List.mem_cons_of_mem a hb) h

/-! ### Columns -/

structure ColumnMetadata where
  id : ColumnId
  name : String
  dataType : DataType
  deriving DecidableEq

namespace ColumnMetadata

variable {σ : Type}

def fromBytes (bytes : List UInt8) : Exec SchemaError σ (ColumnMetadata × Nat) :=
  if bytes.length < columnNameLengthPrefixBytes then Exec.throw .truncatedColumnMetadata
  else do
    let idBytes ← Exec.slice bytes 0 4
    let lenBytes ← Exec.slice bytes 4 6
    let typeTagIndex := columnNameLengthPrefixBytes + beNat lenBytes
    let consumedBytes := typeTagIndex + 1
    if bytes.length < consumedBytes then Exec.throw .truncatedColumnMetadata
    else do
      let nameBytes ← Exec.slice bytes columnNameLengthPrefixBytes typeTagIndex
      let name ← Exec.textOf .invalidColumnNameEncoding nameBytes
      let tag ← Exec.byteAt bytes typeTagIndex
      let dataType ← Exec.liftExcept (DataType.fromTag tag)
      pure (⟨⟨UInt32.ofNat (beNat idBytes)⟩, name, dataType⟩, consumedBytes)

def toBytes (self : ColumnMetadata) : Except SchemaError (List UInt8) := do
  let nameBytes := utf8Bytes self.name
  let nameLen ← u16TryFrom (.columnNameTooLong nameBytes.length) nameBytes.length
  .ok (beBytes 4 self.id.id.toNat ++ beBytes 2 nameLen ++ nameBytes ++ [self.dataType.tag])

end ColumnMetadata

/-! ### Tables -/

structure TableMetadata where
  id : TableId
  name : String
  columns : List ColumnMetadata
  distinctIds : (columns.map fun column => column.id).Nodup
  distinctNames : (columns.map fun column => column.name).Nodup
  deriving DecidableEq

namespace TableMetadata

variable {σ : Type}

def new (id : TableId) (name : String) (columns : List ColumnMetadata) :
    Except SchemaError TableMetadata :=
  match hids : firstRepeated (fun column : ColumnMetadata => column.id) [] columns with
  | some column => .error (.duplicateColumnId column.id)
  | none =>
    match hnames : firstRepeated (fun column : ColumnMetadata => column.name) [] columns with
    | some column => .error (.duplicateColumnName column.name)
    | none => .ok ⟨id, name, columns, (firstRepeated_eq_none.mp hids).1,
        (firstRepeated_eq_none.mp hnames).1⟩

def fromBytes (bytes : List UInt8) : Exec SchemaError σ (TableMetadata × Nat) :=
  if bytes.length < tableNameLengthPrefixBytes then Exec.throw .truncatedTableMetadata
  else do
    let idBytes ← Exec.slice bytes 0 4
    let lenBytes ← Exec.slice bytes 4 6
    let columnCountIndex := tableNameLengthPrefixBytes + beNat lenBytes
    let columnStart := columnCountIndex + 2
    if bytes.length < columnStart then Exec.throw .truncatedTableMetadata
    else do
      let countBytes ← Exec.slice bytes columnCountIndex (columnCountIndex + 2)
      let nameBytes ← Exec.slice bytes tableNameLengthPrefixBytes columnCountIndex
      let name ← Exec.textOf .invalidTableNameEncoding nameBytes
      let (columns, offset) ←
        readMany ColumnMetadata.fromBytes bytes (beNat countBytes) columnStart
      let table ← Exec.liftExcept (new ⟨UInt32.ofNat (beNat idBytes)⟩ name columns)
      pure (table, offset)

def toBytes (self : TableMetadata) : Except SchemaError (List UInt8) := do
  let nameBytes := utf8Bytes self.name
  let nameLen ← u16TryFrom (.tableNameTooLong nameBytes.length) nameBytes.length
  let columnCount ← u16TryFrom .tooManyColumns self.columns.length
  let columnBytes ← writeMany ColumnMetadata.toBytes self.columns
  .ok (beBytes 4 self.id.id.toNat ++ beBytes 2 nameLen ++ nameBytes ++ beBytes 2 columnCount ++
    columnBytes)

def column (self : TableMetadata) (name : String) : Option ColumnMetadata :=
  self.columns.find? fun column => column.name = name

def columnById (self : TableMetadata) (columnId : ColumnId) : Option ColumnMetadata :=
  self.columns.find? fun column => column.id = columnId

def columnIndex (self : TableMetadata) (columnId : ColumnId) : Option Nat :=
  self.columns.findIdx? fun column => column.id = columnId

end TableMetadata

/-! ### Indexes -/

structure IndexMetadata where
  id : IndexId
  name : String
  tableId : TableId
  columnId : ColumnId
  rootPageId : PageId
  deriving DecidableEq

namespace IndexMetadata

variable {σ : Type}

def toBytes (self : IndexMetadata) : Except SchemaError (List UInt8) := do
  let nameBytes := utf8Bytes self.name
  let nameLen ← u16TryFrom (.indexNameTooLong nameBytes.length) nameBytes.length
  .ok (beBytes 4 self.id.id.toNat ++ beBytes 2 nameLen ++ nameBytes ++
    beBytes 4 self.tableId.id.toNat ++ beBytes 4 self.columnId.id.toNat ++ self.rootPageId.toBytes)

/-- The slices that are converted to arrays have the length of the array, so that the
`try_into` of the source never fails. -/
def fromBytes (bytes : List UInt8) : Exec SchemaError σ (IndexMetadata × Nat) :=
  if bytes.length < indexNameLengthPrefixBytes then Exec.throw .truncatedIndexMetadata
  else do
    let idBytes ← Exec.slice bytes 0 4
    let lenBytes ← Exec.slice bytes 4 indexNameLengthPrefixBytes
    let nameEnd := indexNameLengthPrefixBytes + beNat lenBytes
    let consumed := nameEnd + 16
    if bytes.length < consumed then Exec.throw .truncatedIndexMetadata
    else do
      let nameBytes ← Exec.slice bytes indexNameLengthPrefixBytes nameEnd
      let name ← Exec.textOf .invalidIndexNameEncoding nameBytes
      let tableEnd := nameEnd + 4
      let tableBytes ← Exec.slice bytes nameEnd tableEnd
      let columnEnd := tableEnd + 4
      let columnBytes ← Exec.slice bytes tableEnd columnEnd
      let rootPageEnd := columnEnd + 8
      let rootPageBytes ← Exec.slice bytes columnEnd rootPageEnd
      pure (⟨⟨UInt32.ofNat (beNat idBytes)⟩, name, ⟨UInt32.ofNat (beNat tableBytes)⟩,
        ⟨UInt32.ofNat (beNat columnBytes)⟩, PageId.fromBytes rootPageBytes⟩, consumed)

end IndexMetadata

/-! ### The database -/

/-- What the constructors of a database check. -/
structure Consistent (tables : List TableMetadata) (indexes : List IndexMetadata) : Prop where
  tableIds : (tables.map fun table => table.id).Nodup
  tableNames : (tables.map fun table => table.name).Nodup
  indexIds : (indexes.map fun index => index.id).Nodup
  indexNames : (indexes.map fun index => index.name).Nodup
  refers : ∀ index ∈ indexes, ∃ table ∈ tables, table.id = index.tableId ∧
    ∃ column ∈ table.columns, column.id = index.columnId

lemma nodup_map_concat {α β : Type} {f : α → β} {l : List α} {a : α} (h : (l.map f).Nodup)
    (hnew : ∀ b ∈ l, f b ≠ f a) : ((l ++ [a]).map f).Nodup := by
  rw [List.map_append, List.map_singleton, ← List.concat_eq_append]
  apply List.Nodup.concat ?_ h
  intro hmem
  have ⟨b, hb, heq⟩ := List.mem_map.mp hmem
  exact hnew b hb heq

/-- `find` by a key finds nothing when no element has the key. -/
lemma find_key_none {α β : Type} [DecidableEq β] {f : α → β} {l : List α} {k : β} :
    (l.find? fun a => f a = k) = none ↔ ∀ a ∈ l, f a ≠ k := by
  simp

namespace Consistent

variable {tables : List TableMetadata} {indexes : List IndexMetadata}

lemma empty : Consistent [] [] :=
  ⟨List.nodup_nil, List.nodup_nil, List.nodup_nil, List.nodup_nil, fun _ h => by cases h⟩

lemma push_table (h : Consistent tables indexes) {table : TableMetadata}
    (hid : ∀ t ∈ tables, t.id ≠ table.id) (hname : ∀ t ∈ tables, t.name ≠ table.name) :
    Consistent (tables ++ [table]) indexes := by
  refine ⟨nodup_map_concat h.tableIds hid, nodup_map_concat h.tableNames hname, h.indexIds,
    h.indexNames, fun index hindex => ?_⟩
  have ⟨t, ht, hrefers⟩ := h.refers index hindex
  exact ⟨t, List.mem_append_left _ ht, hrefers⟩

lemma push_index (h : Consistent tables indexes) {index : IndexMetadata}
    (hid : ∀ i ∈ indexes, i.id ≠ index.id) (hname : ∀ i ∈ indexes, i.name ≠ index.name)
    (hrefers : ∃ table ∈ tables, table.id = index.tableId ∧
      ∃ column ∈ table.columns, column.id = index.columnId) :
    Consistent tables (indexes ++ [index]) := by
  refine ⟨h.tableIds, h.tableNames, nodup_map_concat h.indexIds hid,
    nodup_map_concat h.indexNames hname, fun i hi => ?_⟩
  cases List.mem_append.mp hi with
  | inl hold => exact h.refers i hold
  | inr hnew => exact List.mem_singleton.mp hnew ▸ hrefers

end Consistent

structure DatabaseMetadata where
  name : String
  tables : List TableMetadata
  indexes : List IndexMetadata
  consistent : Consistent tables indexes

namespace DatabaseMetadata

variable {σ : Type}

@[ext] lemma ext {a b : DatabaseMetadata} (hname : a.name = b.name) (htables : a.tables = b.tables)
    (hindexes : a.indexes = b.indexes) : a = b := by
  cases a
  cases b
  cases hname
  cases htables
  cases hindexes
  rfl

def tableById (self : DatabaseMetadata) (tableId : TableId) : Option TableMetadata :=
  self.tables.find? fun table => table.id = tableId

def table (self : DatabaseMetadata) (name : String) : Option TableMetadata :=
  self.tables.find? fun table => table.name = name

def indexById (self : DatabaseMetadata) (indexId : IndexId) : Option IndexMetadata :=
  self.indexes.find? fun index => index.id = indexId

def index (self : DatabaseMetadata) (name : String) : Option IndexMetadata :=
  self.indexes.find? fun index => index.name = name

/-- The metadata with the table added. The source pushes onto `self` after its checks, so
that an error leaves `self` as it was. -/
def addTable (self : DatabaseMetadata) (table : TableMetadata) :
    Except SchemaError DatabaseMetadata :=
  match hid : self.tableById table.id with
  | some _ => .error (.duplicateTableId table.id)
  | none =>
    match hname : self.table table.name with
    | some _ => .error (.duplicateTableName table.name)
    | none => .ok ⟨self.name, self.tables ++ [table], self.indexes,
        self.consistent.push_table (find_key_none.mp hid) (find_key_none.mp hname)⟩

lemma refers_of_find {self : DatabaseMetadata} {index : IndexMetadata} {table : TableMetadata}
    {i : Nat} (htable : self.tableById index.tableId = some table)
    (hcolumn : table.columnIndex index.columnId = some i) :
    ∃ table ∈ self.tables, table.id = index.tableId ∧
      ∃ column ∈ table.columns, column.id = index.columnId := by
  have ⟨hi, hkey, _⟩ := List.findIdx?_eq_some_iff_getElem.mp hcolumn
  refine ⟨table, List.mem_of_find?_eq_some htable, ?_, table.columns[i], List.getElem_mem hi, ?_⟩
  · exact of_decide_eq_true (List.find?_some (p := fun t : TableMetadata => t.id = index.tableId) htable)
  · exact of_decide_eq_true hkey

/-- The metadata with the index added, see `addTable`. -/
def addIndex (self : DatabaseMetadata) (index : IndexMetadata) :
    Except SchemaError DatabaseMetadata :=
  match hid : self.indexById index.id with
  | some _ => .error (.duplicateIndexId index.id)
  | none =>
    match hname : self.index index.name with
    | some _ => .error (.duplicateIndexName index.name)
    | none =>
      match htable : self.tableById index.tableId with
      | some table =>
        match hcolumn : table.columnIndex index.columnId with
        | none => .error (.indexColumnNotFound index.tableId index.columnId)
        | some _ => .ok ⟨self.name, self.tables, self.indexes ++ [index],
            self.consistent.push_index (find_key_none.mp hid) (find_key_none.mp hname)
              (refers_of_find htable hcolumn)⟩
      | none => .error (.indexTableNotFound index.tableId)

def new (name : String) (tables : List TableMetadata) (indexes : List IndexMetadata) :
    Except SchemaError DatabaseMetadata := do
  let withTables ← tables.foldlM addTable ⟨name, [], [], .empty⟩
  indexes.foldlM addIndex withTables

def fromBytes (bytes : List UInt8) : Exec SchemaError σ (DatabaseMetadata × Nat) :=
  if bytes.length < databaseNameLengthPrefixBytes then Exec.throw .truncatedDatabaseMetadata
  else do
    let lenBytes ← Exec.slice bytes 0 2
    let tableCountIndex := databaseNameLengthPrefixBytes + beNat lenBytes
    let tableStart := tableCountIndex + 2
    if bytes.length < tableStart then Exec.throw .truncatedDatabaseMetadata
    else do
      let countBytes ← Exec.slice bytes tableCountIndex (tableCountIndex + 2)
      let nameBytes ← Exec.slice bytes databaseNameLengthPrefixBytes tableCountIndex
      let name ← Exec.textOf .invalidDatabaseNameEncoding nameBytes
      let (tables, offset) ← readMany TableMetadata.fromBytes bytes (beNat countBytes) tableStart
      -- a catalog written before indexes existed ends here
      if bytes.length = offset then do
        let database ← Exec.liftExcept (new name tables [])
        pure (database, offset)
      else if bytes.length < offset + 2 then Exec.throw .truncatedDatabaseMetadata
      else do
        let countBytes ← Exec.slice bytes offset (offset + 2)
        let (indexes, offset) ←
          readMany IndexMetadata.fromBytes bytes (beNat countBytes) (offset + 2)
        let database ← Exec.liftExcept (new name tables indexes)
        pure (database, offset)

def toBytes (self : DatabaseMetadata) : Except SchemaError (List UInt8) := do
  let nameBytes := utf8Bytes self.name
  let nameLen ← u16TryFrom (.databaseNameTooLong nameBytes.length) nameBytes.length
  let tableCount ← u16TryFrom .tooManyTables self.tables.length
  let tableBytes ← writeMany TableMetadata.toBytes self.tables
  let indexCount ← u16TryFrom .tooManyIndexes self.indexes.length
  let indexBytes ← writeMany IndexMetadata.toBytes self.indexes
  .ok (beBytes 2 nameLen ++ nameBytes ++ beBytes 2 tableCount ++ tableBytes ++
    beBytes 2 indexCount ++ indexBytes)

end DatabaseMetadata

end RdbRs
