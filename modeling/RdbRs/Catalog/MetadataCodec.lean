import RdbRs.Catalog.Metadata

/-!
# The catalog format

Each metadata type is a codec: what `to_bytes` writes `from_bytes` reads back, whatever
follows, and it reads nothing else.
-/

namespace RdbRs

/-! ### Numbers, tags and texts -/

lemma beNat_u16 {n : Nat} (h : n ≤ u16Max) : beNat (beBytes 2 n) = n := by
  apply beNat_beBytes_of_lt
  unfold u16Max at h
  omega

namespace DataType

@[simp] lemma fromTag_tag (t : DataType) : fromTag t.tag = .ok t := by
  cases t <;> rfl

lemma tag_of_fromTag {b : UInt8} {t : DataType} (h : fromTag b = .ok t) : t.tag = b := by
  unfold fromTag at h
  split at h <;> cases h <;> rfl

end DataType

section Texts

variable {σ : Type} {e : SchemaError} {bytes : List UInt8} {s : σ}

lemma textOf_returns : ((Exec.textOf e bytes : Exec SchemaError σ String).run s).Returns s := by
  unfold Exec.textOf
  split
  · exact .inl ⟨_, rfl⟩
  · exact .inr ⟨_, rfl⟩

lemma run_textOf_utf8Bytes (text : String) :
    (Exec.textOf e (utf8Bytes text) : Exec SchemaError σ String).run s = .ok text s := by
  rw [Exec.textOf, fromUtf8_utf8Bytes]
  rfl

lemma textOf_eq_ok {text : String} {s' : σ}
    (h : (Exec.textOf e bytes : Exec SchemaError σ String).run s = .ok text s') :
    utf8Bytes text = bytes ∧ s' = s := by
  unfold Exec.textOf at h
  split at h
  · next heq =>
    cases h
    exact ⟨utf8Bytes_of_fromUtf8 heq, rfl⟩
  · cases h

lemma liftExcept_returns {α : Type} (x : Except SchemaError α) :
    ((Exec.liftExcept x : Exec SchemaError σ α).run s).Returns s := by
  cases x with
  | ok a => exact .inl ⟨a, rfl⟩
  | error e => exact .inr ⟨e, rfl⟩

lemma liftExcept_eq_ok {α : Type} {x : Except SchemaError α} {a : α} {s' : σ} :
    (Exec.liftExcept x : Exec SchemaError σ α).run s = .ok a s' ↔ x = .ok a ∧ s = s' := by
  rw [Exec.run_liftExcept]
  cases x <;> simp

lemma liftExcept_ok {α : Type} {x : Except SchemaError α} {a : α} (h : x = .ok a) :
    (Exec.liftExcept x : Exec SchemaError σ α).run s = .ok a s := by
  rw [h]
  rfl

lemma andThen_returns {α β : Type} {o : Outcome SchemaError σ α} {f : α → σ → Outcome SchemaError σ β}
    (h : o.Returns s) (hf : ∀ a, o = .ok a s → (f a s).Returns s) : (o.andThen f).Returns s := by
  cases h with
  | inl hok =>
    have ⟨a, ha⟩ := hok
    rw [ha]
    exact hf a ha
  | inr herr =>
    have ⟨e, he⟩ := herr
    rw [he]
    exact .inr ⟨e, rfl⟩

end Texts

/-! ### The head of a record -/

/-- An id, the length of the name and the name: columns, tables and indexes start so. -/
def recordHead (id : UInt32) (name : String) : List UInt8 :=
  beBytes 4 id.toNat ++ beBytes 2 (utf8Bytes name).length ++ utf8Bytes name

section RecordHead

variable {id : UInt32} {name : String} {rest bytes : List UInt8}

@[simp] lemma length_recordHead : (recordHead id name).length = 6 + (utf8Bytes name).length := by
  simp only [recordHead, List.length_append, length_beBytes]

lemma piece_id : piece (recordHead id name ++ rest) 0 4 = beBytes 4 id.toNat := by
  rw [recordHead, List.append_assoc, List.append_assoc]
  exact piece_append [] (beBytes 4 id.toNat) _ rfl (by simp)

lemma piece_nameLen :
    piece (recordHead id name ++ rest) 4 6 = beBytes 2 (utf8Bytes name).length := by
  rw [recordHead, List.append_assoc, List.append_assoc]
  exact piece_append _ _ _ (by simp) (by simp)

lemma piece_name :
    piece (recordHead id name ++ rest) 6 (6 + (utf8Bytes name).length) = utf8Bytes name := by
  rw [recordHead, List.append_assoc]
  exact piece_append _ _ _ (by simp) (by simp)

lemma ofNat_id : UInt32.ofNat (beNat (piece (recordHead id name ++ rest) 0 4)) = id := by
  have hlt : id.toNat < 256 ^ 4 := id.toNat_lt
  rw [piece_id, beNat_beBytes_of_lt hlt, UInt32.ofNat_toNat]

/-- A number read as a `u32` is written as the bytes it was read from. -/
lemma beBytes_u32 {start : Nat} (h : start + 4 ≤ bytes.length) :
    beBytes 4 (UInt32.ofNat (beNat (piece bytes start (start + 4)))).toNat =
      piece bytes start (start + 4) := by
  have hlt : beNat (piece bytes start (start + 4)) < 2 ^ 32 := beNat_piece_lt 4 h
  rw [UInt32.toNat_ofNat_of_lt' hlt, beBytes_piece 4 h]

/-- The head that was read is written as the bytes it was read from. -/
lemma recordHead_of_pieces {len : Nat} (hlen : beNat (piece bytes 4 6) = len)
    (h : 6 + len ≤ bytes.length) (hname : utf8Bytes name = piece bytes 6 (6 + len)) :
    recordHead (UInt32.ofNat (beNat (piece bytes 0 4))) name = piece bytes 0 (6 + len) := by
  have hnameLen : (utf8Bytes name).length = len := by
    rw [hname, length_piece h, Nat.add_sub_cancel_left]
  have hid : beBytes 4 (UInt32.ofNat (beNat (piece bytes 0 4))).toNat = piece bytes 0 4 := by
    apply beBytes_u32
    omega
  have hlenBytes : beBytes 2 len = piece bytes 4 6 := by
    rw [← hlen]
    exact beBytes_piece 2 (by omega)
  rw [recordHead, hid, hnameLen, hlenBytes, hname,
    piece_append_piece (by omega) (by omega), piece_append_piece (by omega) (by omega)]

end RecordHead

/-! ### Columns -/

namespace ColumnMetadata

variable {σ : Type} {bytes : List UInt8} {s : σ} {column : ColumnMetadata}

lemma toBytes_eq_ok : column.toBytes = .ok bytes ↔
    (utf8Bytes column.name).length ≤ u16Max ∧
      bytes = recordHead column.id.id column.name ++ [column.dataType.tag] := by
  simp only [toBytes, u16TryFrom]
  split <;> simp_all [recordHead, eq_comm]

/-- Reading the bytes a column fits in. -/
lemma run_fromBytes {len : Nat} (hlen : beNat (piece bytes 4 6) = len)
    (h : 6 + len < bytes.length) :
    (fromBytes bytes : Exec SchemaError σ _).run s =
      ((Exec.textOf .invalidColumnNameEncoding (piece bytes 6 (6 + len))).run s).andThen
        fun name s => ((Exec.liftExcept (DataType.fromTag bytes[6 + len])).run s).andThen
          fun dataType s => .ok (⟨⟨UInt32.ofNat (beNat (piece bytes 0 4))⟩, name, dataType⟩,
            6 + len + 1) s := by
  have hprefix : ¬ bytes.length < columnNameLengthPrefixBytes := by
    unfold columnNameLengthPrefixBytes
    omega
  have hconsumed : ¬ bytes.length < columnNameLengthPrefixBytes + len + 1 := by
    unfold columnNameLengthPrefixBytes
    omega
  rw [fromBytes, if_neg hprefix, Exec.run_bind, Exec.run_slice (by omega) (by omega),
    Outcome.andThen_ok, Exec.run_bind, Exec.run_slice (by omega) (by omega), Outcome.andThen_ok]
  simp only [hlen]
  rw [if_neg hconsumed, Exec.run_bind, Exec.run_slice (by omega)
    (by unfold columnNameLengthPrefixBytes; omega), Outcome.andThen_ok, Exec.run_bind]
  congr 1
  funext name s
  rw [Exec.run_bind, Exec.run_byteAt (by unfold columnNameLengthPrefixBytes; omega)]
  rfl

/-- Reading bytes too short for a column. -/
lemma run_fromBytes_short (h : bytes.length ≤ 6 + beNat (piece bytes 4 6)) :
    (fromBytes bytes : Exec SchemaError σ _).run s = .err .truncatedColumnMetadata s := by
  unfold fromBytes columnNameLengthPrefixBytes
  split
  · rfl
  · rw [Exec.run_bind, Exec.run_slice (by omega) (by omega), Outcome.andThen_ok, Exec.run_bind,
      Exec.run_slice (by omega) (by omega), Outcome.andThen_ok, if_pos (by omega)]
    rfl

theorem codec : Codec toBytes (fromBytes : List UInt8 → Exec SchemaError σ _) := by
  constructor
  · intro bytes s
    by_cases h : 6 + beNat (piece bytes 4 6) < bytes.length
    · rw [run_fromBytes rfl h]
      apply andThen_returns textOf_returns
      intro name _
      apply andThen_returns (liftExcept_returns _)
      exact fun dataType _ => .inl ⟨_, rfl⟩
    · rw [run_fromBytes_short (by omega)]
      exact .inr ⟨_, rfl⟩
  · intro column bytes hwrite rest s
    have ⟨hname, hbytes⟩ := toBytes_eq_ok.mp hwrite
    have hbody : bytes ++ rest =
        recordHead column.id.id column.name ++ ([column.dataType.tag] ++ rest) := by
      rw [hbytes, List.append_assoc]
    have hbytesLen : bytes.length = 6 + (utf8Bytes column.name).length + 1 := by
      rw [hbytes, List.length_append, length_recordHead, List.length_singleton]
    have hlen : beNat (piece (recordHead column.id.id column.name ++ ([column.dataType.tag] ++ rest))
        4 6) = (utf8Bytes column.name).length := by
      rw [piece_nameLen, beNat_u16 hname]
    have hfits : 6 + (utf8Bytes column.name).length <
        (recordHead column.id.id column.name ++ ([column.dataType.tag] ++ rest)).length := by
      simp
    have htag : (recordHead column.id.id column.name ++ ([column.dataType.tag] ++ rest))[
        6 + (utf8Bytes column.name).length] = column.dataType.tag := by
      simp [List.getElem_append_right]
    rw [hbody, hbytesLen, run_fromBytes hlen hfits, htag, piece_name, run_textOf_utf8Bytes,
      ofNat_id, DataType.fromTag_tag]
    rfl
  · intro bytes s column n s' hread
    by_cases h : 6 + beNat (piece bytes 4 6) < bytes.length
    · rw [run_fromBytes rfl h] at hread
      have ⟨name, s₁, hname, hread⟩ := Outcome.andThen_eq_ok.mp hread
      have ⟨dataType, s₂, htype, hread⟩ := Outcome.andThen_eq_ok.mp hread
      cases hread
      have hname := (textOf_eq_ok hname).1
      have htag := DataType.tag_of_fromTag (liftExcept_eq_ok.mp htype).1
      refine ⟨by omega, toBytes_eq_ok.mpr ⟨?_, ?_⟩⟩
      · have hlt : beNat (piece bytes 4 6) < 256 ^ 2 := beNat_piece_lt 2 (by omega)
        simp only
        rw [hname, length_piece (by omega), u16Max]
        omega
      · simp only
        rw [recordHead_of_pieces rfl (by omega) hname, piece_zero, htag, List.take_append_getElem]
    · rw [run_fromBytes_short (by omega)] at hread
      cases hread

end ColumnMetadata

/-! ### Tables -/

namespace TableMetadata

variable {σ : Type} {bytes : List UInt8} {s : σ} {table : TableMetadata}

/-- The constructor takes what a table already holds. -/
@[simp] lemma new_self (table : TableMetadata) : new table.id table.name table.columns = .ok table := by
  have hids : firstRepeated (fun column : ColumnMetadata => column.id) [] table.columns = none :=
    firstRepeated_eq_none.mpr ⟨table.distinctIds, fun _ _ => List.not_mem_nil⟩
  have hnames : firstRepeated (fun column : ColumnMetadata => column.name) [] table.columns = none :=
    firstRepeated_eq_none.mpr ⟨table.distinctNames, fun _ _ => List.not_mem_nil⟩
  unfold new
  split
  · next heq => cases hids.symm.trans heq
  · split
    · next heq => cases hnames.symm.trans heq
    · rfl

lemma fields_of_new {id : TableId} {name : String} {columns : List ColumnMetadata}
    (h : new id name columns = .ok table) :
    table.id = id ∧ table.name = name ∧ table.columns = columns := by
  unfold new at h
  split at h
  · cases h
  · split at h
    · cases h
    · cases h
      exact ⟨rfl, rfl, rfl⟩

lemma toBytes_eq_ok : table.toBytes = .ok bytes ↔
    (utf8Bytes table.name).length ≤ u16Max ∧ table.columns.length ≤ u16Max ∧
      ∃ columnBytes, writeMany ColumnMetadata.toBytes table.columns = .ok columnBytes ∧
        bytes = recordHead table.id.id table.name ++ beBytes 2 table.columns.length ++ columnBytes := by
  simp only [toBytes, u16TryFrom]
  split
  · split
    · cases writeMany ColumnMetadata.toBytes table.columns with
      | error e => simp
      | ok columnBytes => simp_all [recordHead, eq_comm]
    · simp_all
  · simp_all

/-- Reading the bytes a table's head fits in. -/
lemma run_fromBytes {len : Nat} (hlen : beNat (piece bytes 4 6) = len)
    (h : 6 + len + 2 ≤ bytes.length) :
    (fromBytes bytes : Exec SchemaError σ _).run s =
      ((Exec.textOf .invalidTableNameEncoding (piece bytes 6 (6 + len))).run s).andThen
        fun name s => ((readMany ColumnMetadata.fromBytes bytes
            (beNat (piece bytes (6 + len) (6 + len + 2))) (6 + len + 2)).run s).andThen
          fun columns s => ((Exec.liftExcept (new ⟨UInt32.ofNat (beNat (piece bytes 0 4))⟩ name
              columns.1)).run s).andThen
            fun table s => .ok (table, columns.2) s := by
  have hprefix : ¬ bytes.length < tableNameLengthPrefixBytes := by
    unfold tableNameLengthPrefixBytes
    omega
  have hstart : ¬ bytes.length < tableNameLengthPrefixBytes + len + 2 := by
    unfold tableNameLengthPrefixBytes
    omega
  rw [fromBytes, if_neg hprefix, Exec.run_bind, Exec.run_slice (by omega) (by omega),
    Outcome.andThen_ok, Exec.run_bind, Exec.run_slice (by omega) (by omega), Outcome.andThen_ok]
  simp only [hlen]
  rw [if_neg hstart, Exec.run_bind, Exec.run_slice (by omega) (by omega), Outcome.andThen_ok,
    Exec.run_bind, Exec.run_slice (by omega) (by omega), Outcome.andThen_ok, Exec.run_bind]
  rfl

/-- Reading bytes too short for a table's head. -/
lemma run_fromBytes_short (h : bytes.length < 6 + beNat (piece bytes 4 6) + 2) :
    (fromBytes bytes : Exec SchemaError σ _).run s = .err .truncatedTableMetadata s := by
  unfold fromBytes tableNameLengthPrefixBytes
  split
  · rfl
  · rw [Exec.run_bind, Exec.run_slice (by omega) (by omega), Outcome.andThen_ok, Exec.run_bind,
      Exec.run_slice (by omega) (by omega), Outcome.andThen_ok, if_pos (by omega)]
    rfl

theorem codec : Codec toBytes (fromBytes : List UInt8 → Exec SchemaError σ _) := by
  constructor
  · intro bytes s
    by_cases h : 6 + beNat (piece bytes 4 6) + 2 ≤ bytes.length
    · rw [run_fromBytes rfl h]
      apply andThen_returns textOf_returns
      intro name _
      apply andThen_returns (ColumnMetadata.codec.readMany_returns _ h)
      intro columns _
      apply andThen_returns (liftExcept_returns _)
      exact fun table _ => .inl ⟨_, rfl⟩
    · rw [run_fromBytes_short (by omega)]
      exact .inr ⟨_, rfl⟩
  · intro table bytes hwrite rest s
    have ⟨hname, hcount, columnBytes, hcolumns, hbytes⟩ := toBytes_eq_ok.mp hwrite
    let head := recordHead table.id.id table.name
    let count := beBytes 2 table.columns.length
    have hbody : bytes ++ rest = head ++ (count ++ (columnBytes ++ rest)) := by
      rw [hbytes, List.append_assoc, List.append_assoc]
    have hbytesLen : bytes.length = 6 + (utf8Bytes table.name).length + 2 + columnBytes.length := by
      rw [hbytes, List.length_append, List.length_append, length_recordHead, length_beBytes]
    have hlen : beNat (piece (head ++ (count ++ (columnBytes ++ rest))) 4 6) =
        (utf8Bytes table.name).length := by
      rw [piece_nameLen, beNat_u16 hname]
    have hfits : 6 + (utf8Bytes table.name).length + 2 ≤
        (head ++ (count ++ (columnBytes ++ rest))).length := by
      simp [head, count]
    have hcountAt : piece (head ++ (count ++ (columnBytes ++ rest)))
        (6 + (utf8Bytes table.name).length) (6 + (utf8Bytes table.name).length + 2) = count := by
      apply piece_append <;> simp [head, count]
    have hmany := ColumnMetadata.codec.readMany_complete hcolumns (head ++ count) rest s
    have hfront : (head ++ count).length = 6 + (utf8Bytes table.name).length + 2 := by
      simp [head, count]
    rw [hfront, List.append_assoc] at hmany
    rw [hbody, hbytesLen, run_fromBytes hlen hfits, piece_name, run_textOf_utf8Bytes, ofNat_id,
      hcountAt, beNat_u16 hcount]
    simp only [Outcome.andThen_ok, hmany, liftExcept_ok (new_self table)]
  · intro bytes s table n s' hread
    by_cases h : 6 + beNat (piece bytes 4 6) + 2 ≤ bytes.length
    · rw [run_fromBytes rfl h] at hread
      have ⟨name, s₁, hname, hread⟩ := Outcome.andThen_eq_ok.mp hread
      have ⟨⟨columns, stop⟩, s₂, hcolumns, hread⟩ := Outcome.andThen_eq_ok.mp hread
      have ⟨table', s₃, hnew, hread⟩ := Outcome.andThen_eq_ok.mp hread
      cases hread
      have hname := (textOf_eq_ok hname).1
      have ⟨hid, htableName, htableColumns⟩ := fields_of_new (liftExcept_eq_ok.mp hnew).1
      have ⟨hcount, hle, hstop, hwrite⟩ := ColumnMetadata.codec.readMany_sound h hcolumns
      have hlenLt : beNat (piece bytes 4 6) < 256 ^ 2 := beNat_piece_lt 2 (by omega)
      have hcountLt : beNat (piece bytes (6 + beNat (piece bytes 4 6))
          (6 + beNat (piece bytes 4 6) + 2)) < 256 ^ 2 := beNat_piece_lt 2 h
      refine ⟨hstop, toBytes_eq_ok.mpr ⟨?_, ?_, ?_⟩⟩
      · rw [htableName, hname, length_piece (by omega), u16Max]
        omega
      · rw [htableColumns, hcount, u16Max]
        omega
      · rw [htableColumns]
        refine ⟨_, hwrite, ?_⟩
        rw [hid, htableName, hcount, recordHead_of_pieces rfl (by omega) hname, beBytes_piece 2 h,
          piece_append_piece (by omega) (by omega), piece_append_piece (by omega) hle, piece_zero]
    · rw [run_fromBytes_short (by omega)] at hread
      cases hread

end TableMetadata

/-! ### Indexes -/

namespace IndexMetadata

variable {σ : Type} {bytes : List UInt8} {s : σ} {index : IndexMetadata}

lemma toBytes_eq_ok : index.toBytes = .ok bytes ↔
    (utf8Bytes index.name).length ≤ u16Max ∧
      bytes = recordHead index.id.id index.name ++ beBytes 4 index.tableId.id.toNat ++
        beBytes 4 index.columnId.id.toNat ++ index.rootPageId.toBytes := by
  simp only [toBytes, u16TryFrom]
  split <;> simp_all [recordHead, eq_comm]

/-- Reading the bytes an index fits in. -/
lemma run_fromBytes {len : Nat} (hlen : beNat (piece bytes 4 6) = len)
    (h : 6 + len + 16 ≤ bytes.length) :
    (fromBytes bytes : Exec SchemaError σ _).run s =
      ((Exec.textOf .invalidIndexNameEncoding (piece bytes 6 (6 + len))).run s).andThen
        fun name s => .ok (⟨⟨UInt32.ofNat (beNat (piece bytes 0 4))⟩, name,
          ⟨UInt32.ofNat (beNat (piece bytes (6 + len) (6 + len + 4)))⟩,
          ⟨UInt32.ofNat (beNat (piece bytes (6 + len + 4) (6 + len + 4 + 4)))⟩,
          PageId.fromBytes (piece bytes (6 + len + 4 + 4) (6 + len + 4 + 4 + 8))⟩,
          6 + len + 16) s := by
  have hprefix : ¬ bytes.length < indexNameLengthPrefixBytes := by
    unfold indexNameLengthPrefixBytes
    omega
  have hconsumed : ¬ bytes.length < indexNameLengthPrefixBytes + len + 16 := by
    unfold indexNameLengthPrefixBytes
    omega
  rw [fromBytes, if_neg hprefix, Exec.run_bind, Exec.run_slice (by omega) (by omega),
    Outcome.andThen_ok, Exec.run_bind,
    Exec.run_slice (by unfold indexNameLengthPrefixBytes; omega) (by omega), Outcome.andThen_ok]
  unfold indexNameLengthPrefixBytes at hconsumed ⊢
  simp only [hlen]
  rw [if_neg hconsumed, Exec.run_bind, Exec.run_slice (by omega) (by omega), Outcome.andThen_ok,
    Exec.run_bind]
  congr 1
  funext name s
  rw [Exec.run_bind, Exec.run_slice (by omega) (by omega), Outcome.andThen_ok, Exec.run_bind,
    Exec.run_slice (by omega) (by omega), Outcome.andThen_ok, Exec.run_bind,
    Exec.run_slice (by omega) (by omega), Outcome.andThen_ok, Exec.run_pure]

/-- Reading bytes too short for an index. -/
lemma run_fromBytes_short (h : bytes.length < 6 + beNat (piece bytes 4 6) + 16) :
    (fromBytes bytes : Exec SchemaError σ _).run s = .err .truncatedIndexMetadata s := by
  unfold fromBytes indexNameLengthPrefixBytes
  split
  · rfl
  · rw [Exec.run_bind, Exec.run_slice (by omega) (by omega), Outcome.andThen_ok, Exec.run_bind,
      Exec.run_slice (by omega) (by omega), Outcome.andThen_ok, if_pos (by omega)]
    rfl

theorem codec : Codec toBytes (fromBytes : List UInt8 → Exec SchemaError σ _) := by
  constructor
  · intro bytes s
    by_cases h : 6 + beNat (piece bytes 4 6) + 16 ≤ bytes.length
    · rw [run_fromBytes rfl h]
      apply andThen_returns textOf_returns
      exact fun name _ => .inl ⟨_, rfl⟩
    · rw [run_fromBytes_short (by omega)]
      exact .inr ⟨_, rfl⟩
  · intro index bytes hwrite rest s
    have ⟨hname, hbytes⟩ := toBytes_eq_ok.mp hwrite
    let head := recordHead index.id.id index.name
    let tableBytes := beBytes 4 index.tableId.id.toNat
    let columnBytes := beBytes 4 index.columnId.id.toNat
    let rootBytes := index.rootPageId.toBytes
    have hbody : bytes ++ rest =
        head ++ (tableBytes ++ (columnBytes ++ (rootBytes ++ rest))) := by
      rw [hbytes, List.append_assoc, List.append_assoc, List.append_assoc]
    have hbytesLen : bytes.length = 6 + (utf8Bytes index.name).length + 16 := by
      rw [hbytes]
      simp only [List.length_append, length_recordHead, length_beBytes, PageId.length_toBytes]
    have hlen : beNat (piece (head ++ (tableBytes ++ (columnBytes ++ (rootBytes ++ rest)))) 4 6) =
        (utf8Bytes index.name).length := by
      rw [piece_nameLen, beNat_u16 hname]
    have hfits : 6 + (utf8Bytes index.name).length + 16 ≤
        (head ++ (tableBytes ++ (columnBytes ++ (rootBytes ++ rest)))).length := by
      rw [← hbody, List.length_append, hbytesLen]
      omega
    have htable : piece (head ++ (tableBytes ++ (columnBytes ++ (rootBytes ++ rest))))
        (6 + (utf8Bytes index.name).length) (6 + (utf8Bytes index.name).length + 4) =
          tableBytes := by
      apply piece_append <;> simp [head, tableBytes]
    have hcolumn : piece (head ++ (tableBytes ++ (columnBytes ++ (rootBytes ++ rest))))
        (6 + (utf8Bytes index.name).length + 4) (6 + (utf8Bytes index.name).length + 4 + 4) =
          columnBytes := by
      rw [← List.append_assoc head]
      apply piece_append <;> simp [head, tableBytes, columnBytes]
    have hroot : piece (head ++ (tableBytes ++ (columnBytes ++ (rootBytes ++ rest))))
        (6 + (utf8Bytes index.name).length + 4 + 4)
        (6 + (utf8Bytes index.name).length + 4 + 4 + 8) = rootBytes := by
      rw [← List.append_assoc head, ← List.append_assoc (head ++ tableBytes)]
      apply piece_append <;> simp [head, tableBytes, columnBytes, rootBytes]
    have htableId : beNat tableBytes = index.tableId.id.toNat :=
      beNat_beBytes_of_lt index.tableId.id.toNat_lt
    have hcolumnId : beNat columnBytes = index.columnId.id.toNat :=
      beNat_beBytes_of_lt index.columnId.id.toNat_lt
    rw [hbody, hbytesLen, run_fromBytes hlen hfits, piece_name, run_textOf_utf8Bytes, ofNat_id,
      htable, hcolumn, hroot, htableId, hcolumnId, PageId.fromBytes_toBytes, UInt32.ofNat_toNat,
      UInt32.ofNat_toNat]
    rfl
  · intro bytes s index n s' hread
    by_cases h : 6 + beNat (piece bytes 4 6) + 16 ≤ bytes.length
    · rw [run_fromBytes rfl h] at hread
      have ⟨name, s₁, hname, hread⟩ := Outcome.andThen_eq_ok.mp hread
      cases hread
      have hname := (textOf_eq_ok hname).1
      have hlenLt : beNat (piece bytes 4 6) < 256 ^ 2 := beNat_piece_lt 2 (by omega)
      refine ⟨h, toBytes_eq_ok.mpr ⟨?_, ?_⟩⟩
      · simp only
        rw [hname, length_piece (by omega), u16Max]
        omega
      · simp only
        rw [recordHead_of_pieces rfl (by omega) hname, beBytes_u32 (by omega),
          beBytes_u32 (by omega), PageId.toBytes_fromBytes (by rw [length_piece h]; omega),
          piece_append_piece (by omega) (by omega), piece_append_piece (by omega) (by omega),
          piece_append_piece (by omega) (by omega), piece_zero]
    · rw [run_fromBytes_short (by omega)] at hread
      cases hread

end IndexMetadata

/-! ### The database -/

namespace DatabaseMetadata

variable {σ : Type} {bytes : List UInt8} {s : σ} {self m : DatabaseMetadata}

lemma addTable_eq_ok {table : TableMetadata} : self.addTable table = .ok m ↔
    ((∀ t ∈ self.tables, t.id ≠ table.id) ∧ ∀ t ∈ self.tables, t.name ≠ table.name) ∧
      m.name = self.name ∧ m.tables = self.tables ++ [table] ∧ m.indexes = self.indexes := by
  unfold addTable
  split
  · next hid =>
    have : ¬ ∀ t ∈ self.tables, t.id ≠ table.id := by
      intro h
      rw [tableById, find_key_none.mpr h] at hid
      cases hid
    simp [this]
  · next hid =>
    split
    · next hname =>
      have : ¬ ∀ t ∈ self.tables, t.name ≠ table.name := by
        intro h
        rw [DatabaseMetadata.table, find_key_none.mpr h] at hname
        cases hname
      simp [this]
    · next hname =>
      constructor
      · intro h
        cases h
        exact ⟨⟨find_key_none.mp hid, find_key_none.mp hname⟩, rfl, rfl, rfl⟩
      · intro ⟨_, h₁, h₂, h₃⟩
        exact congrArg Except.ok (DatabaseMetadata.ext h₁.symm h₂.symm h₃.symm)

lemma addTable_ok_iff {table : TableMetadata} : (∃ m, self.addTable table = .ok m) ↔
    (∀ t ∈ self.tables, t.id ≠ table.id) ∧ ∀ t ∈ self.tables, t.name ≠ table.name := by
  constructor
  · exact fun ⟨m, hm⟩ => (addTable_eq_ok.mp hm).1
  · intro ⟨hid, hname⟩
    exact ⟨⟨self.name, self.tables ++ [table], self.indexes, self.consistent.push_table hid hname⟩,
      addTable_eq_ok.mpr ⟨⟨hid, hname⟩, rfl, rfl, rfl⟩⟩

/-- What `add_index` checks of the column. -/
def Refers (self : DatabaseMetadata) (index : IndexMetadata) : Prop :=
  ∃ table ∈ self.tables, table.id = index.tableId ∧
    ∃ column ∈ table.columns, column.id = index.columnId

lemma addIndex_eq_ok {index : IndexMetadata} : self.addIndex index = .ok m ↔
    ((∀ i ∈ self.indexes, i.id ≠ index.id) ∧ (∀ i ∈ self.indexes, i.name ≠ index.name) ∧
      self.Refers index) ∧
      m.name = self.name ∧ m.tables = self.tables ∧ m.indexes = self.indexes ++ [index] := by
  unfold addIndex
  split
  · next hid =>
    have : ¬ ∀ i ∈ self.indexes, i.id ≠ index.id := by
      intro h
      rw [indexById, find_key_none.mpr h] at hid
      cases hid
    simp [this]
  · next hid =>
    split
    · next hname =>
      have : ¬ ∀ i ∈ self.indexes, i.name ≠ index.name := by
        intro h
        rw [DatabaseMetadata.index, find_key_none.mpr h] at hname
        cases hname
      simp [this]
    · next hname =>
      split
      · next table htable =>
        split
        · next hcolumn =>
          have : ¬ self.Refers index := by
            intro ⟨other, hother, hid', column, hcolumn', hcolumnId⟩
            have htableId : table.id = index.tableId :=
              of_decide_eq_true (List.find?_some (p := fun t : TableMetadata => t.id = index.tableId) htable)
            have hsame : other = table := by
              apply List.inj_on_of_nodup_map self.consistent.tableIds hother
                (List.mem_of_find?_eq_some htable)
              rw [hid', htableId]
            rw [hsame] at hcolumn'
            have := List.findIdx?_eq_none_iff.mp hcolumn column hcolumn'
            exact of_decide_eq_false this hcolumnId
          simp [this]
        · next hcolumn =>
          constructor
          · intro h
            cases h
            exact ⟨⟨find_key_none.mp hid, find_key_none.mp hname, refers_of_find htable hcolumn⟩,
              rfl, rfl, rfl⟩
          · intro ⟨_, h₁, h₂, h₃⟩
            exact congrArg Except.ok (DatabaseMetadata.ext h₁.symm h₂.symm h₃.symm)
      · next htable =>
        have : ¬ self.Refers index := by
          intro ⟨table, hmem, hid', _⟩
          exact find_key_none.mp htable table hmem hid'
        simp [this]

lemma addIndex_ok_iff {index : IndexMetadata} : (∃ m, self.addIndex index = .ok m) ↔
    (∀ i ∈ self.indexes, i.id ≠ index.id) ∧ (∀ i ∈ self.indexes, i.name ≠ index.name) ∧
      self.Refers index := by
  constructor
  · exact fun ⟨m, hm⟩ => (addIndex_eq_ok.mp hm).1
  · intro ⟨hid, hname, hrefers⟩
    exact ⟨⟨self.name, self.tables, self.indexes ++ [index],
        self.consistent.push_index hid hname hrefers⟩,
      addIndex_eq_ok.mpr ⟨⟨hid, hname, hrefers⟩, rfl, rfl, rfl⟩⟩

lemma ne_of_nodup_append {α β : Type} {f : α → β} {l rest : List α} {a : α}
    (h : ((l ++ a :: rest).map f).Nodup) : ∀ b ∈ l, f b ≠ f a := by
  intro b hb heq
  rw [List.map_append, List.nodup_append] at h
  exact h.2.2 (f b) (List.mem_map_of_mem hb) (f a) (List.mem_map_of_mem List.mem_cons_self) heq

/-- Adding tables one by one appends them. -/
lemma foldlM_addTable (tables : List TableMetadata)
    (h : Consistent (self.tables ++ tables) self.indexes) :
    tables.foldlM addTable self = .ok ⟨self.name, self.tables ++ tables, self.indexes, h⟩ := by
  induction tables generalizing self with
  | nil =>
    rw [List.foldlM_nil]
    exact congrArg Except.ok (DatabaseMetadata.ext rfl (List.append_nil _).symm rfl)
  | cons table tables ih =>
    have hids := ne_of_nodup_append h.tableIds
    have hnames := ne_of_nodup_append h.tableNames
    have hstep : self.addTable table = .ok ⟨self.name, self.tables ++ [table], self.indexes,
        self.consistent.push_table hids hnames⟩ :=
      addTable_eq_ok.mpr ⟨⟨hids, hnames⟩, rfl, rfl, rfl⟩
    have hrest : Consistent (self.tables ++ [table] ++ tables) self.indexes := by
      rwa [List.append_assoc]
    rw [List.foldlM_cons, hstep, except_bind_ok, ih hrest]
    exact congrArg Except.ok (DatabaseMetadata.ext rfl (List.append_assoc _ _ _) rfl)

/-- Adding indexes one by one appends them. -/
lemma foldlM_addIndex (indexes : List IndexMetadata)
    (h : Consistent self.tables (self.indexes ++ indexes)) :
    indexes.foldlM addIndex self = .ok ⟨self.name, self.tables, self.indexes ++ indexes, h⟩ := by
  induction indexes generalizing self with
  | nil =>
    rw [List.foldlM_nil]
    exact congrArg Except.ok (DatabaseMetadata.ext rfl rfl (List.append_nil _).symm)
  | cons index indexes ih =>
    have hids := ne_of_nodup_append h.indexIds
    have hnames := ne_of_nodup_append h.indexNames
    have hrefers := h.refers index (List.mem_append_right _ List.mem_cons_self)
    have hstep : self.addIndex index = .ok ⟨self.name, self.tables, self.indexes ++ [index],
        self.consistent.push_index hids hnames hrefers⟩ :=
      addIndex_eq_ok.mpr ⟨⟨hids, hnames, hrefers⟩, rfl, rfl, rfl⟩
    have hrest : Consistent self.tables (self.indexes ++ [index] ++ indexes) := by
      rwa [List.append_assoc]
    rw [List.foldlM_cons, hstep, except_bind_ok, ih hrest]
    exact congrArg Except.ok (DatabaseMetadata.ext rfl rfl (List.append_assoc _ _ _))

/-- The constructor takes what a database already holds. -/
@[simp] lemma new_self (m : DatabaseMetadata) : new m.name m.tables m.indexes = .ok m := by
  have hempty : Consistent ([] ++ m.tables) [] :=
    ⟨m.consistent.tableIds, m.consistent.tableNames, List.nodup_nil, List.nodup_nil,
      fun _ h => by cases h⟩
  rw [new, foldlM_addTable m.tables hempty, except_bind_ok, foldlM_addIndex m.indexes m.consistent]
  rfl

lemma fields_of_foldlM_addTable {tables : List TableMetadata}
    (h : tables.foldlM addTable self = .ok m) :
    m.name = self.name ∧ m.tables = self.tables ++ tables ∧ m.indexes = self.indexes := by
  induction tables generalizing self with
  | nil =>
    cases h
    exact ⟨rfl, (List.append_nil _).symm, rfl⟩
  | cons table tables ih =>
    rw [List.foldlM_cons] at h
    cases hstep : self.addTable table with
    | error e =>
      rw [hstep] at h
      cases h
    | ok next =>
      rw [hstep, except_bind_ok] at h
      have ⟨_, hname, htables, hindexes⟩ := addTable_eq_ok.mp hstep
      have ⟨hname', htables', hindexes'⟩ := ih h
      exact ⟨hname'.trans hname, by rw [htables', htables, List.append_assoc]; rfl,
        hindexes'.trans hindexes⟩

lemma fields_of_foldlM_addIndex {indexes : List IndexMetadata}
    (h : indexes.foldlM addIndex self = .ok m) :
    m.name = self.name ∧ m.tables = self.tables ∧ m.indexes = self.indexes ++ indexes := by
  induction indexes generalizing self with
  | nil =>
    cases h
    exact ⟨rfl, rfl, (List.append_nil _).symm⟩
  | cons index indexes ih =>
    rw [List.foldlM_cons] at h
    cases hstep : self.addIndex index with
    | error e =>
      rw [hstep] at h
      cases h
    | ok next =>
      rw [hstep, except_bind_ok] at h
      have ⟨_, hname, htables, hindexes⟩ := addIndex_eq_ok.mp hstep
      have ⟨hname', htables', hindexes'⟩ := ih h
      exact ⟨hname'.trans hname, htables'.trans htables,
        by rw [hindexes', hindexes, List.append_assoc]; rfl⟩

lemma fields_of_new {name : String} {tables : List TableMetadata} {indexes : List IndexMetadata}
    (h : new name tables indexes = .ok m) :
    m.name = name ∧ m.tables = tables ∧ m.indexes = indexes := by
  unfold new at h
  cases hwith : tables.foldlM addTable ⟨name, [], [], .empty⟩ with
  | error e =>
    rw [hwith] at h
    cases h
  | ok withTables =>
    rw [hwith, except_bind_ok] at h
    have ⟨hname, htables, hindexes⟩ := fields_of_foldlM_addTable hwith
    have ⟨hname', htables', hindexes'⟩ := fields_of_foldlM_addIndex h
    exact ⟨hname'.trans hname, htables'.trans htables, by rw [hindexes', hindexes]; rfl⟩

/-- The bytes up to the tables. -/
def head (name : String) (tableCount : Nat) : List UInt8 :=
  beBytes 2 (utf8Bytes name).length ++ utf8Bytes name ++ beBytes 2 tableCount

lemma toBytes_eq_ok : m.toBytes = .ok bytes ↔
    (utf8Bytes m.name).length ≤ u16Max ∧ m.tables.length ≤ u16Max ∧ m.indexes.length ≤ u16Max ∧
      ∃ tableBytes indexBytes, writeMany TableMetadata.toBytes m.tables = .ok tableBytes ∧
        writeMany IndexMetadata.toBytes m.indexes = .ok indexBytes ∧
        bytes = head m.name m.tables.length ++ tableBytes ++ beBytes 2 m.indexes.length ++
          indexBytes := by
  simp only [toBytes, u16TryFrom]
  split
  · split
    · cases writeMany TableMetadata.toBytes m.tables with
      | error e => simp
      | ok tableBytes =>
        simp only [except_bind_ok]
        split
        · cases writeMany IndexMetadata.toBytes m.indexes with
          | error e => simp
          | ok indexBytes => simp_all [head, eq_comm]
        · simp_all
    · simp_all
  · simp_all

/-- Reading the indexes, which a catalog written before they existed does not have. -/
def readIndexes (bytes : List UInt8) (name : String) (tables : List TableMetadata) (offset : Nat) :
    Exec SchemaError σ (DatabaseMetadata × Nat) :=
  if bytes.length = offset then do
    let database ← Exec.liftExcept (new name tables [])
    pure (database, offset)
  else if bytes.length < offset + 2 then Exec.throw .truncatedDatabaseMetadata
  else do
    let countBytes ← Exec.slice bytes offset (offset + 2)
    let (indexes, offset) ←
      readMany IndexMetadata.fromBytes bytes (beNat countBytes) (offset + 2)
    let database ← Exec.liftExcept (new name tables indexes)
    pure (database, offset)

/-- Reading the bytes a database's head fits in. -/
lemma run_fromBytes {len : Nat} (hlen : beNat (piece bytes 0 2) = len)
    (h : 2 + len + 2 ≤ bytes.length) :
    (fromBytes bytes : Exec SchemaError σ _).run s =
      ((Exec.textOf .invalidDatabaseNameEncoding (piece bytes 2 (2 + len))).run s).andThen
        fun name s => ((readMany TableMetadata.fromBytes bytes
            (beNat (piece bytes (2 + len) (2 + len + 2))) (2 + len + 2)).run s).andThen
          fun tables s => (readIndexes bytes name tables.1 tables.2).run s := by
  have hprefix : ¬ bytes.length < databaseNameLengthPrefixBytes := by
    unfold databaseNameLengthPrefixBytes
    omega
  have hstart : ¬ bytes.length < databaseNameLengthPrefixBytes + len + 2 := by
    unfold databaseNameLengthPrefixBytes
    omega
  rw [fromBytes, if_neg hprefix, Exec.run_bind, Exec.run_slice (by omega) (by omega),
    Outcome.andThen_ok]
  simp only [hlen]
  rw [if_neg hstart, Exec.run_bind, Exec.run_slice (by omega) (by omega), Outcome.andThen_ok,
    Exec.run_bind, Exec.run_slice (by omega) (by omega), Outcome.andThen_ok, Exec.run_bind]
  rfl

/-- Reading bytes too short for a database's head. -/
lemma run_fromBytes_short (h : bytes.length < 2 + beNat (piece bytes 0 2) + 2) :
    (fromBytes bytes : Exec SchemaError σ _).run s = .err .truncatedDatabaseMetadata s := by
  unfold fromBytes databaseNameLengthPrefixBytes
  split
  · rfl
  · rw [Exec.run_bind, Exec.run_slice (by omega) (by omega), Outcome.andThen_ok, if_pos (by omega)]
    rfl

/-- Reading the indexes from their count on. -/
lemma run_readIndexes {name : String} {tables : List TableMetadata} {offset : Nat}
    (h : offset + 2 ≤ bytes.length) :
    (readIndexes bytes name tables offset : Exec SchemaError σ _).run s =
      ((readMany IndexMetadata.fromBytes bytes (beNat (piece bytes offset (offset + 2)))
          (offset + 2)).run s).andThen
        fun indexes s => ((Exec.liftExcept (new name tables indexes.1)).run s).andThen
          fun database s => .ok (database, indexes.2) s := by
  rw [readIndexes, if_neg (by omega), if_neg (by omega), Exec.run_bind,
    Exec.run_slice (by omega) h, Outcome.andThen_ok]
  rfl

lemma readIndexes_returns {name : String} {tables : List TableMetadata} {offset : Nat} :
    ((readIndexes bytes name tables offset : Exec SchemaError σ _).run s).Returns s := by
  by_cases h : offset + 2 ≤ bytes.length
  · rw [run_readIndexes h]
    apply andThen_returns (IndexMetadata.codec.readMany_returns _ h)
    intro indexes _
    apply andThen_returns (liftExcept_returns _)
    exact fun database _ => .inl ⟨_, rfl⟩
  · unfold readIndexes
    split
    · rw [Exec.run_bind]
      apply andThen_returns (liftExcept_returns _)
      exact fun database _ => .inl ⟨_, rfl⟩
    · rw [if_pos (by omega)]
      exact .inr ⟨_, rfl⟩

/-- Reading a database returns on every byte string. -/
theorem fromBytes_returns (bytes : List UInt8) (s : σ) :
    ((fromBytes bytes : Exec SchemaError σ _).run s).Returns s := by
  by_cases h : 2 + beNat (piece bytes 0 2) + 2 ≤ bytes.length
  · rw [run_fromBytes rfl h]
    apply andThen_returns textOf_returns
    intro name _
    apply andThen_returns (TableMetadata.codec.readMany_returns _ h)
    exact fun tables _ => readIndexes_returns
  · rw [run_fromBytes_short (by omega)]
    exact .inr ⟨_, rfl⟩

lemma length_head {name : String} {n : Nat} :
    (head name n).length = 2 + (utf8Bytes name).length + 2 := by
  simp only [head, List.length_append, length_beBytes]

/-- What a database wrote is read back, whatever follows it. -/
theorem fromBytes_toBytes (h : m.toBytes = .ok bytes) (rest : List UInt8) (s : σ) :
    (fromBytes (bytes ++ rest)).run s = .ok (m, bytes.length) s := by
  have ⟨hname, htableCount, hindexCount, tableBytes, indexBytes, htables, hindexes, hbytes⟩ :=
    toBytes_eq_ok.mp h
  let len := (utf8Bytes m.name).length
  let count := beBytes 2 m.indexes.length
  let body := head m.name m.tables.length ++ (tableBytes ++ (count ++ (indexBytes ++ rest)))
  have hbody : bytes ++ rest = body := by
    rw [hbytes, List.append_assoc, List.append_assoc, List.append_assoc]
  have hbodyLen : body.length =
      2 + len + 2 + (tableBytes.length + (2 + (indexBytes.length + rest.length))) := by
    simp only [body, count, List.length_append, length_head, length_beBytes, len]
  have hlen : beNat (piece body 0 2) = len := by
    have hpiece : piece body 0 2 = beBytes 2 len := by
      simp only [body, head, List.append_assoc]
      exact piece_append [] (beBytes 2 len) _ rfl (by simp)
    rw [hpiece, beNat_u16 hname]
  have hfits : 2 + len + 2 ≤ body.length := by
    omega
  have hnameAt : piece body 2 (2 + len) = utf8Bytes m.name := by
    simp only [body, head, List.append_assoc]
    apply piece_append <;> simp [len]
  have hcountAt : piece body (2 + len) (2 + len + 2) = beBytes 2 m.tables.length := by
    simp only [body, head, List.append_assoc]
    rw [← List.append_assoc (beBytes 2 _)]
    apply piece_append <;> simp [len]
  have htablesAt := TableMetadata.codec.readMany_complete htables (head m.name m.tables.length)
    (count ++ (indexBytes ++ rest)) s
  rw [length_head] at htablesAt
  have hindexCountAt : piece body (2 + len + 2 + tableBytes.length)
      (2 + len + 2 + tableBytes.length + 2) = count := by
    simp only [body]
    rw [← List.append_assoc (head _ _)]
    apply piece_append <;> simp [length_head, len, count]
  have hindexesAt := IndexMetadata.codec.readMany_complete hindexes
    (head m.name m.tables.length ++ (tableBytes ++ count)) rest s
  have hfront : head m.name m.tables.length ++ (tableBytes ++ count) ++ (indexBytes ++ rest) = body := by
    simp only [body, List.append_assoc]
  have hfrontLen : (head m.name m.tables.length ++ (tableBytes ++ count)).length =
      2 + len + 2 + tableBytes.length + 2 := by
    simp only [List.length_append, length_head, count, length_beBytes, len, Nat.add_assoc]
  rw [hfront, hfrontLen] at hindexesAt
  have hbytesLen : bytes.length = 2 + len + 2 + tableBytes.length + 2 + indexBytes.length := by
    rw [hbytes]
    simp only [List.length_append, length_head, length_beBytes, len]
  rw [hbody, run_fromBytes hlen hfits, hnameAt, run_textOf_utf8Bytes, hcountAt, beNat_u16 htableCount]
  simp only [Outcome.andThen_ok]
  rw [htablesAt]
  simp only [Outcome.andThen_ok]
  rw [run_readIndexes (by omega), hindexCountAt, beNat_u16 hindexCount, hindexesAt]
  simp only [Outcome.andThen_ok]
  rw [liftExcept_ok (new_self m), Outcome.andThen_ok, hbytesLen]

/-- Only what a database would write is read; a catalog that ends after its tables lacks the
count of no indexes. -/
theorem toBytes_of_fromBytes {n : Nat} {s' : σ} (h : (fromBytes bytes).run s = .ok (m, n) s') :
    n ≤ bytes.length ∧ (m.toBytes = .ok (bytes.take n) ∨
      n = bytes.length ∧ m.indexes = [] ∧ m.toBytes = .ok (bytes ++ [0, 0])) := by
  by_cases hfits : 2 + beNat (piece bytes 0 2) + 2 ≤ bytes.length
  · rw [run_fromBytes rfl hfits] at h
    have ⟨name, s₁, hname, h⟩ := Outcome.andThen_eq_ok.mp h
    have ⟨⟨tables, offset⟩, s₂, htables, h⟩ := Outcome.andThen_eq_ok.mp h
    have hname := (textOf_eq_ok hname).1
    have ⟨hcount, hle, hoffset, hwrite⟩ := TableMetadata.codec.readMany_sound hfits htables
    have hnameLen : (utf8Bytes name).length = beNat (piece bytes 0 2) := by
      rw [hname, length_piece (by omega), Nat.add_sub_cancel_left]
    have hlenLt : beNat (piece bytes 0 2) < 256 ^ 2 := beNat_piece_lt 2 (by omega)
    have hcountLt : beNat (piece bytes (2 + beNat (piece bytes 0 2))
        (2 + beNat (piece bytes 0 2) + 2)) < 256 ^ 2 := beNat_piece_lt 2 hfits
    have hhead : head name tables.length = piece bytes 0 (2 + beNat (piece bytes 0 2) + 2) := by
      have hlenBytes : beBytes 2 (beNat (piece bytes 0 2)) = piece bytes 0 2 := by
        apply beBytes_piece 2
        omega
      rw [head, hcount, beBytes_piece 2 hfits, hnameLen, hlenBytes, hname,
        piece_append_piece (by omega) (by omega), piece_append_piece (by omega) (by omega)]
    have hu16 : (utf8Bytes name).length ≤ u16Max ∧ tables.length ≤ u16Max := by
      rw [hnameLen, hcount, u16Max]
      omega
    by_cases hend : bytes.length = offset
    · rw [readIndexes, if_pos hend, Exec.run_bind] at h
      have ⟨database, s₃, hnew, h⟩ := Outcome.andThen_eq_ok.mp h
      cases h
      have ⟨hmname, hmtables, hmindexes⟩ := fields_of_new (liftExcept_eq_ok.mp hnew).1
      refine ⟨hoffset, .inr ⟨hend.symm, hmindexes, toBytes_eq_ok.mpr ?_⟩⟩
      rw [hmname, hmtables, hmindexes]
      refine ⟨hu16.1, hu16.2, Nat.zero_le _, _, [], hwrite, rfl, ?_⟩
      have hzero : beBytes 2 0 = [0, 0] := by decide
      rw [hhead, piece_append_piece (by omega) hle, ← hend, piece_zero, List.take_length,
        List.length_nil, hzero, List.append_nil]
    · by_cases hindexCount : offset + 2 ≤ bytes.length
      · rw [run_readIndexes hindexCount] at h
        have ⟨⟨indexes, stop⟩, s₃, hindexes, h⟩ := Outcome.andThen_eq_ok.mp h
        have ⟨database, s₄, hnew, h⟩ := Outcome.andThen_eq_ok.mp h
        cases h
        have ⟨hmname, hmtables, hmindexes⟩ := fields_of_new (liftExcept_eq_ok.mp hnew).1
        have ⟨hcount', hle', hstop, hwrite'⟩ :=
          IndexMetadata.codec.readMany_sound hindexCount hindexes
        have hcountLt' : beNat (piece bytes offset (offset + 2)) < 256 ^ 2 :=
          beNat_piece_lt 2 hindexCount
        have hindexU16 : indexes.length ≤ u16Max := by
          rw [hcount', u16Max]
          omega
        refine ⟨hstop, .inl (toBytes_eq_ok.mpr ?_)⟩
        rw [hmname, hmtables, hmindexes]
        refine ⟨hu16.1, hu16.2, hindexU16, _, _, hwrite, hwrite', ?_⟩
        rw [hhead, hcount', beBytes_piece 2 hindexCount, piece_append_piece (by omega) hle,
          piece_append_piece (by omega) (by omega), piece_append_piece (by omega) hle', piece_zero]
      · rw [readIndexes, if_neg hend, if_pos (by omega)] at h
        cases h
  · rw [run_fromBytes_short (by omega)] at h
    cases h

/-- The catalog format decodes what it encodes and nothing else, and looks at no byte outside
of its input: a slice out of range would panic. -/
theorem catalogFormat_exact :
    (∀ (m : DatabaseMetadata) (bytes : List UInt8), m.toBytes = .ok bytes →
      ∀ (rest : List UInt8) (s : σ), (fromBytes (bytes ++ rest)).run s = .ok (m, bytes.length) s) ∧
    (∀ (bytes : List UInt8) (s s' : σ) (m : DatabaseMetadata) (n : Nat),
      (fromBytes bytes).run s = .ok (m, n) s' →
        n ≤ bytes.length ∧ Consistent m.tables m.indexes ∧
          (∀ table ∈ m.tables, (table.columns.map fun column => column.id).Nodup ∧
            (table.columns.map fun column => column.name).Nodup) ∧
          (m.toBytes = .ok (bytes.take n) ∨
            n = bytes.length ∧ m.indexes = [] ∧ m.toBytes = .ok (bytes ++ [0, 0]))) ∧
    (∀ (bytes : List UInt8) (s : σ), ((fromBytes bytes).run s).Returns s) := by
  refine ⟨fun m bytes h rest s => fromBytes_toBytes h rest s, ?_, fromBytes_returns⟩
  intro bytes s s' m n h
  have ⟨hle, himage⟩ := toBytes_of_fromBytes h
  exact ⟨hle, m.consistent, fun table _ => ⟨table.distinctIds, table.distinctNames⟩, himage⟩

/-- A database `d` with one table `t` of one column `c` and an index `i` on it. -/
def indexedTable : DatabaseMetadata where
  name := "d"
  tables := [⟨⟨1⟩, "t", [⟨⟨1⟩, "c", .varchar⟩], by decide, by decide⟩]
  indexes := [⟨⟨1⟩, "i", ⟨1⟩, ⟨1⟩, ⟨0⟩⟩]
  consistent := ⟨by decide, by decide, by decide, by decide, by decide⟩

/-- Two bytes behind the encoding are left alone. -/
theorem catalogFormat_exact_indexedTable :
    (fromBytes ([0, 1, 100] ++ [0, 1] ++ [0, 0, 0, 1, 0, 1, 116, 0, 1] ++ [0, 0, 0, 1, 0, 1, 99, 3] ++
        [0, 1] ++ [0, 0, 0, 1, 0, 1, 105, 0, 0, 0, 1, 0, 0, 0, 1, 0, 0, 0, 0, 0, 0, 0, 0] ++
        [9, 9])).run () = .ok (indexedTable, 47) () := by
  exact catalogFormat_exact.1 indexedTable _ (by decide) [9, 9] ()

end DatabaseMetadata

end RdbRs
