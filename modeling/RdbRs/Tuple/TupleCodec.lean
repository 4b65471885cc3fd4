import RdbRs.Tuple.Tuple

/-!
# The row format

Encoding a row is a bijection onto the byte strings that decode: each value is read back from
its place behind any bytes and in front of any others, and what is read is what would be
written between the two cursors.
-/

namespace RdbRs.Tuple

open Exec

variable {σ : Type} {bytes : List UInt8} {cursor stop : Nat}

/-! ### The cursor -/

lemma run_take {length : Nat} (h : cursor + length ≤ bytes.length) :
    (take bytes length).run cursor = .ok (piece bytes cursor (cursor + length)) (cursor + length) := by
  rw [take, run_bind, run_gets, Outcome.andThen_ok, id_eq, if_neg (by omega), run_bind,
    run_slice (by omega) h]
  rfl

lemma run_take_short {length : Nat} (h : bytes.length < cursor + length) :
    (take bytes length).run cursor = .err .truncatedRow cursor := by
  rw [take, run_bind, run_gets, Outcome.andThen_ok, id_eq, if_pos h, run_throw]

lemma run_takeByte (h : cursor < bytes.length) :
    (takeByte bytes).run cursor = .ok bytes[cursor] (cursor + 1) := by
  have hlen : (piece bytes cursor (cursor + 1)).length = 1 := by
    rw [length_piece (by omega)]
    omega
  rw [takeByte, run_bind, run_take (by omega), Outcome.andThen_ok, Exec.run_byteAt (by omega)]
  simp [piece]

lemma run_takeByte_short (h : bytes.length ≤ cursor) :
    (takeByte bytes).run cursor = .err .truncatedRow cursor := by
  rw [takeByte, run_bind, run_take_short (by omega), Outcome.andThen_err]

/-! ### What a round may do -/

/-- A read that stays in the bytes: it moves the cursor forward or fails. -/
def Within {α : Type} (bytes : List UInt8) (cursor : Nat) (o : Outcome TupleError Nat α) : Prop :=
  (∃ a stop, o = .ok a stop ∧ cursor ≤ stop ∧ stop ≤ bytes.length) ∨
    ∃ e stop, o = .err e stop

section Within

variable {α β : Type}

lemma within_ok {a : α} (h : cursor ≤ stop) (h' : stop ≤ bytes.length) :
    Within bytes cursor (.ok a stop) := .inl ⟨a, stop, rfl, h, h'⟩

lemma within_err {e : TupleError} : Within (α := α) bytes cursor (.err e stop) := .inr ⟨e, stop, rfl⟩

lemma Within.andThen {o : Outcome TupleError Nat α} {f : α → Nat → Outcome TupleError Nat β}
    (h : Within bytes cursor o)
    (hf : ∀ a stop, cursor ≤ stop → stop ≤ bytes.length → Within bytes stop (f a stop)) :
    Within bytes cursor (o.andThen f) := by
  rcases h with ⟨a, stop, rfl, hle, hstop⟩ | ⟨e, stop, rfl⟩
  · rcases hf a stop hle hstop with ⟨b, stop', hb, hle', hstop'⟩ | ⟨e, stop', he⟩
    · exact .inl ⟨b, stop', hb, by omega, hstop'⟩
    · exact .inr ⟨e, stop', he⟩
  · exact .inr ⟨e, stop, rfl⟩

lemma take_within (length : Nat) : Within bytes cursor ((take bytes length).run cursor) := by
  by_cases h : cursor + length ≤ bytes.length
  · rw [run_take h]
    exact within_ok (by omega) h
  · rw [run_take_short (by omega)]
    exact within_err

lemma takeByte_within : Within bytes cursor ((takeByte bytes).run cursor) := by
  by_cases h : cursor < bytes.length
  · rw [run_takeByte h]
    exact within_ok (by omega) (by omega)
  · rw [run_takeByte_short (by omega)]
    exact within_err

lemma decodeContent_within (dataType : DataType) :
    Within bytes cursor ((decodeContent bytes dataType).run cursor) := by
  cases dataType with
  | int =>
    apply (take_within 4).andThen
    exact fun slice stop _ hstop => within_ok le_rfl hstop
  | bigInt =>
    apply (take_within 8).andThen
    exact fun slice stop _ hstop => within_ok le_rfl hstop
  | boolean =>
    apply takeByte_within.andThen
    intro b stop _ hstop
    simp only [run_ite, run_pure, run_throw]
    split
    · exact within_ok le_rfl hstop
    · split
      · exact within_ok le_rfl hstop
      · exact within_err
  | varchar =>
    apply (take_within 2).andThen
    intro lengthBytes stop _ _
    apply (take_within (beNat lengthBytes)).andThen
    intro stringBytes stop _ hstop
    simp only
    split
    · exact within_ok le_rfl hstop
    · exact within_err
  | null => exact within_err

lemma decodeValue_within (column : ColumnMetadata) :
    Within bytes cursor ((decodeValue bytes column).run cursor) := by
  apply takeByte_within.andThen
  intro marker stop _ hstop
  simp only [run_ite, run_pure, run_throw]
  split
  · exact within_ok le_rfl hstop
  · split
    · exact within_err
    · exact decodeContent_within column.dataType

lemma decodeValues_within (columns : List ColumnMetadata) (h : cursor ≤ bytes.length) :
    Within bytes cursor ((decodeValues bytes columns).run cursor) := by
  induction columns generalizing cursor with
  | nil => exact within_ok le_rfl h
  | cons column columns ih =>
    apply (decodeValue_within column).andThen
    intro value stop _ hstop
    apply (ih hstop).andThen
    exact fun values stop _ hstop => within_ok le_rfl hstop

end Within

/-! ### Texts at the cursor -/

/-- The bytes from the cursor on begin with `text`. -/
def At (bytes : List UInt8) (cursor : Nat) (text : List UInt8) : Prop :=
  cursor + text.length ≤ bytes.length ∧ piece bytes cursor (cursor + text.length) = text

section At

variable {text rest : List UInt8} {length : Nat}

lemma at_append :
    At bytes cursor (text ++ rest) ↔ At bytes cursor text ∧ At bytes (cursor + text.length) rest := by
  have hpieces : piece bytes cursor (cursor + text.length) ++
      piece bytes (cursor + text.length) (cursor + text.length + rest.length) =
        piece bytes cursor (cursor + text.length + rest.length) :=
    piece_append_piece (by omega) (by omega)
  rw [At, At, At, List.length_append, ← Nat.add_assoc, ← hpieces]
  constructor
  · intro ⟨hle, hpiece⟩
    have hlen : (piece bytes cursor (cursor + text.length)).length = text.length := by
      rw [length_piece (by omega), Nat.add_sub_cancel_left]
    have ⟨htext, hrest⟩ := List.append_inj hpiece hlen
    exact ⟨⟨by omega, htext⟩, hle, hrest⟩
  · intro ⟨⟨_, htext⟩, hle, hrest⟩
    exact ⟨hle, by rw [htext, hrest]⟩

lemma at_zero (h : At bytes 0 text) (hlen : bytes.length = text.length) : bytes = text := by
  have hpiece := h.2
  rwa [Nat.zero_add, piece_zero, ← hlen, List.take_length] at hpiece

lemma at_self : At bytes 0 bytes := by
  rw [At, Nat.zero_add, piece_zero, List.take_length]
  exact ⟨le_rfl, rfl⟩

lemma take_eq_ok : (take bytes length).run cursor = .ok text stop ↔
    At bytes cursor text ∧ text.length = length ∧ stop = cursor + length := by
  by_cases h : cursor + length ≤ bytes.length
  · rw [run_take h]
    constructor
    · intro heq
      cases heq
      have hlen : (piece bytes cursor (cursor + length)).length = length := by
        rw [length_piece h, Nat.add_sub_cancel_left]
      exact ⟨⟨by rw [hlen]; exact h, by rw [hlen]⟩, hlen, rfl⟩
    · intro ⟨hat, hlen, hstop⟩
      rw [hstop, ← hlen, hat.2]
  · rw [run_take_short (by omega)]
    constructor
    · intro heq
      cases heq
    · intro ⟨hat, hlen, _⟩
      exact absurd (hlen ▸ hat.1) h

lemma takeByte_eq_ok {b : UInt8} :
    (takeByte bytes).run cursor = .ok b stop ↔ At bytes cursor [b] ∧ stop = cursor + 1 := by
  rw [takeByte, run_bind, Outcome.andThen_eq_ok]
  constructor
  · intro ⟨slice, stop', htake, hbyte⟩
    have ⟨hat, hlen, hstop⟩ := take_eq_ok.mp htake
    have ⟨c, hc⟩ := List.length_eq_one_iff.mp hlen
    subst hc
    cases hbyte
    exact ⟨hat, hstop⟩
  · intro ⟨hat, hstop⟩
    exact ⟨[b], stop, take_eq_ok.mpr ⟨hat, rfl, hstop⟩, rfl⟩

end At

/-! ### What is read is what is written -/

section Value

variable {value : Value} {column : ColumnMetadata} {dataType : DataType} {text : List UInt8}

/-- The bytes behind the marker of a value. -/
inductive Content : Value → DataType → List UInt8 → Prop where
  | int (v : Int32) : Content (.int v) .int (beBytes 4 v.toUInt32.toNat)
  | bigInt (v : Int64) : Content (.bigInt v) .bigInt (beBytes 8 v.toUInt64.toNat)
  | boolean (v : Bool) : Content (.boolean v) .boolean [if v then booleanTrue else booleanFalse]
  | varchar (v : String) (h : (utf8Bytes v).length ≤ u16Max) :
    Content (.varchar v) .varchar (beBytes 2 (utf8Bytes v).length ++ utf8Bytes v)

lemma encodeValue_eq_ok : encodeValue value column = .ok text ↔
    (value = .null ∧ text = [nullMarker]) ∨
      ∃ content, Content value column.dataType content ∧ text = notNullMarker :: content := by
  constructor
  · intro h
    unfold encodeValue at h
    split at h
    · next hnull =>
      cases h
      exact .inl ⟨hnull, rfl⟩
    · right
      split at h
      · next v htype _ =>
        cases h
        exact ⟨_, htype ▸ .int v, rfl⟩
      · next v htype _ =>
        cases h
        exact ⟨_, htype ▸ .bigInt v, rfl⟩
      · next v htype _ =>
        cases h
        exact ⟨_, htype ▸ .boolean v, rfl⟩
      · next v htype _ =>
        simp only at h
        split at h
        · next hlen =>
          cases h
          exact ⟨_, htype ▸ .varchar v hlen, rfl⟩
        · cases h
      · cases h
  · intro h
    cases h with
    | inl hnull =>
      rw [hnull.1, hnull.2]
      rfl
    | inr hcontent =>
      have ⟨content, hc, htext⟩ := hcontent
      rw [htext]
      generalize hd : column.dataType = d at hc
      cases hc with
      | int v => simp [encodeValue, hd]
      | bigInt v => simp [encodeValue, hd]
      | boolean v => simp [encodeValue, hd]
      | varchar v hlen => simp [encodeValue, hd, hlen]

lemma decodeContent_eq_ok : (decodeContent bytes dataType).run cursor = .ok value stop ↔
    ∃ text, Content value dataType text ∧ At bytes cursor text ∧ stop = cursor + text.length := by
  cases dataType with
  | int =>
    rw [decodeContent, run_bind, Outcome.andThen_eq_ok]
    constructor
    · intro ⟨slice, stop', htake, hvalue⟩
      have ⟨hat, hlen, hstop⟩ := take_eq_ok.mp htake
      cases hvalue
      refine ⟨slice, ?_, hat, by rw [hlen, hstop]⟩
      have hlt : beNat slice < 256 ^ 4 := hlen ▸ beNat_lt slice
      have hcontent := Content.int (UInt32.ofNat (beNat slice)).toInt32
      rwa [UInt32.toUInt32_toInt32, UInt32.toNat_ofNat_of_lt' hlt, ← hlen, beBytes_beNat] at hcontent
    · intro ⟨text, hcontent, hat, hstop⟩
      cases hcontent with
      | int v =>
        rw [length_beBytes] at hstop
        refine ⟨_, stop, take_eq_ok.mpr ⟨hat, length_beBytes .., hstop⟩, ?_⟩
        rw [run_pure, beNat_beBytes_of_lt v.toUInt32.toNat_lt, UInt32.ofNat_toNat,
          Int32.toInt32_toUInt32]
  | bigInt =>
    rw [decodeContent, run_bind, Outcome.andThen_eq_ok]
    constructor
    · intro ⟨slice, stop', htake, hvalue⟩
      have ⟨hat, hlen, hstop⟩ := take_eq_ok.mp htake
      cases hvalue
      refine ⟨slice, ?_, hat, by rw [hlen, hstop]⟩
      have hlt : beNat slice < 256 ^ 8 := hlen ▸ beNat_lt slice
      have hcontent := Content.bigInt (UInt64.ofNat (beNat slice)).toInt64
      rwa [UInt64.toUInt64_toInt64, UInt64.toNat_ofNat_of_lt' hlt, ← hlen, beBytes_beNat] at hcontent
    · intro ⟨text, hcontent, hat, hstop⟩
      cases hcontent with
      | bigInt v =>
        rw [length_beBytes] at hstop
        refine ⟨_, stop, take_eq_ok.mpr ⟨hat, length_beBytes .., hstop⟩, ?_⟩
        rw [run_pure, beNat_beBytes_of_lt v.toUInt64.toNat_lt, UInt64.ofNat_toNat,
          Int64.toInt64_toUInt64]
  | boolean =>
    rw [decodeContent, run_bind, Outcome.andThen_eq_ok]
    constructor
    · intro ⟨b, stop', htake, hvalue⟩
      have ⟨hat, hstop⟩ := takeByte_eq_ok.mp htake
      simp only [run_ite, run_pure, run_throw] at hvalue
      split at hvalue
      · next htrue =>
        cases hvalue
        exact ⟨[b], htrue ▸ .boolean true, hat, hstop⟩
      · split at hvalue
        · next hfalse =>
          cases hvalue
          exact ⟨[b], hfalse ▸ .boolean false, hat, hstop⟩
        · cases hvalue
    · intro ⟨text, hcontent, hat, hstop⟩
      cases hcontent with
      | boolean v =>
        refine ⟨_, stop, takeByte_eq_ok.mpr ⟨hat, hstop⟩, ?_⟩
        cases v <;> rfl
  | varchar =>
    simp only [decodeContent, run_bind, Outcome.andThen_eq_ok]
    constructor
    · intro ⟨lengthBytes, mid, hlength, stringBytes, stop', hstring, hvalue⟩
      have ⟨hat, hlen, hmid⟩ := take_eq_ok.mp hlength
      have ⟨hat', hlen', hstop⟩ := take_eq_ok.mp hstring
      split at hvalue
      · next v hv =>
        cases hvalue
        have hlt : beNat lengthBytes < 256 ^ 2 := hlen ▸ beNat_lt lengthBytes
        have hbytes := utf8Bytes_of_fromUtf8 hv
        have hcontent := Content.varchar v (by rw [hbytes, hlen', u16Max]; omega)
        rw [hbytes, hlen', ← hlen, beBytes_beNat] at hcontent
        rw [hmid, ← hlen] at hat'
        refine ⟨_, hcontent, at_append.mpr ⟨hat, hat'⟩, ?_⟩
        rw [List.length_append]
        omega
      · cases hvalue
    · intro ⟨text, hcontent, hat, hstop⟩
      cases hcontent with
      | varchar v hle =>
        have ⟨hlength, hstring⟩ := at_append.mp hat
        rw [List.length_append, length_beBytes, ← Nat.add_assoc] at hstop
        rw [length_beBytes] at hstring
        have hlt : (utf8Bytes v).length < 256 ^ 2 := by
          rw [u16Max] at hle
          omega
        refine ⟨_, cursor + 2, take_eq_ok.mpr ⟨hlength, length_beBytes .., rfl⟩, utf8Bytes v, stop,
          take_eq_ok.mpr ⟨hstring, ?_, ?_⟩, ?_⟩
        · rw [beNat_beBytes_of_lt hlt]
        · rw [beNat_beBytes_of_lt hlt, hstop]
        · rw [fromUtf8_utf8Bytes]
          rfl
  | null =>
    constructor
    · intro h
      cases h
    · intro ⟨text, hcontent, _, _⟩
      cases hcontent

/-- A value is read between two cursors exactly when it is written there. -/
lemma decodeValue_eq_ok : (decodeValue bytes column).run cursor = .ok value stop ↔
    ∃ text, encodeValue value column = .ok text ∧ At bytes cursor text ∧
      stop = cursor + text.length := by
  rw [decodeValue, run_bind, Outcome.andThen_eq_ok]
  constructor
  · intro ⟨marker, mid, hmarker, hvalue⟩
    have ⟨hat, hmid⟩ := takeByte_eq_ok.mp hmarker
    simp only [run_ite, run_pure, run_throw] at hvalue
    split at hvalue
    · next hnull =>
      cases hvalue
      exact ⟨[marker], encodeValue_eq_ok.mpr (.inl ⟨rfl, by rw [hnull]⟩), hat, hmid⟩
    · split at hvalue
      · cases hvalue
      · next hnot =>
        have ⟨content, hcontent, hat', hstop⟩ := decodeContent_eq_ok.mp hvalue
        rw [hmid] at hat' hstop
        refine ⟨marker :: content, encodeValue_eq_ok.mpr (.inr ⟨content, hcontent, ?_⟩),
          at_append.mpr ⟨hat, hat'⟩, ?_⟩
        · rw [not_not.mp hnot]
        · rw [hstop, List.length_cons]
          omega
  · intro ⟨text, hencode, hat, hstop⟩
    cases encodeValue_eq_ok.mp hencode with
    | inl hnull =>
      rw [hnull.2] at hat hstop
      refine ⟨_, stop, takeByte_eq_ok.mpr ⟨hat, hstop⟩, ?_⟩
      rw [if_pos rfl, run_pure, hnull.1]
    | inr hsome =>
      have ⟨content, hcontent, htext⟩ := hsome
      rw [htext] at hat hstop
      have ⟨hmarker, hat'⟩ := at_append.mp (show At _ _ ([notNullMarker] ++ _) from hat)
      have hnot : notNullMarker ≠ nullMarker := by decide
      refine ⟨_, _, takeByte_eq_ok.mpr ⟨hmarker, rfl⟩, ?_⟩
      rw [if_neg hnot, if_neg (by simp)]
      apply decodeContent_eq_ok.mpr
      refine ⟨content, hcontent, hat', ?_⟩
      rw [hstop, List.length_cons]
      omega

end Value

/-! ### Rows -/

section Row

variable {value : Value} {values values' : List Value} {column : ColumnMetadata}
  {columns : List ColumnMetadata} {text : List UInt8} {row : Row} {s s' : σ}

lemma encodeValues_cons_eq_ok :
    encodeValues (value :: values) (column :: columns) = .ok text ↔
      ∃ first rest, encodeValue value column = .ok first ∧ encodeValues values columns = .ok rest ∧
        text = first ++ rest := by
  rw [encodeValues]
  cases encodeValue value column with
  | error e => simp
  | ok first =>
    cases encodeValues values columns with
    | error e => simp
    | ok rest => simp [eq_comm]

/-- The columns are read between two cursors exactly when the values are written there. The
induction is on the columns, for every cursor. -/
lemma decodeValues_eq_ok (h : cursor ≤ bytes.length) :
    (decodeValues bytes columns).run cursor = .ok values stop ↔
      values.length = columns.length ∧ ∃ text, encodeValues values columns = .ok text ∧
        At bytes cursor text ∧ stop = cursor + text.length := by
  induction columns generalizing cursor values with
  | nil =>
    constructor
    · intro hrun
      cases hrun
      exact ⟨rfl, [], rfl, ⟨h, by simp [piece]⟩, rfl⟩
    · rintro ⟨hlen, text, hencode, _, hstop⟩
      cases List.length_eq_zero_iff.mp hlen
      cases hencode
      rw [hstop]
      rfl
  | cons column columns ih =>
    simp only [decodeValues, run_bind, run_pure, Outcome.andThen_eq_ok]
    constructor
    · rintro ⟨value, mid, hvalue, others, stop', hothers, heq⟩
      cases heq
      obtain ⟨first, hfirst, hat, hmid⟩ := decodeValue_eq_ok.mp hvalue
      have hle := hat.1
      rw [← hmid] at hle
      obtain ⟨hlen, rest, hrest, hat', hstop⟩ := (ih hle).mp hothers
      rw [hmid] at hat' hstop
      refine ⟨by rw [List.length_cons, List.length_cons, hlen], first ++ rest,
        encodeValues_cons_eq_ok.mpr ⟨first, rest, hfirst, hrest, rfl⟩, at_append.mpr ⟨hat, hat'⟩, ?_⟩
      rw [hstop, List.length_append, Nat.add_assoc]
    · rintro ⟨hlen, text, hencode, hat, hstop⟩
      cases values with
      | nil => cases hlen
      | cons value values =>
        obtain ⟨first, rest, hfirst, hrest, htext⟩ := encodeValues_cons_eq_ok.mp hencode
        rw [htext] at hat hstop
        obtain ⟨hat, hat'⟩ := at_append.mp hat
        rw [List.length_append, ← Nat.add_assoc] at hstop
        exact ⟨value, _, decodeValue_eq_ok.mpr ⟨first, hfirst, hat, rfl⟩, values, stop,
          (ih hat.1).mpr ⟨Nat.succ.inj hlen, rest, hrest, hat', hstop⟩, rfl⟩

lemma encode_eq_ok : encode values columns = .ok row ↔
    values.length = columns.length ∧ encodeValues values columns = .ok row.data := by
  rw [encode]
  split
  · next hlen =>
    constructor
    · intro h
      cases h
    · exact fun h => absurd h.1 hlen
  · next hlen =>
    cases encodeValues values columns with
    | error e => simp
    | ok text =>
      constructor
      · intro h
        cases h
        exact ⟨not_not.mp hlen, rfl⟩
      · intro h
        cases h.2
        rfl

/-- A row decodes to the values that encode to it, and to no others. -/
lemma decode_eq_ok : (decode row columns).run s = .ok values s' ↔
    encode values columns = .ok row ∧ s' = s := by
  rw [encode_eq_ok, decode, run_bind, run_withLocal]
  constructor
  · intro h
    have ⟨⟨others, cursor⟩, s₁, hvalues, hrest⟩ := Outcome.andThen_eq_ok.mp h
    simp only [run_ite, run_throw, run_pure] at hrest
    split at hrest
    · cases hrest
    · next hcursor =>
      split at hvalues
      · next hrun =>
        cases hvalues
        cases hrest
        have ⟨hlen, text, htext, hat, hstop⟩ := (decodeValues_eq_ok (Nat.zero_le _)).mp hrun
        rw [Nat.zero_add] at hstop
        rw [at_zero hat (by omega)]
        exact ⟨⟨hlen, htext⟩, rfl⟩
      all_goals cases hvalues
  · intro ⟨⟨hlen, htext⟩, hs⟩
    have hrun : (decodeValues row.data columns).run 0 = .ok values row.data.length :=
      (decodeValues_eq_ok (Nat.zero_le _)).mpr ⟨hlen, row.data, htext, at_self, (Nat.zero_add _).symm⟩
    rw [hrun, hs]
    simp only [Outcome.andThen_ok, ne_eq, not_true_eq_false, if_false, run_pure]

/-- No byte outside the row is read. -/
lemma decode_returns (row : Row) (columns : List ColumnMetadata) (s : σ) :
    ((decode row columns).run s).Returns s := by
  rw [decode, run_bind, run_withLocal]
  have hwithin : Within row.data 0 ((decodeValues row.data columns).run 0) :=
    decodeValues_within columns (Nat.zero_le _)
  rcases hwithin with
    ⟨values, stop, hrun, _⟩ | ⟨e, stop, hrun⟩
  · rw [hrun, Outcome.andThen_ok, run_ite, run_throw, run_pure]
    split
    · exact .inr ⟨_, rfl⟩
    · exact .inl ⟨_, rfl⟩
  · rw [hrun]
    exact .inr ⟨e, rfl⟩

/-- The row format. Encoding and decoding are inverse to each other, decoding returns on every
byte string, and a row is the encoding of one list of values only. -/
theorem encode_bijective (columns : List ColumnMetadata) :
    (∀ values row, encode values columns = .ok row → ∀ s : σ,
      (decode row columns).run s = .ok values s) ∧
    (∀ row values (s s' : σ), (decode row columns).run s = .ok values s' →
      encode values columns = .ok row) ∧
    (∀ row (s : σ), ((decode row columns).run s).Returns s) ∧
    ∀ values values' row, encode values columns = .ok row → encode values' columns = .ok row →
      values = values' := by
  refine ⟨?_, ?_, ?_, ?_⟩
  · intro values row h s
    exact decode_eq_ok.mpr ⟨h, rfl⟩
  · intro row values s s' h
    exact (decode_eq_ok.mp h).1
  · intro row s
    exact decode_returns row columns s
  · intro values values' row h h'
    have hrun : (decode row columns).run () = .ok values () := decode_eq_ok.mpr ⟨h, rfl⟩
    have hrun' : (decode row columns).run () = .ok values' () := decode_eq_ok.mpr ⟨h', rfl⟩
    rw [hrun] at hrun'
    cases hrun'
    rfl

theorem encode_bijective_nullableName :
    let columns : List ColumnMetadata := [⟨⟨0⟩, "id", .int⟩, ⟨⟨1⟩, "name", .varchar⟩]
    encode [.int 7, .null] columns = .ok ⟨[1, 0, 0, 0, 7, 0]⟩ ∧
      (decode ⟨[1, 0, 0, 0, 7, 0]⟩ columns : Exec TupleError Unit _).run () =
        .ok [.int 7, .null] () := by
  have hencode : encode [.int 7, .null] [⟨⟨0⟩, "id", .int⟩, ⟨⟨1⟩, "name", .varchar⟩] =
    .ok ⟨[1, 0, 0, 0, 7, 0]⟩ := by rfl
  exact ⟨hencode, (encode_bijective _).1 _ _ hencode ()⟩

end Row

end RdbRs.Tuple
