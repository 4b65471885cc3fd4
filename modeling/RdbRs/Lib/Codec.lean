import Mathlib.Data.String.Basic
import RdbRs.Lib.BigEndian
import RdbRs.Lib.Outcome

/-!
# Records with byte encodings

A record type comes with `write`, which may refuse a value, and `read`, which takes a record
off the front of a byte string and says how many bytes it took. `Codec` is what the two
promise each other. A slice outside the bytes panics, so a reader that always returns never
looks past the end. `readMany` and `writeMany` are counted sequences of records.
-/

namespace RdbRs

/-! ### Pieces of a byte string -/

/-- The bytes from `start` up to `stop`. -/
def piece (bytes : List UInt8) (start stop : Nat) : List UInt8 := (bytes.take stop).drop start

section Piece

variable {bytes : List UInt8} {start mid stop : Nat}

lemma length_piece (h : stop ≤ bytes.length) : (piece bytes start stop).length = stop - start := by
  rw [piece, List.length_drop, List.length_take, min_eq_left h]

lemma piece_append_piece (h : start ≤ mid) (h' : mid ≤ stop) :
    piece bytes start mid ++ piece bytes mid stop = piece bytes start stop := by
  have hmid : bytes.take mid = (bytes.take stop).take mid := by
    rw [List.take_take, min_eq_left h']
  have hdrop : piece bytes mid stop = ((bytes.take stop).drop start).drop (mid - start) := by
    rw [piece, List.drop_drop, Nat.add_sub_cancel' h]
  rw [hdrop, piece, hmid, List.drop_take, piece]
  exact List.take_append_drop _ _

lemma piece_zero : piece bytes 0 stop = bytes.take stop := rfl

/-- A piece is found again at its place in a concatenation. -/
lemma piece_append (front bytes back : List UInt8) (hstart : start = front.length)
    (hstop : stop = front.length + bytes.length) :
    piece (front ++ (bytes ++ back)) start stop = bytes := by
  subst hstart hstop
  rw [piece, ← List.append_assoc, ← List.length_append, List.take_left, List.drop_left]

/-- The number a piece spells is written as the piece. -/
lemma beBytes_piece (w : Nat) (h : start + w ≤ bytes.length) :
    beBytes w (beNat (piece bytes start (start + w))) = piece bytes start (start + w) := by
  have hlen : (piece bytes start (start + w)).length = w := by
    rw [length_piece h, Nat.add_sub_cancel_left]
  have hwritten := beBytes_beNat (piece bytes start (start + w))
  rwa [hlen] at hwritten

lemma beNat_piece_lt (w : Nat) (h : start + w ≤ bytes.length) :
    beNat (piece bytes start (start + w)) < 256 ^ w := by
  have := beNat_lt (piece bytes start (start + w))
  rwa [length_piece h, Nat.add_sub_cancel_left] at this

end Piece

/-! ### Texts -/

/-- `as_bytes` of a text. -/
def utf8Bytes (text : String) : List UInt8 := text.toByteArray.data.toList

/-- `from_utf8`. -/
def fromUtf8 (bytes : List UInt8) : Option String := String.fromUTF8? ⟨bytes.toArray⟩

@[simp] lemma fromUtf8_utf8Bytes (text : String) : fromUtf8 (utf8Bytes text) = some text := by
  have hbytes : (⟨(utf8Bytes text).toArray⟩ : ByteArray) = text.toByteArray :=
    ByteArray.ext Array.toArray_toList
  rw [fromUtf8, hbytes]
  exact dif_pos text.isValidUTF8

lemma utf8Bytes_of_fromUtf8 {bytes : List UInt8} {text : String} (h : fromUtf8 bytes = some text) :
    utf8Bytes text = bytes := by
  simp only [fromUtf8, String.fromUTF8?] at h
  split at h
  · cases h
    rfl
  · cases h

/-- A text of `n` characters of one byte each. -/
lemma length_utf8Bytes_replicate {c : Char} (hc : c.utf8Size = 1) (n : Nat) :
    (utf8Bytes (String.ofList (List.replicate n c))).length = n := by
  simp only [utf8Bytes, String.toByteArray_ofList]
  induction n with
  | zero => rfl
  | succ n ih =>
    rw [List.replicate_succ, List.utf8Encode_cons, List.utf8Encode_singleton, Array.length_toList,
      ByteArray.size_data, ByteArray.size_append, List.size_toByteArray, String.length_utf8EncodeChar,
      hc]
    rw [Array.length_toList, ByteArray.size_data] at ih
    omega

namespace Exec

variable {ε σ α : Type}

/-- `&bytes[start..stop]`. -/
def slice (bytes : List UInt8) (start stop : Nat) : Exec ε σ (List UInt8) :=
  if start ≤ stop ∧ stop ≤ bytes.length then pure (piece bytes start stop) else panic

/-- `bytes[i]`. -/
def byteAt (bytes : List UInt8) (i : Nat) : Exec ε σ UInt8 :=
  match bytes[i]? with
  | some b => pure b
  | none => panic

/-- `from_utf8(bytes).map_err(|_| e)?`. -/
def textOf (e : ε) (bytes : List UInt8) : Exec ε σ String :=
  match fromUtf8 bytes with
  | some text => pure text
  | none => throw e

variable {bytes : List UInt8} {s : σ}

lemma run_slice {start stop : Nat} (h : start ≤ stop) (h' : stop ≤ bytes.length) :
    (slice bytes start stop : Exec ε σ _).run s = .ok (piece bytes start stop) s := by
  rw [slice, if_pos ⟨h, h'⟩, run_pure]

lemma run_byteAt {i : Nat} (h : i < bytes.length) :
    (byteAt bytes i : Exec ε σ _).run s = .ok bytes[i] s := by
  rw [byteAt, List.getElem?_eq_getElem h]
  rfl

end Exec

/-! ### Codecs -/

/-- What `write` and `read` promise each other. -/
structure Codec {ε σ α : Type} (write : α → Except ε (List UInt8))
    (read : List UInt8 → Exec ε σ (α × Nat)) : Prop where
  /-- Reading returns on every byte string and changes nothing. -/
  returns : ∀ bytes s, ((read bytes).run s).Returns s
  /-- What was written is read back, whatever follows it. -/
  complete : ∀ {a bytes}, write a = .ok bytes →
    ∀ rest s, (read (bytes ++ rest)).run s = .ok (a, bytes.length) s
  /-- Only what would be written is read. -/
  sound : ∀ {bytes s a n s'}, (read bytes).run s = .ok (a, n) s' →
    n ≤ bytes.length ∧ write a = .ok (bytes.take n)

/-- `for a in values { bytes.extend_from_slice(&a.to_bytes()?) }`. -/
def writeMany {ε α : Type} (write : α → Except ε (List UInt8)) : List α → Except ε (List UInt8)
  | [] => .ok []
  | a :: values => do
    let bytes ← write a
    let rest ← writeMany write values
    .ok (bytes ++ rest)

/-- `for _ in 0..count`, each time reading from `&bytes[offset..]`. Returns the values and the
offset behind them. -/
def readMany {ε σ α : Type} (read : List UInt8 → Exec ε σ (α × Nat)) (bytes : List UInt8) :
    Nat → Nat → Exec ε σ (List α × Nat)
  | 0, offset => pure ([], offset)
  | count + 1, offset => do
    let rest ← Exec.slice bytes offset bytes.length
    let (a, used) ← read rest
    let (values, stop) ← readMany read bytes count (offset + used)
    pure (a :: values, stop)

section Many

variable {ε σ α : Type} {write : α → Except ε (List UInt8)}
  {read : List UInt8 → Exec ε σ (α × Nat)}

lemma writeMany_cons_eq_ok {a : α} {values : List α} {bytes : List UInt8} :
    writeMany write (a :: values) = .ok bytes ↔
      ∃ first rest, write a = .ok first ∧ writeMany write values = .ok rest ∧
        bytes = first ++ rest := by
  rw [writeMany]
  cases write a with
  | error e => simp
  | ok first =>
    cases writeMany write values with
    | error e => simp
    | ok rest => simp [eq_comm]

/-- All values are written when each of them is. -/
lemma writeMany_ok {values : List α} (h : ∀ a ∈ values, ∃ bytes, write a = .ok bytes) :
    ∃ bytes, writeMany write values = .ok bytes := by
  induction values with
  | nil => exact ⟨[], rfl⟩
  | cons a values ih =>
    have ⟨first, hfirst⟩ := h a List.mem_cons_self
    have ⟨rest, hrest⟩ := ih fun b hb => h b (List.mem_cons_of_mem a hb)
    exact ⟨first ++ rest, writeMany_cons_eq_ok.mpr ⟨first, rest, hfirst, hrest, rfl⟩⟩

/-- No value is refused when all are written. -/
lemma write_ok_of_writeMany {values : List α} {bytes : List UInt8}
    (h : writeMany write values = .ok bytes) : ∀ a ∈ values, ∃ bytes, write a = .ok bytes := by
  induction values generalizing bytes with
  | nil => simp
  | cons a values ih =>
    have ⟨first, rest, hfirst, hrest, _⟩ := writeMany_cons_eq_ok.mp h
    intro b hb
    cases List.mem_cons.mp hb with
    | inl hab => exact ⟨first, hab ▸ hfirst⟩
    | inr hmem => exact ih hrest b hmem

lemma run_sliceFrom {bytes : List UInt8} {offset : Nat} {s : σ} (h : offset ≤ bytes.length) :
    (Exec.slice bytes offset bytes.length : Exec ε σ _).run s = .ok (bytes.drop offset) s := by
  rw [Exec.run_slice h le_rfl, piece, List.take_length]

/-- One round of the loop. -/
lemma run_readMany_succ {bytes : List UInt8} {count offset : Nat} {s : σ}
    (h : offset ≤ bytes.length) :
    (readMany read bytes (count + 1) offset).run s =
      ((read (bytes.drop offset)).run s).andThen fun p s' =>
        ((readMany read bytes count (offset + p.2)).run s').andThen fun q s'' =>
          .ok (p.1 :: q.1, q.2) s'' := by
  rw [readMany, Exec.run_bind, run_sliceFrom h]
  rfl

namespace Codec

variable (codec : Codec write read)

include codec

lemma readMany_returns {bytes : List UInt8} {s : σ} (count : Nat) {offset : Nat}
    (h : offset ≤ bytes.length) : ((readMany read bytes count offset).run s).Returns s := by
  induction count generalizing offset with
  | zero => exact .inl ⟨_, rfl⟩
  | succ count ih =>
    rw [run_readMany_succ h]
    cases codec.returns (bytes.drop offset) s with
    | inr herr =>
      have ⟨e, he⟩ := herr
      rw [he]
      exact .inr ⟨e, rfl⟩
    | inl hok =>
      have ⟨⟨a, used⟩, ha⟩ := hok
      have hused := (codec.sound ha).1
      rw [List.length_drop] at hused
      have hlater : ((readMany read bytes count (offset + used)).run s).Returns s := ih (by omega)
      rw [ha, Outcome.andThen_ok]
      cases hlater with
      | inr herr =>
        have ⟨e, he⟩ := herr
        rw [he]
        exact .inr ⟨e, rfl⟩
      | inl hok =>
        have ⟨q, hq⟩ := hok
        rw [hq]
        exact .inl ⟨_, rfl⟩

/-- The loop reads the values that were written from its offset on. -/
lemma readMany_complete {values : List α} {bytes : List UInt8}
    (h : writeMany write values = .ok bytes) (front rest : List UInt8) (s : σ) :
    (readMany read (front ++ (bytes ++ rest)) values.length front.length).run s =
      .ok (values, front.length + bytes.length) s := by
  induction values generalizing bytes front with
  | nil =>
    rw [writeMany] at h
    cases h
    rfl
  | cons a values ih =>
    have ⟨first, others, hfirst, hothers, hbytes⟩ := writeMany_cons_eq_ok.mp h
    have hoffset : front.length ≤ (front ++ (bytes ++ rest)).length := by
      rw [List.length_append]
      omega
    have hdrop : (front ++ (bytes ++ rest)).drop front.length = first ++ (others ++ rest) := by
      rw [List.drop_left, hbytes, List.append_assoc]
    have hbody : front ++ (bytes ++ rest) = (front ++ first) ++ (others ++ rest) := by
      rw [hbytes, List.append_assoc, List.append_assoc]
    have hlater := ih hothers (front ++ first)
    rw [List.length_append, ← hbody] at hlater
    rw [List.length_cons, run_readMany_succ hoffset, hdrop, codec.complete hfirst,
      Outcome.andThen_ok]
    simp only
    rw [hlater, Outcome.andThen_ok, hbytes, List.length_append, Nat.add_assoc]

/-- What the loop read is what would be written between the two offsets. -/
lemma readMany_sound {bytes : List UInt8} {s s' : σ} {count offset stop : Nat} {values : List α}
    (h : offset ≤ bytes.length)
    (hrun : (readMany read bytes count offset).run s = .ok (values, stop) s') :
    values.length = count ∧ offset ≤ stop ∧ stop ≤ bytes.length ∧
      writeMany write values = .ok (piece bytes offset stop) := by
  induction count generalizing offset values s with
  | zero =>
    cases hrun
    have hnone : piece bytes stop stop = [] := by
      rw [piece, List.drop_take, Nat.sub_self, List.take_zero]
    exact ⟨rfl, le_rfl, h, by rw [writeMany, hnone]⟩
  | succ count ih =>
    rw [run_readMany_succ h, Outcome.andThen_eq_ok] at hrun
    have ⟨⟨a, used⟩, s₁, hread, hrest⟩ := hrun
    have ⟨⟨others, stop'⟩, s₂, hmany, heq⟩ := Outcome.andThen_eq_ok.mp hrest
    cases heq
    have ⟨hused, hwrite⟩ := codec.sound hread
    rw [List.length_drop] at hused
    have ⟨hlen, hle, hstop, hothers⟩ := ih (by omega) hmany
    have hfirst : (bytes.drop offset).take used = piece bytes offset (offset + used) := by
      rw [piece, List.drop_take, Nat.add_sub_cancel_left]
    refine ⟨by rw [List.length_cons, hlen], by omega, hstop, ?_⟩
    apply writeMany_cons_eq_ok.mpr
    refine ⟨_, _, hwrite, hothers, ?_⟩
    rw [hfirst, piece_append_piece (by omega) hle]

end Codec

end Many

end RdbRs
