import RdbRs.Catalog.Metadata
import RdbRs.Query.Ast

/-!
# Tuples

Values, their comparison, and the encoding of a row by the columns of its table.
-/

namespace RdbRs

inductive TupleError where
  | valueCountMismatch
  | typeMismatch
  | varcharTooLong
  | invalidNullMarker
  | invalidBoolean
  | invalidUtf8
  | truncatedRow
  | trailingBytes
  deriving DecidableEq

inductive Value where
  | int (value : Int32)
  | bigInt (value : Int64)
  | boolean (value : Bool)
  | varchar (value : String)
  | null
  deriving DecidableEq

namespace Value

def compare (self : Value) (operator : ComparisonOperator) (other : Value) : Bool :=
  if self = null ∨ other = null then false
  else
    match operator with
    | .equal => self = other
    | .notEqual => self ≠ other
    | .lessThan =>
      match self, other with
      | int a, int b => a < b
      | bigInt a, bigInt b => a < b
      | varchar a, varchar b => a < b
      | boolean a, boolean b => a < b
      | _, _ => false
    | .greaterThan =>
      match self, other with
      | int a, int b => a > b
      | bigInt a, bigInt b => a > b
      | varchar a, varchar b => a > b
      | boolean a, boolean b => a > b
      | _, _ => false
    | .lessThanOrEqual =>
      match self, other with
      | int a, int b => a ≤ b
      | bigInt a, bigInt b => a ≤ b
      | varchar a, varchar b => a ≤ b
      | boolean a, boolean b => a ≤ b
      | _, _ => false
    | .greaterThanOrEqual =>
      match self, other with
      | int a, int b => a ≥ b
      | bigInt a, bigInt b => a ≥ b
      | varchar a, varchar b => a ≥ b
      | boolean a, boolean b => a ≥ b
      | _, _ => false

end Value

namespace Tuple

def nullMarker : UInt8 := 0
def notNullMarker : UInt8 := 1

def booleanFalse : UInt8 := 0
def booleanTrue : UInt8 := 1

/-! ### Encoding -/

/-- A round of the loop of `encode`. -/
def encodeValue (value : Value) (column : ColumnMetadata) : Except TupleError (List UInt8) :=
  if value = .null then .ok [nullMarker]
  else
    match value, column.dataType with
    | .int v, .int => .ok (notNullMarker :: beBytes 4 v.toUInt32.toNat)
    | .bigInt v, .bigInt => .ok (notNullMarker :: beBytes 8 v.toUInt64.toNat)
    | .boolean v, .boolean => .ok [notNullMarker, if v then booleanTrue else booleanFalse]
    | .varchar v, .varchar =>
      let stringBytes := utf8Bytes v
      if stringBytes.length ≤ u16Max then
        .ok (notNullMarker :: (beBytes 2 stringBytes.length ++ stringBytes))
      else .error .varcharTooLong
    | _, _ => .error .typeMismatch

/-- The loop of `encode`, over values and columns side by side. -/
def encodeValues : List Value → List ColumnMetadata → Except TupleError (List UInt8)
  | value :: values, column :: columns => do
    let bytes ← encodeValue value column
    let rest ← encodeValues values columns
    .ok (bytes ++ rest)
  | _, _ => .ok []

def encode (values : List Value) (columns : List ColumnMetadata) : Except TupleError Row :=
  if values.length ≠ columns.length then .error .valueCountMismatch
  else do
    let bytes ← encodeValues values columns
    .ok ⟨bytes⟩

/-! ### Decoding -/

/-- The next `length` bytes behind the cursor. A cursor that does not fit a machine word is
behind the bytes as well, so that the two errors of the source are one. -/
def take (bytes : List UInt8) (length : Nat) : Exec TupleError Nat (List UInt8) := do
  let cursor ← Exec.gets id
  let stop := cursor + length
  if bytes.length < stop then Exec.throw .truncatedRow
  else do
    let slice ← Exec.slice bytes cursor stop
    Exec.modify fun _ => stop
    pure slice

/-- `take(bytes, &mut cursor, 1)?[0]`. -/
def takeByte (bytes : List UInt8) : Exec TupleError Nat UInt8 := do
  let slice ← take bytes 1
  Exec.byteAt slice 0

/-- A round of the loop of `decode` behind the marker. The slices that are converted to arrays
have the length of the array. -/
def decodeContent (bytes : List UInt8) (dataType : DataType) : Exec TupleError Nat Value :=
  match dataType with
  | .int => do
    let slice ← take bytes 4
    pure (.int (UInt32.ofNat (beNat slice)).toInt32)
  | .bigInt => do
    let slice ← take bytes 8
    pure (.bigInt (UInt64.ofNat (beNat slice)).toInt64)
  | .boolean => do
    let boolByte ← takeByte bytes
    if boolByte = booleanTrue then pure (.boolean true)
    else if boolByte = booleanFalse then pure (.boolean false)
    else Exec.throw .invalidBoolean
  | .varchar => do
    let lengthBytes ← take bytes 2
    let stringBytes ← take bytes (beNat lengthBytes)
    match fromUtf8 stringBytes with
    | some value => pure (.varchar value)
    | none => Exec.throw .invalidUtf8
  | .null => Exec.throw .typeMismatch

/-- A round of the loop of `decode`. -/
def decodeValue (bytes : List UInt8) (column : ColumnMetadata) : Exec TupleError Nat Value := do
  let marker ← takeByte bytes
  if marker = nullMarker then pure .null
  else if marker ≠ notNullMarker then Exec.throw .invalidNullMarker
  else decodeContent bytes column.dataType

/-- The loop of `decode`. -/
def decodeValues (bytes : List UInt8) : List ColumnMetadata → Exec TupleError Nat (List Value)
  | [] => pure []
  | column :: columns => do
    let value ← decodeValue bytes column
    let values ← decodeValues bytes columns
    pure (value :: values)

variable {σ : Type}

def decode (row : Row) (columns : List ColumnMetadata) : Exec TupleError σ (List Value) := do
  let (values, cursor) ← Exec.withLocal 0 (decodeValues row.data columns)
  if cursor ≠ row.data.length then Exec.throw .trailingBytes
  else pure values

end Tuple

end RdbRs
