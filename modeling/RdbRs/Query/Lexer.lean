import Mathlib.Data.String.Basic
import RdbRs.Lib.TokenReader
import RdbRs.Query.Ast

/-!
# The lexer

The tokens of an input, read character by character. The place in the input is a byte offset; a slice
that does not begin and end between two characters panics.
-/

namespace RdbRs

inductive LexError where
  | unexpectedCharacter (position : Nat) (ch : Char)
  | invalidInteger (position : Nat)
  | unterminatedString (position : Nat)
  deriving DecidableEq

/-! ### Characters and words -/

/-- `&input[offset..]`, where the offset must be one between two characters. -/
def sliceFrom : List Char → Nat → Option (List Char)
  | cs, 0 => some cs
  | [], _ + 1 => none
  | c :: cs, offset => if c.utf8Size ≤ offset then sliceFrom cs (offset - c.utf8Size) else none

/-- `&input[..offset]`. -/
def sliceTo : List Char → Nat → Option (List Char)
  | _, 0 => some []
  | [], _ + 1 => none
  | c :: cs, offset =>
    if c.utf8Size ≤ offset then (sliceTo cs (offset - c.utf8Size)).map (c :: ·) else none

/-- `char::is_whitespace`: the characters of the Unicode property `White_Space`. -/
def isWhitespace (c : Char) : Bool :=
  let n := c.toNat
  (9 ≤ n && n ≤ 13) || n == 0x20 || n == 0x85 || n == 0xA0 || n == 0x1680 ||
    (0x2000 ≤ n && n ≤ 0x200A) || n == 0x2028 || n == 0x2029 || n == 0x202F || n == 0x205F || n == 0x3000

/-- `ch.is_ascii_alphabetic() || ch == '_'`. -/
def isWordStart (c : Char) : Bool := c.isAlpha || c == '_'

/-- `ch.is_ascii_alphanumeric() || ch == '_'`. -/
def isWordChar (c : Char) : Bool := c.isAlphanum || c == '_'

def quote : Char := '\''

/-- The arms of `TokenKind::from`. -/
def keywords : List (String × TokenKind) :=
  [("CREATE", .create), ("TABLE", .table), ("INSERT", .insert), ("INTO", .into), ("INDEX", .index),
    ("ON", .on), ("VALUES", .values), ("SELECT", .select), ("FROM", .from_), ("WHERE", .where_),
    ("UPDATE", .update), ("SET", .set), ("DELETE", .delete), ("INT", .int), ("BIGINT", .bigInt),
    ("BOOLEAN", .boolean), ("VARCHAR", .varchar), ("AND", .and), ("OR", .or), ("NULL", .null),
    ("ORDER", .order), ("GROUP", .group), ("BY", .by_), ("ASC", .asc), ("DESC", .desc),
    ("LIMIT", .limit), ("COUNT", .count), ("SUM", .sum), ("JOIN", .join)]

def toAsciiUppercase (value : String) : String := String.ofList (value.toList.map Char.toUpper)

/-- `TokenKind::from`. -/
def TokenKind.ofWord (value : String) : TokenKind :=
  match keywords.lookup (toAsciiUppercase value) with
  | some kind => kind
  | none => .identifier value

/-- `digits.parse::<i64>()`. -/
def parseI64 (digits : String) : Option Int64 :=
  let n := Nat.ofDigitChars 10 digits.toList 0
  if n < 2 ^ 63 then some (Int64.ofNat n) else none

/-- The symbols of one character that no other one may follow. -/
def symbolKind : Char → Option TokenKind
  | '(' => some .leftParen
  | ')' => some .rightParen
  | ',' => some .comma
  | ';' => some .semicolon
  | '*' => some .asterisk
  | '=' => some .eq
  | '.' => some .dot
  | _ => none

/-! ### Reading -/

structure Lexer where
  input : String
  offset : Nat

namespace Lexer

def new (input : String) : Lexer := ⟨input, 0⟩

def currentChar : Exec LexError Lexer (Option Char) := ⟨fun self =>
  match sliceFrom self.input.toList self.offset with
  | some cs => .ok cs.head? self
  | none => .panic⟩

def advanceChar : Exec LexError Lexer Unit := do
  match ← currentChar with
  | some ch => Exec.modify fun self => { self with offset := self.offset + ch.utf8Size }
  | none => pure ()

/-- `&self.input[start..self.offset]`. -/
def sliceSince (start : Nat) : Exec LexError Lexer String := ⟨fun self =>
  if start > self.offset then .panic
  else match (sliceFrom self.input.toList start).bind (sliceTo · (self.offset - start)) with
    | some cs => .ok (String.ofList cs) self
    | none => .panic⟩

/-- The bytes of the input, and one more: a loop that takes a character in each round makes fewer. -/
def rounds (self : Lexer) : Nat := self.input.utf8ByteSize + 1

/-- `while self.current_char().is_some_and(goes_on) { self.advance_char(); }`. -/
def advanceWhile (goesOn : Char → Bool) : Exec LexError Lexer Unit := do
  let n ← Exec.gets rounds
  Exec.repeatWhile currentChar (fun ch => ch.any goesOn) (fun _ => advanceChar) n ()

def skipWhitespace : Exec LexError Lexer Unit := advanceWhile isWhitespace

/-- The loop over a string literal, behind its first quote. -/
def readString (start currentStart : Nat) : Nat → Exec LexError Lexer Token
  | 0 => Exec.diverge
  | n + 1 => do
    match ← currentChar with
    | some ch =>
      if ch = quote then do
        let word ← sliceSince currentStart
        advanceChar
        pure ⟨.stringLiteral word, start⟩
      else do
        advanceChar
        readString start currentStart n
    | none => Exec.throw (.unterminatedString start)

/-- `if let Some(ch) = self.current_char() && ch == '=' { self.advance_char(); .. }`. -/
def takesEquals : Exec LexError Lexer Bool := do
  if (← currentChar) = some '=' then do
    advanceChar
    pure true
  else pure false

def nextToken : Exec LexError Lexer Token := do
  skipWhitespace
  let start ← Exec.gets offset
  match ← currentChar with
  | none => pure ⟨.eof, start⟩
  | some ch =>
    if isWordStart ch then do
      advanceChar
      advanceWhile isWordChar
      let word ← sliceSince start
      pure ⟨.ofWord word, start⟩
    else if ch.isDigit then do
      advanceChar
      advanceWhile Char.isDigit
      let number ← sliceSince start
      match parseI64 number with
      | some value => pure ⟨.integer value, start⟩
      | none => Exec.throw (.invalidInteger start)
    else if ch = quote then do
      advanceChar
      let currentStart ← Exec.gets offset
      let n ← Exec.gets rounds
      readString start currentStart n
    else if ch = '!' then do
      advanceChar
      if ← takesEquals then pure ⟨.notEq, start⟩ else Exec.throw (.unexpectedCharacter start '!')
    else if ch = '<' then do
      advanceChar
      if ← takesEquals then pure ⟨.ltEq, start⟩ else pure ⟨.lt, start⟩
    else if ch = '>' then do
      advanceChar
      if ← takesEquals then pure ⟨.gtEq, start⟩ else pure ⟨.gt, start⟩
    else
      match symbolKind ch with
      | some kind => do
        advanceChar
        pure ⟨kind, start⟩
      | none => Exec.throw (.unexpectedCharacter start ch)

/-- The loop of `tokenize`. -/
def tokenizeLoop : Nat → List Token → Exec LexError Lexer (List Token)
  | 0, _ => Exec.diverge
  | n + 1, tokens => do
    let token ← nextToken
    if token.kind = .eof then pure (tokens ++ [token]) else tokenizeLoop n (tokens ++ [token])

def tokenize : Exec LexError Lexer (List Token) := do
  let n ← Exec.gets rounds
  tokenizeLoop n []

end Lexer

end RdbRs
