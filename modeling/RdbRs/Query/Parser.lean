import RdbRs.Lib.TokenReader
import RdbRs.Query.Ast

/-!
# The parser

Recursive descent with one token of lookahead over a list of tokens and a position in it.
-/

namespace RdbRs

inductive ParseError where
  | unexpectedToken (position : Nat)
  deriving DecidableEq

structure Parser where
  tokens : List Token
  position : Nat

namespace Parser

variable {α β : Type}

def new (tokens : List Token) : Parser := ⟨tokens, 0⟩

/-! ### Single tokens -/

def current : Exec ParseError Parser Token := ⟨fun self =>
  match self.tokens[self.position]? with
  | some token => .ok token self
  | none => .panic⟩

/-- The last token, `Eof`, is never passed. -/
def advance : Exec ParseError Parser Unit := do
  let token ← current
  if token.kind ≠ .eof then Exec.modify fun self => { self with position := self.position + 1 }
  else pure ()

def expect (expected : TokenKind) : Exec ParseError Parser Unit := do
  let token ← current
  if token.kind ≠ expected then Exec.throw (.unexpectedToken token.offset)
  else advance

/-- A token with a value: `match &current.kind { .. }`, then `advance`. -/
def expectValue (decode : TokenKind → Option α) : Exec ParseError Parser α := do
  let token ← current
  match decode token.kind with
  | some value => do
    advance
    pure value
  | none => Exec.throw (.unexpectedToken token.offset)

def expectIdentifier : Exec ParseError Parser String :=
  expectValue fun
    | .identifier name => some name
    | _ => none

def expectLiteral : Exec ParseError Parser Literal :=
  expectValue fun
    | .integer integer => some (.integer integer)
    | .stringLiteral str => some (.string str)
    | .null => some .null
    | _ => none

def parseDataType : Exec ParseError Parser SqlDataType :=
  expectValue fun
    | .int => some .int
    | .bigInt => some .bigInt
    | .boolean => some .boolean
    | .varchar => some .varchar
    | .null => some .null
    | _ => none

/-! ### Loops and optional clauses -/

/-- `while self.current().kind == kind { self.expect(kind)?; .. }`. A round takes a token, so
that there are fewer rounds than tokens. -/
def whileNext (kind : TokenKind) (step : β → Exec ParseError Parser β) (init : β) :
    Exec ParseError Parser β := do
  let rounds ← Exec.gets fun self => self.tokens.length + 1
  Exec.repeatWhile current (fun token => token.kind = kind)
    (fun acc => do
      expect kind
      step acc)
    rounds init

/-- One item, and one more behind each comma. -/
def commaSeparated (item : Exec ParseError Parser α) : Exec ParseError Parser (List α) := do
  let first ← item
  whileNext .comma (fun items => do
    let next ← item
    pure (items ++ [next])) [first]

/-- `if self.current().kind == kind { self.expect(kind)?; .. }`. -/
def optionalClause (kind : TokenKind) (clause : Exec ParseError Parser α) :
    Exec ParseError Parser (Option α) := do
  let token ← current
  if token.kind = kind then do
    expect kind
    let value ← clause
    pure (some value)
  else pure none

/-! ### References -/

def parseTableReference : Exec ParseError Parser TableReference := do
  let name ← expectIdentifier
  let token ← current
  match token.kind with
  | .identifier _ => do
    let alias_ ← expectIdentifier
    pure ⟨name, some alias_⟩
  | _ => pure ⟨name, none⟩

def parseColumnReference : Exec ParseError Parser ColumnReference := do
  let first ← expectIdentifier
  let token ← current
  if token.kind = .dot then do
    expect .dot
    let column ← expectIdentifier
    pure ⟨some first, column⟩
  else pure ⟨none, first⟩

/-- A round of the loop of `parse_from_clause`, behind its `JOIN`. -/
def parseJoin (left : FromClause) : Exec ParseError Parser FromClause := do
  let joinTable ← parseTableReference
  expect .on
  let leftOn ← parseColumnReference
  expect .eq
  let rightOn ← parseColumnReference
  pure (.innerJoin left ⟨leftOn, rightOn⟩ (.table joinTable))

def parseFromClause : Exec ParseError Parser FromClause := do
  let reference ← parseTableReference
  whileNext .join parseJoin (.table reference)

/-! ### Expressions -/

/-- The error carries the position and not the offset of the token. -/
def comparisonOperator (kind : TokenKind) : Exec ParseError Parser ComparisonOperator :=
  match kind with
  | .eq => pure .equal
  | .notEq => pure .notEqual
  | .lt => pure .lessThan
  | .gt => pure .greaterThan
  | .ltEq => pure .lessThanOrEqual
  | .gtEq => pure .greaterThanOrEqual
  | _ => do
    let position ← Exec.gets Parser.position
    Exec.throw (.unexpectedToken position)

/-- The operator of a comparison. -/
def parseOperator : Exec ParseError Parser ComparisonOperator := do
  let token ← current
  let operator ← comparisonOperator token.kind
  advance
  pure operator

def parseComparisonExpression : Exec ParseError Parser Expression := do
  let column ← parseColumnReference
  let operator ← parseOperator
  let literal ← expectLiteral
  pure (.comparison (.column column) operator (.literal literal))

/-- A round of the loop of `parse_and_expression`, behind its `AND`. -/
def parseConjunct (left : Expression) : Exec ParseError Parser Expression := do
  let right ← parseComparisonExpression
  pure (.and left right)

def parseAndExpression : Exec ParseError Parser Expression := do
  let left ← parseComparisonExpression
  whileNext .and parseConjunct left

/-- At most one `OR`. -/
def parseOrExpression : Exec ParseError Parser Expression := do
  let left ← parseAndExpression
  let token ← current
  if token.kind = .or then do
    expect .or
    let right ← parseAndExpression
    pure (.or left right)
  else pure left

/-! ### Clauses -/

def parseProjection : Exec ParseError Parser Projection := do
  let token ← current
  match token.kind with
  | .asterisk => do
    expect .asterisk
    pure .all
  | .identifier _ => do
    let column ← parseColumnReference
    pure (.expression (.column column))
  | .count => do
    expect .count
    expect .leftParen
    expect .asterisk
    expect .rightParen
    pure (.aggregate .countAll)
  | .sum => do
    expect .sum
    expect .leftParen
    let column ← parseColumnReference
    expect .rightParen
    pure (.aggregate (.sum column))
  | _ => Exec.throw (.unexpectedToken token.offset)

def parseProjections : Exec ParseError Parser (List Projection) := commaSeparated parseProjection

def parseGroupBy : Exec ParseError Parser (List ColumnReference) :=
  commaSeparated parseColumnReference

def parseOrderBy : Exec ParseError Parser OrderBy := do
  let column ← parseColumnReference
  let token ← current
  match token.kind with
  | .asc => do
    expect .asc
    pure ⟨column, .asc⟩
  | .desc => do
    expect .desc
    pure ⟨column, .desc⟩
  | _ => pure ⟨column, .asc⟩

/-- `v as usize` of a number that is not negative is the number. -/
def parseLimit : Exec ParseError Parser Nat := do
  let literal ← expectLiteral
  let position ← Exec.gets Parser.position
  match literal with
  | .integer v =>
    if v < 0 then Exec.throw (.unexpectedToken position)
    else pure v.toInt.toNat
  | _ => Exec.throw (.unexpectedToken position)

def parseAssignment : Exec ParseError Parser Assignment := do
  let column ← parseColumnReference
  expect .eq
  let value ← expectLiteral
  pure ⟨column, value⟩

def parseAssignments : Exec ParseError Parser (List Assignment) := commaSeparated parseAssignment

def parseLiterals : Exec ParseError Parser (List Literal) := do
  expect .leftParen
  let literals ← commaSeparated expectLiteral
  expect .rightParen
  pure literals

def parseColumnDefinition : Exec ParseError Parser ColumnDefinition := do
  let name ← expectIdentifier
  let dataType ← parseDataType
  pure ⟨name, dataType⟩

def parseColumnDefinitions : Exec ParseError Parser (List ColumnDefinition) := do
  expect .leftParen
  let definitions ← commaSeparated parseColumnDefinition
  expect .rightParen
  pure definitions

/-! ### Statements -/

def parseSelect : Exec ParseError Parser SelectStatement := do
  expect .select
  let projections ← parseProjections
  expect .from_
  let source ← parseFromClause
  let filter ← optionalClause .where_ parseOrExpression
  let groupBy ← optionalClause .group do
    expect .by_
    parseGroupBy
  let orderBy ← optionalClause .order do
    expect .by_
    parseOrderBy
  let limit ← optionalClause .limit parseLimit
  pure ⟨projections, source, filter, groupBy, orderBy, limit⟩

def parseInsert : Exec ParseError Parser InsertStatement := do
  expect .insert
  expect .into
  let table ← expectIdentifier
  expect .values
  let literals ← parseLiterals
  pure ⟨table, literals⟩

def parseUpdate : Exec ParseError Parser UpdateStatement := do
  expect .update
  let source ← parseFromClause
  expect .set
  let assignments ← parseAssignments
  let filter ← optionalClause .where_ parseOrExpression
  pure ⟨source, assignments, filter⟩

/-- The tables between `DELETE` and `FROM`, if there are any. -/
def parseTargets : Exec ParseError Parser (Option (List String)) := do
  let token ← current
  if token.kind ≠ .from_ then do
    let targets ← commaSeparated expectIdentifier
    pure (some targets)
  else pure none

def parseDelete : Exec ParseError Parser DeleteStatement := do
  expect .delete
  let targets ← parseTargets
  expect .from_
  let source ← parseFromClause
  let filter ← optionalClause .where_ parseOrExpression
  pure ⟨targets, source, filter⟩

def parseCreateTable : Exec ParseError Parser CreateTableStatement := do
  expect .table
  let table ← expectIdentifier
  let columns ← parseColumnDefinitions
  pure ⟨table, columns⟩

def parseCreateIndex : Exec ParseError Parser CreateIndexStatement := do
  expect .index
  let indexName ← expectIdentifier
  expect .on
  let table ← expectIdentifier
  expect .leftParen
  let columnName ← expectIdentifier
  expect .rightParen
  pure ⟨indexName, table, columnName⟩

/-- The statement up to its semicolon. -/
def parseStatement : Exec ParseError Parser Statement := do
  let token ← current
  match token.kind with
  | .select => do
    let statement ← parseSelect
    pure (.select statement)
  | .create => do
    expect .create
    let next ← current
    match next.kind with
    | .table => do
      let statement ← parseCreateTable
      pure (.createTable statement)
    | .index => do
      let statement ← parseCreateIndex
      pure (.createIndex statement)
    | _ => Exec.throw (.unexpectedToken token.offset)
  | .insert => do
    let statement ← parseInsert
    pure (.insert statement)
  | .update => do
    let statement ← parseUpdate
    pure (.update statement)
  | .delete => do
    let statement ← parseDelete
    pure (.delete statement)
  | _ => Exec.throw (.unexpectedToken token.offset)

def parse : Exec ParseError Parser Statement := do
  let statement ← parseStatement
  expect .semicolon
  expect .eof
  pure statement

end Parser

end RdbRs
