import RdbRs.Query.Ast

/-!
# Canonical texts

The tokens a statement is written with, and the statements the parser builds: lists that are
not empty, joins and conjunctions nested to the left, a filter of one conjunction or of two
with an `OR` between them.
-/

namespace RdbRs

def ComparisonOperator.kind : ComparisonOperator → TokenKind
  | equal => .eq
  | notEqual => .notEq
  | lessThan => .lt
  | greaterThan => .gt
  | lessThanOrEqual => .ltEq
  | greaterThanOrEqual => .gtEq

def SqlDataType.kind : SqlDataType → TokenKind
  | int => .int
  | bigInt => .bigInt
  | boolean => .boolean
  | varchar => .varchar
  | null => .null

def Literal.kind : Literal → TokenKind
  | integer value => .integer value
  | string value => .stringLiteral value
  | null => .null

def ColumnReference.kinds (c : ColumnReference) : List TokenKind :=
  match c.table with
  | some table => [.identifier table, .dot, .identifier c.column]
  | none => [.identifier c.column]

def TableReference.kinds (t : TableReference) : List TokenKind :=
  match t.alias_ with
  | some alias_ => [.identifier t.name, .identifier alias_]
  | none => [.identifier t.name]

/-- What stands behind a `JOIN`. -/
def joinKinds (on : JoinCondition) (right : List TokenKind) : List TokenKind :=
  right ++ .on :: (on.left.kinds ++ .eq :: on.right.kinds)

def FromClause.kinds : FromClause → List TokenKind
  | table reference => reference.kinds
  | innerJoin left on right => left.kinds ++ .join :: joinKinds on right.kinds

def Expression.kinds : Expression → List TokenKind
  | column reference => reference.kinds
  | literal value => [value.kind]
  | comparison left operator right => left.kinds ++ operator.kind :: right.kinds
  | and left right => left.kinds ++ .and :: right.kinds
  | or left right => left.kinds ++ .or :: right.kinds

def Projection.kinds : Projection → List TokenKind
  | all => [.asterisk]
  | expression value => value.kinds
  | aggregate .countAll => [.count, .leftParen, .asterisk, .rightParen]
  | aggregate (.sum column) => .sum :: .leftParen :: (column.kinds ++ [.rightParen])

def Assignment.kinds (a : Assignment) : List TokenKind := a.column.kinds ++ [.eq, a.value.kind]

def ColumnDefinition.kinds (c : ColumnDefinition) : List TokenKind :=
  [.identifier c.name, c.dataType.kind]

/-- Texts with commas between them. -/
def commaKinds {α : Type} (item : α → List TokenKind) : List α → List TokenKind
  | [] => []
  | a :: items => item a ++ items.flatMap fun b => .comma :: item b

/-- A clause with its keyword, or nothing. -/
def clauseKinds {α : Type} (kind : TokenKind) (clause : α → List TokenKind) :
    Option α → List TokenKind
  | some a => kind :: clause a
  | none => []

/-- `ASC` may be left out; the canonical text does. -/
def OrderBy.kinds (explicitAsc : Bool) (o : OrderBy) : List TokenKind :=
  o.column.kinds ++ match o.direction with
    | .asc => if explicitAsc then [.asc] else []
    | .desc => [.desc]

def SelectStatement.kinds (explicitAsc : Bool) (s : SelectStatement) : List TokenKind :=
  .select :: (commaKinds Projection.kinds s.projections ++ .from_ :: (s.from_.kinds ++
    (clauseKinds .where_ Expression.kinds s.filter ++
      (clauseKinds .group (fun columns => .by_ :: commaKinds ColumnReference.kinds columns) s.groupBy ++
        (clauseKinds .order (fun o => .by_ :: o.kinds explicitAsc) s.orderBy ++
          clauseKinds .limit (fun n => [.integer (Int64.ofNat n)]) s.limit)))))

def InsertStatement.kinds (s : InsertStatement) : List TokenKind :=
  .insert :: .into :: .identifier s.table :: .values :: .leftParen ::
    (commaKinds (fun literal : Literal => [literal.kind]) s.literals ++ [.rightParen])

def UpdateStatement.kinds (s : UpdateStatement) : List TokenKind :=
  .update :: (s.from_.kinds ++ .set :: (commaKinds Assignment.kinds s.assignments ++
    clauseKinds .where_ Expression.kinds s.filter))

def targetKinds : Option (List String) → List TokenKind
  | some targets => commaKinds (fun target => [.identifier target]) targets
  | none => []

def DeleteStatement.kinds (s : DeleteStatement) : List TokenKind :=
  .delete :: (targetKinds s.targets ++ .from_ :: (s.from_.kinds ++
    clauseKinds .where_ Expression.kinds s.filter))

def CreateTableStatement.kinds (s : CreateTableStatement) : List TokenKind :=
  .table :: .identifier s.table :: .leftParen ::
    (commaKinds ColumnDefinition.kinds s.columns ++ [.rightParen])

def CreateIndexStatement.kinds (s : CreateIndexStatement) : List TokenKind :=
  [.index, .identifier s.indexName, .on, .identifier s.table, .leftParen, .identifier s.columnName,
    .rightParen]

/-- The tokens of a statement up to its semicolon. -/
def Statement.kinds (explicitAsc : Bool) : Statement → List TokenKind
  | select s => s.kinds explicitAsc
  | createTable s => .create :: s.kinds
  | createIndex s => .create :: s.kinds
  | insert s => s.kinds
  | update s => s.kinds
  | delete s => s.kinds

def Statement.canonical (explicitAsc : Bool) (s : Statement) : List TokenKind :=
  s.kinds explicitAsc ++ [.semicolon, .eof]

/-! ### Shapes -/

def FromClause.LeftNested : FromClause → Prop
  | table _ => True
  | innerJoin left _ right => left.LeftNested ∧ ∃ reference, right = table reference

/-- A column compared with a literal. -/
def Expression.IsComparison (e : Expression) : Prop :=
  ∃ reference operator value, e = .comparison (.column reference) operator (.literal value)

inductive Expression.IsAndChain : Expression → Prop
  | comparison {e : Expression} (h : e.IsComparison) : IsAndChain e
  | and {left right : Expression} (h : IsAndChain left) (h' : right.IsComparison) :
    IsAndChain (.and left right)

def Expression.IsFilter (e : Expression) : Prop :=
  e.IsAndChain ∨ ∃ left right : Expression, left.IsAndChain ∧ right.IsAndChain ∧ e = .or left right

/-- A projected expression is a column. -/
def Projection.Shaped : Projection → Prop
  | expression value => ∃ reference, value = .column reference
  | _ => True

def i64Max : Nat := 9223372036854775807

structure SelectStatement.Shaped (s : SelectStatement) : Prop where
  projections : s.projections ≠ [] ∧ ∀ p ∈ s.projections, p.Shaped
  leftNested : s.from_.LeftNested
  filter : ∀ e ∈ s.filter, e.IsFilter
  groupBy : ∀ columns ∈ s.groupBy, columns ≠ []
  limit : ∀ n ∈ s.limit, n ≤ i64Max

structure UpdateStatement.Shaped (s : UpdateStatement) : Prop where
  leftNested : s.from_.LeftNested
  assignments : s.assignments ≠ []
  filter : ∀ e ∈ s.filter, e.IsFilter

structure DeleteStatement.Shaped (s : DeleteStatement) : Prop where
  targets : ∀ targets ∈ s.targets, targets ≠ []
  leftNested : s.from_.LeftNested
  filter : ∀ e ∈ s.filter, e.IsFilter

/-- The statements the parser builds. -/
def Statement.Shaped : Statement → Prop
  | select s => s.Shaped
  | createTable s => s.columns ≠ []
  | createIndex _ => True
  | insert s => s.literals ≠ []
  | update s => s.Shaped
  | delete s => s.Shaped

end RdbRs
