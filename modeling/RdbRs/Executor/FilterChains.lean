import RdbRs.Executor.TypedRows
import RdbRs.Query.ParserSpec

/-!
# Chains of comparisons

A filter is written as comparisons with `AND` and `OR` between them. The parser reads such a
chain as an `OR` of `AND`s when it has one `OR` at most; it stops in front of a second one.
-/

namespace RdbRs

inductive Connective where
  | and
  | or
  deriving DecidableEq

def Connective.kind : Connective → TokenKind
  | and => .and
  | or => .or

structure Comparison where
  column : ColumnReference
  operator : ComparisonOperator
  literal : Literal
  deriving DecidableEq

def Comparison.expression (c : Comparison) : Expression :=
  .comparison (.column c.column) c.operator (.literal c.literal)

/-- `c₁ op₁ c₂ op₂ … cₙ`. -/
structure Chain where
  first : Comparison
  rest : List (Connective × Comparison)
  deriving DecidableEq

/-- The parts between the `OR`s. -/
def andRuns : Comparison → List (Connective × Comparison) → List (List Comparison)
  | c, [] => [[c]]
  | c, (.or, d) :: rest => [c] :: andRuns d rest
  | c, (.and, d) :: rest =>
    match andRuns d rest with
    | run :: runs => (c :: run) :: runs
    | [] => [[c]]

/-- `e`, with what stands in front of the last `OR`. -/
def orTree (front : Option Expression) (e : Expression) : Expression :=
  match front with
  | some left => .or left e
  | none => e

/-- The tree of a chain behind a part that is read: `AND` binds tighter, both associate to the
left. -/
def chainTree (front : Option Expression) (e : Expression) : List (Connective × Comparison) → Expression
  | [] => orTree front e
  | (.and, c) :: rest => chainTree front (.and e c.expression) rest
  | (.or, c) :: rest => chainTree (some (orTree front e)) c.expression rest

namespace Chain

def runs (chain : Chain) : List (List Comparison) := andRuns chain.first chain.rest

def kinds (chain : Chain) : List TokenKind :=
  chain.first.expression.kinds ++ chain.rest.flatMap fun p => p.1.kind :: p.2.expression.kinds

def expression (chain : Chain) : Expression := chainTree none chain.first.expression chain.rest

def ors (chain : Chain) : Nat := chain.rest.countP fun p => p.1 = .or

end Chain

lemma kinds_chainTree (front : Option Expression) (e : Expression)
    (rest : List (Connective × Comparison)) : (chainTree front e rest).kinds =
      (orTree front e).kinds ++ rest.flatMap fun p => p.1.kind :: p.2.expression.kinds := by
  induction rest generalizing front e with
  | nil => exact (List.append_nil _).symm
  | cons p rest ih =>
    have ⟨connective, c⟩ := p
    cases connective with
    | and =>
      rw [chainTree, ih, List.flatMap_cons]
      cases front with
      | none => simp [orTree, Expression.kinds, Connective.kind]
      | some left => simp [orTree, Expression.kinds, Connective.kind]
    | or =>
      rw [chainTree, ih, List.flatMap_cons]
      simp [orTree, Expression.kinds, Connective.kind]

/-- A tree is written as its chain, without parentheses. -/
lemma Chain.kinds_expression (chain : Chain) : chain.expression.kinds = chain.kinds :=
  kinds_chainTree none _ _

/-! ### Statements with a WHERE clause -/

namespace Statement

def hasWhere : Statement → Prop
  | select _ => True
  | update _ => True
  | delete _ => True
  | _ => False

/-- The statement with another filter, if it can have one. -/
def withFilter (e : Expression) : Statement → Statement
  | select s => select { s with filter := some e }
  | update s => update { s with filter := some e }
  | delete s => delete { s with filter := some e }
  | s => s

lemma withFilter_shaped {s : Statement} {e : Expression} (h : s.Shaped) (he : e.IsFilter) :
    (s.withFilter e).Shaped := by
  have hfilter : ∀ e' ∈ some e, e'.IsFilter := by
    intro e' he'
    rw [Option.mem_some_iff.mp he'] at he
    exact he
  cases s with
  | select s => exact ⟨h.projections, h.leftNested, hfilter, h.groupBy, h.limit⟩
  | update s => exact ⟨h.leftNested, h.assignments, hfilter⟩
  | delete s => exact ⟨h.targets, h.leftNested, hfilter⟩
  | createTable s => exact h
  | createIndex s => exact h
  | insert s => exact h

end Statement

/-! ### Texts with one `OR` -/

section Ors

variable {α : Type}

lemma or_notMem_reference (c : ColumnReference) : TokenKind.or ∉ c.kinds := by
  unfold ColumnReference.kinds
  split <;> simp

lemma or_notMem_from (source : FromClause) : TokenKind.or ∉ source.kinds := by
  induction source with
  | table reference =>
    unfold FromClause.kinds TableReference.kinds
    split <;> simp
  | innerJoin left on right ihl ihr =>
    simp [FromClause.kinds, joinKinds, ihl, ihr, or_notMem_reference]

lemma literal_ne_or (literal : Literal) : literal.kind ≠ .or := by
  cases literal <;> simp [Literal.kind]

lemma or_notMem_commaKinds {item : α → List TokenKind} {items : List α}
    (h : ∀ a ∈ items, TokenKind.or ∉ item a) : TokenKind.or ∉ commaKinds item items := by
  cases items with
  | nil => simp [commaKinds]
  | cons a items =>
    simp only [commaKinds, List.mem_append, List.mem_flatMap, List.mem_cons, not_or, not_exists, not_and]
    exact ⟨h a List.mem_cons_self, fun b hb => ⟨by simp, h b (List.mem_cons_of_mem a hb)⟩⟩

lemma or_notMem_clauseKinds {kind : TokenKind} {clause : α → List TokenKind} {o : Option α}
    (hkind : kind ≠ .or) (h : ∀ a, TokenKind.or ∉ clause a) : TokenKind.or ∉ clauseKinds kind clause o := by
  cases o with
  | none => simp [clauseKinds]
  | some a => simp [clauseKinds, hkind.symm, h a]

lemma or_notMem_comparison {e : Expression} (h : e.IsComparison) : TokenKind.or ∉ e.kinds := by
  have ⟨reference, operator, value, he⟩ := h
  have hoperator : operator.kind ≠ .or := by cases operator <;> simp [ComparisonOperator.kind]
  simp [he, Expression.kinds, or_notMem_reference, hoperator.symm, (literal_ne_or value).symm]

lemma or_notMem_andChain {e : Expression} (h : e.IsAndChain) : TokenKind.or ∉ e.kinds := by
  induction h with
  | comparison h => exact or_notMem_comparison h
  | and _ hright ih => simp [Expression.kinds, ih, or_notMem_comparison hright]

lemma count_or_filter {e : Expression} (h : e.IsFilter) : e.kinds.count .or ≤ 1 := by
  cases h with
  | inl hchain => rw [List.count_eq_zero.mpr (or_notMem_andChain hchain)]; omega
  | inr hor =>
    have ⟨left, right, hleft, hright, he⟩ := hor
    rw [he, Expression.kinds, List.count_append, List.count_cons_self,
      List.count_eq_zero.mpr (or_notMem_andChain hleft),
      List.count_eq_zero.mpr (or_notMem_andChain hright)]

lemma count_or_where {filter : Option Expression} (h : ∀ e ∈ filter, e.IsFilter) :
    (clauseKinds .where_ Expression.kinds filter).count .or ≤ 1 := by
  cases filter with
  | none => simp [clauseKinds]
  | some e =>
    rw [clauseKinds, List.count_cons_of_ne (by decide)]
    exact count_or_filter (h e rfl)

lemma or_notMem_projection {p : Projection} (h : p.Shaped) : TokenKind.or ∉ p.kinds := by
  cases p with
  | all => simp [Projection.kinds]
  | expression value =>
    obtain ⟨reference, hvalue⟩ := h
    rw [hvalue]
    exact or_notMem_reference reference
  | aggregate value =>
    cases value with
    | countAll => simp [Projection.kinds]
    | sum column => simp [Projection.kinds, or_notMem_reference]

/-- The clauses of a `SELECT` behind its filter have no `OR`. -/
lemma or_notMem_behindFilter (s : SelectStatement) (explicitAsc : Bool) :
    TokenKind.or ∉ clauseKinds .group (fun columns => .by_ :: commaKinds ColumnReference.kinds columns)
      s.groupBy ++ (clauseKinds .order (fun o => .by_ :: o.kinds explicitAsc) s.orderBy ++
        clauseKinds .limit (fun n => [.integer (Int64.ofNat n)]) s.limit) := by
  simp only [List.mem_append, not_or]
  refine ⟨or_notMem_clauseKinds (by decide) ?_, or_notMem_clauseKinds (by decide) ?_,
    or_notMem_clauseKinds (by decide) (by simp)⟩
  · intro columns
    have hcolumns : TokenKind.or ∉ commaKinds ColumnReference.kinds columns :=
      or_notMem_commaKinds fun c _ => or_notMem_reference c
    simp [hcolumns]
  · intro o
    unfold OrderBy.kinds
    cases o.direction <;> cases explicitAsc <;> simp [or_notMem_reference]

lemma or_notMem_targets (targets : Option (List String)) : TokenKind.or ∉ targetKinds targets := by
  cases targets with
  | none => simp [targetKinds]
  | some targets => exact or_notMem_commaKinds (by simp)

/-- The statements the parser builds are written with one `OR` at most. -/
lemma count_or_canonical {s : Statement} (h : s.Shaped) (explicitAsc : Bool) :
    (s.canonical explicitAsc).count .or ≤ 1 := by
  rw [Statement.canonical, List.count_append]
  have hend : [TokenKind.semicolon, .eof].count .or = 0 := by decide
  rw [hend, Nat.add_zero]
  cases s with
  | select s =>
    have hprojections := or_notMem_commaKinds fun p hp => or_notMem_projection (h.projections.2 p hp)
    have hfilter := count_or_where h.filter
    rw [Statement.kinds, SelectStatement.kinds, List.count_cons_of_ne (by decide), List.count_append,
      List.count_eq_zero.mpr hprojections, List.count_cons_of_ne (by decide), List.count_append,
      List.count_eq_zero.mpr (or_notMem_from _), List.count_append,
      List.count_eq_zero.mpr (or_notMem_behindFilter s explicitAsc)]
    omega
  | createTable s =>
    have hcolumns : TokenKind.or ∉ commaKinds ColumnDefinition.kinds s.columns := by
      apply or_notMem_commaKinds
      intro column _
      cases hd : column.dataType <;> simp [ColumnDefinition.kinds, hd, SqlDataType.kind]
    simp [Statement.kinds, CreateTableStatement.kinds, List.count_eq_zero.mpr hcolumns]
  | createIndex s => simp [Statement.kinds, CreateIndexStatement.kinds]
  | insert s =>
    have hliterals : TokenKind.or ∉ commaKinds (fun literal : Literal => [literal.kind]) s.literals := by
      apply or_notMem_commaKinds
      intro literal _
      simp [(literal_ne_or literal).symm]
    simp [Statement.kinds, InsertStatement.kinds, List.count_eq_zero.mpr hliterals]
  | update s =>
    have hassignments : TokenKind.or ∉ commaKinds Assignment.kinds s.assignments := by
      apply or_notMem_commaKinds
      intro assignment _
      simp [Assignment.kinds, or_notMem_reference, (literal_ne_or assignment.value).symm]
    have hfilter := count_or_where h.filter
    rw [Statement.kinds, UpdateStatement.kinds, List.count_cons_of_ne (by decide), List.count_append,
      List.count_eq_zero.mpr (or_notMem_from _), List.count_cons_of_ne (by decide),
      List.count_append, List.count_eq_zero.mpr hassignments]
    omega
  | delete s =>
    have hfilter := count_or_where h.filter
    rw [Statement.kinds, DeleteStatement.kinds, List.count_cons_of_ne (by decide), List.count_append,
      List.count_eq_zero.mpr (or_notMem_targets _), List.count_cons_of_ne (by decide),
      List.count_append, List.count_eq_zero.mpr (or_notMem_from _)]
    omega

/-- A filter is written in the text of its statement. -/
lemma count_or_withFilter {s : Statement} (h : s.hasWhere) (e : Expression) (explicitAsc : Bool) :
    e.kinds.count .or ≤ ((s.withFilter e).canonical explicitAsc).count .or := by
  cases s with
  | select s =>
    simp only [Statement.withFilter, Statement.canonical, Statement.kinds, SelectStatement.kinds,
      clauseKinds, List.count_append, List.count_cons]
    omega
  | update s =>
    simp only [Statement.withFilter, Statement.canonical, Statement.kinds, UpdateStatement.kinds,
      clauseKinds, List.count_append, List.count_cons]
    omega
  | delete s =>
    simp only [Statement.withFilter, Statement.canonical, Statement.kinds, DeleteStatement.kinds,
      clauseKinds, List.count_append, List.count_cons]
    omega
  | createTable s => exact h.elim
  | createIndex s => exact h.elim
  | insert s => exact h.elim

end Ors

namespace Chain

lemma isComparison_expression (c : Comparison) : c.expression.IsComparison := ⟨_, _, _, rfl⟩

/-- The text of a chain has the `OR`s of the chain. -/
lemma count_or_kinds (chain : Chain) : chain.expression.kinds.count .or = chain.ors := by
  have hcomparison (c : Comparison) : c.expression.kinds.count .or = 0 :=
    List.count_eq_zero.mpr (or_notMem_comparison (isComparison_expression c))
  rw [kinds_expression, kinds, List.count_append, hcomparison, Nat.zero_add, ors]
  generalize chain.rest = rest
  induction rest with
  | nil => rfl
  | cons p rest ih =>
    rw [List.flatMap_cons, List.cons_append, List.count_cons, List.count_append, hcomparison, ih,
      List.countP_cons]
    cases p.1 <;> simp [Connective.kind]

/-- The tree of a chain with one `OR` at most is a filter the parser builds. -/
lemma isFilter_expression {chain : Chain} (h : chain.ors ≤ 1) : chain.expression.IsFilter := by
  suffices hall : ∀ (rest : List (Connective × Comparison)) (front : Option Expression) (e : Expression),
      e.IsAndChain → (∀ left ∈ front, left.IsAndChain) →
        (rest.countP fun p => p.1 = .or) + (if front.isSome then 1 else 0) ≤ 1 →
          (chainTree front e rest).IsFilter by
    rw [ors] at h
    apply hall chain.rest none _ (.comparison (isComparison_expression _)) (by simp)
    simpa using h
  intro rest
  induction rest with
  | nil =>
    intro front e he hfront _
    cases front with
    | none => exact .inl he
    | some left => exact .inr ⟨left, e, hfront left rfl, he, rfl⟩
  | cons p rest ih =>
    intro front e he hfront hcount
    have ⟨connective, c⟩ := p
    rw [List.countP_cons] at hcount
    cases connective with
    | and =>
      apply ih front _ (.and he (isComparison_expression c)) hfront
      simpa using hcount
    | or =>
      simp only [decide_true, if_true] at hcount
      cases front with
      | some left =>
        simp only [Option.isSome_some, if_true] at hcount
        omega
      | none =>
        apply ih _ _ (.comparison (isComparison_expression c))
        · intro left hleft
          cases hleft
          exact he
        · simp only [Option.isSome_some, Option.isSome_none, if_true] at hcount ⊢
          simpa using hcount

end Chain

/-! ### What a chain means -/

section Meaning

/-- The comparison, bound alone, is true on the row. -/
def Comparison.IsTrue (c : Comparison) (database : DatabaseMetadata) (tables : List BoundTable)
    (row : QueryRow) : Prop :=
  ∃ bound, (Binder.mk database).bindFilter tables c.expression = .ok bound ∧
    ((Executor.mk database).rowMatchesFilter row bound).run () = .ok true ()

/-- On the rows of a FROM clause the filter, once it is bound, is true or false; it is true where
all comparisons of one of the `AND` parts of the chain are. -/
def Chain.IsMeaningOf (chain : Chain) (filter : Expression) : Prop :=
  ∀ (database : DatabaseMetadata) (tables : List BoundTable) (bound : BoundExpression) (row : QueryRow),
    Scope tables → row.IsFrom database tables →
      (Binder.mk database).bindFilter tables filter = .ok bound →
        ∃ v, ((Executor.mk database).rowMatchesFilter row bound).run () = .ok v () ∧
          (v = true ↔ ∃ run ∈ chain.runs, ∀ c ∈ run, c.IsTrue database tables row)

variable {database : DatabaseMetadata} {tables : List BoundTable} {row : QueryRow}

/-- The truth value of an expression that can be bound. -/
def truth (database : DatabaseMetadata) (tables : List BoundTable) (row : QueryRow) (e : Expression) :
    Option Bool :=
  match (Binder.mk database).bindFilter tables e with
  | .ok bound => some ((Executor.mk database).holds row bound)
  | .error _ => none

lemma truth_and {left right : Expression} {v : Bool}
    (h : truth database tables row (.and left right) = some v) :
    ∃ a b, truth database tables row left = some a ∧ truth database tables row right = some b ∧
      v = (a && b) := by
  unfold truth at *
  split at h
  · next bound hbound =>
    have ⟨l, hl, hrest⟩ := except_bind_eq_ok.mp hbound
    have ⟨r, hr, heq⟩ := except_bind_eq_ok.mp hrest
    cases heq
    cases h
    rw [hl, hr]
    exact ⟨_, _, rfl, rfl, rfl⟩
  · cases h

lemma truth_or {left right : Expression} {v : Bool}
    (h : truth database tables row (.or left right) = some v) :
    ∃ a b, truth database tables row left = some a ∧ truth database tables row right = some b ∧
      v = (a || b) := by
  unfold truth at *
  split at h
  · next bound hbound =>
    have ⟨l, hl, hrest⟩ := except_bind_eq_ok.mp hbound
    have ⟨r, hr, heq⟩ := except_bind_eq_ok.mp hrest
    cases heq
    cases h
    rw [hl, hr]
    exact ⟨_, _, rfl, rfl, rfl⟩
  · cases h

/-- The value of what follows a part with the value `v`. -/
def valueFrom (test : Comparison → Bool) (v : Bool) : List (Connective × Comparison) → Bool
  | [] => v
  | (.and, c) :: rest => valueFrom test (v && test c) rest
  | (.or, c) :: rest => v || valueFrom test (test c) rest

/-- A chain is true when one of its runs is. The induction is on the chain behind the first
comparison, whose run is the one that is open. -/
lemma valueFrom_iff (test : Comparison → Bool) (c : Comparison) (v : Bool)
    (rest : List (Connective × Comparison)) :
    ∃ tail runs, andRuns c rest = (c :: tail) :: runs ∧
      (valueFrom test v rest = true ↔
        (v = true ∧ ∀ d ∈ tail, test d = true) ∨ ∃ run ∈ runs, ∀ d ∈ run, test d = true) := by
  induction rest generalizing c v with
  | nil => exact ⟨[], [], rfl, by simp [valueFrom]⟩
  | cons p rest ih =>
    have ⟨connective, d⟩ := p
    cases connective with
    | and =>
      have ⟨tail, runs, hruns, hvalue⟩ := ih d (v && test d)
      refine ⟨d :: tail, runs, by rw [andRuns, hruns], ?_⟩
      rw [valueFrom, hvalue, Bool.and_eq_true, List.forall_mem_cons, and_assoc]
    | or =>
      have ⟨tail, runs, hruns, hvalue⟩ := ih d (test d)
      refine ⟨[], (d :: tail) :: runs, by rw [andRuns, hruns], ?_⟩
      rw [valueFrom, Bool.or_eq_true, hvalue, List.exists_mem_cons_iff, List.forall_mem_cons]
      simp

/-- The value of what stands in front of the last `OR`. -/
def FrontValue (database : DatabaseMetadata) (tables : List BoundTable) (row : QueryRow)
    (front : Option Expression) (a : Bool) : Prop :=
  match front with
  | none => a = false
  | some left => truth database tables row left = some a

lemma truth_orTree {front : Option Expression} {e : Expression} {v : Bool}
    (h : truth database tables row (orTree front e) = some v) :
    ∃ a b, FrontValue database tables row front a ∧ truth database tables row e = some b ∧
      v = (a || b) := by
  cases front with
  | none => exact ⟨false, v, rfl, h, rfl⟩
  | some left => exact truth_or h

/-- The tree of a chain has the value of the chain. -/
lemma truth_chainTree {test : Comparison → Bool}
    (htest : ∀ c v, truth database tables row c.expression = some v → v = test c)
    {front : Option Expression} {e : Expression} {rest : List (Connective × Comparison)} {v : Bool}
    (h : truth database tables row (chainTree front e rest) = some v) :
    ∃ a b, FrontValue database tables row front a ∧ truth database tables row e = some b ∧
      v = (a || valueFrom test b rest) := by
  induction rest generalizing front e with
  | nil => exact truth_orTree h
  | cons p rest ih =>
    have ⟨connective, c⟩ := p
    cases connective with
    | and =>
      have ⟨a, b, hfront, hand, hv⟩ := ih h
      have ⟨x, y, hx, hy, hb⟩ := truth_and hand
      refine ⟨a, x, hfront, hx, ?_⟩
      rw [hv, hb, htest c y hy, valueFrom]
    | or =>
      have ⟨a, b, htree, hc, hv⟩ := ih h
      have ⟨x, y, hfront, hy, ha⟩ := truth_orTree htree
      refine ⟨x, y, hfront, hy, ?_⟩
      rw [hv, ha, htest c b hc, valueFrom, Bool.or_assoc]

lemma truth_of_bindFilter {e : Expression} {bound : BoundExpression}
    (h : (Binder.mk database).bindFilter tables e = .ok bound) :
    truth database tables row e = some ((Executor.mk database).holds row bound) := by
  rw [truth, h]

lemma isTrue_iff (hscope : Scope tables) (hrow : row.IsFrom database tables) (c : Comparison) :
    c.IsTrue database tables row ↔ truth database tables row c.expression = some true := by
  constructor
  · intro ⟨bound, hbound, hrun⟩
    rw [Executor.rowMatchesFilter_eq hscope hrow (Binder.bindFilter_fits hbound)] at hrun
    rw [truth_of_bindFilter hbound]
    cases hvalue : (Executor.mk database).holds row bound with
    | true => rfl
    | false =>
      rw [hvalue] at hrun
      cases hrun
  · intro h
    unfold truth at h
    split at h
    · next bound hbound =>
      refine ⟨bound, hbound, ?_⟩
      rw [Executor.rowMatchesFilter_eq hscope hrow (Binder.bindFilter_fits hbound), Option.some.inj h]
      rfl
    · cases h

/-- The tree of a chain means the chain. -/
lemma Chain.isMeaningOf_expression (chain : Chain) : chain.IsMeaningOf chain.expression := by
  intro database tables bound row hscope hrow hbound
  have htruth : truth database tables row chain.expression =
      some ((Executor.mk database).holds row bound) := truth_of_bindFilter hbound
  let test (c : Comparison) : Bool := decide (truth database tables row c.expression = some true)
  have htest (c : Comparison) (v : Bool) (h : truth database tables row c.expression = some v) :
      v = test c := by
    cases v <;> simp [test, h]
  have ⟨a, b, ha, hb, hv⟩ := truth_chainTree htest htruth
  have ⟨tail, runs, hruns, hvalue⟩ := valueFrom_iff test chain.first b chain.rest
  refine ⟨(Executor.mk database).holds row bound, ?_, ?_⟩
  · rw [Executor.rowMatchesFilter_eq hscope hrow (Binder.bindFilter_fits hbound)]
    rfl
  · have hIsTrue (c : Comparison) : test c = true ↔ c.IsTrue database tables row := by
      rw [isTrue_iff hscope hrow]
      exact decide_eq_true_iff
    rw [hv, show a = false from ha, Bool.false_or, hvalue, htest chain.first b hb, Chain.runs, hruns,
      List.exists_mem_cons_iff, List.forall_mem_cons]
    simp only [hIsTrue]

end Meaning

open RdbRs.Parser in
/-- A chain of comparisons in the WHERE clause of a statement is accepted with its meaning exactly
when it has one `OR` at most. -/
theorem chain_accepted_iff {s : Statement} (hs : s.Shaped) (hwhere : s.hasWhere) (chain : Chain)
    (explicitAsc : Bool) {tokens : List Token} (heof : EndsWithEof tokens)
    (htokens : tokens.map Token.kind = (s.withFilter chain.expression).canonical explicitAsc) :
    (∃ filter p, parse.run (new tokens) = .ok (s.withFilter filter) p ∧ chain.IsMeaningOf filter) ↔
      chain.ors ≤ 1 := by
  constructor
  · intro ⟨filter, p, hrun, _⟩
    have ⟨hshaped, explicitAsc', htext⟩ := parse_sound heof hrun
    have hone := count_or_canonical hshaped explicitAsc'
    have hmany := count_or_withFilter hwhere chain.expression explicitAsc
    rw [chain.count_or_kinds] at hmany
    rw [← htext, htokens] at hone
    omega
  · intro hors
    have hshaped := Statement.withFilter_shaped hs (Chain.isFilter_expression hors)
    have ⟨p, hrun⟩ := parse_complete hshaped explicitAsc htokens
    exact ⟨chain.expression, p, hrun, chain.isMeaningOf_expression⟩

/-- `DELETE FROM t WHERE a = 1 OR a = 2 OR a = 3;` is refused at the second `OR`. -/
theorem chain_twoOrs_refused :
    let c (n : Int64) : Comparison := ⟨⟨none, "a"⟩, .equal, .integer n⟩
    let chain : Chain := ⟨c 1, [(.or, c 2), (.or, c 3)]⟩
    let tokens : List Token := [⟨.delete, 0⟩, ⟨.from_, 7⟩, ⟨.identifier "t", 12⟩, ⟨.where_, 14⟩,
      ⟨.identifier "a", 20⟩, ⟨.eq, 22⟩, ⟨.integer 1, 24⟩, ⟨.or, 26⟩, ⟨.identifier "a", 29⟩, ⟨.eq, 31⟩,
      ⟨.integer 2, 33⟩, ⟨.or, 35⟩, ⟨.identifier "a", 38⟩, ⟨.eq, 40⟩, ⟨.integer 3, 42⟩,
      ⟨.semicolon, 43⟩, ⟨.eof, 44⟩]
    tokens.map Token.kind = (Statement.withFilter chain.expression
        (.delete ⟨none, .table ⟨"t", none⟩, none⟩)).canonical false ∧
      ∃ p, Parser.parse.run (Parser.new tokens) = .err (.unexpectedToken 35) p :=
  ⟨rfl, _, rfl⟩

/-- `DELETE FROM t WHERE a = 1 OR a = 2 AND a = 3;` -/
theorem chain_accepted_iff_oneOr :
    let c (n : Int64) : Comparison := ⟨⟨none, "a"⟩, .equal, .integer n⟩
    let chain : Chain := ⟨c 1, [(.or, c 2), (.and, c 3)]⟩
    let s : Statement := .delete ⟨none, .table ⟨"t", none⟩, none⟩
    let front : List Token := [⟨.delete, 0⟩, ⟨.from_, 7⟩, ⟨.identifier "t", 12⟩, ⟨.where_, 14⟩,
      ⟨.identifier "a", 20⟩, ⟨.eq, 22⟩, ⟨.integer 1, 24⟩, ⟨.or, 26⟩, ⟨.identifier "a", 29⟩, ⟨.eq, 31⟩,
      ⟨.integer 2, 33⟩, ⟨.and, 35⟩, ⟨.identifier "a", 39⟩, ⟨.eq, 41⟩, ⟨.integer 3, 43⟩, ⟨.semicolon, 44⟩]
    ∃ filter p, Parser.parse.run (Parser.new (front ++ [⟨.eof, 45⟩])) = .ok (s.withFilter filter) p ∧
      chain.IsMeaningOf filter := by
  intro c chain s front
  have hs : s.Shaped := ⟨fun _ h => (by cases h), trivial, fun _ h => (by cases h)⟩
  have heof : Parser.EndsWithEof (front ++ [⟨.eof, 45⟩]) := ⟨front, ⟨.eof, 45⟩, rfl, rfl, by decide⟩
  exact (chain_accepted_iff hs trivial chain false heof rfl).mpr (by decide)

end RdbRs
