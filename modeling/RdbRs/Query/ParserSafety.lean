import RdbRs.Lib.Progress
import RdbRs.Query.LexerSpec
import RdbRs.Query.Parser

/-!
# The parser stays within its tokens

In front of an `Eof` every parse function comes back, and does not pass the `Eof`. A token out of range
is a panic of `current`, the only function that reads the tokens.
-/

namespace RdbRs

open Exec

namespace Parser

variable {α β : Type} {tokens : List Token} {i : Nat}

/-- The position is not behind the `Eof` at `i`. -/
structure InFrontOf (tokens : List Token) (i : Nat) (p : Parser) : Prop where
  tokens_eq : p.tokens = tokens
  position_le : p.position ≤ i
  eof : ∃ token, tokens[i]? = some token ∧ token.kind = .eof

/-- The tokens in front of `i` that are left. -/
def left (i : Nat) (p : Parser) : Nat := i - p.position

/-- In front of the `Eof` at `i` a call comes back, and with `Ok` it has taken `n` tokens or more. -/
abbrev Halts (tokens : List Token) (i n : Nat) (x : Exec ParseError Parser α) : Prop :=
  Progresses (InFrontOf tokens i) (left i) n x

/-! ### Single tokens -/

section Tokens

variable {p : Parser} {token : Token} {kind : TokenKind}

lemma current_panics_iff : current.run p = .panic ↔ p.tokens.length ≤ p.position := by
  rw [← List.getElem?_eq_none_iff]
  unfold current
  cases hget : p.tokens[p.position]? with
  | none => simp only [hget]
  | some token => simp only [hget, reduceCtorEq]

lemma InFrontOf.lt_length (h : InFrontOf tokens i p) : p.position < p.tokens.length := by
  have ⟨token, hget, _⟩ := h.eof
  have ⟨hlt, _⟩ := List.getElem?_eq_some_iff.mp hget
  rw [h.tokens_eq]
  exact Nat.lt_of_le_of_lt h.position_le hlt

lemma InFrontOf.run_current (h : InFrontOf tokens i p) :
    ∃ token, p.tokens[p.position]? = some token ∧ current.run p = .ok token p := by
  have hget := List.getElem?_eq_getElem h.lt_length
  exact ⟨_, hget, by simp only [current, hget]⟩

/-- A token that is not the end stands in front of the end. -/
lemma InFrontOf.lt_of_kind (h : InFrontOf tokens i p) (hget : p.tokens[p.position]? = some token)
    (hne : token.kind ≠ .eof) : p.position < i := by
  apply Nat.lt_of_le_of_ne h.position_le
  intro heq
  have ⟨eof, heof, hkind⟩ := h.eof
  rw [h.tokens_eq, heq, heof] at hget
  cases hget
  exact hne hkind

lemma InFrontOf.next (h : InFrontOf tokens i p) (hlt : p.position < i) :
    InFrontOf tokens i ⟨p.tokens, p.position + 1⟩ :=
  ⟨h.tokens_eq, hlt, h.eof⟩

lemma current_halts : Halts tokens i 0 current := by
  intro p hp
  have ⟨token, _, hrun⟩ := hp.run_current
  rw [hrun]
  exact ⟨hp, Nat.le_refl _⟩

/-- Behind a token that is not the end, `advance` takes it. -/
lemma advance_within (h : InFrontOf tokens i p) (hget : p.tokens[p.position]? = some token)
    (hne : token.kind ≠ .eof) : (advance.run p).Within (InFrontOf tokens i) (left i) 1 (left i p) := by
  have ⟨token', hget', hrun⟩ := h.run_current
  cases hget.symm.trans hget'
  have hlt := h.lt_of_kind hget hne
  rw [advance, run_bind, hrun, Outcome.andThen_ok, if_pos hne]
  refine ⟨h.next hlt, ?_⟩
  unfold left
  simp only
  omega

lemma advance_halts : Halts tokens i 0 advance := by
  intro p hp
  have ⟨token, hget, hrun⟩ := hp.run_current
  by_cases hkind : token.kind = .eof
  · rw [advance, run_bind, hrun, Outcome.andThen_ok, if_neg (not_not.mpr hkind)]
    exact progresses_pure p hp
  · exact (advance_within hp hget hkind).mono (Nat.zero_le 1) (Nat.le_refl _)

lemma expect_halts : Halts tokens i 0 (expect kind) := by
  apply current_halts.bind
  intro token
  exact progresses_throw.ite advance_halts

lemma expect_takes_one (hne : kind ≠ .eof) : Halts tokens i 1 (expect kind) := by
  intro p hp
  have ⟨token, hget, hrun⟩ := hp.run_current
  rw [expect, run_bind, hrun, Outcome.andThen_ok]
  by_cases hkind : token.kind = kind
  · rw [if_neg (not_not.mpr hkind)]
    exact advance_within hp hget (hkind ▸ hne)
  · rw [if_pos hkind]
    exact progresses_throw p hp

lemma expectValue_halts {decode : TokenKind → Option α} : Halts tokens i 0 (expectValue decode) := by
  apply current_halts.bind
  intro token
  split
  · apply advance_halts.bind
    intro _
    exact progresses_pure
  · exact progresses_throw

lemma expectIdentifier_halts : Halts tokens i 0 expectIdentifier := expectValue_halts

lemma expectLiteral_halts : Halts tokens i 0 expectLiteral := expectValue_halts

lemma parseDataType_halts : Halts tokens i 0 parseDataType := expectValue_halts

end Tokens

/-! ### Loops and optional clauses -/

section Loops

variable {kind : TokenKind}

/-- A round takes the token at which the loop goes on. -/
lemma whileNext_halts {step : β → Exec ParseError Parser β} {init : β} (hne : kind ≠ .eof)
    (hstep : ∀ acc, Halts tokens i 0 (step acc)) : Halts tokens i 0 (whileNext kind step init) := by
  apply Progresses.repeatWhile _ current_halts
  · intro acc
    apply (expect_takes_one hne).bind
    intro _
    exact hstep acc
  · intro p hp
    have hlt := hp.lt_length
    have ⟨token, hget, _⟩ := hp.eof
    have ⟨hi, _⟩ := List.getElem?_eq_some_iff.mp hget
    rw [hp.tokens_eq]
    unfold left
    omega

lemma commaSeparated_halts {item : Exec ParseError Parser α} (hitem : Halts tokens i 0 item) :
    Halts tokens i 0 (commaSeparated item) := by
  apply hitem.bind
  intro first
  apply whileNext_halts (by decide)
  intro items
  apply hitem.bind
  intro next
  exact progresses_pure

lemma optionalClause_halts {clause : Exec ParseError Parser α} (hclause : Halts tokens i 0 clause) :
    Halts tokens i 0 (optionalClause kind clause) := by
  apply current_halts.bind
  intro token
  apply Progresses.ite
  · apply expect_halts.bind
    intro _
    apply hclause.bind
    intro value
    exact progresses_pure
  · exact progresses_pure

end Loops

/-! ### References -/

lemma parseTableReference_halts : Halts tokens i 0 parseTableReference := by
  apply expectIdentifier_halts.bind
  intro name
  apply current_halts.bind
  intro token
  split
  · apply expectIdentifier_halts.bind
    intro alias_
    exact progresses_pure
  · exact progresses_pure

lemma parseColumnReference_halts : Halts tokens i 0 parseColumnReference := by
  apply expectIdentifier_halts.bind
  intro first
  apply current_halts.bind
  intro token
  apply Progresses.ite
  · apply expect_halts.bind
    intro _
    apply expectIdentifier_halts.bind
    intro column
    exact progresses_pure
  · exact progresses_pure

lemma parseJoin_halts {left : FromClause} : Halts tokens i 0 (parseJoin left) := by
  apply parseTableReference_halts.bind
  intro joinTable
  apply expect_halts.bind
  intro _
  apply parseColumnReference_halts.bind
  intro leftOn
  apply expect_halts.bind
  intro _
  apply parseColumnReference_halts.bind
  intro rightOn
  exact progresses_pure

lemma parseFromClause_halts : Halts tokens i 0 parseFromClause := by
  apply parseTableReference_halts.bind
  intro reference
  exact whileNext_halts (by decide) fun _ => parseJoin_halts

/-! ### Expressions -/

lemma parseOperator_halts : Halts tokens i 0 parseOperator := by
  apply current_halts.bind
  intro token
  have hoperator : Halts tokens i 0 (comparisonOperator token.kind) := by
    unfold comparisonOperator
    split
    case h_7 =>
      apply (progresses_gets _).bind
      intro position
      exact progresses_throw (n := 0)
    all_goals exact progresses_pure
  apply hoperator.bind
  intro operator
  apply advance_halts.bind
  intro _
  exact progresses_pure

lemma parseComparisonExpression_halts : Halts tokens i 0 parseComparisonExpression := by
  apply parseColumnReference_halts.bind
  intro column
  apply parseOperator_halts.bind
  intro operator
  apply expectLiteral_halts.bind
  intro literal
  exact progresses_pure

lemma parseConjunct_halts {left : Expression} : Halts tokens i 0 (parseConjunct left) := by
  apply parseComparisonExpression_halts.bind
  intro right
  exact progresses_pure

lemma parseAndExpression_halts : Halts tokens i 0 parseAndExpression := by
  apply parseComparisonExpression_halts.bind
  intro left
  exact whileNext_halts (by decide) fun _ => parseConjunct_halts

lemma parseOrExpression_halts : Halts tokens i 0 parseOrExpression := by
  apply parseAndExpression_halts.bind
  intro left
  apply current_halts.bind
  intro token
  apply Progresses.ite
  · apply expect_halts.bind
    intro _
    apply parseAndExpression_halts.bind
    intro right
    exact progresses_pure
  · exact progresses_pure

/-! ### Clauses -/

lemma parseProjection_halts : Halts tokens i 0 parseProjection := by
  apply current_halts.bind
  intro token
  split
  · apply expect_halts.bind
    intro _
    exact progresses_pure
  · apply parseColumnReference_halts.bind
    intro column
    exact progresses_pure
  · apply expect_halts.bind
    intro _
    apply expect_halts.bind
    intro _
    apply expect_halts.bind
    intro _
    apply expect_halts.bind
    intro _
    exact progresses_pure
  · apply expect_halts.bind
    intro _
    apply expect_halts.bind
    intro _
    apply parseColumnReference_halts.bind
    intro column
    apply expect_halts.bind
    intro _
    exact progresses_pure
  · exact progresses_throw

lemma parseProjections_halts : Halts tokens i 0 parseProjections :=
  commaSeparated_halts parseProjection_halts

lemma parseGroupBy_halts : Halts tokens i 0 parseGroupBy := commaSeparated_halts parseColumnReference_halts

lemma parseOrderBy_halts : Halts tokens i 0 parseOrderBy := by
  apply parseColumnReference_halts.bind
  intro column
  apply current_halts.bind
  intro token
  split
  · apply expect_halts.bind
    intro _
    exact progresses_pure
  · apply expect_halts.bind
    intro _
    exact progresses_pure
  · exact progresses_pure

lemma parseLimit_halts : Halts tokens i 0 parseLimit := by
  apply expectLiteral_halts.bind
  intro literal
  apply (progresses_gets _).bind
  intro position
  split
  · exact progresses_throw.ite progresses_pure
  · exact progresses_throw

lemma parseAssignment_halts : Halts tokens i 0 parseAssignment := by
  apply parseColumnReference_halts.bind
  intro column
  apply expect_halts.bind
  intro _
  apply expectLiteral_halts.bind
  intro value
  exact progresses_pure

lemma parseAssignments_halts : Halts tokens i 0 parseAssignments :=
  commaSeparated_halts parseAssignment_halts

/-- `( .. )` with items between commas. -/
lemma parenthesized_halts {item : Exec ParseError Parser α} (hitem : Halts tokens i 0 item) :
    Halts tokens i 0 (do
      expect .leftParen
      let items ← commaSeparated item
      expect .rightParen
      pure items) := by
  apply expect_halts.bind
  intro _
  apply (commaSeparated_halts hitem).bind
  intro items
  apply expect_halts.bind
  intro _
  exact progresses_pure

lemma parseLiterals_halts : Halts tokens i 0 parseLiterals := parenthesized_halts expectLiteral_halts

lemma parseColumnDefinition_halts : Halts tokens i 0 parseColumnDefinition := by
  apply expectIdentifier_halts.bind
  intro name
  apply parseDataType_halts.bind
  intro dataType
  exact progresses_pure

lemma parseColumnDefinitions_halts : Halts tokens i 0 parseColumnDefinitions :=
  parenthesized_halts parseColumnDefinition_halts

/-! ### Statements -/

lemma byClause_halts {kind : TokenKind} {clause : Exec ParseError Parser α}
    (hclause : Halts tokens i 0 clause) : Halts tokens i 0 (optionalClause kind do
      expect .by_
      clause) := by
  apply optionalClause_halts
  apply expect_halts.bind
  intro _
  exact hclause

lemma parseSelect_halts : Halts tokens i 0 parseSelect := by
  apply expect_halts.bind
  intro _
  apply parseProjections_halts.bind
  intro projections
  apply expect_halts.bind
  intro _
  apply parseFromClause_halts.bind
  intro source
  apply (optionalClause_halts parseOrExpression_halts).bind
  intro filter
  apply (byClause_halts parseGroupBy_halts).bind
  intro groupBy
  apply (byClause_halts parseOrderBy_halts).bind
  intro orderBy
  apply (optionalClause_halts parseLimit_halts).bind
  intro limit
  exact progresses_pure

lemma parseInsert_halts : Halts tokens i 0 parseInsert := by
  apply expect_halts.bind
  intro _
  apply expect_halts.bind
  intro _
  apply expectIdentifier_halts.bind
  intro table
  apply expect_halts.bind
  intro _
  apply parseLiterals_halts.bind
  intro literals
  exact progresses_pure

lemma parseUpdate_halts : Halts tokens i 0 parseUpdate := by
  apply expect_halts.bind
  intro _
  apply parseFromClause_halts.bind
  intro source
  apply expect_halts.bind
  intro _
  apply parseAssignments_halts.bind
  intro assignments
  apply (optionalClause_halts parseOrExpression_halts).bind
  intro filter
  exact progresses_pure

lemma parseTargets_halts : Halts tokens i 0 parseTargets := by
  apply current_halts.bind
  intro token
  apply Progresses.ite
  · apply (commaSeparated_halts expectIdentifier_halts).bind
    intro targets
    exact progresses_pure
  · exact progresses_pure

lemma parseDelete_halts : Halts tokens i 0 parseDelete := by
  apply expect_halts.bind
  intro _
  apply parseTargets_halts.bind
  intro targets
  apply expect_halts.bind
  intro _
  apply parseFromClause_halts.bind
  intro source
  apply (optionalClause_halts parseOrExpression_halts).bind
  intro filter
  exact progresses_pure

lemma parseCreateTable_halts : Halts tokens i 0 parseCreateTable := by
  apply expect_halts.bind
  intro _
  apply expectIdentifier_halts.bind
  intro table
  apply parseColumnDefinitions_halts.bind
  intro columns
  exact progresses_pure

lemma parseCreateIndex_halts : Halts tokens i 0 parseCreateIndex := by
  apply expect_halts.bind
  intro _
  apply expectIdentifier_halts.bind
  intro indexName
  apply expect_halts.bind
  intro _
  apply expectIdentifier_halts.bind
  intro table
  apply expect_halts.bind
  intro _
  apply expectIdentifier_halts.bind
  intro columnName
  apply expect_halts.bind
  intro _
  exact progresses_pure

lemma parseStatement_halts : Halts tokens i 0 parseStatement := by
  apply current_halts.bind
  intro token
  split
  · apply parseSelect_halts.bind
    intro statement
    exact progresses_pure
  · apply expect_halts.bind
    intro _
    apply current_halts.bind
    intro next
    split
    · apply parseCreateTable_halts.bind
      intro statement
      exact progresses_pure
    · apply parseCreateIndex_halts.bind
      intro statement
      exact progresses_pure
    · exact progresses_throw
  · apply parseInsert_halts.bind
    intro statement
    exact progresses_pure
  · apply parseUpdate_halts.bind
    intro statement
    exact progresses_pure
  · apply parseDelete_halts.bind
    intro statement
    exact progresses_pure
  · exact progresses_throw

lemma parse_halts : Halts tokens i 0 parse := by
  apply parseStatement_halts.bind
  intro statement
  apply expect_halts.bind
  intro _
  apply expect_halts.bind
  intro _
  exact progresses_pure

/-! ### All of them -/

/-- The functions of the parser, and the loops, clauses and rounds in them. -/
inductive IsParseFunction : {α : Type} → Exec ParseError Parser α → Prop where
  | parse : IsParseFunction parse
  | parseSelect : IsParseFunction parseSelect
  | parseInsert : IsParseFunction parseInsert
  | parseUpdate : IsParseFunction parseUpdate
  | parseDelete : IsParseFunction parseDelete
  | parseAssignments : IsParseFunction parseAssignments
  | parseAssignment : IsParseFunction parseAssignment
  | parseLiterals : IsParseFunction parseLiterals
  | parseTableReference : IsParseFunction parseTableReference
  | parseColumnReference : IsParseFunction parseColumnReference
  | parseFromClause : IsParseFunction parseFromClause
  | parseProjections : IsParseFunction parseProjections
  | parseProjection : IsParseFunction parseProjection
  | parseGroupBy : IsParseFunction parseGroupBy
  | parseOrderBy : IsParseFunction parseOrderBy
  | parseLimit : IsParseFunction parseLimit
  | parseOrExpression : IsParseFunction parseOrExpression
  | parseAndExpression : IsParseFunction parseAndExpression
  | parseComparisonExpression : IsParseFunction parseComparisonExpression
  | parseCreateTable : IsParseFunction parseCreateTable
  | parseCreateIndex : IsParseFunction parseCreateIndex
  | parseColumnDefinitions : IsParseFunction parseColumnDefinitions
  | parseColumnDefinition : IsParseFunction parseColumnDefinition
  | parseDataType : IsParseFunction parseDataType
  | expectIdentifier : IsParseFunction expectIdentifier
  | expectLiteral : IsParseFunction expectLiteral
  | expect {kind : TokenKind} : IsParseFunction (expect kind)
  | current : IsParseFunction current
  | advance : IsParseFunction advance
  | parseStatement : IsParseFunction parseStatement
  | parseTargets : IsParseFunction parseTargets
  | parseOperator : IsParseFunction parseOperator
  | joins {source : FromClause} : IsParseFunction (whileNext .join parseJoin source)
  | parseJoin {source : FromClause} : IsParseFunction (parseJoin source)
  | conjuncts {left : Expression} : IsParseFunction (whileNext .and parseConjunct left)
  | parseConjunct {left : Expression} : IsParseFunction (parseConjunct left)
  | commaSeparated {α : Type} {item : Exec ParseError Parser α} : IsParseFunction item →
      IsParseFunction (commaSeparated item)
  | optionalClause {α : Type} {kind : TokenKind} {clause : Exec ParseError Parser α} :
      IsParseFunction clause → IsParseFunction (optionalClause kind clause)

lemma IsParseFunction.halts {x : Exec ParseError Parser α} (h : IsParseFunction x) : Halts tokens i 0 x := by
  induction h with
  | parse => exact parse_halts
  | parseSelect => exact parseSelect_halts
  | parseInsert => exact parseInsert_halts
  | parseUpdate => exact parseUpdate_halts
  | parseDelete => exact parseDelete_halts
  | parseAssignments => exact parseAssignments_halts
  | parseAssignment => exact parseAssignment_halts
  | parseLiterals => exact parseLiterals_halts
  | parseTableReference => exact parseTableReference_halts
  | parseColumnReference => exact parseColumnReference_halts
  | parseFromClause => exact parseFromClause_halts
  | parseProjections => exact parseProjections_halts
  | parseProjection => exact parseProjection_halts
  | parseGroupBy => exact parseGroupBy_halts
  | parseOrderBy => exact parseOrderBy_halts
  | parseLimit => exact parseLimit_halts
  | parseOrExpression => exact parseOrExpression_halts
  | parseAndExpression => exact parseAndExpression_halts
  | parseComparisonExpression => exact parseComparisonExpression_halts
  | parseCreateTable => exact parseCreateTable_halts
  | parseCreateIndex => exact parseCreateIndex_halts
  | parseColumnDefinitions => exact parseColumnDefinitions_halts
  | parseColumnDefinition => exact parseColumnDefinition_halts
  | parseDataType => exact parseDataType_halts
  | expectIdentifier => exact expectIdentifier_halts
  | expectLiteral => exact expectLiteral_halts
  | expect => exact expect_halts
  | current => exact current_halts
  | advance => exact advance_halts
  | parseStatement => exact parseStatement_halts
  | parseTargets => exact parseTargets_halts
  | parseOperator => exact parseOperator_halts
  | joins => exact whileNext_halts (by decide) fun _ => parseJoin_halts
  | parseJoin => exact parseJoin_halts
  | conjuncts => exact whileNext_halts (by decide) fun _ => parseConjunct_halts
  | parseConjunct => exact parseConjunct_halts
  | commaSeparated _ ih => exact commaSeparated_halts ih
  | optionalClause _ ih => exact optionalClause_halts ih

/-- A token is read by `current` alone, which panics out of range. The lexer returns tokens with an `Eof`.
Whatever the tokens and their order, if there is an `Eof` among them the parser comes back, and each of its
functions comes back from every position in front of an `Eof` without passing it, to a token in range. -/
theorem parse_ends_in_range :
    (∀ p, current.run p = .panic ↔ p.tokens.length ≤ p.position) ∧
    (∀ input tokens l, Lexer.tokenize.run (.new input) = .ok tokens l →
      ∃ token ∈ tokens, token.kind = .eof) ∧
    ∀ tokens : List Token, (∃ token ∈ tokens, token.kind = .eof) →
      (parse.run (new tokens)).Ends ∧
      ∀ i, (∃ token, tokens[i]? = some token ∧ token.kind = .eof) →
        ∀ (α : Type) (x : Exec ParseError Parser α), IsParseFunction x →
        ∀ p : Parser, p.tokens = tokens → p.position ≤ i →
          ∃ p', (x.run p).Returns p' ∧ p'.tokens = tokens ∧ p.position ≤ p'.position ∧ p'.position ≤ i ∧
            ∃ token, current.run p' = .ok token p' := by
  refine ⟨fun p => current_panics_iff, ?_, ?_⟩
  · intro input tokens l hrun
    have ⟨init, hinit, _⟩ := (Lexer.tokenizes_of_run hrun).last
    rw [hinit]
    exact ⟨_, List.mem_append_right init List.mem_cons_self, rfl⟩
  · intro tokens heof
    constructor
    · have ⟨token, hmem, hkind⟩ := heof
      have ⟨i, hget⟩ := List.mem_iff_getElem?.mp hmem
      have hnew : InFrontOf tokens i (new tokens) := ⟨rfl, Nat.zero_le i, token, hget, hkind⟩
      have ⟨p', hreturns, _⟩ := (parse_halts (new tokens) hnew).returns
      exact ⟨p', hreturns⟩
    · intro i heof α x hx p htokens hle
      have hp : InFrontOf tokens i p := ⟨htokens, hle, heof⟩
      have ⟨p', hreturns, hp', hleft⟩ := (hx.halts p hp).returns
      have ⟨token, _, hrun⟩ := hp'.run_current
      unfold left at hleft
      have hle' := hp'.position_le
      exact ⟨p', hreturns, hp'.tokens_eq, by omega, hle', token, hrun⟩

/-- A list that breaks off behind `DELETE`, and has a token behind its `Eof`. -/
def brokenOff : List Token := [⟨.delete, 0⟩, ⟨.eof, 6⟩, ⟨.comma, 7⟩]

theorem parse_ends_in_range_brokenOff : (∃ token ∈ [Token.mk .eof 0], token.kind = .eof) ∧
    (parse.run (new brokenOff)).Ends ∧
    ∃ p', (parseDelete.run ⟨brokenOff, 0⟩).Returns p' ∧ p'.tokens = brokenOff ∧ 0 ≤ p'.position ∧
      p'.position ≤ 1 ∧ ∃ token, current.run p' = .ok token p' := by
  have ⟨_, htokenize, hparse⟩ := parse_ends_in_range
  have ⟨hends, hfunctions⟩ := hparse brokenOff ⟨⟨.eof, 6⟩, by decide, rfl⟩
  have hdelete := hfunctions 1 ⟨⟨.eof, 6⟩, rfl, rfl⟩ _ parseDelete .parseDelete ⟨brokenOff, 0⟩ rfl
    (Nat.zero_le 1)
  exact ⟨htokenize "" _ _ rfl, hends, hdelete⟩

end Parser

end RdbRs
