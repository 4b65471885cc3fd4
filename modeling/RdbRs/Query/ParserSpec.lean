import RdbRs.Query.Canonical
import RdbRs.Query.Parser

/-!
# The parser loses nothing

For every parse function what it takes (`_takes`) and what it reads (`_reads`). Together: the
statement that is parsed determines the token kinds, up to an explicit `ASC`, and every
canonical text is parsed as its statement.
-/

namespace RdbRs

open Exec

namespace Parser

variable {α β : Type}

/-- What is left of the tokens. -/
def rest (self : Parser) : List TokenKind := (self.tokens.drop self.position).map Token.kind

/-- No token is out of place behind a text. -/
def anywhere (_ : TokenKind) : Prop := True

/-! ### Single tokens -/

section Tokens

variable {p : Parser} {token : Token} {k : TokenKind} {more : List TokenKind}

lemma rest_of_get (h : p.tokens[p.position]? = some token) :
    p.rest = token.kind :: (⟨p.tokens, p.position + 1⟩ : Parser).rest := by
  have ⟨hlt, hget⟩ := List.getElem?_eq_some_iff.mp h
  rw [rest, List.drop_eq_getElem_cons hlt, hget]
  rfl

lemma get_of_rest (h : p.rest = k :: more) :
    ∃ token, p.tokens[p.position]? = some token ∧ token.kind = k ∧
      (⟨p.tokens, p.position + 1⟩ : Parser).rest = more := by
  cases hget : p.tokens[p.position]? with
  | none =>
    rw [rest, List.drop_eq_nil_of_le (List.getElem?_eq_none_iff.mp hget)] at h
    cases h
  | some token =>
    rw [rest_of_get hget] at h
    cases h
    exact ⟨token, rfl, rfl, rfl⟩

lemma run_current (h : p.tokens[p.position]? = some token) : current.run p = .ok token p := by
  simp only [current, h]

lemma current_peeks : Peeks rest current Token.kind := by
  constructor
  · intro p token p' hrun
    unfold current at hrun
    simp only at hrun
    split at hrun
    · cases hrun
      rfl
    · cases hrun
  · intro p k more h
    have ⟨token, hget, hkind, _⟩ := get_of_rest h
    exact ⟨token, run_current hget, hkind⟩

lemma current_eq_ok {p' : Parser} (h : current.run p = .ok token p') :
    p' = p ∧ p.tokens[p.position]? = some token := by
  unfold current at h
  simp only at h
  split at h
  · next hget =>
    cases h
    exact ⟨rfl, hget⟩
  · cases h

lemma run_advance (h : p.tokens[p.position]? = some token) (hne : token.kind ≠ .eof) :
    advance.run p = .ok () ⟨p.tokens, p.position + 1⟩ := by
  rw [advance, run_bind, run_current h, Outcome.andThen_ok, if_pos hne]
  rfl

end Tokens

lemma expect_takes {k : TokenKind} (hne : k ≠ .eof) :
    Takes rest (expect k) fun _ text => text = [k] := by
  intro p u p' hrun
  rw [expect, run_bind, Outcome.andThen_eq_ok] at hrun
  have ⟨token, p₁, hcurrent, hbody⟩ := hrun
  have ⟨hp, hget⟩ := current_eq_ok hcurrent
  subst hp
  by_cases hkind : token.kind = k
  · rw [if_neg (not_not.mpr hkind), run_advance hget (hkind ▸ hne)] at hbody
    cases hbody
    exact ⟨[k], rfl, by rw [rest_of_get hget, hkind]; rfl⟩
  · rw [if_pos hkind] at hbody
    cases hbody

lemma expect_reads {k : TokenKind} (hne : k ≠ .eof) : Reads rest (expect k) () [k] anywhere := by
  intro p more hrest _
  have ⟨token, hget, hkind, hmore⟩ := get_of_rest hrest
  refine ⟨⟨p.tokens, p.position + 1⟩, ?_, hmore⟩
  rw [expect, run_bind, run_current hget, Outcome.andThen_ok, if_neg (not_not.mpr hkind),
    run_advance hget (hkind ▸ hne)]

lemma expectValue_takes {decode : TokenKind → Option α} (hne : decode .eof = none) :
    Takes rest (expectValue decode) fun a text => ∃ k, decode k = some a ∧ text = [k] := by
  intro p a p' hrun
  rw [expectValue, run_bind, Outcome.andThen_eq_ok] at hrun
  have ⟨token, p₁, hcurrent, hbody⟩ := hrun
  have ⟨hp, hget⟩ := current_eq_ok hcurrent
  subst hp
  cases hdecode : decode token.kind with
  | none =>
    rw [hdecode] at hbody
    cases hbody
  | some value =>
    have hkind : token.kind ≠ .eof := by
      intro heof
      rw [heof, hne] at hdecode
      cases hdecode
    simp only [hdecode, run_bind, run_advance hget hkind] at hbody
    cases hbody
    exact ⟨[token.kind], ⟨token.kind, hdecode, rfl⟩, rest_of_get hget⟩

lemma expectValue_reads {decode : TokenKind → Option α} (hne : decode .eof = none) {k : TokenKind}
    {a : α} (hdecode : decode k = some a) : Reads rest (expectValue decode) a [k] anywhere := by
  intro p more hrest _
  have ⟨token, hget, hkind, hmore⟩ := get_of_rest hrest
  have heof : token.kind ≠ .eof := by
    intro heof
    rw [← hkind, heof, hne] at hdecode
    cases hdecode
  refine ⟨⟨p.tokens, p.position + 1⟩, ?_, hmore⟩
  rw [← hkind] at hdecode
  simp only [expectValue, run_bind, run_current hget, Outcome.andThen_ok, hdecode,
    run_advance hget heof, run_pure]

lemma expectIdentifier_takes :
    Takes rest expectIdentifier fun name text => text = [.identifier name] := by
  apply (expectValue_takes rfl).conseq
  intro name text ⟨k, hdecode, htext⟩
  cases k <;> cases hdecode
  exact htext

lemma expectIdentifier_reads (name : String) :
    Reads rest expectIdentifier name [.identifier name] anywhere := expectValue_reads rfl rfl

lemma expectLiteral_takes : Takes rest expectLiteral fun literal text => text = [literal.kind] := by
  apply (expectValue_takes rfl).conseq
  intro literal text ⟨k, hdecode, htext⟩
  cases k <;> cases hdecode <;> exact htext

lemma expectLiteral_reads (literal : Literal) :
    Reads rest expectLiteral literal [literal.kind] anywhere := by
  cases literal <;> exact expectValue_reads rfl rfl

lemma parseDataType_takes : Takes rest parseDataType fun dataType text => text = [dataType.kind] := by
  apply (expectValue_takes rfl).conseq
  intro dataType text ⟨k, hdecode, htext⟩
  cases k <;> cases hdecode <;> exact htext

lemma parseDataType_reads (dataType : SqlDataType) :
    Reads rest parseDataType dataType [dataType.kind] anywhere := by
  cases dataType <;> exact expectValue_reads rfl rfl

/-! ### Loops and optional clauses -/

lemma rest_length_lt (p : Parser) : p.rest.length < p.tokens.length + 1 := by
  rw [rest, List.length_map, List.length_drop]
  omega

/-- What every round of a loop adds to the text. -/
lemma whileNext_takes {kind : TokenKind} {step : β → Exec ParseError Parser β}
    (I : β → List TokenKind → Prop) (hne : kind ≠ .eof)
    (hstep : ∀ acc text, I acc text →
      Takes rest (step acc) fun acc' text' => I acc' (text ++ kind :: text'))
    {init : β} {text : List TokenKind} (h : I init text) :
    Takes rest (whileNext kind step init) fun acc text' => I acc (text ++ text') := by
  apply Takes.gets
  intro rounds
  apply Takes.repeatWhile current_peeks _ rounds h
  intro acc text hacc
  apply (expect_takes hne).bind
  intro _ _ hkind
  rw [hkind]
  exact hstep acc text hacc

lemma length_le_flatMap_cons {ι κ : Type} (k : κ) (text : ι → List κ) (items : List ι) :
    items.length ≤ (items.flatMap fun i => k :: text i).length := by
  induction items with
  | nil => exact Nat.le_refl _
  | cons i items ih =>
    rw [List.flatMap_cons, List.length_append, List.length_cons, List.length_cons]
    omega

/-- A loop reads the texts behind the tokens it goes on at. -/
lemma whileNext_reads {ι : Type} {kind : TokenKind} (step : β → Exec ParseError Parser β)
    (add : β → ι → β) (itemText : ι → List TokenKind) {stops : TokenKind → Prop} (hne : kind ≠ .eof)
    (hstops : ∀ k, stops k → k ≠ kind) (init : β) (items : List ι)
    (hstep : ∀ acc, ∀ i ∈ items, Reads rest (step acc) (add acc i) (itemText i)
      fun k => k = kind ∨ stops k) :
    Reads rest (whileNext kind step init) (items.foldl add init)
      (items.flatMap fun i => kind :: itemText i) stops := by
  apply Reads.gets_rounds rest_length_lt
  intro rounds hrounds
  apply Reads.repeatWhile (fun k => k = kind) current_peeks (fun token => decide_eq_true_iff)
    hstops
  · exact fun i _ => ⟨kind, itemText i, rfl, rfl⟩
  · intro acc i hi
    exact (expect_reads hne).andThen _ (hstep acc i hi)
  · exact Nat.lt_of_le_of_lt (length_le_flatMap_cons kind itemText items) hrounds

lemma commaKinds_concat {text : α → List TokenKind} {items : List α} (h : items ≠ []) (a : α) :
    commaKinds text (items ++ [a]) = commaKinds text items ++ .comma :: text a := by
  cases items with
  | nil => exact absurd rfl h
  | cons b items => simp [commaKinds]

lemma commaSeparated_takes {item : Exec ParseError Parser α} {P : α → Prop}
    {text : α → List TokenKind} (hitem : Takes rest item fun a t => P a ∧ t = text a) :
    Takes rest (commaSeparated item) fun items t =>
      (items ≠ [] ∧ ∀ a ∈ items, P a) ∧ t = commaKinds text items := by
  apply hitem.bind
  intro first t ⟨hfirst, ht⟩
  apply whileNext_takes
    (fun items t => (items ≠ [] ∧ ∀ a ∈ items, P a) ∧ t = commaKinds text items) (by decide)
  · intro items t' ⟨⟨hne, hall⟩, ht'⟩
    apply hitem.bind
    intro next t'' ⟨hnext, ht''⟩
    apply Takes.pure
    refine ⟨⟨by simp, ?_⟩, ?_⟩
    · intro a ha
      cases List.mem_append.mp ha with
      | inl hold => exact hall a hold
      | inr hnew => exact List.mem_singleton.mp hnew ▸ hnext
    · rw [commaKinds_concat hne, ht', ht'', List.append_nil]
  · refine ⟨⟨by simp, ?_⟩, ?_⟩
    · intro a ha
      exact List.mem_singleton.mp ha ▸ hfirst
    · rw [ht, commaKinds, List.flatMap_nil, List.append_nil]

lemma foldl_concat (init items : List α) :
    items.foldl (fun acc a => acc ++ [a]) init = init ++ items := by
  induction items generalizing init with
  | nil => rw [List.foldl_nil, List.append_nil]
  | cons a items ih => rw [List.foldl_cons, ih, List.append_assoc, List.singleton_append]

lemma commaSeparated_reads {item : Exec ParseError Parser α} {text : α → List TokenKind}
    {itemStops stops : TokenKind → Prop} {items : List α} (hne : items ≠ [])
    (hitem : ∀ a ∈ items, Reads rest item a (text a) itemStops)
    (hcomma : itemStops .comma) (hstops : ∀ k, stops k → itemStops k ∧ k ≠ .comma) :
    Reads rest (commaSeparated item) items (commaKinds text items) stops := by
  cases items with
  | nil => exact absurd rfl hne
  | cons first items =>
    have hloop := whileNext_reads (fun items => item >>= fun next => pure (items ++ [next]))
      (fun acc a => acc ++ [a]) text (by decide) (fun k hk => (hstops k hk).2) [first] items
      (fun acc a ha => ((hitem a (List.mem_cons_of_mem first ha)).mono (by
        intro k hk
        cases hk with
        | inl hkind => exact hkind ▸ hcomma
        | inr hk => exact (hstops k hk).1)).map)
    rw [foldl_concat, List.singleton_append] at hloop
    apply (hitem first List.mem_cons_self).bind hloop
    intro more hmore
    cases items with
    | nil => exact hmore.mono fun k hk => (hstops k hk).1
    | cons a items => exact follows_cons hcomma

/-- The text of an optional clause. -/
def ClauseText (kind : TokenKind) (T : α → List TokenKind → Prop) (o : Option α)
    (text : List TokenKind) : Prop :=
  match o with
  | some a => ∃ clause, T a clause ∧ text = kind :: clause
  | none => text = []

lemma optionalClause_takes {kind : TokenKind} {clause : Exec ParseError Parser α}
    {T : α → List TokenKind → Prop} (hne : kind ≠ .eof) (hclause : Takes rest clause T) :
    Takes rest (optionalClause kind clause) (ClauseText kind T) := by
  apply Takes.peek current_peeks
  intro token
  apply Takes.ite
  · intro _
    apply (expect_takes hne).bind
    intro _ _ hkind
    apply hclause.bind
    intro a text hT
    apply Takes.pure
    refine ⟨text, hT, ?_⟩
    rw [hkind, List.append_nil, List.singleton_append]
  · intro _
    apply Takes.pure
    rfl

/-- Where a value has one text, so has the clause. -/
lemma clauseText_iff {kind : TokenKind} {P : α → Prop} {text : α → List TokenKind} {o : Option α}
    {t : List TokenKind} :
    ClauseText kind (fun a t => P a ∧ t = text a) o t ↔
      (∀ a ∈ o, P a) ∧ t = clauseKinds kind text o := by
  cases o with
  | none => simp [ClauseText, clauseKinds]
  | some a => simp [ClauseText, clauseKinds, and_assoc]

lemma optionalClause_reads {kind : TokenKind} {clause : Exec ParseError Parser α}
    {text : α → List TokenKind} {stops : TokenKind → Prop} (hne : kind ≠ .eof)
    (hstops : ∀ k, stops k → k ≠ kind) (o : Option α)
    (hclause : ∀ a ∈ o, Reads rest clause a (text a) stops) :
    Reads rest (optionalClause kind clause) o (clauseKinds kind text o) stops := by
  cases o with
  | none =>
    apply Reads.peek_nil current_peeks
    intro token htoken
    rw [if_neg (hstops _ htoken)]
    exact Reads.pure
  | some a =>
    apply Reads.peek_cons current_peeks
    intro token htoken
    rw [if_pos htoken]
    exact (expect_reads hne).andThen _ (hclause a rfl).map

/-- What follows a clause, or a clause that is left out. -/
lemma follows_clauseKinds {kind : TokenKind} {text : α → List TokenKind} {stops : TokenKind → Prop}
    {o : Option α} {more : List TokenKind} (hkind : stops kind) (hmore : Follows stops more) :
    Follows stops (clauseKinds kind text o ++ more) := by
  cases o with
  | none => exact hmore
  | some a => exact follows_cons hkind

/-! ### References -/

/-- A token that no reference goes on at. -/
def endsReference (k : TokenKind) : Prop := k ≠ .dot

instance : DecidablePred endsReference := fun k => inferInstanceAs (Decidable (k ≠ .dot))

/-- A token that no `FROM` clause goes on at. -/
def endsFrom (k : TokenKind) : Prop := k ≠ .dot ∧ k ≠ .join ∧ ∀ name, k ≠ .identifier name

lemma parseColumnReference_takes :
    Takes rest parseColumnReference fun c text => text = c.kinds := by
  apply expectIdentifier_takes.bind
  intro first text htext
  apply Takes.peek current_peeks
  intro token
  apply Takes.ite
  · intro _
    apply (expect_takes (by decide)).bind
    intro _ dot hdot
    apply expectIdentifier_takes.bind
    intro column text' htext'
    apply Takes.pure
    rw [htext, hdot, htext']
    rfl
  · intro _
    apply Takes.pure
    rw [htext]
    rfl

lemma parseColumnReference_reads (c : ColumnReference) :
    Reads rest parseColumnReference c c.kinds endsReference := by
  obtain ⟨table, column⟩ := c
  cases table with
  | none =>
    apply (expectIdentifier_reads column).andThen []
    apply Reads.peek_nil current_peeks
    intro token htoken
    rw [if_neg htoken]
    exact Reads.pure
  | some table =>
    apply (expectIdentifier_reads table).andThen [.dot, .identifier column]
    apply Reads.peek_cons current_peeks
    intro token htoken
    rw [if_pos htoken]
    apply (expect_reads (by decide)).andThen
    exact (expectIdentifier_reads column).map.mono fun _ _ => trivial

lemma parseTableReference_takes :
    Takes rest parseTableReference fun t text => text = t.kinds := by
  apply expectIdentifier_takes.bind
  intro name text htext
  apply Takes.peek current_peeks
  intro token
  split
  · apply expectIdentifier_takes.bind
    intro alias_ text' htext'
    apply Takes.pure
    rw [htext, htext']
    rfl
  · apply Takes.pure
    rw [htext]
    rfl

lemma parseTableReference_reads (t : TableReference) :
    Reads rest parseTableReference t t.kinds fun k => ∀ name, k ≠ .identifier name := by
  obtain ⟨name, alias_⟩ := t
  cases alias_ with
  | none =>
    apply (expectIdentifier_reads name).andThen []
    apply Reads.peek_nil current_peeks
    intro token htoken
    split
    · next alias_ halias => exact absurd halias (htoken alias_)
    · exact Reads.pure
  | some alias_ =>
    apply (expectIdentifier_reads name).andThen [.identifier alias_]
    apply Reads.peek_cons current_peeks
    intro token htoken
    rw [htoken]
    exact (expectIdentifier_reads alias_).map.mono fun _ _ => trivial

/-- A `FROM` clause is a table and the joins behind it. -/
lemma leftNested_foldl {source : FromClause} (h : source.LeftNested) :
    ∃ (reference : TableReference) (joins : List (JoinCondition × TableReference)),
      source = joins.foldl (fun left join => .innerJoin left join.1 (.table join.2)) (.table reference) ∧
      source.kinds = reference.kinds ++
        joins.flatMap fun join => .join :: joinKinds join.1 join.2.kinds := by
  induction source with
  | table reference => exact ⟨reference, [], rfl, by rw [FromClause.kinds]; simp⟩
  | innerJoin left on right ihLeft _ =>
    have ⟨hleft, table, htable⟩ := h
    have ⟨reference, joins, heq, hkinds⟩ := ihLeft hleft
    refine ⟨reference, joins ++ [(on, table)], ?_, ?_⟩
    · rw [List.foldl_append, List.foldl_cons, List.foldl_nil, ← heq, htable]
    · rw [FromClause.kinds, hkinds, List.flatMap_append, List.append_assoc, htable]
      simp [FromClause.kinds]

lemma parseJoin_takes (left : FromClause) : Takes rest (parseJoin left) fun source text =>
    ∃ on table, source = .innerJoin left on (.table table) ∧ text = joinKinds on table.kinds := by
  apply parseTableReference_takes.bind
  intro joinTable text₁ h₁
  apply (expect_takes (by decide)).bind
  intro _ text₂ h₂
  apply parseColumnReference_takes.bind
  intro leftOn text₃ h₃
  apply (expect_takes (by decide)).bind
  intro _ text₄ h₄
  apply parseColumnReference_takes.bind
  intro rightOn text₅ h₅
  apply Takes.pure
  refine ⟨⟨leftOn, rightOn⟩, joinTable, rfl, ?_⟩
  rw [h₁, h₂, h₃, h₄, h₅, List.append_nil]
  rfl

lemma parseJoin_reads (left : FromClause) (on : JoinCondition) (table : TableReference) :
    Reads rest (parseJoin left) (.innerJoin left on (.table table)) (joinKinds on table.kinds)
      endsReference := by
  apply (parseTableReference_reads table).bind
  · apply (expect_reads (by decide)).andThen
    apply (parseColumnReference_reads on.left).bind
    · apply (expect_reads (by decide)).andThen
      exact (parseColumnReference_reads on.right).map
    · exact fun more _ => follows_cons (by decide)
  · exact fun more _ => follows_cons (by simp)

lemma parseFromClause_takes :
    Takes rest parseFromClause fun source text => source.LeftNested ∧ text = source.kinds := by
  apply parseTableReference_takes.bind
  intro reference text htext
  apply whileNext_takes (fun (source : FromClause) text => source.LeftNested ∧ text = source.kinds)
    (by decide)
  · intro left text ⟨hleft, htext⟩
    apply (parseJoin_takes left).conseq
    intro source text' ⟨on, table, hsource, htext'⟩
    subst hsource
    refine ⟨⟨hleft, table, rfl⟩, ?_⟩
    rw [htext, htext']
    rfl
  · exact ⟨trivial, htext⟩

lemma parseFromClause_reads {source : FromClause} (h : source.LeftNested) :
    Reads rest parseFromClause source source.kinds endsFrom := by
  have ⟨reference, joins, heq, hkinds⟩ := leftNested_foldl h
  have hjoins := whileNext_reads parseJoin
    (fun left join => .innerJoin left join.1 (.table join.2))
    (fun join : JoinCondition × TableReference => joinKinds join.1 join.2.kinds)
    (by decide) (fun k (hk : endsFrom k) => hk.2.1) (.table reference) joins
    (fun left join _ => (parseJoin_reads left join.1 join.2).mono (by
      intro k hk
      cases hk with
      | inl hjoin => exact hjoin ▸ (by decide)
      | inr hends => exact hends.1))
  rw [← heq] at hjoins
  rw [hkinds]
  apply (parseTableReference_reads reference).bind hjoins
  intro more hmore
  cases joins with
  | nil => exact hmore.mono fun k hk => hk.2.2
  | cons join joins => exact follows_cons (by simp)

/-! ### Expressions -/

lemma parseOperator_takes : Takes rest parseOperator fun operator text => text = [operator.kind] := by
  intro p operator p' hrun
  rw [parseOperator, run_bind, Outcome.andThen_eq_ok] at hrun
  have ⟨token, p₁, hcurrent, hbody⟩ := hrun
  have ⟨hp, hget⟩ := current_eq_ok hcurrent
  subst hp
  have ⟨operator', p₂, hoperator, hadvance⟩ := Outcome.andThen_eq_ok.mp hbody
  have ⟨hkind, hp₂⟩ : token.kind = operator'.kind ∧ p₂ = p₁ := by
    unfold comparisonOperator at hoperator
    split at hoperator <;> cases hoperator <;> exact ⟨‹_›, rfl⟩
  subst hp₂
  have hne : token.kind ≠ .eof := by
    rw [hkind]
    cases operator' <;> decide
  simp only [run_bind, run_advance hget hne] at hadvance
  cases hadvance
  exact ⟨[operator.kind], rfl, by rw [rest_of_get hget, hkind]; rfl⟩

lemma parseOperator_reads (operator : ComparisonOperator) :
    Reads rest parseOperator operator [operator.kind] anywhere := by
  intro p more hrest _
  have ⟨token, hget, hkind, hmore⟩ := get_of_rest hrest
  have hne : token.kind ≠ .eof := by
    rw [hkind]
    cases operator <;> decide
  refine ⟨⟨p.tokens, p.position + 1⟩, ?_, hmore⟩
  have hoperator : (comparisonOperator token.kind).run p = .ok operator p := by
    rw [hkind]
    cases operator <;> rfl
  simp only [parseOperator, run_bind, run_current hget, Outcome.andThen_ok, hoperator,
    run_advance hget hne, run_pure]

lemma parseComparisonExpression_takes :
    Takes rest parseComparisonExpression fun e text => e.IsComparison ∧ text = e.kinds := by
  apply parseColumnReference_takes.bind
  intro column text₁ h₁
  apply parseOperator_takes.bind
  intro operator text₂ h₂
  apply expectLiteral_takes.bind
  intro literal text₃ h₃
  apply Takes.pure
  refine ⟨⟨column, operator, literal, rfl⟩, ?_⟩
  rw [h₁, h₂, h₃, List.append_nil]
  rfl

lemma parseComparisonExpression_reads {e : Expression} (h : e.IsComparison) :
    Reads rest parseComparisonExpression e e.kinds anywhere := by
  have ⟨column, operator, literal, he⟩ := h
  subst he
  apply (parseColumnReference_reads column).bind
  · apply (parseOperator_reads operator).andThen
    exact (expectLiteral_reads literal).map
  · intro more _
    apply follows_cons
    cases operator <;> decide

/-- A conjunction is a comparison and those behind it. -/
lemma isAndChain_foldl {e : Expression} (h : e.IsAndChain) :
    ∃ (first : Expression) (conjuncts : List Expression),
      first.IsComparison ∧ (∀ c ∈ conjuncts, c.IsComparison) ∧ e = conjuncts.foldl .and first ∧
      e.kinds = first.kinds ++ conjuncts.flatMap fun c => .and :: c.kinds := by
  induction h with
  | comparison h => exact ⟨_, [], h, by simp, rfl, by simp⟩
  | @and left right hleft hright ih =>
    have ⟨first, conjuncts, hfirst, hconjuncts, heq, hkinds⟩ := ih
    refine ⟨first, conjuncts ++ [right], hfirst, ?_, ?_, ?_⟩
    · intro c hc
      cases List.mem_append.mp hc with
      | inl hold => exact hconjuncts c hold
      | inr hnew => exact List.mem_singleton.mp hnew ▸ hright
    · rw [List.foldl_append, List.foldl_cons, List.foldl_nil, ← heq]
    · rw [Expression.kinds, hkinds, List.flatMap_append, List.append_assoc]
      simp

lemma parseAndExpression_takes :
    Takes rest parseAndExpression fun e text => e.IsAndChain ∧ text = e.kinds := by
  apply parseComparisonExpression_takes.bind
  intro left text ⟨hleft, htext⟩
  apply whileNext_takes (fun (e : Expression) text => e.IsAndChain ∧ text = e.kinds) (by decide)
  · intro e text ⟨he, htext⟩
    apply parseComparisonExpression_takes.bind
    intro right text' ⟨hright, htext'⟩
    apply Takes.pure
    refine ⟨.and he hright, ?_⟩
    rw [htext, htext', List.append_nil]
    rfl
  · exact ⟨.comparison hleft, htext⟩

lemma parseAndExpression_reads {e : Expression} (h : e.IsAndChain) :
    Reads rest parseAndExpression e e.kinds fun k => k ≠ .and := by
  have ⟨first, conjuncts, hfirst, hconjuncts, heq, hkinds⟩ := isAndChain_foldl h
  have hloop := whileNext_reads parseConjunct .and Expression.kinds (by decide)
    (fun k (hk : k ≠ .and) => hk) first conjuncts
    (fun left right hright =>
      ((parseComparisonExpression_reads (hconjuncts right hright)).map).mono fun _ _ => trivial)
  rw [← heq] at hloop
  rw [hkinds]
  exact (parseComparisonExpression_reads hfirst).andThen _ hloop

lemma parseOrExpression_takes :
    Takes rest parseOrExpression fun e text => e.IsFilter ∧ text = e.kinds := by
  apply parseAndExpression_takes.bind
  intro left text ⟨hleft, htext⟩
  apply Takes.peek current_peeks
  intro token
  apply Takes.ite
  · intro _
    apply (expect_takes (by decide)).bind
    intro _ text₁ h₁
    apply parseAndExpression_takes.bind
    intro right text₂ ⟨hright, h₂⟩
    apply Takes.pure
    refine ⟨.inr ⟨left, right, hleft, hright, rfl⟩, ?_⟩
    rw [htext, h₁, h₂, List.append_nil]
    rfl
  · intro _
    apply Takes.pure
    exact ⟨.inl hleft, by rw [htext, List.append_nil]⟩

lemma parseOrExpression_reads {e : Expression} (h : e.IsFilter) :
    Reads rest parseOrExpression e e.kinds fun k => k ≠ .and ∧ k ≠ .or := by
  cases h with
  | inl hchain =>
    have hread : Reads rest parseOrExpression e (e.kinds ++ []) fun k => k ≠ .and ∧ k ≠ .or := by
      apply (parseAndExpression_reads hchain).bind
      · apply Reads.peek_nil current_peeks
        intro token htoken
        rw [if_neg htoken.2]
        exact Reads.pure
      · exact fun more hmore => hmore.mono fun k hk => hk.1
    rwa [List.append_nil] at hread
  | inr hor =>
    have ⟨left, right, hleft, hright, heq⟩ := hor
    subst heq
    apply (parseAndExpression_reads hleft).bind
    · apply Reads.peek_cons current_peeks
      intro token htoken
      rw [if_pos htoken]
      apply (expect_reads (by decide)).andThen
      exact ((parseAndExpression_reads hright).map).mono fun k hk => hk.1
    · exact fun more _ => follows_cons (by decide)

/-! ### Clauses -/

lemma kinds_cons (c : ColumnReference) : ∃ name tail, c.kinds = .identifier name :: tail := by
  obtain ⟨table, column⟩ := c
  cases table with
  | none => exact ⟨column, [], rfl⟩
  | some table => exact ⟨table, _, rfl⟩

lemma parseProjection_takes :
    Takes rest parseProjection fun p text => p.Shaped ∧ text = p.kinds := by
  apply Takes.peek current_peeks
  intro token
  split
  · apply (expect_takes (by decide)).bind
    intro _ text h
    apply Takes.pure
    exact ⟨trivial, by rw [h]; rfl⟩
  · apply parseColumnReference_takes.bind
    intro column text h
    apply Takes.pure
    exact ⟨⟨column, rfl⟩, by rw [h, List.append_nil]; rfl⟩
  · apply (expect_takes (by decide)).bind
    intro _ text₁ h₁
    apply (expect_takes (by decide)).bind
    intro _ text₂ h₂
    apply (expect_takes (by decide)).bind
    intro _ text₃ h₃
    apply (expect_takes (by decide)).bind
    intro _ text₄ h₄
    apply Takes.pure
    exact ⟨trivial, by rw [h₁, h₂, h₃, h₄]; rfl⟩
  · apply (expect_takes (by decide)).bind
    intro _ text₁ h₁
    apply (expect_takes (by decide)).bind
    intro _ text₂ h₂
    apply parseColumnReference_takes.bind
    intro column text₃ h₃
    apply (expect_takes (by decide)).bind
    intro _ text₄ h₄
    apply Takes.pure
    exact ⟨trivial, by rw [h₁, h₂, h₃, h₄, List.append_nil]; rfl⟩
  · exact Takes.throw

lemma parseProjection_reads {p : Projection} (h : p.Shaped) :
    Reads rest parseProjection p p.kinds endsReference := by
  cases p with
  | all =>
    apply Reads.peek_cons current_peeks
    intro token htoken
    rw [htoken]
    exact (expect_reads (by decide)).map.mono fun _ _ => trivial
  | expression e =>
    have ⟨column, he⟩ := h
    subst he
    have ⟨name, tail, hkinds⟩ := kinds_cons column
    have hread : Reads rest (parseColumnReference >>= fun column =>
        pure (Projection.expression (.column column))) (.expression (.column column)) column.kinds
          endsReference := (parseColumnReference_reads column).map
    rw [Projection.kinds, Expression.kinds, hkinds]
    apply Reads.peek_cons current_peeks
    intro token htoken
    rw [htoken, ← hkinds]
    exact hread
  | aggregate a =>
    cases a with
    | countAll =>
      apply Reads.peek_cons current_peeks
      intro token htoken
      rw [htoken]
      apply (expect_reads (by decide)).andThen
      apply (expect_reads (by decide)).andThen
      apply (expect_reads (by decide)).andThen
      exact (expect_reads (by decide)).map.mono fun _ _ => trivial
    | sum column =>
      apply Reads.peek_cons current_peeks
      intro token htoken
      rw [htoken]
      apply (expect_reads (by decide)).andThen
      apply (expect_reads (by decide)).andThen
      apply (parseColumnReference_reads column).bind
      · exact (expect_reads (by decide)).map.mono fun _ _ => trivial
      · exact fun more _ => follows_cons (by decide)

lemma parseOrderBy_takes :
    Takes rest parseOrderBy fun o text => ∃ explicitAsc, text = o.kinds explicitAsc := by
  apply parseColumnReference_takes.bind
  intro column text h
  apply Takes.peek current_peeks
  intro token
  split
  · apply (expect_takes (by decide)).bind
    intro _ text' h'
    apply Takes.pure
    exact ⟨true, by rw [h, h']; rfl⟩
  · apply (expect_takes (by decide)).bind
    intro _ text' h'
    apply Takes.pure
    exact ⟨false, by rw [h, h']; rfl⟩
  · apply Takes.pure
    exact ⟨false, by rw [h]; rfl⟩

/-- A token that no `ORDER BY` goes on at. -/
def endsOrderBy (k : TokenKind) : Prop := k ≠ .dot ∧ k ≠ .asc ∧ k ≠ .desc

lemma parseOrderBy_reads (o : OrderBy) (explicitAsc : Bool) :
    Reads rest parseOrderBy o (o.kinds explicitAsc) endsOrderBy := by
  obtain ⟨column, direction⟩ := o
  apply (parseColumnReference_reads column).bind
  · cases direction with
    | asc =>
      cases explicitAsc with
      | false =>
        apply Reads.peek_nil current_peeks
        intro token htoken
        split
        · next hasc => exact absurd hasc htoken.2.1
        · next hdesc => exact absurd hdesc htoken.2.2
        · exact Reads.pure
      | true =>
        apply Reads.peek_cons current_peeks
        intro token htoken
        rw [htoken]
        exact (expect_reads (by decide)).map.mono fun _ _ => trivial
    | desc =>
      apply Reads.peek_cons current_peeks
      intro token htoken
      rw [htoken]
      exact (expect_reads (by decide)).map.mono fun _ _ => trivial
  · intro more hmore
    cases direction with
    | asc =>
      cases explicitAsc with
      | false => exact hmore.mono fun k hk => hk.1
      | true => exact follows_cons (by decide)
    | desc => exact follows_cons (by decide)

/-- A number that is not negative is the number of its value. -/
lemma ofNat_toNat {v : Int64} (h : ¬ v < 0) :
    v.toInt.toNat ≤ i64Max ∧ Int64.ofNat v.toInt.toNat = v := by
  have hnonneg : 0 ≤ v.toInt := by
    rw [Int64.lt_iff_toInt_lt, Int64.toInt_zero] at h
    omega
  have hlt := v.toInt_lt
  refine ⟨?_, ?_⟩
  · unfold i64Max
    omega
  · rw [← Int64.ofInt_eq_ofNat, Int.toNat_of_nonneg hnonneg, Int64.ofInt_toInt]

lemma toInt_ofNat {n : Nat} (h : n ≤ i64Max) :
    ¬ Int64.ofNat n < 0 ∧ (Int64.ofNat n).toInt.toNat = n := by
  have hval : (Int64.ofNat n).toInt = n := by
    apply Int64.toInt_ofNat_of_lt
    unfold i64Max at h
    omega
  refine ⟨?_, by rw [hval, Int.toNat_natCast]⟩
  rw [Int64.lt_iff_toInt_lt, hval, Int64.toInt_zero]
  omega

lemma parseLimit_takes :
    Takes rest parseLimit fun n text => n ≤ i64Max ∧ text = [.integer (Int64.ofNat n)] := by
  apply expectLiteral_takes.bind
  intro literal text h
  apply Takes.gets
  intro position
  split
  · next v =>
    apply Takes.ite
    · exact fun _ => Takes.throw
    · intro hv
      apply Takes.pure
      have ⟨hle, hof⟩ := ofNat_toNat hv
      exact ⟨hle, by rw [h, hof]; rfl⟩
  · exact Takes.throw

lemma parseLimit_reads {n : Nat} (h : n ≤ i64Max) :
    Reads rest parseLimit n [.integer (Int64.ofNat n)] anywhere := by
  have ⟨hneg, hval⟩ := toInt_ofNat h
  apply (expectLiteral_reads (.integer (Int64.ofNat n))).andThen []
  intro p more hrest _
  refine ⟨p, ?_, hrest⟩
  simp only [run_bind, run_gets, Outcome.andThen_ok, if_neg hneg, run_pure, hval]

lemma parseAssignment_takes :
    Takes rest parseAssignment fun a text => True ∧ text = a.kinds := by
  apply parseColumnReference_takes.bind
  intro column text₁ h₁
  apply (expect_takes (by decide)).bind
  intro _ text₂ h₂
  apply expectLiteral_takes.bind
  intro value text₃ h₃
  apply Takes.pure
  exact ⟨trivial, by rw [h₁, h₂, h₃]; rfl⟩

lemma parseAssignment_reads (a : Assignment) : Reads rest parseAssignment a a.kinds anywhere := by
  apply (parseColumnReference_reads a.column).bind
  · apply (expect_reads (by decide)).andThen
    exact (expectLiteral_reads a.value).map
  · exact fun more _ => follows_cons (by decide)

lemma parseColumnDefinition_takes :
    Takes rest parseColumnDefinition fun c text => True ∧ text = c.kinds := by
  apply expectIdentifier_takes.bind
  intro name text₁ h₁
  apply parseDataType_takes.bind
  intro dataType text₂ h₂
  apply Takes.pure
  exact ⟨trivial, by rw [h₁, h₂]; rfl⟩

lemma parseColumnDefinition_reads (c : ColumnDefinition) :
    Reads rest parseColumnDefinition c c.kinds anywhere := by
  apply (expectIdentifier_reads c.name).andThen
  exact (parseDataType_reads c.dataType).map

/-! ### Statements -/

/-- One of the tokens `ks`. -/
def among (ks : List TokenKind) (k : TokenKind) : Prop := k ∈ ks

instance (ks : List TokenKind) : DecidablePred (among ks) := fun k => inferInstanceAs (Decidable (k ∈ ks))

/-- The tokens behind a `FROM` clause. -/
def behindFrom : List TokenKind := [.where_, .group, .order, .limit, .set, .semicolon]

lemma endsFrom_of_behindFrom {k : TokenKind} (h : among behindFrom k) : endsFrom k := by
  refine ⟨?_, ?_, ?_⟩
  · rintro rfl
    exact absurd h (by decide)
  · rintro rfl
    exact absurd h (by decide)
  · intro name hname
    rw [hname] at h
    simp [among, behindFrom] at h

/-- What follows an optional clause, where `ks` are the tokens behind it. -/
lemma follows_clause {kind : TokenKind} {text : α → List TokenKind} {o : Option α}
    (ks : List TokenKind) {ks' : List TokenKind} (hkind : kind ∈ ks') (hsub : ∀ k ∈ ks, k ∈ ks') (more : List TokenKind)
    (hmore : Follows (among ks) more) : Follows (among ks') (clauseKinds kind text o ++ more) :=
  follows_clauseKinds hkind (hmore.mono hsub)

section Clauses

variable (ks : List TokenKind)

lemma whereClause_takes : Takes rest (optionalClause .where_ parseOrExpression) fun filter text =>
    (∀ e ∈ filter, e.IsFilter) ∧ text = clauseKinds .where_ Expression.kinds filter :=
  (optionalClause_takes (by decide) parseOrExpression_takes).conseq fun _ _ h => clauseText_iff.mp h

lemma whereClause_reads {filter : Option Expression} (h : ∀ e ∈ filter, e.IsFilter)
    (hstops : ∀ k ∈ ks, k ≠ .where_ ∧ k ≠ .and ∧ k ≠ .or) :
    Reads rest (optionalClause .where_ parseOrExpression) filter
      (clauseKinds .where_ Expression.kinds filter) (among ks) := by
  apply optionalClause_reads (by decide) fun k hk => (hstops k hk).1
  intro e he
  exact (parseOrExpression_reads (h e he)).mono fun k hk => (hstops k hk).2

/-- What stands behind `GROUP`. -/
lemma byGroupBy_takes : Takes rest (do
      expect .by_
      parseGroupBy) fun columns text => columns ≠ [] ∧
        text = .by_ :: commaKinds ColumnReference.kinds columns := by
  apply (expect_takes (by decide)).bind
  intro _ text h
  have hcolumn : Takes rest parseColumnReference fun c text => True ∧ text = c.kinds :=
    parseColumnReference_takes.conseq fun c text h => ⟨trivial, h⟩
  apply (commaSeparated_takes hcolumn).conseq
  intro columns text' ⟨⟨hne, _⟩, h'⟩
  exact ⟨hne, by rw [h, h']; rfl⟩

lemma groupByClause_takes :
    Takes rest (optionalClause .group do
      expect .by_
      parseGroupBy) fun groupBy text => (∀ columns ∈ groupBy, columns ≠ []) ∧
        text = clauseKinds .group (fun columns => .by_ :: commaKinds ColumnReference.kinds columns)
          groupBy :=
  (optionalClause_takes (by decide) byGroupBy_takes).conseq fun _ _ h => clauseText_iff.mp h

lemma groupByClause_reads {groupBy : Option (List ColumnReference)}
    (h : ∀ columns ∈ groupBy, columns ≠ [])
    (hstops : ∀ k ∈ ks, k ≠ .group ∧ k ≠ .dot ∧ k ≠ .comma) :
    Reads rest (optionalClause .group do
      expect .by_
      parseGroupBy) groupBy
        (clauseKinds .group (fun columns => .by_ :: commaKinds ColumnReference.kinds columns) groupBy)
        (among ks) := by
  apply optionalClause_reads (by decide) fun k hk => (hstops k hk).1
  intro columns hcolumns
  apply (expect_reads (by decide)).andThen
  exact commaSeparated_reads (h columns hcolumns) (fun c _ => parseColumnReference_reads c)
    (by decide) fun k hk => ⟨(hstops k hk).2.1, (hstops k hk).2.2⟩

/-- What stands behind `ORDER`. -/
lemma byOrderBy_takes : Takes rest (do
      expect .by_
      parseOrderBy) fun o text => ∃ explicitAsc, text = .by_ :: o.kinds explicitAsc := by
  apply (expect_takes (by decide)).bind
  intro _ text h
  apply parseOrderBy_takes.conseq
  intro o text' ⟨explicitAsc, h'⟩
  exact ⟨explicitAsc, by rw [h, h']; rfl⟩

lemma clauseText_order {orderBy : Option OrderBy} {text : List TokenKind}
    (h : ClauseText .order (fun o text => ∃ explicitAsc, text = .by_ :: o.kinds explicitAsc) orderBy text) :
    ∃ explicitAsc, text = clauseKinds .order (fun o => .by_ :: o.kinds explicitAsc) orderBy := by
  cases orderBy with
  | none => exact ⟨false, h⟩
  | some o =>
    have ⟨clause, ⟨explicitAsc, hclause⟩, htext⟩ := h
    exact ⟨explicitAsc, by rw [htext, hclause]; rfl⟩

lemma orderByClause_takes :
    Takes rest (optionalClause .order do
      expect .by_
      parseOrderBy) fun orderBy text => ∃ explicitAsc,
        text = clauseKinds .order (fun o => .by_ :: o.kinds explicitAsc) orderBy :=
  (optionalClause_takes (by decide) byOrderBy_takes).conseq fun _ _ h => clauseText_order h

lemma orderByClause_reads (orderBy : Option OrderBy) (explicitAsc : Bool)
    (hstops : ∀ k ∈ ks, k ≠ .order ∧ k ≠ .dot ∧ k ≠ .asc ∧ k ≠ .desc) :
    Reads rest (optionalClause .order do
      expect .by_
      parseOrderBy) orderBy (clauseKinds .order (fun o => .by_ :: o.kinds explicitAsc) orderBy)
        (among ks) := by
  apply optionalClause_reads (by decide) fun k hk => (hstops k hk).1
  intro o _
  apply (expect_reads (by decide)).andThen
  exact (parseOrderBy_reads o explicitAsc).mono fun k hk => (hstops k hk).2

lemma limitClause_takes : Takes rest (optionalClause .limit parseLimit) fun limit text =>
    (∀ n ∈ limit, n ≤ i64Max) ∧
      text = clauseKinds .limit (fun n => [.integer (Int64.ofNat n)]) limit :=
  (optionalClause_takes (by decide) parseLimit_takes).conseq fun _ _ h => clauseText_iff.mp h

lemma limitClause_reads {limit : Option Nat} (h : ∀ n ∈ limit, n ≤ i64Max)
    (hstops : ∀ k ∈ ks, k ≠ .limit) :
    Reads rest (optionalClause .limit parseLimit) limit
      (clauseKinds .limit (fun n => [.integer (Int64.ofNat n)]) limit) (among ks) := by
  apply optionalClause_reads (by decide) hstops
  intro n hn
  exact (parseLimit_reads (h n hn)).mono fun _ _ => trivial

end Clauses

lemma parseSelect_takes :
    Takes rest parseSelect fun s text => s.Shaped ∧ ∃ explicitAsc, text = s.kinds explicitAsc := by
  apply (expect_takes (by decide)).bind
  intro _ text₁ h₁
  apply (commaSeparated_takes parseProjection_takes).bind
  intro projections text₂ ⟨hprojections, h₂⟩
  apply (expect_takes (by decide)).bind
  intro _ text₃ h₃
  apply parseFromClause_takes.bind
  intro source text₄ ⟨hsource, h₄⟩
  apply whereClause_takes.bind
  intro filter text₅ ⟨hfilter, h₅⟩
  apply groupByClause_takes.bind
  intro groupBy text₆ ⟨hgroupBy, h₆⟩
  apply orderByClause_takes.bind
  intro orderBy text₇ ⟨explicitAsc, h₇⟩
  apply limitClause_takes.bind
  intro limit text₈ ⟨hlimit, h₈⟩
  apply Takes.pure
  refine ⟨⟨hprojections, hsource, hfilter, hgroupBy, hlimit⟩, explicitAsc, ?_⟩
  rw [h₁, h₂, h₃, h₄, h₅, h₆, h₇, h₈, List.append_nil]
  rfl

lemma parseSelect_reads {s : SelectStatement} (h : s.Shaped) (explicitAsc : Bool) :
    Reads rest parseSelect s (s.kinds explicitAsc) (among [.semicolon]) := by
  have hprojections : Reads rest parseProjections s.projections
      (commaKinds Projection.kinds s.projections) (among [.from_]) := by
    apply commaSeparated_reads h.projections.1
      (fun p hp => parseProjection_reads (h.projections.2 p hp)) (by decide)
    intro k hk
    rw [List.mem_singleton.mp hk]
    decide
  apply (expect_reads (by decide)).andThen
  apply hprojections.bind
  · apply (expect_reads (by decide)).andThen
    apply (parseFromClause_reads h.leftNested).bind
    · apply (whereClause_reads [.group, .order, .limit, .semicolon] h.filter (by decide)).bind
      · apply (groupByClause_reads [.order, .limit, .semicolon] h.groupBy (by decide)).bind
        · apply (orderByClause_reads [.limit, .semicolon] s.orderBy explicitAsc (by decide)).bind
          · exact (limitClause_reads [.semicolon] h.limit (by decide)).map
          · exact follows_clause [.semicolon] (by decide) (by decide)
        · intro more hmore
          rw [List.append_assoc]
          apply follows_clause [.limit, .semicolon] (by decide) (by decide)
          exact follows_clause [.semicolon] (by decide) (by decide) more hmore
      · intro more hmore
        rw [List.append_assoc, List.append_assoc]
        apply follows_clause [.order, .limit, .semicolon] (by decide) (by decide)
        apply follows_clause [.limit, .semicolon] (by decide) (by decide)
        exact follows_clause [.semicolon] (by decide) (by decide) more hmore
    · intro more hmore
      rw [List.append_assoc, List.append_assoc, List.append_assoc]
      have hbehind : Follows (among behindFrom) (clauseKinds .where_ Expression.kinds s.filter ++
          (clauseKinds .group (fun columns => .by_ :: commaKinds ColumnReference.kinds columns) s.groupBy ++
            (clauseKinds .order (fun o => .by_ :: o.kinds explicitAsc) s.orderBy ++
              (clauseKinds .limit (fun n => [.integer (Int64.ofNat n)]) s.limit ++ more)))) := by
        apply follows_clause [.group, .order, .limit, .semicolon] (by decide) (by decide)
        apply follows_clause [.order, .limit, .semicolon] (by decide) (by decide)
        apply follows_clause [.limit, .semicolon] (by decide) (by decide)
        exact follows_clause [.semicolon] (by decide) (by decide) more hmore
      exact hbehind.mono fun k hk => endsFrom_of_behindFrom hk
  · exact fun more _ => follows_cons (by decide)

/-- A list in parentheses. -/
lemma parenthesized_takes {item : Exec ParseError Parser α} {text : α → List TokenKind}
    (hitem : Takes rest item fun a t => t = text a) :
    Takes rest (do
      expect .leftParen
      let items ← commaSeparated item
      expect .rightParen
      pure items) fun items t => items ≠ [] ∧
        t = .leftParen :: (commaKinds text items ++ [.rightParen]) := by
  have hitem' : Takes rest item fun a t => True ∧ t = text a := hitem.conseq fun a t h => ⟨trivial, h⟩
  apply (expect_takes (by decide)).bind
  intro _ text₁ h₁
  apply (commaSeparated_takes hitem').bind
  intro items text₂ ⟨⟨hne, _⟩, h₂⟩
  apply (expect_takes (by decide)).bind
  intro _ text₃ h₃
  apply Takes.pure
  exact ⟨hne, by rw [h₁, h₂, h₃]; rfl⟩

lemma parenthesized_reads {item : Exec ParseError Parser α} {text : α → List TokenKind} {items : List α}
    (hne : items ≠ []) (hitem : ∀ a, Reads rest item a (text a) anywhere) :
    Reads rest (do
      expect .leftParen
      let items ← commaSeparated item
      expect .rightParen
      pure items) items (.leftParen :: (commaKinds text items ++ [.rightParen])) anywhere := by
  have hitems : Reads rest (commaSeparated item) items (commaKinds text items) (among [.rightParen]) := by
    apply commaSeparated_reads hne (fun a _ => hitem a) trivial
    intro k hk
    rw [List.mem_singleton.mp hk]
    exact ⟨trivial, by decide⟩
  apply (expect_reads (by decide)).andThen
  apply hitems.bind
  · exact (expect_reads (by decide)).map
  · exact fun more _ => follows_cons (by decide)

lemma parseInsert_takes :
    Takes rest parseInsert fun s text => s.literals ≠ [] ∧ text = s.kinds := by
  apply (expect_takes (by decide)).bind
  intro _ text₁ h₁
  apply (expect_takes (by decide)).bind
  intro _ text₂ h₂
  apply expectIdentifier_takes.bind
  intro table text₃ h₃
  apply (expect_takes (by decide)).bind
  intro _ text₄ h₄
  apply (parenthesized_takes expectLiteral_takes).bind
  intro literals text₅ ⟨hne, h₅⟩
  apply Takes.pure
  refine ⟨hne, ?_⟩
  rw [h₁, h₂, h₃, h₄, h₅, List.append_nil]
  rfl

lemma parseInsert_reads {s : InsertStatement} (h : s.literals ≠ []) :
    Reads rest parseInsert s s.kinds anywhere := by
  apply (expect_reads (by decide)).andThen
  apply (expect_reads (by decide)).andThen
  apply (expectIdentifier_reads s.table).andThen
  apply (expect_reads (by decide)).andThen
  exact (parenthesized_reads h expectLiteral_reads).map

lemma parseUpdate_takes : Takes rest parseUpdate fun s text => s.Shaped ∧ text = s.kinds := by
  apply (expect_takes (by decide)).bind
  intro _ text₁ h₁
  apply parseFromClause_takes.bind
  intro source text₂ ⟨hsource, h₂⟩
  apply (expect_takes (by decide)).bind
  intro _ text₃ h₃
  apply (commaSeparated_takes parseAssignment_takes).bind
  intro assignments text₄ ⟨⟨hassignments, _⟩, h₄⟩
  apply whereClause_takes.bind
  intro filter text₅ ⟨hfilter, h₅⟩
  apply Takes.pure
  refine ⟨⟨hsource, hassignments, hfilter⟩, ?_⟩
  rw [h₁, h₂, h₃, h₄, h₅, List.append_nil]
  rfl

lemma parseUpdate_reads {s : UpdateStatement} (h : s.Shaped) :
    Reads rest parseUpdate s s.kinds (among [.semicolon]) := by
  have hassignments : Reads rest parseAssignments s.assignments
      (commaKinds Assignment.kinds s.assignments) (among [.where_, .semicolon]) := by
    apply commaSeparated_reads h.assignments (fun a _ => parseAssignment_reads a) trivial
    intro k hk
    exact ⟨trivial, by rintro rfl; exact absurd hk (by decide)⟩
  apply (expect_reads (by decide)).andThen
  apply (parseFromClause_reads h.leftNested).bind
  · apply (expect_reads (by decide)).andThen
    apply hassignments.bind
    · exact (whereClause_reads [.semicolon] h.filter (by decide)).map
    · exact follows_clause [.semicolon] (by decide) (by decide)
  · exact fun more _ => follows_cons (endsFrom_of_behindFrom (by decide))

lemma parseTargets_takes : Takes rest parseTargets fun targets text =>
    (∀ ts ∈ targets, ts ≠ []) ∧ text = targetKinds targets := by
  have hidentifier : Takes rest expectIdentifier fun name text => True ∧ text = [.identifier name] :=
    expectIdentifier_takes.conseq fun name text h => ⟨trivial, h⟩
  apply Takes.peek current_peeks
  intro token
  apply Takes.ite
  · intro _
    apply (commaSeparated_takes hidentifier).bind
    intro targets text ⟨⟨hne, _⟩, h⟩
    apply Takes.pure
    refine ⟨fun ts hts => Option.some.inj hts ▸ hne, ?_⟩
    rw [h, List.append_nil]
    rfl
  · intro _
    apply Takes.pure
    exact ⟨fun ts hts => (by cases hts), rfl⟩

lemma parseTargets_reads {targets : Option (List String)} (h : ∀ ts ∈ targets, ts ≠ []) :
    Reads rest parseTargets targets (targetKinds targets) (among [.from_]) := by
  cases targets with
  | none =>
    apply Reads.peek_nil current_peeks
    intro token htoken
    rw [if_neg (not_not.mpr (List.mem_singleton.mp htoken))]
    exact Reads.pure
  | some ts =>
    have hne := h ts rfl
    have hitems : Reads rest (commaSeparated expectIdentifier) ts
        (commaKinds (fun target => [.identifier target]) ts) (among [.from_]) := by
      apply commaSeparated_reads hne (fun name _ => expectIdentifier_reads name) trivial
      intro k hk
      exact ⟨trivial, by rintro rfl; exact absurd hk (by decide)⟩
    have hmapped : Reads rest (commaSeparated expectIdentifier >>= fun targets =>
        pure (some targets)) (some ts) (commaKinds (fun target => [.identifier target]) ts)
          (among [.from_]) := hitems.map
    cases ts with
    | nil => exact absurd rfl hne
    | cons t ts =>
      apply Reads.peek_cons current_peeks
      intro token htoken
      rw [if_pos (by rw [htoken]; simp)]
      exact hmapped

lemma parseDelete_takes : Takes rest parseDelete fun s text => s.Shaped ∧ text = s.kinds := by
  apply (expect_takes (by decide)).bind
  intro _ text₁ h₁
  apply parseTargets_takes.bind
  intro targets text₂ ⟨htargets, h₂⟩
  apply (expect_takes (by decide)).bind
  intro _ text₃ h₃
  apply parseFromClause_takes.bind
  intro source text₄ ⟨hsource, h₄⟩
  apply whereClause_takes.bind
  intro filter text₅ ⟨hfilter, h₅⟩
  apply Takes.pure
  refine ⟨⟨htargets, hsource, hfilter⟩, ?_⟩
  rw [h₁, h₂, h₃, h₄, h₅, List.append_nil]
  rfl

lemma parseDelete_reads {s : DeleteStatement} (h : s.Shaped) :
    Reads rest parseDelete s s.kinds (among [.semicolon]) := by
  apply (expect_reads (by decide)).andThen
  apply (parseTargets_reads h.targets).bind
  · apply (expect_reads (by decide)).andThen
    apply (parseFromClause_reads h.leftNested).bind
    · exact (whereClause_reads [.semicolon] h.filter (by decide)).map
    · intro more hmore
      have hbehind : Follows (among behindFrom)
          (clauseKinds .where_ Expression.kinds s.filter ++ more) :=
        follows_clause [.semicolon] (by decide) (by decide) more hmore
      exact hbehind.mono fun k hk => endsFrom_of_behindFrom hk
  · exact fun more _ => follows_cons (by decide)

lemma parseCreateTable_takes :
    Takes rest parseCreateTable fun s text => s.columns ≠ [] ∧ text = s.kinds := by
  have hcolumn : Takes rest parseColumnDefinition fun c text => text = c.kinds :=
    parseColumnDefinition_takes.conseq fun c text h => h.2
  apply (expect_takes (by decide)).bind
  intro _ text₁ h₁
  apply expectIdentifier_takes.bind
  intro table text₂ h₂
  apply (parenthesized_takes hcolumn).bind
  intro columns text₃ ⟨hne, h₃⟩
  apply Takes.pure
  refine ⟨hne, ?_⟩
  rw [h₁, h₂, h₃, List.append_nil]
  rfl

lemma parseCreateTable_reads {s : CreateTableStatement} (h : s.columns ≠ []) :
    Reads rest parseCreateTable s s.kinds anywhere := by
  apply (expect_reads (by decide)).andThen
  apply (expectIdentifier_reads s.table).andThen
  exact (parenthesized_reads h parseColumnDefinition_reads).map

lemma parseCreateIndex_takes : Takes rest parseCreateIndex fun s text => text = s.kinds := by
  apply (expect_takes (by decide)).bind
  intro _ text₁ h₁
  apply expectIdentifier_takes.bind
  intro indexName text₂ h₂
  apply (expect_takes (by decide)).bind
  intro _ text₃ h₃
  apply expectIdentifier_takes.bind
  intro table text₄ h₄
  apply (expect_takes (by decide)).bind
  intro _ text₅ h₅
  apply expectIdentifier_takes.bind
  intro columnName text₆ h₆
  apply (expect_takes (by decide)).bind
  intro _ text₇ h₇
  apply Takes.pure
  rw [h₁, h₂, h₃, h₄, h₅, h₆, h₇]
  rfl

lemma parseCreateIndex_reads (s : CreateIndexStatement) :
    Reads rest parseCreateIndex s s.kinds anywhere := by
  apply (expect_reads (by decide)).andThen
  apply (expectIdentifier_reads s.indexName).andThen
  apply (expect_reads (by decide)).andThen
  apply (expectIdentifier_reads s.table).andThen
  apply (expect_reads (by decide)).andThen
  apply (expectIdentifier_reads s.columnName).andThen
  exact (expect_reads (by decide)).map

lemma parseStatement_takes : Takes rest parseStatement fun s text =>
    s.Shaped ∧ ∃ explicitAsc, text = s.kinds explicitAsc := by
  apply Takes.peek current_peeks
  intro token
  split
  · apply parseSelect_takes.bind
    intro s text ⟨hshaped, explicitAsc, h⟩
    apply Takes.pure
    exact ⟨hshaped, explicitAsc, by rw [h, List.append_nil]; rfl⟩
  · apply (expect_takes (by decide)).bind
    intro _ text₁ h₁
    apply Takes.peek current_peeks
    intro next
    split
    · apply parseCreateTable_takes.bind
      intro s text ⟨hshaped, h⟩
      apply Takes.pure
      exact ⟨hshaped, false, by rw [h₁, h, List.append_nil]; rfl⟩
    · apply parseCreateIndex_takes.bind
      intro s text h
      apply Takes.pure
      exact ⟨trivial, false, by rw [h₁, h, List.append_nil]; rfl⟩
    · exact Takes.throw
  · apply parseInsert_takes.bind
    intro s text ⟨hshaped, h⟩
    apply Takes.pure
    exact ⟨hshaped, false, by rw [h, List.append_nil]; rfl⟩
  · apply parseUpdate_takes.bind
    intro s text ⟨hshaped, h⟩
    apply Takes.pure
    exact ⟨hshaped, false, by rw [h, List.append_nil]; rfl⟩
  · apply parseDelete_takes.bind
    intro s text ⟨hshaped, h⟩
    apply Takes.pure
    exact ⟨hshaped, false, by rw [h, List.append_nil]; rfl⟩
  · exact Takes.throw

lemma parseStatement_reads {s : Statement} (h : s.Shaped) (explicitAsc : Bool) :
    Reads rest parseStatement s (s.kinds explicitAsc) (among [.semicolon]) := by
  cases s with
  | select s =>
    apply Reads.peek_cons current_peeks
    intro token htoken
    rw [htoken]
    exact (parseSelect_reads h explicitAsc).map
  | createTable s =>
    apply Reads.peek_cons current_peeks
    intro token htoken
    rw [htoken]
    apply (expect_reads (by decide)).andThen
    apply Reads.peek_cons current_peeks
    intro next hnext
    rw [hnext]
    exact ((parseCreateTable_reads h).mono fun _ _ => trivial).map
  | createIndex s =>
    apply Reads.peek_cons current_peeks
    intro token htoken
    rw [htoken]
    apply (expect_reads (by decide)).andThen
    apply Reads.peek_cons current_peeks
    intro next hnext
    rw [hnext]
    exact ((parseCreateIndex_reads s).mono fun _ _ => trivial).map
  | insert s =>
    apply Reads.peek_cons current_peeks
    intro token htoken
    rw [htoken]
    exact ((parseInsert_reads h).mono fun _ _ => trivial).map
  | update s =>
    apply Reads.peek_cons current_peeks
    intro token htoken
    rw [htoken]
    exact (parseUpdate_reads h).map
  | delete s =>
    apply Reads.peek_cons current_peeks
    intro token htoken
    rw [htoken]
    exact (parseDelete_reads h).map

/-- The last token is the only `Eof`, as the lexer has it. -/
def EndsWithEof (tokens : List Token) : Prop :=
  ∃ front last, tokens = front ++ [last] ∧ last.kind = .eof ∧ ∀ token ∈ front, token.kind ≠ .eof

/-- `Eof` is expected without moving on. -/
lemma expectEof_cases (p : Parser) :
    (∃ more, p.rest = .eof :: more ∧ (expect .eof).run p = .ok () p) ∨
      ∀ p', (expect .eof).run p ≠ .ok () p' := by
  cases hget : p.tokens[p.position]? with
  | none =>
    refine .inr fun p' hrun => ?_
    simp only [expect, run_bind, current, hget, Outcome.andThen_panic] at hrun
    cases hrun
  | some token =>
    by_cases hkind : token.kind = .eof
    · refine .inl ⟨_, hkind ▸ rest_of_get hget, ?_⟩
      simp only [expect, run_bind, run_current hget, Outcome.andThen_ok, hkind, advance, ne_eq,
        not_true_eq_false, if_false, run_pure]
    · refine .inr fun p' hrun => ?_
      simp only [expect, run_bind, run_current hget, Outcome.andThen_ok, ne_eq, hkind,
        not_false_eq_true, if_true, run_throw] at hrun
      cases hrun

lemma rest_new (tokens : List Token) : (new tokens).rest = tokens.map Token.kind := rfl

/-- An accepted list of tokens is the text of its statement. -/
theorem parse_sound {tokens : List Token} (htokens : EndsWithEof tokens) {s : Statement}
    {p : Parser} (hrun : parse.run (new tokens) = .ok s p) :
    s.Shaped ∧ ∃ explicitAsc, tokens.map Token.kind = s.canonical explicitAsc := by
  rw [parse, run_bind, Outcome.andThen_eq_ok] at hrun
  have ⟨s', p₁, hstatement, hbehind⟩ := hrun
  rw [run_bind, Outcome.andThen_eq_ok] at hbehind
  have ⟨_, p₂, hsemicolon, hend⟩ := hbehind
  rw [run_bind, Outcome.andThen_eq_ok] at hend
  have ⟨_, p₃, heof, hreturn⟩ := hend
  cases hreturn
  have ⟨text, ⟨hshaped, explicitAsc, htext⟩, hrest⟩ := parseStatement_takes _ _ _ hstatement
  have ⟨text', htext', hrest'⟩ := expect_takes (by decide) _ _ _ hsemicolon
  refine ⟨hshaped, explicitAsc, ?_⟩
  cases expectEof_cases p₂ with
  | inr hnot => exact absurd heof (hnot p)
  | inl hok =>
    have ⟨more, hmore, _⟩ := hok
    have hall : tokens.map Token.kind = text ++ (text' ++ .eof :: more) := by
      rw [← rest_new, hrest, hrest', hmore]
    have ⟨front, last, hfront, hlast, hnoEof⟩ := htokens
    have hnil : more = [] := by
      have hinit : (tokens.map Token.kind).dropLast = front.map Token.kind := by
        rw [hfront, List.map_append, List.map_singleton, List.dropLast_concat]
      by_contra hne
      have hmem : TokenKind.eof ∈ (tokens.map Token.kind).dropLast := by
        rw [hall, ← List.append_assoc, List.dropLast_append_of_ne_nil (List.cons_ne_nil _ _),
          List.dropLast_cons_of_ne_nil hne]
        simp
      rw [hinit] at hmem
      have ⟨token, htoken, hkind⟩ := List.mem_map.mp hmem
      exact hnoEof token htoken hkind
    rw [hall, htext, htext', hnil]
    rfl

/-- The text of a statement is accepted as the statement. -/
theorem parse_complete {s : Statement} (h : s.Shaped) (explicitAsc : Bool) {tokens : List Token}
    (htokens : tokens.map Token.kind = s.canonical explicitAsc) :
    ∃ p, parse.run (new tokens) = .ok s p := by
  have hread : Reads rest (do
      let statement ← parseStatement
      expect .semicolon
      pure statement) s (s.kinds explicitAsc ++ [.semicolon]) (among [.eof]) := by
    apply (parseStatement_reads h explicitAsc).bind
    · exact (expect_reads (by decide)).map.mono fun _ _ => trivial
    · exact fun more _ => follows_cons (by decide)
  have hrest : (new tokens).rest = (s.kinds explicitAsc ++ [.semicolon]) ++ [.eof] := by
    rw [rest_new, htokens, Statement.canonical, List.append_assoc]
    rfl
  have ⟨p, hrun, hmore⟩ := hread _ _ hrest (follows_cons (by decide))
  cases expectEof_cases p with
  | inr hnot =>
    have ⟨token, hget, hkind, _⟩ := get_of_rest hmore
    refine absurd ?_ (hnot p)
    simp only [expect, run_bind, run_current hget, Outcome.andThen_ok, hkind, advance, ne_eq,
      not_true_eq_false, if_false, run_pure]
  | inl hok =>
    have ⟨_, _, heof⟩ := hok
    refine ⟨p, ?_⟩
    rw [run_bind, Outcome.andThen_eq_ok] at hrun
    have ⟨s', p₁, hstatement, hbehind⟩ := hrun
    rw [run_bind, Outcome.andThen_eq_ok] at hbehind
    have ⟨_, p₂, hsemicolon, hreturn⟩ := hbehind
    cases hreturn
    simp only [parse, run_bind, hstatement, Outcome.andThen_ok, hsemicolon, heof, run_pure]

/-- The parser loses nothing: a canonical text is parsed as its statement, and the tokens that
are parsed are those of the statement, up to an explicit `ASC`. -/
theorem parse_exact :
    (∀ (s : Statement) (tokens : List Token), s.Shaped →
      tokens.map Token.kind = s.canonical false → ∃ p, parse.run (new tokens) = .ok s p) ∧
    (∀ (tokens : List Token) (s : Statement) (p : Parser), EndsWithEof tokens →
      parse.run (new tokens) = .ok s p →
        s.Shaped ∧ ∃ explicitAsc, tokens.map Token.kind = s.canonical explicitAsc) :=
  ⟨fun _ _ h htokens => parse_complete h false htokens,
    fun _ _ _ htokens hrun => parse_sound htokens hrun⟩

/-- `DELETE FROM t;` -/
theorem parse_exact_delete :
    ∃ p, parse.run (new [⟨.delete, 0⟩, ⟨.from_, 7⟩, ⟨.identifier "t", 12⟩, ⟨.semicolon, 13⟩,
      ⟨.eof, 14⟩]) = .ok (.delete ⟨none, .table ⟨"t", none⟩, none⟩) p :=
  parse_exact.1 _ _ ⟨fun _ h => (by cases h), trivial, fun _ h => (by cases h)⟩ rfl

end Parser

end RdbRs
