import RdbRs.Lib.TokenErrors
import RdbRs.Query.ParserSpec

/-!
# Where the parser stops

For every parse function where it fails (`_points`): at a token that no text goes on at. Its error has the
offset of this token, save for three places.
-/

namespace RdbRs

open Exec

/-- A token that stands for a literal. -/
def TokenKind.IsLiteral : TokenKind → Prop
  | .integer _ | .stringLiteral _ | .null => True
  | _ => False

namespace Parser

variable {α β : Type}

/-- What is left of the tokens, with their places in the list. -/
def here (self : Parser) : List (Token × Nat) := self.tokens.zipIdx.drop self.position

/-- No reader stops in front of `k` and goes on at `k'`, unless an operator or a number is what it wants. -/
def like (k k' : TokenKind) : Prop := k' = k ∨ k' = .lt ∨ k.IsLiteral ∧ k' = .integer 0

lemma rest_eq_here (p : Parser) : p.rest = p.here.map fun t => t.1.kind := by
  have hfst : p.here.map Prod.fst = p.tokens.drop p.position := by
    rw [here, List.map_drop, List.zipIdx_map_fst]
  rw [rest, ← hfst, List.map_map]
  rfl

/-- The tokens in front of the parser; it blames one with its offset. -/
def source : Source ParseError Parser (Token × Nat) TokenKind where
  here := here
  kind t := t.1.kind
  place k := (⟨k, 0⟩, 0)
  rest := rest
  like := like
  blame t := .unexpectedToken t.1.offset
  kind_place _ := rfl
  rest_eq := rest_eq_here
  like_refl _ := .inl rfl

section Tokens

variable {p : Parser} {t : Token × Nat} {more : List (Token × Nat)}

lemma get_of_here (h : p.here = t :: more) :
    p.tokens[p.position]? = some t.1 ∧ t.2 = p.position ∧ (⟨p.tokens, p.position + 1⟩ : Parser).here = more := by
  have hlt : p.position < p.tokens.zipIdx.length := by
    by_contra hge
    rw [here, List.drop_eq_nil_of_le (by omega)] at h
    cases h
  rw [here, List.drop_eq_getElem_cons hlt, List.getElem_zipIdx] at h
  cases h
  rw [List.length_zipIdx] at hlt
  exact ⟨List.getElem?_eq_getElem hlt, Nat.zero_add _, rfl⟩

lemma get_of_here_nil (h : p.here = []) : p.tokens[p.position]? = none := by
  rw [here, List.drop_eq_nil_iff, List.length_zipIdx] at h
  exact List.getElem?_eq_none h

lemma current_looks : Looks source current Prod.fst := by
  constructor
  · intro p t more hhere
    have ⟨hget, _, _⟩ := get_of_here hhere
    exact run_current hget
  · intro p hhere
    simp only [current, get_of_here_nil hhere]

/-- The text of one token. -/
lemma text_singleton {text : List (Token × Nat)} {k : TokenKind} (h : text.map source.kind = [k]) :
    ∃ t, text = [t] ∧ t.1.kind = k := List.map_eq_singleton_iff.mp h

end Tokens

/-! ### Single tokens -/

/-- A token whose kind no operator and no number is like. -/
def Fixed (k : TokenKind) : Prop := k ≠ .lt ∧ k ≠ .integer 0

instance : DecidablePred Fixed := fun k => inferInstanceAs (Decidable (k ≠ .lt ∧ k ≠ .integer 0))

lemma fixed_identifier {name : String} : Fixed (.identifier name) := ⟨nofun, nofun⟩

section Single

variable {W : List (Token × Nat) → Token × Nat → ParseError → Prop} {k k' kind : TokenKind}

lemma like_ne (hfixed : Fixed kind) (hlike : like k k') (hne : k ≠ kind) : k' ≠ kind := by
  intro heq
  rw [heq] at hlike
  cases hlike with
  | inl hsame => exact hne hsame.symm
  | inr hother =>
    cases hother with
    | inl hlt => exact hfixed.1 hlt
    | inr hinteger => exact hfixed.2 hinteger.2

/-- A reader of one token, which is blamed if it has no value, or not where `W` says so. -/
lemma single_points {x : Exec ParseError Parser α} {read : TokenKind → Option α}
    (hsome : ∃ k a, read k = some a)
    (hnil : ∀ p : Parser, p.tokens[p.position]? = none → x.run p = .panic)
    (hok : ∀ (p : Parser) token a, p.tokens[p.position]? = some token → read token.kind = some a →
      x.run p = .ok a ⟨p.tokens, p.position + 1⟩)
    (herr : ∀ (p : Parser) token, p.tokens[p.position]? = some token → read token.kind = none →
      ∃ e p', x.run p = .err e p' ∧ ((e = .unexpectedToken token.offset ∧
        ∀ k, like token.kind k → read k = none) ∨ W [] (token, p.position) e)) :
    Points source (fun k => read k ≠ none) x (fun a text => ∃ k, read k = some a ∧ text = [k]) W := by
  have hinhabited : ∃ a text, ∃ k, read k = some a ∧ text = [k] := by
    have ⟨k, a, hk⟩ := hsome
    exact ⟨a, [k], k, hk, rfl⟩
  have hstuck (k : TokenKind) (hnone : read k = none) : Stuck rest x [] k := by
    intro q more₂ a₂ q' hrest hrun
    have ⟨token, hget, hkind, _⟩ := get_of_rest hrest
    rw [← hkind] at hnone
    have ⟨e, p', herrRun, _⟩ := herr q token hget hnone
    rw [herrRun] at hrun
    cases hrun
  refine ⟨hinhabited, fun p => ?_⟩
  cases hhere : p.here with
  | nil =>
    have hpanic := hnil p (get_of_here_nil hhere)
    constructor
    · intro a p' hrun
      rw [hpanic] at hrun
      cases hrun
    · intro e p' hrun
      rw [hpanic] at hrun
      cases hrun
  | cons t more =>
    have ⟨hget, hplace, hmore⟩ := get_of_here hhere
    cases hread : read t.1.kind with
    | some value =>
      have hvalue := hok p t.1 value hget hread
      constructor
      · intro a p' hrun
        rw [hvalue] at hrun
        cases hrun
        refine ⟨[t], ?_, ?_⟩
        · show p.here = t :: (⟨p.tokens, p.position + 1⟩ : Parser).here
          rw [hhere, hmore]
        · intro u more' _
          refine ⟨fun hnil => absurd hnil (List.cons_ne_nil _ _), ?_⟩
          intro k _ q more₂ a₂ q' hrest hrun₂
          have ⟨token, hget₂, hkind, hrest₂⟩ := get_of_rest hrest
          have hread₂ : read token.kind = some value := hkind ▸ hread
          rw [hok q token value hget₂ hread₂] at hrun₂
          cases hrun₂
          exact ⟨rfl, hrest₂⟩
      · intro e p' hrun
        rw [hvalue] at hrun
        cases hrun
    | none =>
      have ⟨e', q, herrRun, hcase⟩ := herr p t.1 hget hread
      constructor
      · intro a p' hrun
        rw [herrRun] at hrun
        cases hrun
      · intro e p' hrun
        rw [herrRun] at hrun
        cases hrun
        rw [← hplace] at hcase
        refine ⟨[], t, more, hhere, fun _ hfirst => hfirst hread, hinhabited, hstuck _ hread, ?_⟩
        exact hcase.imp (fun ⟨he, hall⟩ => ⟨he, fun k hk => hstuck k (hall k hk)⟩) id

/-- A call that takes the next token if it has a value, and blames it otherwise. -/
lemma expectValue_points {decode : TokenKind → Option α} (hne : decode .eof = none)
    (hlike : ∀ k k', like k k' → decode k = none → decode k' = none) (hsome : ∃ k a, decode k = some a) :
    Points source (fun k => decode k ≠ none) (expectValue decode)
      (fun a text => ∃ k, decode k = some a ∧ text = [k]) W := by
  apply single_points hsome
  · intro p hget
    simp only [expectValue, run_bind, current, hget, Outcome.andThen_panic]
  · intro p token a hget hdecode
    have hkind : token.kind ≠ .eof := by
      intro heof
      rw [heof, hne] at hdecode
      cases hdecode
    simp only [expectValue, run_bind, run_current hget, Outcome.andThen_ok, hdecode, run_advance hget hkind,
      run_pure]
  · intro p token hget hdecode
    refine ⟨.unexpectedToken token.offset, p, ?_, .inl ⟨rfl, fun k hk => hlike _ k hk hdecode⟩⟩
    simp only [expectValue, run_bind, run_current hget, Outcome.andThen_ok, hdecode, run_throw]

lemma expect_eq (kind : TokenKind) :
    expect kind = expectValue fun k => if k = kind then some () else none := by
  apply congrArg Exec.mk
  funext p
  cases hget : p.tokens[p.position]? with
  | none => simp only [current, hget, Outcome.andThen_panic]
  | some token =>
    simp only [run_current hget, Outcome.andThen_ok]
    by_cases hkind : token.kind = kind
    · rw [if_neg (not_not.mpr hkind), if_pos hkind]
      show advance.run p = (advance.run p).andThen fun _ p' => .ok () p'
      cases advance.run p <;> rfl
    · rw [if_pos hkind, if_neg hkind]

lemma expect_points (hne : kind ≠ .eof) (hfixed : Fixed kind) :
    Points source (fun k => k = kind) (expect kind) (fun _ text => text = [kind]) W := by
  have hlike (k k' : TokenKind) (hk : like k k') (hnone : (if k = kind then some () else none) = none) :
      (if k' = kind then some () else none) = none := by
    have hkind : k ≠ kind := by
      intro heq
      rw [if_pos heq] at hnone
      cases hnone
    exact if_neg (like_ne hfixed hk hkind)
  have hpoints := expectValue_points (W := W) (if_neg hne.symm) hlike ⟨kind, (), if_pos rfl⟩
  rw [expect_eq]
  apply (hpoints.conseq ?_).narrow
  · intro k hk
    rw [if_pos hk]
    exact Option.some_ne_none ()
  · intro _ text ⟨k, hk, htext⟩
    by_cases hkind : k = kind
    · rw [htext, hkind]
    · rw [if_neg hkind] at hk
      cases hk

/-- A token that names something. -/
def IsIdentifier (k : TokenKind) : Prop := ∃ name, k = .identifier name

lemma expectIdentifier_points :
    Points source IsIdentifier expectIdentifier (fun name text => text = [.identifier name]) W := by
  apply ((expectValue_points rfl ?_ ⟨.identifier "", "", rfl⟩).conseq ?_).narrow
  · intro k ⟨name, hk⟩
    rw [hk]
    exact Option.some_ne_none name
  · intro k k' hk hnone
    rcases hk with hsame | hlt | ⟨_, hinteger⟩
    · rwa [hsame]
    · rw [hlt]
    · rw [hinteger]
  · intro name text ⟨k, hdecode, htext⟩
    cases k <;> cases hdecode
    exact htext

lemma expectLiteral_points :
    Points source TokenKind.IsLiteral expectLiteral (fun literal text => text = [literal.kind]) W := by
  apply ((expectValue_points rfl ?_ ⟨.null, .null, rfl⟩).conseq ?_).narrow
  · intro k hk
    cases k <;> first | exact hk.elim | exact Option.some_ne_none _
  · intro k k' hk hnone
    rcases hk with hsame | hlt | ⟨hliteral, _⟩
    · rwa [hsame]
    · rw [hlt]
    · cases k <;> first | exact hliteral.elim | cases hnone
  · intro literal text ⟨k, hdecode, htext⟩
    cases k <;> cases hdecode <;> exact htext

lemma parseDataType_points :
    Points source (fun _ => False) parseDataType (fun dataType text => text = [dataType.kind]) W := by
  apply ((expectValue_points rfl ?_ ⟨.null, .null, rfl⟩).conseq ?_).narrow
  · exact fun k hfalse => hfalse.elim
  · intro k k' hk hnone
    rcases hk with hsame | hlt | ⟨_, hinteger⟩
    · rwa [hsame]
    · rw [hlt]
    · rw [hinteger]
  · intro dataType text ⟨k, hdecode, htext⟩
    cases k <;> cases hdecode <;> exact htext

end Single

/-! ### Loops and optional clauses -/

section Loops

variable {W : List (Token × Nat) → Token × Nat → ParseError → Prop} {kind : TokenKind}
  {first : TokenKind → Prop} {T : α → List TokenKind → Prop}

/-- `if self.current().kind == kind { .. }`. -/
lemma ifNext_points {x : Exec ParseError Parser α} {a : α} (kind : TokenKind) (hfixed : Fixed kind)
    (hx : Points source (fun k => k = kind) x T W) :
    Points source (fun k => k = kind) (do
      let token ← current
      if token.kind = kind then x else pure a) T W := by
  apply Points.peek (a := a) current_looks _ (fun _ => True) hx.inhabited
  · intro t t' p b p' hkind hrun
    have heq : t'.1.kind = t.1.kind := hkind
    rwa [heq] at hrun
  · intro t hkind
    refine ⟨fun k => k = kind, hkind, ?_⟩
    rw [if_pos (show t.1.kind = kind from hkind)]
    exact hx
  · intro p t more _ hkind _
    rw [if_neg (show ¬ t.1.kind = kind from hkind), run_pure]
  · intro p t more _ _ hfalse
    exact absurd trivial hfalse
  · intro k k' hk hne
    exact ⟨like_ne hfixed hk hne, fun _ => trivial⟩

lemma optionalClause_points {clause : Exec ParseError Parser α} (kind : TokenKind) (hne : kind ≠ .eof)
    (hfixed : Fixed kind)
    (htakes : Takes rest clause T)
    (hclause : ∀ t, t.1.kind = kind → Points source first clause T fun text => W (t :: text)) :
    Points source (fun k => k = kind) (optionalClause kind clause) (ClauseText kind T) W := by
  apply ifNext_points kind hfixed
  apply Points.bind (expect_takes hne) (expect_points hne hfixed)
  intro _ text htext
  have ⟨t, hsingle, hkind⟩ := text_singleton htext
  rw [hsingle]
  apply Points.bind htakes (hclause t hkind)
  intro a text' hT
  apply Points.pure
  refine ⟨text'.map source.kind, hT, ?_⟩
  rw [List.append_nil, List.map_singleton, List.singleton_append, ← hkind]
  rfl

/-- What a round of a loop does behind its first token, the loop does. -/
lemma whileNext_points {step : β → Exec ParseError Parser β} (I : β → List TokenKind → Prop)
    (hne : kind ≠ .eof) (hfixed : Fixed kind) (hany : ∀ acc, Takes rest (step acc) fun _ _ => True)
    (htakes : ∀ acc text, I acc text →
      Takes rest (step acc) fun acc' text' => I acc' (text ++ kind :: text'))
    (hstep : ∀ acc pre t, I acc (pre.map source.kind) → t.1.kind = kind →
      Points source first (step acc) (fun acc' text' => I acc' (pre.map source.kind ++ kind :: text'))
        fun text' => W (pre ++ t :: text'))
    {init : β} {pre : List (Token × Nat)} (h : I init (pre.map source.kind)) :
    Points source (fun k => k = kind) (whileNext kind step init)
      (fun acc text' => I acc (pre.map source.kind ++ text')) fun text' => W (pre ++ text') := by
  apply Points.whileLoop (W := W) (fun k => k = kind) current_looks (fun _ => decide_eq_true_iff)
  · exact fun k k' hk hkind => like_ne hfixed hk hkind
  · exact rest_length_lt
  · intro acc p acc' p' hrun
    have hround : Takes rest (do
        expect kind
        step acc) fun _ text => 0 < text.length := by
      apply (expect_takes hne).bind
      intro _ text htext
      apply (hany acc).conseq
      intro _ text' _
      rw [htext]
      exact Nat.succ_pos _
    have ⟨text, hpos, hrest⟩ := hround p acc' p' hrun
    show p'.rest.length < p.rest.length
    rw [hrest, List.length_append]
    omega
  · intro acc text hI
    apply (expect_takes hne).bind
    intro _ text' htext'
    rw [htext']
    exact htakes acc text hI
  · intro acc pre hI
    apply Points.bind (expect_takes hne) (expect_points hne hfixed)
    intro _ text htext
    have ⟨t, hsingle, hkind⟩ := text_singleton htext
    have hstepAt := hstep acc pre t hI hkind
    rw [hsingle, List.map_singleton, show source.kind t = kind from hkind]
    exact hstepAt
  · exact h

lemma commaSeparated_points {item : Exec ParseError Parser α} {P : α → Prop} {text : α → List TokenKind}
    (htakes : Takes rest item fun a t => P a ∧ t = text a)
    (hitem : ∀ W, Points source first item (fun a t => P a ∧ t = text a) W) :
    Points source first (commaSeparated item) (fun items t =>
      (items ≠ [] ∧ ∀ a ∈ items, P a) ∧ t = commaKinds text items) W := by
  let I (items : List α) (t : List TokenKind) := (items ≠ [] ∧ ∀ a ∈ items, P a) ∧ t = commaKinds text items
  have hadd {items : List α} {t : List TokenKind} {next : α} {t' : List TokenKind} (hI : I items t)
      (hnext : P next ∧ t' = text next) : I (items ++ [next]) (t ++ .comma :: t') := by
    have ⟨⟨hne, hall⟩, ht⟩ := hI
    have ⟨hP, ht'⟩ := hnext
    refine ⟨⟨by simp, ?_⟩, ?_⟩
    · intro a ha
      cases List.mem_append.mp ha with
      | inl hold => exact hall a hold
      | inr hnew => exact List.mem_singleton.mp hnew ▸ hP
    · rw [commaKinds_concat hne, ht, ht']
  apply Points.bind htakes (hitem W)
  intro first t ⟨hfirst, ht⟩
  apply whileNext_points I (by decide) (by decide)
  · intro items
    exact htakes.bind fun _ _ _ => Takes.pure trivial
  · intro items t' hI
    apply htakes.bind
    intro next t'' hnext
    apply Takes.pure
    rw [List.append_nil]
    exact hadd hI hnext
  · intro items pre t' hI hcomma
    apply Points.bind htakes (hitem _)
    intro next t'' hnext
    apply Points.pure
    rw [List.append_nil]
    exact hadd hI hnext
  · refine ⟨⟨by simp, ?_⟩, ?_⟩
    · intro a ha
      exact List.mem_singleton.mp ha ▸ hfirst
    · rw [ht, commaKinds, List.flatMap_nil, List.append_nil]

end Loops

/-! ### References -/

section References

variable {W : List (Token × Nat) → Token × Nat → ParseError → Prop}

lemma parseColumnReference_points :
    Points source IsIdentifier parseColumnReference (fun c text => text = c.kinds) W := by
  apply Points.bind expectIdentifier_takes expectIdentifier_points
  intro first text₁ h₁
  apply ifNext_points .dot (by decide)
  apply Points.bind (expect_takes (by decide)) (expect_points (by decide) (by decide))
  intro _ text₂ h₂
  apply Points.bind expectIdentifier_takes expectIdentifier_points
  intro column text₃ h₃
  apply Points.pure
  rw [h₁, h₂, h₃]
  rfl

lemma parseTableReference_points :
    Points source IsIdentifier parseTableReference (fun t text => text = t.kinds) W := by
  apply Points.bind expectIdentifier_takes expectIdentifier_points
  intro name text₁ h₁
  have halias : Points source IsIdentifier (do
      let alias_ ← expectIdentifier
      pure (⟨name, some alias_⟩ : TableReference)) (fun t text => text₁.map source.kind ++ text = t.kinds)
        fun text => W (text₁ ++ text) := by
    apply Points.bind expectIdentifier_takes expectIdentifier_points
    intro alias_ text₂ h₂
    apply Points.pure
    rw [h₁, h₂]
    rfl
  apply Points.peek (a := (⟨name, none⟩ : TableReference)) current_looks IsIdentifier
    (fun _ => True) halias.inhabited
  · intro t t' p b p' hkind hrun
    have heq : t'.1.kind = t.1.kind := hkind
    rwa [heq] at hrun
  · intro t hidentifier
    refine ⟨IsIdentifier, hidentifier, ?_⟩
    have ⟨alias_, hkind⟩ := hidentifier
    rw [show t.1.kind = .identifier alias_ from hkind]
    exact halias
  · intro p t more _ hidentifier _
    split
    · next alias_ hkind => exact absurd ⟨alias_, hkind⟩ hidentifier
    · rfl
  · intro p t more _ _ hfalse
    exact absurd trivial hfalse
  · intro k k' hk hne
    refine ⟨?_, fun _ => trivial⟩
    intro ⟨alias_, hkind⟩
    exact like_ne fixed_identifier hk (fun h => hne ⟨alias_, h⟩) hkind

lemma parseJoin_points (left : FromClause) :
    Points source IsIdentifier (parseJoin left) (fun source text =>
      ∃ on table, source = .innerJoin left on (.table table) ∧ text = joinKinds on table.kinds) W := by
  apply Points.bind parseTableReference_takes parseTableReference_points
  intro joinTable text₁ h₁
  apply Points.bind (expect_takes (by decide)) (expect_points (by decide) (by decide))
  intro _ text₂ h₂
  apply Points.bind parseColumnReference_takes parseColumnReference_points
  intro leftOn text₃ h₃
  apply Points.bind (expect_takes (by decide)) (expect_points (by decide) (by decide))
  intro _ text₄ h₄
  apply Points.bind parseColumnReference_takes parseColumnReference_points
  intro rightOn text₅ h₅
  apply Points.pure
  refine ⟨⟨leftOn, rightOn⟩, joinTable, rfl, ?_⟩
  rw [h₁, h₂, h₃, h₄, h₅, List.append_nil]
  rfl

lemma parseFromClause_points : Points source IsIdentifier parseFromClause
    (fun source text => source.LeftNested ∧ text = source.kinds) W := by
  apply Points.bind parseTableReference_takes parseTableReference_points
  intro reference text htext
  apply whileNext_points (fun (source : FromClause) text => source.LeftNested ∧ text = source.kinds)
    (by decide) (by decide)
  · exact fun left => (parseJoin_takes left).conseq fun _ _ _ => trivial
  · intro left text ⟨hleft, htext⟩
    apply (parseJoin_takes left).conseq
    intro source text' ⟨on, table, hsource, htext'⟩
    subst hsource
    refine ⟨⟨hleft, table, rfl⟩, ?_⟩
    rw [htext, htext']
    rfl
  · intro left pre t ⟨hleft, htext⟩ _
    apply (parseJoin_points left).conseq
    intro source text' ⟨on, table, hsource, htext'⟩
    subst hsource
    refine ⟨⟨hleft, table, rfl⟩, ?_⟩
    rw [htext, htext']
    rfl
  · exact ⟨trivial, htext⟩

end References

/-! ### Expressions -/

/-- The tokens that a comparison stands behind. -/
def connectives : List TokenKind := [.where_, .and, .or]

/-- What ends in a column to be compared. -/
def AtOperator (text : List TokenKind) : Prop :=
  ∃ front k c, k ∈ connectives ∧ text = front ++ k :: ColumnReference.kinds c

section Expressions

variable {W : List (Token × Nat) → Token × Nat → ParseError → Prop}

lemma AtOperator.append {text : List TokenKind} (h : AtOperator text) (pre : List TokenKind) :
    AtOperator (pre ++ text) := by
  have ⟨front, k, c, hk, htext⟩ := h
  exact ⟨pre ++ front, k, c, hk, by rw [htext, List.append_assoc]⟩

/-- A column, or what ends in one to be compared. -/
def Compared (text : List TokenKind) : Prop := (∃ c, text = ColumnReference.kinds c) ∨ AtOperator text

lemma Compared.behind {text : List TokenKind} (h : Compared text) (pre : List TokenKind) {k : TokenKind}
    (hk : k ∈ connectives) : AtOperator (pre ++ k :: text) := by
  cases h with
  | inl hcolumn =>
    have ⟨c, htext⟩ := hcolumn
    exact ⟨pre, k, c, hk, by rw [htext]⟩
  | inr hat =>
    have hbehind := hat.append (pre ++ [k])
    rwa [List.append_assoc, List.singleton_append] at hbehind

/-- The operator a token stands for. -/
def asOperator : TokenKind → Option ComparisonOperator
  | .eq => some .equal
  | .notEq => some .notEqual
  | .lt => some .lessThan
  | .gt => some .greaterThan
  | .ltEq => some .lessThanOrEqual
  | .gtEq => some .greaterThanOrEqual
  | _ => none

lemma run_comparisonOperator (k : TokenKind) (p : Parser) : (comparisonOperator k).run p =
    match asOperator k with
    | some operator => .ok operator p
    | none => .err (.unexpectedToken p.position) p := by
  cases k <;> rfl

/-- The error of a token that does not compare is its place in the list. -/
lemma parseOperator_points (hW : ∀ t : Token × Nat, W [] t (.unexpectedToken t.2)) :
    Points source (fun _ => False) parseOperator (fun operator text => text = [operator.kind]) W := by
  have hsingle : Points source (fun k => asOperator k ≠ none) parseOperator
      (fun operator text => ∃ k, asOperator k = some operator ∧ text = [k]) W := by
    apply single_points ⟨.eq, .equal, rfl⟩
    · intro p hget
      simp only [parseOperator, run_bind, current, hget, Outcome.andThen_panic]
    · intro p token operator hget hoperator
      have hne : token.kind ≠ .eof := by
        intro heof
        rw [heof] at hoperator
        cases hoperator
      simp only [parseOperator, run_bind, run_current hget, Outcome.andThen_ok, run_comparisonOperator,
        hoperator, run_advance hget hne, run_pure]
    · intro p token hget hoperator
      refine ⟨.unexpectedToken p.position, p, ?_, .inr (hW (token, p.position))⟩
      simp only [parseOperator, run_bind, run_current hget, Outcome.andThen_ok, run_comparisonOperator,
        hoperator, Outcome.andThen_err]
  apply (hsingle.conseq ?_).narrow
  · exact fun k hfalse => hfalse.elim
  · rintro operator text ⟨k, hk, htext⟩
    cases k <;> cases hk <;> exact htext

lemma parseComparisonExpression_points
    (hW : ∀ text t, Compared (text.map source.kind) → W text t (.unexpectedToken t.2)) :
    Points source IsIdentifier parseComparisonExpression
      (fun e text => e.IsComparison ∧ text = e.kinds) W := by
  apply Points.bind parseColumnReference_takes parseColumnReference_points
  intro column text₁ h₁
  apply Points.bind parseOperator_takes
  · apply parseOperator_points
    intro t
    apply hW
    left
    exact ⟨column, by rw [List.append_nil, h₁]⟩
  · intro operator text₂ h₂
    apply Points.bind expectLiteral_takes expectLiteral_points
    intro literal text₃ h₃
    apply Points.pure
    refine ⟨⟨column, operator, literal, rfl⟩, ?_⟩
    rw [h₁, h₂, h₃, List.append_nil]
    rfl

lemma parseAndExpression_points
    (hW : ∀ text t, Compared (text.map source.kind) → W text t (.unexpectedToken t.2)) :
    Points source IsIdentifier parseAndExpression (fun e text => e.IsAndChain ∧ text = e.kinds) W := by
  apply Points.bind parseComparisonExpression_takes (parseComparisonExpression_points hW)
  intro left text ⟨hleft, htext⟩
  apply whileNext_points (fun (e : Expression) text => e.IsAndChain ∧ text = e.kinds) (by decide) (by decide)
  · exact fun left => parseComparisonExpression_takes.bind fun _ _ _ => Takes.pure trivial
  · intro e text ⟨he, htext⟩
    apply parseComparisonExpression_takes.bind
    intro right text' ⟨hright, htext'⟩
    apply Takes.pure
    refine ⟨.and he hright, ?_⟩
    rw [htext, htext', List.append_nil]
    rfl
  · intro e pre t ⟨he, hpre⟩ hand
    apply Points.bind parseComparisonExpression_takes
    · apply parseComparisonExpression_points
      intro text u hcompared
      apply hW
      right
      rw [List.map_append, List.map_cons, show source.kind t = .and from hand]
      exact hcompared.behind _ (by decide)
    · intro right text' ⟨hright, htext'⟩
      apply Points.pure
      refine ⟨.and he hright, ?_⟩
      rw [hpre, htext', List.append_nil]
      rfl
  · exact ⟨.comparison hleft, htext⟩

lemma parseOrExpression_points
    (hW : ∀ text t, Compared (text.map source.kind) → W text t (.unexpectedToken t.2)) :
    Points source IsIdentifier parseOrExpression (fun e text => e.IsFilter ∧ text = e.kinds) W := by
  apply Points.bind parseAndExpression_takes (parseAndExpression_points hW)
  intro left text₁ ⟨hleft, h₁⟩
  apply ifNext_points .or (by decide)
  apply Points.bind (expect_takes (by decide)) (expect_points (by decide) (by decide))
  intro _ text₂ h₂
  apply Points.bind parseAndExpression_takes
  · apply parseAndExpression_points
    intro text t hcompared
    apply hW
    right
    rw [List.map_append, List.map_append, h₂]
    exact hcompared.behind _ (by decide)
  · intro right text₃ ⟨hright, h₃⟩
    apply Points.pure
    refine ⟨.inr ⟨left, right, hleft, hright, rfl⟩, ?_⟩
    rw [h₁, h₂, h₃, List.append_nil]
    rfl

end Expressions

/-! ### Clauses -/

section Clauses

variable {W : List (Token × Nat) → Token × Nat → ParseError → Prop}

/-- The tokens a projection begins with. -/
def beginsProjection (k : TokenKind) : Prop :=
  k = .asterisk ∨ IsIdentifier k ∨ k = .count ∨ k = .sum

lemma like_beginsProjection {k k' : TokenKind} (hk : like k k') (hne : ¬ beginsProjection k) :
    ¬ beginsProjection k' := by
  have ⟨hasterisk, hothers⟩ := not_or.mp hne
  have ⟨hidentifier, hothers⟩ := not_or.mp hothers
  have ⟨hcount, hsum⟩ := not_or.mp hothers
  intro h
  rcases h with h | ⟨name, h⟩ | h | h
  · exact like_ne (by decide) hk hasterisk h
  · exact like_ne fixed_identifier hk (fun hname => hidentifier ⟨name, hname⟩) h
  · exact like_ne (by decide) hk hcount h
  · exact like_ne (by decide) hk hsum h

lemma parseProjection_points :
    Points source beginsProjection parseProjection (fun p text => p.Shaped ∧ text = p.kinds) W := by
  apply Points.peek (a := Projection.all) current_looks _ (fun _ => False) ⟨.all, _, trivial, rfl⟩
  · intro t t' p b p' hkind hrun
    have heq : t'.1.kind = t.1.kind := hkind
    rw [heq] at hrun
    split at hrun
    · exact hrun
    · exact hrun
    · exact hrun
    · exact hrun
    · cases hrun
  · intro t htaken
    rcases htaken with h | ⟨name, h⟩ | h | h
    · refine ⟨fun k => k = .asterisk, h, ?_⟩
      rw [show t.1.kind = .asterisk from h]
      apply Points.bind (expect_takes (by decide)) (expect_points (by decide) (by decide))
      intro _ text h
      apply Points.pure
      exact ⟨trivial, by rw [h]; rfl⟩
    · refine ⟨IsIdentifier, ⟨name, h⟩, ?_⟩
      rw [show t.1.kind = .identifier name from h]
      apply Points.bind parseColumnReference_takes parseColumnReference_points
      intro column text h
      apply Points.pure
      exact ⟨⟨column, rfl⟩, by rw [h, List.append_nil]; rfl⟩
    · refine ⟨fun k => k = .count, h, ?_⟩
      rw [show t.1.kind = .count from h]
      apply Points.bind (expect_takes (by decide)) (expect_points (by decide) (by decide))
      intro _ text₁ h₁
      apply Points.bind (expect_takes (by decide)) (expect_points (by decide) (by decide))
      intro _ text₂ h₂
      apply Points.bind (expect_takes (by decide)) (expect_points (by decide) (by decide))
      intro _ text₃ h₃
      apply Points.bind (expect_takes (by decide)) (expect_points (by decide) (by decide))
      intro _ text₄ h₄
      apply Points.pure
      exact ⟨trivial, by rw [h₁, h₂, h₃, h₄]; rfl⟩
    · refine ⟨fun k => k = .sum, h, ?_⟩
      rw [show t.1.kind = .sum from h]
      apply Points.bind (expect_takes (by decide)) (expect_points (by decide) (by decide))
      intro _ text₁ h₁
      apply Points.bind (expect_takes (by decide)) (expect_points (by decide) (by decide))
      intro _ text₂ h₂
      apply Points.bind parseColumnReference_takes parseColumnReference_points
      intro column text₃ h₃
      apply Points.bind (expect_takes (by decide)) (expect_points (by decide) (by decide))
      intro _ text₄ h₄
      apply Points.pure
      exact ⟨trivial, by rw [h₁, h₂, h₃, h₄, List.append_nil]; rfl⟩
  · exact fun _ _ _ _ _ hfalse => hfalse.elim
  · intro p t more _ htaken _
    split
    · next h => exact absurd (.inl h) htaken
    · next name h => exact absurd (.inr (.inl ⟨name, h⟩)) htaken
    · next h => exact absurd (.inr (.inr (.inl h))) htaken
    · next h => exact absurd (.inr (.inr (.inr h))) htaken
    · exact ⟨_, p, rfl, .inl rfl⟩
  · exact fun k k' hk hne => ⟨like_beginsProjection hk hne, id⟩

lemma parseOrderBy_points : Points source IsIdentifier parseOrderBy
    (fun o text => ∃ explicitAsc, text = o.kinds explicitAsc) W := by
  apply Points.bind parseColumnReference_takes parseColumnReference_points
  intro column text₁ h₁
  have hdirection {direction : SortDirection} {kind : TokenKind} (hne : kind ≠ .eof) (hfixed : Fixed kind)
      (hkinds : ∀ text : List TokenKind, text = column.kinds ++ [kind] →
        ∃ explicitAsc, text = (⟨column, direction⟩ : OrderBy).kinds explicitAsc) :
      Points source (fun k => k = kind) (do
        expect kind
        pure (⟨column, direction⟩ : OrderBy))
          (fun o text => ∃ explicitAsc, text₁.map source.kind ++ text = o.kinds explicitAsc)
            fun text => W (text₁ ++ text) := by
    apply Points.bind (expect_takes hne) (expect_points hne hfixed)
    intro _ text₂ h₂
    apply Points.pure
    apply hkinds
    rw [h₁, h₂]
    rfl
  have hasc := @hdirection .asc .asc (by decide) (by decide) fun text h => ⟨true, h⟩
  have hdesc := @hdirection .desc .desc (by decide) (by decide) fun text h => ⟨true, h⟩
  apply Points.peek (a := (⟨column, .asc⟩ : OrderBy)) current_looks (fun k => k = .asc ∨ k = .desc)
    (fun _ => True) hasc.inhabited
  · intro t t' p b p' hkind hrun
    have heq : t'.1.kind = t.1.kind := hkind
    rwa [heq] at hrun
  · intro t htaken
    cases htaken with
    | inl h =>
      refine ⟨fun k => k = .asc, h, ?_⟩
      rw [show t.1.kind = .asc from h]
      exact hasc
    | inr h =>
      refine ⟨fun k => k = .desc, h, ?_⟩
      rw [show t.1.kind = .desc from h]
      exact hdesc
  · intro p t more _ htaken _
    split
    · next h => exact absurd (.inl h) htaken
    · next h => exact absurd (.inr h) htaken
    · rfl
  · intro p t more _ _ hfalse
    exact absurd trivial hfalse
  · intro k k' hk hne
    have ⟨hasc, hdesc⟩ := not_or.mp hne
    exact ⟨not_or.mpr ⟨like_ne (by decide) hk hasc, like_ne (by decide) hk hdesc⟩, fun _ => trivial⟩

/-- The number of a limit. -/
def asLimit : TokenKind → Option Nat
  | .integer v => if v < 0 then none else some v.toInt.toNat
  | _ => none

lemma run_expectLiteral {p : Parser} {token : Token} {literal : Literal}
    (hget : p.tokens[p.position]? = some token) (hkind : token.kind = literal.kind) :
    expectLiteral.run p = .ok literal ⟨p.tokens, p.position + 1⟩ := by
  have hne : token.kind ≠ .eof := by
    rw [hkind]
    cases literal <;> exact nofun
  have htaken : (do
      advance
      pure literal : Exec ParseError Parser Literal).run p = .ok literal ⟨p.tokens, p.position + 1⟩ := by
    rw [run_bind, run_advance hget hne]
    rfl
  unfold expectLiteral expectValue
  rw [run_bind, run_current hget, Outcome.andThen_ok, hkind]
  cases literal <;> exact htaken

/-- The error of a literal that is no limit is the place behind it in the list. -/
lemma parseLimit_points
    (hW : ∀ t : Token × Nat, t.1.kind.IsLiteral → W [] t (.unexpectedToken (t.2 + 1))) :
    Points source (fun _ => False) parseLimit
      (fun n text => n ≤ i64Max ∧ text = [.integer (Int64.ofNat n)]) W := by
  have hsingle : Points source (fun k => asLimit k ≠ none) parseLimit
      (fun n text => ∃ k, asLimit k = some n ∧ text = [k]) W := by
    apply single_points ⟨.integer 0, 0, rfl⟩
    · intro p hget
      have hcurrent : current.run p = .panic := by simp only [current, hget]
      rw [parseLimit, run_bind, expectLiteral, expectValue, run_bind, hcurrent, Outcome.andThen_panic,
        Outcome.andThen_panic]
    · intro p token n hget hn
      unfold asLimit at hn
      split at hn
      · next v hkind =>
        by_cases hneg : v < 0
        · rw [if_pos hneg] at hn
          cases hn
        · rw [if_neg hneg] at hn
          cases hn
          simp only [parseLimit, run_bind, @run_expectLiteral p token (.integer v) hget hkind,
            Outcome.andThen_ok, run_gets, if_neg hneg, run_pure]
      · cases hn
    · intro p token hget hn
      by_cases hliteral : token.kind.IsLiteral
      · refine ⟨.unexpectedToken (p.position + 1), ⟨p.tokens, p.position + 1⟩, ?_,
          .inr (hW (token, p.position) hliteral)⟩
        cases hkind : token.kind with
        | integer v =>
          rw [hkind] at hn
          have hneg : v < 0 := by
            by_contra hneg
            rw [asLimit, if_neg hneg] at hn
            cases hn
          simp only [parseLimit, run_bind, @run_expectLiteral p token (.integer v) hget hkind,
            Outcome.andThen_ok, run_gets, if_pos hneg, run_throw]
        | stringLiteral value =>
          simp only [parseLimit, run_bind, @run_expectLiteral p token (.string value) hget hkind,
            Outcome.andThen_ok, run_gets, run_throw]
        | null =>
          simp only [parseLimit, run_bind, @run_expectLiteral p token .null hget hkind,
            Outcome.andThen_ok, run_gets, run_throw]
        | _ =>
          rw [hkind] at hliteral
          exact hliteral.elim
      · have hother {k : TokenKind} (hk : like token.kind k) : asLimit k = none := by
          rcases hk with hsame | hlt | ⟨hyes, _⟩
          · rwa [hsame]
          · rw [hlt]
            rfl
          · exact absurd hyes hliteral
        refine ⟨.unexpectedToken token.offset, p, ?_, .inl ⟨rfl, fun k hk => hother hk⟩⟩
        have hexpect : expectLiteral.run p = .err (.unexpectedToken token.offset) p := by
          unfold expectLiteral expectValue
          rw [run_bind, run_current hget, Outcome.andThen_ok]
          cases hkind : token.kind <;> first
            | rfl
            | (rw [hkind] at hliteral; exact absurd trivial hliteral)
        rw [parseLimit, run_bind, hexpect, Outcome.andThen_err]
  apply (hsingle.conseq ?_).narrow
  · exact fun k hfalse => hfalse.elim
  · rintro n text ⟨k, hk, htext⟩
    unfold asLimit at hk
    split at hk
    · next v =>
      by_cases hneg : v < 0
      · rw [if_pos hneg] at hk
        cases hk
      · rw [if_neg hneg] at hk
        cases hk
        obtain ⟨hle, hof⟩ := ofNat_toNat hneg
        exact ⟨hle, by rw [htext, hof]⟩
    · cases hk

end Clauses

/-! ### Statements -/

section Statements

variable {W : List (Token × Nat) → Token × Nat → ParseError → Prop}

/-- The two errors with a place in the list, which `W` allows where a column is to be compared and behind
`LIMIT`. -/
structure Admits (W : List (Token × Nat) → Token × Nat → ParseError → Prop) : Prop where
  operator : ∀ text t, AtOperator (text.map source.kind) → W text t (.unexpectedToken t.2)
  limit : ∀ text t, (∃ front, text.map source.kind = front ++ [.limit]) → t.1.kind.IsLiteral →
    W text t (.unexpectedToken (t.2 + 1))

lemma Admits.shift (h : Admits W) (pre : List (Token × Nat)) : Admits fun text => W (pre ++ text) := by
  constructor
  · intro text t hat
    apply h.operator
    rw [List.map_append]
    exact hat.append _
  · intro text t ⟨front, htext⟩
    apply h.limit
    exact ⟨pre.map source.kind ++ front, by rw [List.map_append, htext, List.append_assoc]⟩

lemma whereClause_points (hW : Admits W) :
    Points source (fun k => k = .where_) (optionalClause .where_ parseOrExpression) (fun filter text =>
      (∀ e ∈ filter, e.IsFilter) ∧ text = clauseKinds .where_ Expression.kinds filter) W := by
  have hclause (t : Token × Nat) (hwhere : t.1.kind = .where_) : Points source IsIdentifier parseOrExpression
      (fun e text => e.IsFilter ∧ text = e.kinds) fun text => W (t :: text) := by
    apply parseOrExpression_points
    intro text u hcompared
    apply hW.operator
    rw [List.map_cons, show source.kind t = .where_ from hwhere]
    exact hcompared.behind [] (by decide)
  have hpoints := optionalClause_points (W := W) .where_ (by decide) (by decide) parseOrExpression_takes hclause
  exact hpoints.conseq fun _ _ h => clauseText_iff.mp h

lemma groupByClause_points :
    Points source (fun k => k = .group) (optionalClause .group do
      expect .by_
      parseGroupBy) (fun groupBy text => (∀ columns ∈ groupBy, columns ≠ []) ∧
        text = clauseKinds .group (fun columns => .by_ :: commaKinds ColumnReference.kinds columns)
          groupBy) W := by
  have hcolumnTakes : Takes rest parseColumnReference fun c text => True ∧ text = c.kinds :=
    parseColumnReference_takes.conseq fun c text h => ⟨trivial, h⟩
  have hcolumn (W) : Points source IsIdentifier parseColumnReference (fun c text => True ∧ text = c.kinds) W :=
    parseColumnReference_points.conseq fun c text h => ⟨trivial, h⟩
  have hclause (W) : Points source (fun k => k = .by_) (do
      expect .by_
      parseGroupBy) (fun columns text => columns ≠ [] ∧
        text = .by_ :: commaKinds ColumnReference.kinds columns) W := by
    apply Points.bind (expect_takes (by decide)) (expect_points (by decide) (by decide))
    intro _ text h
    apply (commaSeparated_points hcolumnTakes hcolumn).conseq
    intro columns text' ⟨⟨hne, _⟩, h'⟩
    exact ⟨hne, by rw [h, h']; rfl⟩
  have hpoints := optionalClause_points (W := W) .group (by decide) (by decide) byGroupBy_takes
    fun _ _ => hclause _
  exact hpoints.conseq fun _ _ h => clauseText_iff.mp h

lemma orderByClause_points :
    Points source (fun k => k = .order) (optionalClause .order do
      expect .by_
      parseOrderBy) (fun orderBy text => ∃ explicitAsc,
        text = clauseKinds .order (fun o => .by_ :: o.kinds explicitAsc) orderBy) W := by
  have hclause (W) : Points source (fun k => k = .by_) (do
      expect .by_
      parseOrderBy) (fun o text => ∃ explicitAsc, text = .by_ :: o.kinds explicitAsc) W := by
    apply Points.bind (expect_takes (by decide)) (expect_points (by decide) (by decide))
    intro _ text h
    apply parseOrderBy_points.conseq
    intro o text' ⟨explicitAsc, h'⟩
    exact ⟨explicitAsc, by rw [h, h']; rfl⟩
  have hpoints := optionalClause_points (W := W) .order (by decide) (by decide) byOrderBy_takes
    fun _ _ => hclause _
  exact hpoints.conseq fun _ _ h => clauseText_order h

lemma limitClause_points (hW : Admits W) :
    Points source (fun k => k = .limit) (optionalClause .limit parseLimit) (fun limit text =>
      (∀ n ∈ limit, n ≤ i64Max) ∧
        text = clauseKinds .limit (fun n => [.integer (Int64.ofNat n)]) limit) W := by
  have hclause (t : Token × Nat) (hlimit : t.1.kind = .limit) : Points source (fun _ => False) parseLimit
      (fun n text => n ≤ i64Max ∧ text = [.integer (Int64.ofNat n)]) fun text => W (t :: text) := by
    apply parseLimit_points
    intro u hliteral
    apply hW.limit [t] u ⟨[], _⟩ hliteral
    rw [List.map_singleton, show source.kind t = .limit from hlimit, List.nil_append]
  have hpoints := optionalClause_points (W := W) .limit (by decide) (by decide) parseLimit_takes hclause
  exact hpoints.conseq fun _ _ h => clauseText_iff.mp h

lemma parseSelect_points (hW : Admits W) : Points source (fun k => k = .select) parseSelect
    (fun s text => s.Shaped ∧ ∃ explicitAsc, text = s.kinds explicitAsc) W := by
  apply Points.bind (expect_takes (by decide)) (expect_points (by decide) (by decide))
  intro _ text₁ h₁
  apply Points.bind (commaSeparated_takes parseProjection_takes)
    (commaSeparated_points parseProjection_takes fun _ => parseProjection_points)
  intro projections text₂ ⟨hprojections, h₂⟩
  apply Points.bind (expect_takes (by decide)) (expect_points (by decide) (by decide))
  intro _ text₃ h₃
  apply Points.bind parseFromClause_takes parseFromClause_points
  intro source text₄ ⟨hsource, h₄⟩
  have hW := (((hW.shift text₁).shift text₂).shift text₃).shift text₄
  apply Points.bind whereClause_takes (whereClause_points hW)
  intro filter text₅ ⟨hfilter, h₅⟩
  apply Points.bind groupByClause_takes groupByClause_points
  intro groupBy text₆ ⟨hgroupBy, h₆⟩
  apply Points.bind orderByClause_takes orderByClause_points
  intro orderBy text₇ ⟨explicitAsc, h₇⟩
  have hW := ((hW.shift text₅).shift text₆).shift text₇
  apply Points.bind limitClause_takes (limitClause_points hW)
  intro limit text₈ ⟨hlimit, h₈⟩
  apply Points.pure
  refine ⟨⟨hprojections, hsource, hfilter, hgroupBy, hlimit⟩, explicitAsc, ?_⟩
  rw [h₁, h₂, h₃, h₄, h₅, h₆, h₇, h₈, List.append_nil]
  rfl

/-- A list in parentheses. -/
lemma parenthesized_points {first : TokenKind → Prop} {item : Exec ParseError Parser α}
    {text : α → List TokenKind} (htakes : Takes rest item fun a t => t = text a)
    (hitem : ∀ W, Points source first item (fun a t => t = text a) W) :
    Points source (fun k => k = .leftParen) (do
      expect .leftParen
      let items ← commaSeparated item
      expect .rightParen
      pure items) (fun items t => items ≠ [] ∧
        t = .leftParen :: (commaKinds text items ++ [.rightParen])) W := by
  have htakes' : Takes rest item fun a t => True ∧ t = text a := htakes.conseq fun a t h => ⟨trivial, h⟩
  have hitem' (W) : Points source first item (fun a t => True ∧ t = text a) W :=
    (hitem W).conseq fun a t h => ⟨trivial, h⟩
  apply Points.bind (expect_takes (by decide)) (expect_points (by decide) (by decide))
  intro _ text₁ h₁
  apply Points.bind (commaSeparated_takes htakes') (commaSeparated_points htakes' hitem')
  intro items text₂ ⟨⟨hne, _⟩, h₂⟩
  apply Points.bind (expect_takes (by decide)) (expect_points (by decide) (by decide))
  intro _ text₃ h₃
  apply Points.pure
  exact ⟨hne, by rw [h₁, h₂, h₃]; rfl⟩

lemma parseInsert_points : Points source (fun k => k = .insert) parseInsert
    (fun s text => s.literals ≠ [] ∧ text = s.kinds) W := by
  apply Points.bind (expect_takes (by decide)) (expect_points (by decide) (by decide))
  intro _ text₁ h₁
  apply Points.bind (expect_takes (by decide)) (expect_points (by decide) (by decide))
  intro _ text₂ h₂
  apply Points.bind expectIdentifier_takes expectIdentifier_points
  intro table text₃ h₃
  apply Points.bind (expect_takes (by decide)) (expect_points (by decide) (by decide))
  intro _ text₄ h₄
  apply Points.bind (parenthesized_takes expectLiteral_takes)
    (parenthesized_points expectLiteral_takes fun _ => expectLiteral_points)
  intro literals text₅ ⟨hne, h₅⟩
  apply Points.pure
  refine ⟨hne, ?_⟩
  rw [h₁, h₂, h₃, h₄, h₅, List.append_nil]
  rfl

lemma parseAssignment_points :
    Points source IsIdentifier parseAssignment (fun a text => True ∧ text = a.kinds) W := by
  apply Points.bind parseColumnReference_takes parseColumnReference_points
  intro column text₁ h₁
  apply Points.bind (expect_takes (by decide)) (expect_points (by decide) (by decide))
  intro _ text₂ h₂
  apply Points.bind expectLiteral_takes expectLiteral_points
  intro value text₃ h₃
  apply Points.pure
  exact ⟨trivial, by rw [h₁, h₂, h₃]; rfl⟩

lemma parseUpdate_points (hW : Admits W) : Points source (fun k => k = .update) parseUpdate
    (fun s text => s.Shaped ∧ text = s.kinds) W := by
  apply Points.bind (expect_takes (by decide)) (expect_points (by decide) (by decide))
  intro _ text₁ h₁
  apply Points.bind parseFromClause_takes parseFromClause_points
  intro source text₂ ⟨hsource, h₂⟩
  apply Points.bind (expect_takes (by decide)) (expect_points (by decide) (by decide))
  intro _ text₃ h₃
  apply Points.bind (commaSeparated_takes parseAssignment_takes)
    (commaSeparated_points parseAssignment_takes fun _ => parseAssignment_points)
  intro assignments text₄ ⟨⟨hassignments, _⟩, h₄⟩
  have hW := (((hW.shift text₁).shift text₂).shift text₃).shift text₄
  apply Points.bind whereClause_takes (whereClause_points hW)
  intro filter text₅ ⟨hfilter, h₅⟩
  apply Points.pure
  refine ⟨⟨hsource, hassignments, hfilter⟩, ?_⟩
  rw [h₁, h₂, h₃, h₄, h₅, List.append_nil]
  rfl

lemma parseTargets_points : Points source IsIdentifier parseTargets (fun targets text =>
    (∀ ts ∈ targets, ts ≠ []) ∧ text = targetKinds targets) W := by
  have htakes : Takes rest expectIdentifier fun name text => True ∧ text = [.identifier name] :=
    expectIdentifier_takes.conseq fun name text h => ⟨trivial, h⟩
  have hitem (W) : Points source IsIdentifier expectIdentifier
      (fun name text => True ∧ text = [.identifier name]) W :=
    expectIdentifier_points.conseq fun name text h => ⟨trivial, h⟩
  have htargets : Points source IsIdentifier (do
      let targets ← commaSeparated expectIdentifier
      pure (some targets)) (fun targets text =>
        (∀ ts ∈ targets, ts ≠ []) ∧ text = targetKinds targets) W := by
    apply Points.bind (commaSeparated_takes htakes) (commaSeparated_points htakes hitem)
    intro targets text ⟨⟨hne, _⟩, h⟩
    apply Points.pure
    refine ⟨fun ts hts => Option.some.inj hts ▸ hne, ?_⟩
    rw [h, List.append_nil]
    rfl
  apply Points.peek (a := (none : Option (List String))) current_looks IsIdentifier
    (fun k => k = .from_) htargets.inhabited
  · intro t t' p b p' hkind hrun
    have heq : t'.1.kind = t.1.kind := hkind
    rwa [heq] at hrun
  · intro t hidentifier
    refine ⟨IsIdentifier, hidentifier, ?_⟩
    have ⟨name, hkind⟩ := hidentifier
    rw [if_pos]
    · exact htargets
    · rw [show t.1.kind = .identifier name from hkind]
      exact nofun
  · intro p t more _ _ hfrom
    rw [if_neg (not_not.mpr (show t.1.kind = .from_ from hfrom)), run_pure]
  · intro p t more hhere hidentifier hfrom
    have ⟨hget, _, _⟩ := get_of_here hhere
    have hexpect : expectIdentifier.run p = .err (.unexpectedToken t.1.offset) p := by
      unfold expectIdentifier expectValue
      rw [run_bind, run_current hget, Outcome.andThen_ok]
      cases hkind : t.1.kind with
      | identifier name => exact absurd ⟨name, hkind⟩ hidentifier
      | _ => rfl
    have hne : t.1.kind ≠ .from_ := hfrom
    refine ⟨.unexpectedToken t.1.offset, p, ?_, .inl rfl⟩
    rw [if_pos hne, run_bind, commaSeparated, run_bind, hexpect]
    rfl
  · intro k k' hk hidentifier
    constructor
    · intro ⟨name, hkind⟩
      exact like_ne fixed_identifier hk (fun h => hidentifier ⟨name, h⟩) hkind
    · intro hfrom
      by_contra hne
      exact like_ne (by decide) hk hne hfrom

lemma parseDelete_points (hW : Admits W) : Points source (fun k => k = .delete) parseDelete
    (fun s text => s.Shaped ∧ text = s.kinds) W := by
  apply Points.bind (expect_takes (by decide)) (expect_points (by decide) (by decide))
  intro _ text₁ h₁
  apply Points.bind parseTargets_takes parseTargets_points
  intro targets text₂ ⟨htargets, h₂⟩
  apply Points.bind (expect_takes (by decide)) (expect_points (by decide) (by decide))
  intro _ text₃ h₃
  apply Points.bind parseFromClause_takes parseFromClause_points
  intro source text₄ ⟨hsource, h₄⟩
  have hW := (((hW.shift text₁).shift text₂).shift text₃).shift text₄
  apply Points.bind whereClause_takes (whereClause_points hW)
  intro filter text₅ ⟨hfilter, h₅⟩
  apply Points.pure
  refine ⟨⟨htargets, hsource, hfilter⟩, ?_⟩
  rw [h₁, h₂, h₃, h₄, h₅, List.append_nil]
  rfl

lemma parseColumnDefinition_points :
    Points source IsIdentifier parseColumnDefinition (fun c text => text = c.kinds) W := by
  apply Points.bind expectIdentifier_takes expectIdentifier_points
  intro name text₁ h₁
  apply Points.bind parseDataType_takes parseDataType_points
  intro dataType text₂ h₂
  apply Points.pure
  rw [h₁, h₂]
  rfl

lemma parseCreateTable_points : Points source (fun k => k = .table) parseCreateTable
    (fun s text => s.columns ≠ [] ∧ text = s.kinds) W := by
  have hcolumn : Takes rest parseColumnDefinition fun c text => text = c.kinds :=
    parseColumnDefinition_takes.conseq fun c text h => h.2
  apply Points.bind (expect_takes (by decide)) (expect_points (by decide) (by decide))
  intro _ text₁ h₁
  apply Points.bind expectIdentifier_takes expectIdentifier_points
  intro table text₂ h₂
  apply Points.bind (parenthesized_takes hcolumn)
    (parenthesized_points hcolumn fun _ => parseColumnDefinition_points)
  intro columns text₃ ⟨hne, h₃⟩
  apply Points.pure
  refine ⟨hne, ?_⟩
  rw [h₁, h₂, h₃, List.append_nil]
  rfl

lemma parseCreateIndex_points :
    Points source (fun k => k = .index) parseCreateIndex (fun s text => text = s.kinds) W := by
  apply Points.bind (expect_takes (by decide)) (expect_points (by decide) (by decide))
  intro _ text₁ h₁
  apply Points.bind expectIdentifier_takes expectIdentifier_points
  intro indexName text₂ h₂
  apply Points.bind (expect_takes (by decide)) (expect_points (by decide) (by decide))
  intro _ text₃ h₃
  apply Points.bind expectIdentifier_takes expectIdentifier_points
  intro table text₄ h₄
  apply Points.bind (expect_takes (by decide)) (expect_points (by decide) (by decide))
  intro _ text₅ h₅
  apply Points.bind expectIdentifier_takes expectIdentifier_points
  intro columnName text₆ h₆
  apply Points.bind (expect_takes (by decide)) (expect_points (by decide) (by decide))
  intro _ text₇ h₇
  apply Points.pure
  rw [h₁, h₂, h₃, h₄, h₅, h₆, h₇]
  rfl

/-- The tokens a statement begins with. -/
def beginsStatement (k : TokenKind) : Prop :=
  k ∈ [TokenKind.select, .create, .insert, .update, .delete]

instance : DecidablePred beginsStatement := fun k =>
  inferInstanceAs (Decidable (k ∈ [TokenKind.select, .create, .insert, .update, .delete]))

/-- What stands behind `CREATE`; the error has the offset of that token. -/
def behindCreate (offset : Nat) : Exec ParseError Parser Statement := do
  expect .create
  let next ← current
  match next.kind with
  | .table => do
    let statement ← parseCreateTable
    pure (.createTable statement)
  | .index => do
    let statement ← parseCreateIndex
    pure (.createIndex statement)
  | _ => Exec.throw (.unexpectedToken offset)

lemma behindCreate_ok {offset offset' : Nat} {p p' : Parser} {s : Statement}
    (hrun : (behindCreate offset).run p = .ok s p') : (behindCreate offset').run p = .ok s p' := by
  rw [behindCreate, run_bind, Outcome.andThen_eq_ok] at hrun
  have ⟨_, p₁, hexpect, hrun⟩ := hrun
  rw [run_bind, Outcome.andThen_eq_ok] at hrun
  have ⟨next, p₂, hnext, hrun⟩ := hrun
  rw [behindCreate, run_bind, hexpect, Outcome.andThen_ok, run_bind, hnext, Outcome.andThen_ok]
  split at hrun
  · exact hrun
  · exact hrun
  · cases hrun

lemma behindCreate_points (offset : Nat) (hcreate : ∀ text t e, text.map source.kind = [.create] → W text t e) :
    Points source (fun k => k = .create) (behindCreate offset)
      (fun s text => s.Shaped ∧ ∃ explicitAsc, text = s.kinds explicitAsc) W := by
  apply Points.bind (expect_takes (by decide)) (expect_points (by decide) (by decide))
  intro _ text h
  have hindex : Points source (fun k => k = .index) (do
      let statement ← parseCreateIndex
      pure (Statement.createIndex statement)) (fun s text' => s.Shaped ∧ ∃ explicitAsc,
        text.map source.kind ++ text' = s.kinds explicitAsc) fun text' => W (text ++ text') := by
    apply Points.bind parseCreateIndex_takes parseCreateIndex_points
    intro s text' h'
    apply Points.pure
    exact ⟨trivial, false, by rw [h, h', List.append_nil]; rfl⟩
  apply Points.peek (a := Statement.createIndex ⟨"", "", ""⟩) current_looks (fun k => k = .table ∨ k = .index)
    (fun _ => False) hindex.inhabited
  · intro t t' p s p' hkind hrun
    have heq : t'.1.kind = t.1.kind := hkind
    rwa [heq] at hrun
  · intro t htaken
    cases htaken with
    | inl htable =>
      refine ⟨fun k => k = .table, htable, ?_⟩
      rw [show t.1.kind = .table from htable]
      apply Points.bind parseCreateTable_takes parseCreateTable_points
      intro s text' ⟨hshaped, h'⟩
      apply Points.pure
      exact ⟨hshaped, false, by rw [h, h', List.append_nil]; rfl⟩
    | inr hkind =>
      refine ⟨fun k => k = .index, hkind, ?_⟩
      rw [show t.1.kind = .index from hkind]
      exact hindex
  · exact fun _ _ _ _ _ hfalse => hfalse.elim
  · intro p t more _ htaken _
    refine ⟨.unexpectedToken offset, p, ?_, .inr (hcreate _ t _ ?_)⟩
    · split
      · next htable => exact absurd (.inl htable) htaken
      · next hkind => exact absurd (.inr hkind) htaken
      · rfl
    · rw [List.append_nil, h]
  · intro k k' hk hne
    have ⟨htable, hkind⟩ := not_or.mp hne
    exact ⟨not_or.mpr ⟨like_ne (by decide) hk htable, like_ne (by decide) hk hkind⟩, id⟩

lemma parseStatement_points (hW : Admits W)
    (hcreate : ∀ text t e, text.map source.kind = [.create] → W text t e) :
    Points source beginsStatement parseStatement
      (fun s text => s.Shaped ∧ ∃ explicitAsc, text = s.kinds explicitAsc) W := by
  have hcreatePoints := behindCreate_points 0 hcreate
  apply Points.peek (a := Statement.createIndex ⟨"", "", ""⟩) current_looks _ (fun _ => False)
    hcreatePoints.inhabited
  · intro t t' p s p' hkind hrun
    have heq : t'.1.kind = t.1.kind := hkind
    rw [heq] at hrun
    split at hrun
    · exact hrun
    · exact behindCreate_ok hrun
    · exact hrun
    · exact hrun
    · exact hrun
    · cases hrun
  · intro t htaken
    have hkind : t.1.kind ∈ [TokenKind.select, .create, .insert, .update, .delete] := htaken
    simp only [List.mem_cons, List.not_mem_nil, or_false] at hkind
    rcases hkind with h | h | h | h | h
    · refine ⟨fun k => k = .select, h, ?_⟩
      rw [h]
      apply Points.bind parseSelect_takes (parseSelect_points hW)
      intro s text ⟨hshaped, explicitAsc, h⟩
      apply Points.pure
      exact ⟨hshaped, explicitAsc, by rw [h, List.append_nil]; rfl⟩
    · refine ⟨fun k => k = .create, h, ?_⟩
      rw [h]
      exact behindCreate_points t.1.offset hcreate
    · refine ⟨fun k => k = .insert, h, ?_⟩
      rw [h]
      apply Points.bind parseInsert_takes parseInsert_points
      intro s text ⟨hshaped, h⟩
      apply Points.pure
      exact ⟨hshaped, false, by rw [h, List.append_nil]; rfl⟩
    · refine ⟨fun k => k = .update, h, ?_⟩
      rw [h]
      apply Points.bind parseUpdate_takes (parseUpdate_points hW)
      intro s text ⟨hshaped, h⟩
      apply Points.pure
      exact ⟨hshaped, false, by rw [h, List.append_nil]; rfl⟩
    · refine ⟨fun k => k = .delete, h, ?_⟩
      rw [h]
      apply Points.bind parseDelete_takes (parseDelete_points hW)
      intro s text ⟨hshaped, h⟩
      apply Points.pure
      exact ⟨hshaped, false, by rw [h, List.append_nil]; rfl⟩
  · exact fun _ _ _ _ _ hfalse => hfalse.elim
  · intro p t more _ htaken _
    refine ⟨.unexpectedToken t.1.offset, p, ?_, .inl rfl⟩
    have hkind {k : TokenKind} (h : t.1.kind = k) : ¬ beginsStatement k := h ▸ htaken
    split
    · next h => exact absurd (by decide) (hkind h)
    · next h => exact absurd (by decide) (hkind h)
    · next h => exact absurd (by decide) (hkind h)
    · next h => exact absurd (by decide) (hkind h)
    · next h => exact absurd (by decide) (hkind h)
    · rfl
  · intro k k' hk hne
    refine ⟨?_, id⟩
    intro hkind
    have hfixed : Fixed k' := by
      constructor
      · rintro rfl
        exact absurd hkind (by decide)
      · rintro rfl
        exact absurd hkind (by decide)
    exact like_ne hfixed hk (fun h => hne (h ▸ hkind)) rfl

lemma run_expectEof {p : Parser} {token : Token} (hget : p.tokens[p.position]? = some token) :
    (expect .eof).run p =
      if token.kind = .eof then .ok () p else .err (.unexpectedToken token.offset) p := by
  by_cases hkind : token.kind = .eof
  · simp only [expect, advance, run_bind, run_current hget, Outcome.andThen_ok, hkind, ne_eq,
      not_true_eq_false, if_false, if_true, run_pure]
  · simp only [expect, run_bind, run_current hget, Outcome.andThen_ok, hkind, ne_eq, not_false_eq_true,
      if_false, if_true, run_throw]

/-- `Eof` is expected without moving on. -/
lemma expectEof_takes : Takes rest (expect .eof) fun _ text => text = [] := by
  intro p u p' hrun
  cases hget : p.tokens[p.position]? with
  | none =>
    simp only [expect, run_bind, current, hget, Outcome.andThen_panic] at hrun
    cases hrun
  | some token =>
    rw [run_expectEof hget] at hrun
    split at hrun
    · cases hrun
      exact ⟨[], rfl, rfl⟩
    · cases hrun

lemma expectEof_points : Points source (fun _ => False) (expect .eof) (fun _ text => text = []) W := by
  apply Points.peek (a := ()) current_looks (fun _ => False) (fun k => k = .eof) ⟨(), [], rfl⟩
  · intro t t' p u p' hkind hrun
    have heq : t'.1.kind = t.1.kind := hkind
    by_cases heof : t.1.kind = .eof
    · rw [if_neg (not_not.mpr (heq.trans heof))] at hrun
      rwa [if_neg (not_not.mpr heof)]
    · rw [if_pos (heq ▸ heof)] at hrun
      cases hrun
  · exact fun _ hfalse => hfalse.elim
  · intro p t more hhere _ heof
    have ⟨hget, _, _⟩ := get_of_here hhere
    have hkind : t.1.kind = .eof := heof
    rw [if_neg (not_not.mpr hkind), advance, run_bind, run_current hget, Outcome.andThen_ok,
      if_neg (not_not.mpr hkind), run_pure]
  · intro p t more _ _ hne
    refine ⟨.unexpectedToken t.1.offset, p, ?_, .inl rfl⟩
    rw [if_pos (show t.1.kind ≠ .eof from hne), run_throw]
  · intro k k' hk _
    refine ⟨id, ?_⟩
    intro heof
    by_contra hne
    exact like_ne (by decide) hk hne heof

/-- Where the parser fails, no text goes on. -/
lemma parse_points (hW : Admits W) (hcreate : ∀ text t e, text.map source.kind = [.create] → W text t e) :
    Points source beginsStatement parse (fun s text => s.Shaped ∧
      ∃ explicitAsc, text = s.kinds explicitAsc ++ [.semicolon]) W := by
  apply Points.bind parseStatement_takes (parseStatement_points hW hcreate)
  intro s text₁ ⟨hshaped, explicitAsc, h₁⟩
  apply Points.bind (expect_takes (by decide)) (expect_points (by decide) (by decide))
  intro _ text₂ h₂
  apply Points.bind expectEof_takes expectEof_points
  intro _ text₃ h₃
  apply Points.pure
  exact ⟨hshaped, explicitAsc, by rw [h₁, h₂, h₃]; rfl⟩

end Statements

end Parser

end RdbRs
