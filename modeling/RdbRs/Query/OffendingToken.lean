import RdbRs.Query.LexerSpec
import RdbRs.Query.ParserErrors

/-!
# The offending token

The first token that no accepted list has behind those before it, and when the error of the parser has the
offset of this token.
-/

namespace RdbRs

open Exec
open String (utf8Len)

namespace Parser

/-! ### Texts and what they avoid -/

/-- None of the tokens `ks` is in the text. -/
def Avoids (ks : List TokenKind) (text : List TokenKind) : Prop := ∀ k ∈ text, k ∉ ks

/-- The tokens of a filter, and the one of a limit. -/
def clauseWords : List TokenKind := [.where_, .and, .or, .limit]

section Avoids

variable {ks ks' : List TokenKind} {text text' : List TokenKind} {k : TokenKind} {α : Type}

@[simp] lemma avoids_nil : Avoids ks [] := fun _ h => absurd h List.not_mem_nil

@[simp] lemma avoids_cons : Avoids ks (k :: text) ↔ k ∉ ks ∧ Avoids ks text := List.forall_mem_cons

@[simp] lemma avoids_append : Avoids ks (text ++ text') ↔ Avoids ks text ∧ Avoids ks text' :=
  List.forall_mem_append

lemma Avoids.mono (h : Avoids ks text) (hsub : ∀ k ∈ ks', k ∈ ks) : Avoids ks' text :=
  fun k hk hbad => h k hk (hsub k hbad)

lemma avoids_column (c : ColumnReference) : Avoids clauseWords c.kinds := by
  unfold ColumnReference.kinds
  split <;> simp [clauseWords]

lemma avoids_tableReference (t : TableReference) : Avoids clauseWords t.kinds := by
  unfold TableReference.kinds
  split <;> simp [clauseWords]

lemma avoids_literal (l : Literal) : l.kind ∉ clauseWords := by
  cases l <;> simp [clauseWords, Literal.kind]

lemma avoids_from (source : FromClause) : Avoids clauseWords source.kinds := by
  induction source with
  | table reference => exact avoids_tableReference reference
  | innerJoin left on right ihLeft ihRight =>
    have hleft := avoids_column on.left
    have hright := avoids_column on.right
    unfold FromClause.kinds joinKinds
    simp only [avoids_append, avoids_cons, ihLeft, ihRight, hleft, hright]
    decide

lemma avoids_comma {item : α → List TokenKind} {items : List α} (h : ∀ a ∈ items, Avoids clauseWords (item a)) :
    Avoids clauseWords (commaKinds item items) := by
  cases items with
  | nil => exact avoids_nil
  | cons a items =>
    have hrest : Avoids clauseWords (items.flatMap fun b => .comma :: item b) := by
      intro k hk
      have ⟨b, hb, hmem⟩ := List.mem_flatMap.mp hk
      have hitem := h b (List.mem_cons_of_mem a hb)
      have hcomma : Avoids clauseWords (.comma :: item b) := avoids_cons.mpr ⟨by decide, hitem⟩
      exact hcomma k hmem
    exact avoids_append.mpr ⟨h a List.mem_cons_self, hrest⟩

lemma avoids_projection {p : Projection} (h : p.Shaped) : Avoids clauseWords p.kinds := by
  cases p with
  | all =>
    unfold Projection.kinds
    simp [clauseWords]
  | expression value =>
    have ⟨c, hc⟩ := h
    rw [hc]
    exact avoids_column c
  | aggregate a =>
    cases a with
    | countAll =>
      unfold Projection.kinds
      simp [clauseWords]
    | sum c =>
      have hcolumn := avoids_column c
      unfold Projection.kinds
      simp only [avoids_cons, avoids_append, hcolumn, avoids_nil]
      decide

lemma avoids_assignment (a : Assignment) : Avoids clauseWords a.kinds := by
  have hcolumn := avoids_column a.column
  have hvalue := avoids_literal a.value
  unfold Assignment.kinds
  simp only [avoids_append, avoids_cons, hcolumn, hvalue, avoids_nil]
  decide

lemma avoids_columnDefinition (c : ColumnDefinition) : Avoids clauseWords c.kinds := by
  unfold ColumnDefinition.kinds
  cases c.dataType <;> simp [clauseWords, SqlDataType.kind]

lemma avoids_comparison {e : Expression} (h : e.IsComparison) : Avoids clauseWords e.kinds := by
  have ⟨c, operator, value, he⟩ := h
  have hcolumn := avoids_column c
  have hvalue := avoids_literal value
  have hoperator : operator.kind ∉ clauseWords := by cases operator <;> decide
  rw [he]
  simp only [Expression.kinds, avoids_append, avoids_cons, hcolumn, hoperator, hvalue, avoids_nil]
  decide

lemma avoids_andChain {e : Expression} (h : e.IsAndChain) : Avoids [.limit] e.kinds := by
  induction h with
  | comparison h => exact (avoids_comparison h).mono (by decide)
  | @and left right hleft hright ih =>
    have hcomparison : Avoids [.limit] right.kinds := (avoids_comparison hright).mono (by decide)
    simp only [Expression.kinds, avoids_append, avoids_cons, ih, hcomparison]
    decide

lemma avoids_filter {e : Expression} (h : e.IsFilter) : Avoids [.limit] e.kinds := by
  cases h with
  | inl hchain => exact avoids_andChain hchain
  | inr hor =>
    have ⟨left, right, hleft, hright, he⟩ := hor
    have hleft := avoids_andChain hleft
    have hright := avoids_andChain hright
    rw [he]
    simp only [Expression.kinds, avoids_append, avoids_cons, hleft, hright]
    decide

lemma avoids_whereClause {filter : Option Expression} (h : ∀ e ∈ filter, e.IsFilter) :
    Avoids [.limit] (clauseKinds .where_ Expression.kinds filter) := by
  cases filter with
  | none => exact avoids_nil
  | some e => exact avoids_cons.mpr ⟨by decide, avoids_filter (h e rfl)⟩

lemma avoids_groupBy (groupBy : Option (List ColumnReference)) : Avoids clauseWords
    (clauseKinds .group (fun columns => .by_ :: commaKinds ColumnReference.kinds columns) groupBy) := by
  cases groupBy with
  | none => exact avoids_nil
  | some columns =>
    have hcolumns : Avoids clauseWords (commaKinds ColumnReference.kinds columns) :=
      avoids_comma fun c _ => avoids_column c
    exact avoids_cons.mpr ⟨by decide, avoids_cons.mpr ⟨by decide, hcolumns⟩⟩

lemma avoids_orderBy (explicitAsc : Bool) (orderBy : Option OrderBy) : Avoids clauseWords
    (clauseKinds .order (fun o => .by_ :: o.kinds explicitAsc) orderBy) := by
  cases orderBy with
  | none => exact avoids_nil
  | some o =>
    have hcolumn := avoids_column o.column
    unfold clauseKinds OrderBy.kinds
    simp only [avoids_cons, avoids_append, hcolumn]
    cases o.direction <;> cases explicitAsc <;> simp [clauseWords]

lemma avoids_insert (s : InsertStatement) : Avoids clauseWords s.kinds := by
  have hliterals : Avoids clauseWords (commaKinds (fun literal : Literal => [literal.kind]) s.literals) :=
    avoids_comma fun l _ => avoids_cons.mpr ⟨avoids_literal l, avoids_nil⟩
  unfold InsertStatement.kinds
  simp only [avoids_cons, avoids_append, hliterals, avoids_nil]
  simp [clauseWords]

lemma avoids_createTable (s : CreateTableStatement) : Avoids clauseWords s.kinds := by
  have hcolumns : Avoids clauseWords (commaKinds ColumnDefinition.kinds s.columns) :=
    avoids_comma fun c _ => avoids_columnDefinition c
  unfold CreateTableStatement.kinds
  simp only [avoids_cons, avoids_append, hcolumns, avoids_nil]
  simp [clauseWords]

lemma avoids_createIndex (s : CreateIndexStatement) : Avoids clauseWords s.kinds := by
  unfold CreateIndexStatement.kinds
  simp [clauseWords]

lemma avoids_targets (targets : Option (List String)) : Avoids clauseWords (targetKinds targets) := by
  cases targets with
  | none => exact avoids_nil
  | some ts => exact avoids_comma fun t _ => by simp [clauseWords]

end Avoids

/-! ### Texts that go on -/

section GoesOn

variable {text text' g r : List TokenKind} {k : TokenKind}

/-- A token of a text in two parts is in one of them. -/
lemma split_append (h : text ++ text' = g ++ k :: r) :
    (∃ r', text = g ++ k :: r') ∨ ∃ g', g = text ++ g' ∧ text' = g' ++ k :: r := by
  cases List.append_eq_append_iff.mp h with
  | inl hleft =>
    have ⟨g', hg, htext'⟩ := hleft
    exact .inr ⟨g', hg, htext'⟩
  | inr hright =>
    have ⟨r', htext, hr⟩ := hright
    cases r' with
    | nil =>
      rw [List.append_nil] at htext
      exact .inr ⟨[], by rw [htext, List.append_nil], hr.symm⟩
    | cons k' r' =>
      cases hr
      exact .inl ⟨r', htext⟩

/-- A token that a text avoids is in the other part. -/
lemma split_of_avoids {ks : List TokenKind} (h : text ++ text' = g ++ k :: r) (hk : k ∈ ks)
    (havoids : Avoids ks text) : ∃ g', g = text ++ g' ∧ text' = g' ++ k :: r := by
  cases split_append h with
  | inl hleft =>
    have ⟨r', htext⟩ := hleft
    refine absurd hk (havoids k ?_)
    rw [htext]
    exact List.mem_append_right _ List.mem_cons_self
  | inr hright => exact hright

/-- Behind an `AND` of a conjunction any comparison may stand. -/
lemma andChain_split {e : Expression} (h : e.IsAndChain) (hk : k ∈ connectives) (heq : e.kinds = g ++ k :: r) :
    k = .and ∧ ∃ left : Expression, left.IsAndChain ∧ left.kinds = g := by
  have hcomparison {e : Expression} {g r : List TokenKind} (h : e.IsComparison) :
      e.kinds ≠ g ++ k :: r := by
    intro heq
    have havoids : Avoids connectives e.kinds := (avoids_comparison h).mono (by decide)
    rw [heq] at havoids
    exact havoids k (List.mem_append_right _ List.mem_cons_self) hk
  induction h generalizing g r with
  | comparison h => exact absurd heq (hcomparison h)
  | @and left right hleft hright ih =>
    cases split_append heq with
    | inl hfront =>
      have ⟨r', hr'⟩ := hfront
      exact ih hr'
    | inr hbehind =>
      have ⟨g', hg, hrest⟩ := hbehind
      cases g' with
      | nil =>
        cases hrest
        exact ⟨rfl, left, hleft, by rw [hg, List.append_nil]⟩
      | cons k' g' =>
        have ⟨_, htail⟩ := List.cons_eq_cons.mp hrest
        exact absurd htail (hcomparison hright)

/-- `c < NULL`. -/
def lessThanNull (c : ColumnReference) : Expression := .comparison (.column c) .lessThan (.literal .null)

lemma lessThanNull_isComparison (c : ColumnReference) : (lessThanNull c).IsComparison :=
  ⟨c, .lessThan, .null, rfl⟩

/-- Behind a connective of a filter any comparison may stand. -/
lemma filter_split {e : Expression} (h : e.IsFilter) (hk : k ∈ connectives)
    (heq : .where_ :: e.kinds = g ++ k :: r) (c : ColumnReference) :
    ∃ e' : Expression, e'.IsFilter ∧ .where_ :: e'.kinds = g ++ k :: (c.kinds ++ [.lt, .null]) := by
  have hcomparison := lessThanNull_isComparison c
  cases g with
  | nil =>
    cases heq
    exact ⟨lessThanNull c, .inl (.comparison hcomparison), rfl⟩
  | cons k' g =>
    have ⟨hwhere, htail⟩ := List.cons_eq_cons.mp heq
    subst hwhere
    cases h with
    | inl hchain =>
      have ⟨hand, left, hleft, hkinds⟩ := andChain_split hchain hk htail
      refine ⟨.and left (lessThanNull c), .inl (.and hleft hcomparison), ?_⟩
      rw [hand, ← hkinds]
      rfl
    | inr hor =>
      have ⟨left, right, hleft, hright, he⟩ := hor
      subst he
      cases split_append htail with
      | inl hfront =>
        have ⟨r', hr'⟩ := hfront
        have ⟨hand, left', hleft', hkinds⟩ := andChain_split hleft hk hr'
        refine ⟨.and left' (lessThanNull c), .inl (.and hleft' hcomparison), ?_⟩
        rw [hand, ← hkinds]
        rfl
      | inr hbehind =>
        have ⟨g', hg, hrest⟩ := hbehind
        cases g' with
        | nil =>
          cases hrest
          refine ⟨.or left (lessThanNull c), .inr ⟨left, _, hleft, .comparison hcomparison, rfl⟩, ?_⟩
          rw [hg, List.append_nil]
          rfl
        | cons k' g' =>
          have ⟨hor, hrest⟩ := List.cons_eq_cons.mp hrest
          have ⟨hand, right', hright', hkinds⟩ := andChain_split hright hk hrest
          refine ⟨.or left (.and right' (lessThanNull c)),
            .inr ⟨left, _, hleft, .and hright' hcomparison, rfl⟩, ?_⟩
          rw [hg, hand, ← hor, ← hkinds]
          show TokenKind.where_ :: (left.kinds ++ .or :: (right'.kinds ++ .and :: (c.kinds ++ [.lt, .null]))) = _
          rw [List.cons_append, List.append_assoc, List.cons_append]

/-- A text with a filter in it, in the place of which any filter may stand. -/
structure HoldsFilter (explicitAsc : Bool) (s : Statement) (pre post : List TokenKind)
    (e : Expression) : Prop where
  avoidsPre : Avoids connectives pre
  avoidsPost : Avoids connectives post
  isFilter : e.IsFilter
  kinds : s.kinds explicitAsc = pre ++ (.where_ :: e.kinds ++ post)
  replace : ∀ e' : Expression, e'.IsFilter → ∃ s' : Statement, s'.Shaped ∧
    s'.kinds explicitAsc = pre ++ (.where_ :: e'.kinds ++ post)

lemma avoids_limitClause (limit : Option Nat) :
    Avoids connectives (clauseKinds .limit (fun n => [.integer (Int64.ofNat n)]) limit) := by
  cases limit <;> simp [clauseKinds, connectives]

/-- A statement with a `WHERE` clause that may be any. -/
lemma filter_of_clause {explicitAsc : Bool} {pre post : List TokenKind} {filter : Option Expression}
    {withFilter : Option Expression → Statement} (hpre : Avoids connectives pre)
    (hpost : Avoids connectives post) (hfilter : ∀ e ∈ filter, e.IsFilter)
    (hkinds : ∀ filter, (withFilter filter).kinds explicitAsc =
      pre ++ (clauseKinds .where_ Expression.kinds filter ++ post))
    (hshaped : ∀ filter : Option Expression, (∀ e ∈ filter, e.IsFilter) → (withFilter filter).Shaped) :
    Avoids connectives ((withFilter filter).kinds explicitAsc) ∨
      ∃ pre post e, HoldsFilter explicitAsc (withFilter filter) pre post e := by
  cases filter with
  | none =>
    left
    rw [hkinds none]
    exact avoids_append.mpr ⟨hpre, hpost⟩
  | some e =>
    right
    refine ⟨pre, post, e, hpre, hpost, hfilter e rfl, hkinds (some e), ?_⟩
    intro e' he'
    refine ⟨withFilter (some e'), hshaped (some e') ?_, hkinds (some e')⟩
    intro e'' he''
    cases he''
    exact he'

lemma statement_filter {s : Statement} (h : s.Shaped) (explicitAsc : Bool) :
    Avoids connectives (s.kinds explicitAsc) ∨ ∃ pre post e, HoldsFilter explicitAsc s pre post e := by
  have hconnectives : ∀ k ∈ connectives, k ∈ clauseWords := by decide
  cases s with
  | select s =>
    have hprojections : Avoids connectives (commaKinds Projection.kinds s.projections) :=
      (avoids_comma fun p hp => avoids_projection (h.projections.2 p hp)).mono hconnectives
    have hfrom := (avoids_from s.from_).mono hconnectives
    have hgroupBy := (avoids_groupBy s.groupBy).mono hconnectives
    have horderBy := (avoids_orderBy explicitAsc s.orderBy).mono hconnectives
    have hpre : Avoids connectives
        (.select :: (commaKinds Projection.kinds s.projections ++ .from_ :: s.from_.kinds)) := by
      simp only [avoids_cons, avoids_append, hprojections, hfrom]
      decide
    have hpost := avoids_append.mpr ⟨hgroupBy, avoids_append.mpr ⟨horderBy, avoids_limitClause s.limit⟩⟩
    apply @filter_of_clause explicitAsc _ _ s.filter (fun filter => .select { s with filter := filter })
      hpre hpost h.filter
    · intro filter
      simp only [Statement.kinds, SelectStatement.kinds, List.cons_append, List.append_assoc]
    · exact fun filter hfilter => ⟨h.projections, h.leftNested, hfilter, h.groupBy, h.limit⟩
  | update s =>
    have hfrom := (avoids_from s.from_).mono hconnectives
    have hassignments : Avoids connectives (commaKinds Assignment.kinds s.assignments) :=
      (avoids_comma fun a _ => avoids_assignment a).mono hconnectives
    have hpre : Avoids connectives
        (.update :: (s.from_.kinds ++ .set :: commaKinds Assignment.kinds s.assignments)) := by
      simp only [avoids_cons, avoids_append, hassignments, hfrom]
      decide
    apply @filter_of_clause explicitAsc _ _ s.filter (fun filter => .update { s with filter := filter })
      hpre avoids_nil h.filter
    · intro filter
      simp only [Statement.kinds, UpdateStatement.kinds, List.cons_append, List.append_assoc,
        List.append_nil]
    · exact fun filter hfilter => ⟨h.leftNested, h.assignments, hfilter⟩
  | delete s =>
    have hfrom := (avoids_from s.from_).mono hconnectives
    have htargets := (avoids_targets s.targets).mono hconnectives
    have hpre : Avoids connectives (.delete :: (targetKinds s.targets ++ .from_ :: s.from_.kinds)) := by
      simp only [avoids_cons, avoids_append, htargets, hfrom]
      decide
    apply @filter_of_clause explicitAsc _ _ s.filter (fun filter => .delete { s with filter := filter })
      hpre avoids_nil h.filter
    · intro filter
      simp only [Statement.kinds, DeleteStatement.kinds, List.cons_append, List.append_assoc,
        List.append_nil]
    · exact fun filter hfilter => ⟨h.targets, h.leftNested, hfilter⟩
  | createTable s =>
    left
    exact avoids_cons.mpr ⟨by decide, (avoids_createTable s).mono hconnectives⟩
  | createIndex s =>
    left
    exact avoids_cons.mpr ⟨by decide, (avoids_createIndex s).mono hconnectives⟩
  | insert s =>
    left
    exact (avoids_insert s).mono hconnectives

/-- The texts of the grammar up to their semicolon, as the parser takes them. -/
def Sentence (s : Statement) (text : List TokenKind) : Prop :=
  s.Shaped ∧ ∃ explicitAsc, text = s.kinds explicitAsc ++ [.semicolon]

/-- Where a column is to be compared, `<` may stand. -/
lemma begins_lt (h : Begins Sentence text) (hat : AtOperator text) : Begins Sentence (text ++ [.lt]) := by
  have ⟨s, tail, hshaped, explicitAsc, hkinds⟩ := h
  have ⟨front, k, c, hk, htext⟩ := hat
  rw [htext, List.append_assoc, List.cons_append] at hkinds
  cases statement_filter hshaped explicitAsc with
  | inl havoids =>
    have havoidsAll : Avoids connectives (s.kinds explicitAsc ++ [.semicolon]) :=
      avoids_append.mpr ⟨havoids, by simp [connectives]⟩
    rw [← hkinds] at havoidsAll
    exact absurd hk (havoidsAll k (List.mem_append_right _ List.mem_cons_self))
  | inr hholds =>
    have ⟨pre, post, e, hfilter⟩ := hholds
    rw [hfilter.kinds, List.append_assoc] at hkinds
    have ⟨g, hg, hrest⟩ := split_of_avoids hkinds.symm hk hfilter.avoidsPre
    rw [List.append_assoc] at hrest
    cases split_append hrest with
    | inl hclause =>
      have ⟨r', hr'⟩ := hclause
      have ⟨e', he', hkinds'⟩ := filter_split hfilter.isFilter hk hr' c
      have ⟨s', hshaped', hs'⟩ := hfilter.replace e' he'
      refine ⟨s', .null :: (post ++ [.semicolon]), hshaped', explicitAsc, ?_⟩
      rw [hs', hkinds', htext, hg]
      simp only [List.append_assoc, List.cons_append, List.nil_append]
    | inr hbehind =>
      have ⟨g', _, hpost⟩ := hbehind
      have havoids : Avoids connectives (post ++ [.semicolon]) :=
        avoids_append.mpr ⟨hfilter.avoidsPost, by simp [connectives]⟩
      rw [hpost] at havoids
      exact absurd hk (havoids k (List.mem_append_right _ List.mem_cons_self))

/-- Only a `SELECT` has a limit, and it is the last of it. -/
lemma statement_limit {s : Statement} (h : s.Shaped) (explicitAsc : Bool) :
    Avoids [.limit] (s.kinds explicitAsc) ∨ ∃ pre v, Avoids [.limit] pre ∧
      s.kinds explicitAsc = pre ++ [.limit, .integer v] ∧
        ∃ s' : Statement, s'.Shaped ∧ s'.kinds explicitAsc = pre ++ [.limit, .integer 0] := by
  have hlimit : ∀ k ∈ [TokenKind.limit], k ∈ clauseWords := by decide
  cases s with
  | select s =>
    have hprojections : Avoids [.limit] (commaKinds Projection.kinds s.projections) :=
      (avoids_comma fun p hp => avoids_projection (h.projections.2 p hp)).mono hlimit
    have hfrom := (avoids_from s.from_).mono hlimit
    have hgroupBy := (avoids_groupBy s.groupBy).mono hlimit
    have horderBy := (avoids_orderBy explicitAsc s.orderBy).mono hlimit
    have hfilter := avoids_whereClause h.filter
    have hpre : Avoids [.limit] (({ s with limit := none } : SelectStatement).kinds explicitAsc) := by
      have hnone : Avoids [.limit] (clauseKinds .limit (fun n => [.integer (Int64.ofNat n)]) none) := avoids_nil
      unfold SelectStatement.kinds
      simp only [avoids_cons, avoids_append, hprojections, hfrom, hfilter, hgroupBy, horderBy, hnone]
      decide
    have hkinds (n : Nat) : ({ s with limit := some n } : SelectStatement).kinds explicitAsc =
        ({ s with limit := none } : SelectStatement).kinds explicitAsc ++
          [.limit, .integer (Int64.ofNat n)] := by
      simp only [SelectStatement.kinds, clauseKinds, List.cons_append, List.append_assoc, List.nil_append]
    cases hs : s.limit with
    | none =>
      left
      have heq : ({ s with limit := none } : SelectStatement) = s := by rw [← hs]
      rw [heq] at hpre
      exact hpre
    | some n =>
      right
      have heq : ({ s with limit := some n } : SelectStatement) = s := by rw [← hs]
      have hn := hkinds n
      rw [heq] at hn
      refine ⟨_, _, hpre, hn, .select { s with limit := some 0 }, ?_, hkinds 0⟩
      refine ⟨h.projections, h.leftNested, h.filter, h.groupBy, ?_⟩
      intro m hm
      cases hm
      exact Nat.zero_le _
  | update s =>
    left
    have hfrom := (avoids_from s.from_).mono hlimit
    have hassignments : Avoids [.limit] (commaKinds Assignment.kinds s.assignments) :=
      (avoids_comma fun a _ => avoids_assignment a).mono hlimit
    have hfilter := avoids_whereClause h.filter
    unfold Statement.kinds UpdateStatement.kinds
    simp only [avoids_cons, avoids_append, hfrom, hassignments, hfilter]
    decide
  | delete s =>
    left
    have hfrom := (avoids_from s.from_).mono hlimit
    have htargets := (avoids_targets s.targets).mono hlimit
    have hfilter := avoids_whereClause h.filter
    unfold Statement.kinds DeleteStatement.kinds
    simp only [avoids_cons, avoids_append, hfrom, htargets, hfilter]
    decide
  | createTable s =>
    left
    exact avoids_cons.mpr ⟨by decide, (avoids_createTable s).mono hlimit⟩
  | createIndex s =>
    left
    exact avoids_cons.mpr ⟨by decide, (avoids_createIndex s).mono hlimit⟩
  | insert s =>
    left
    exact (avoids_insert s).mono hlimit

/-- Behind `LIMIT` a number may stand. -/
lemma begins_integer (h : Begins Sentence text) {front : List TokenKind} (htext : text = front ++ [.limit]) :
    Begins Sentence (text ++ [.integer 0]) := by
  have ⟨s, tail, hshaped, explicitAsc, hkinds⟩ := h
  have hmem : TokenKind.limit ∈ [TokenKind.limit] := List.mem_cons_self
  rw [htext, List.append_assoc, List.singleton_append] at hkinds
  cases statement_limit hshaped explicitAsc with
  | inl havoids =>
    have havoidsAll : Avoids [.limit] (s.kinds explicitAsc ++ [.semicolon]) :=
      avoids_append.mpr ⟨havoids, by simp⟩
    rw [← hkinds] at havoidsAll
    exact absurd hmem (havoidsAll .limit (List.mem_append_right _ List.mem_cons_self))
  | inr hlimit =>
    have ⟨pre, v, havoids, hs, s', hshaped', hs'⟩ := hlimit
    rw [hs, List.append_assoc] at hkinds
    have ⟨g, hg, hrest⟩ := split_of_avoids hkinds.symm hmem havoids
    cases g with
    | nil =>
      refine ⟨s', [.semicolon], hshaped', explicitAsc, ?_⟩
      rw [hs', htext, hg]
      simp only [List.append_assoc, List.append_nil, List.cons_append, List.nil_append]
    | cons k g =>
      have ⟨_, htail⟩ := List.cons_eq_cons.mp hrest
      have hbehind : Avoids [.limit] [TokenKind.integer v, .semicolon] := by simp
      have htail' : [TokenKind.integer v, .semicolon] = g ++ .limit :: tail := htail
      rw [htail'] at hbehind
      exact absurd hmem (hbehind .limit (List.mem_append_right _ List.mem_cons_self))

end GoesOn

/-! ### The offending token -/

def Accepts (tokens : List Token) : Prop := ∃ statement p, parse.run (new tokens) = .ok statement p

/-- Some accepted list begins with these tokens. -/
def Viable (tokens : List Token) : Prop := ∃ more, Accepts (tokens ++ more)

/-- The first token up to which no accepted list begins like this one. -/
def Offends (tokens : List Token) (i : Nat) (t : Token) : Prop :=
  tokens[i]? = some t ∧ ¬ Viable (tokens.take (i + 1)) ∧ ∀ j < i, Viable (tokens.take (j + 1))

/-- A token `k` behind `front` whose error has another position: behind a `CREATE` alone, a literal behind
`LIMIT`, and any token where a column is to be compared. -/
def Misplaced (front : List TokenKind) (k : TokenKind) : Prop :=
  front = [.create] ∨ (∃ front', front = front' ++ [.limit]) ∧ k.IsLiteral ∨ AtOperator front

/-- The errors with another position. -/
def Misreports (text : List (Token × Nat)) (t : Token × Nat) (e : ParseError) : Prop :=
  text.map source.kind = [.create] ∨
    ((∃ front, text.map source.kind = front ++ [.limit]) ∧ t.1.kind.IsLiteral ∧
      e = .unexpectedToken (t.2 + 1)) ∨
    AtOperator (text.map source.kind) ∧ e = .unexpectedToken t.2

lemma admits_misreports : Admits Misreports :=
  ⟨fun _ _ h => .inr (.inr ⟨h, rfl⟩), fun _ _ h hliteral => .inr (.inl ⟨h, hliteral, rfl⟩)⟩

section Offending

variable {tokens more : List Token} {t u c : Token} {i j : Nat} {text : List TokenKind} {k : TokenKind}

lemma Viable.of_append (h : Viable (tokens ++ more)) : Viable tokens := by
  have ⟨more', haccepts⟩ := h
  rw [List.append_assoc] at haccepts
  exact ⟨more ++ more', haccepts⟩

lemma viable_of_begins (h : Begins Sentence (tokens.map Token.kind)) : Viable tokens := by
  have ⟨s, tail, hshaped, explicitAsc, hkinds⟩ := h
  refine ⟨tail.map (fun k => ⟨k, 0⟩) ++ [⟨.eof, 0⟩], s, parse_complete hshaped explicitAsc ?_⟩
  have htail : (tail.map fun k => (⟨k, 0⟩ : Token)).map Token.kind = tail := by
    rw [List.map_map]
    exact List.map_id tail
  rw [List.map_append, List.map_append, htail, ← List.append_assoc, hkinds, List.append_assoc]
  rfl

lemma not_viable_of_stuck (h : Stuck rest parse (tokens.map Token.kind) t.kind) :
    ¬ Viable (tokens ++ [t]) := by
  intro ⟨more, s, p, hrun⟩
  apply h (new (tokens ++ [t] ++ more)) (more.map Token.kind) s p _ hrun
  rw [rest_new, List.append_assoc, List.map_append]
  rfl

lemma not_begins_of_stuck (h : Stuck rest parse text k) : ¬ Begins Sentence (text ++ [k]) := by
  intro hbegins
  have htext : (text.map fun k => (⟨k, 0⟩ : Token)).map Token.kind = text := by
    rw [List.map_map]
    exact List.map_id text
  have hstuck : Stuck rest parse ((text.map fun k => (⟨k, 0⟩ : Token)).map Token.kind)
      (⟨k, 0⟩ : Token).kind := by rwa [htext]
  apply not_viable_of_stuck hstuck
  apply viable_of_begins
  rw [List.map_append, htext]
  exact hbegins

/-- There is one offending token. -/
lemma Offends.unique (h : Offends tokens i t) (h' : Offends tokens j u) : i = j ∧ t = u := by
  have ⟨ht, hnot, hfront⟩ := h
  have ⟨hu, hnot', hfront'⟩ := h'
  have heq : i = j := by
    apply Nat.le_antisymm
    · by_contra hlt
      exact hnot' (hfront j (by omega))
    · by_contra hlt
      exact hnot (hfront' i (by omega))
  rw [heq, hu] at ht
  exact ⟨heq, Option.some.inj ht.symm⟩

/-- The error behind a `CREATE` alone has the offset of that token. -/
lemma run_create (hc : c.kind = .create) (htable : u.kind ≠ .table) (hindex : u.kind ≠ .index) :
    ∃ p, parse.run (new (c :: u :: more)) = .err (.unexpectedToken c.offset) p := by
  have hget : (new (c :: u :: more)).tokens[(new (c :: u :: more)).position]? = some c := rfl
  have hnext : (⟨c :: u :: more, 1⟩ : Parser).tokens[(⟨c :: u :: more, 1⟩ : Parser).position]? = some u := rfl
  have hexpect : (expect .create).run (new (c :: u :: more)) = .ok () ⟨c :: u :: more, 1⟩ := by
    have hne : c.kind ≠ .eof := by rw [hc]; decide
    rw [expect, run_bind, run_current hget, Outcome.andThen_ok, if_neg (not_not.mpr hc), run_advance hget hne]
    rfl
  have hbehind : (behindCreate c.offset).run (new (c :: u :: more)) =
      .err (.unexpectedToken c.offset) ⟨c :: u :: more, 1⟩ := by
    rw [behindCreate, run_bind, hexpect, Outcome.andThen_ok, run_bind, run_current hnext, Outcome.andThen_ok]
    split
    · next h => exact absurd h htable
    · next h => exact absurd h hindex
    · rfl
  have hstatement : parseStatement.run (new (c :: u :: more)) =
      .err (.unexpectedToken c.offset) ⟨c :: u :: more, 1⟩ := by
    rw [← hbehind, parseStatement, run_bind, run_current hget, Outcome.andThen_ok, hc]
    rfl
  exact ⟨_, by rw [parse, run_bind, hstatement, Outcome.andThen_err]⟩

/-- The places of the tokens. -/
lemma zipIdx_split {before after : List (Token × Nat)} {v : Token × Nat}
    (h : tokens.zipIdx = before ++ v :: after) :
    tokens.take before.length = before.map Prod.fst ∧ tokens[before.length]? = some v.1 ∧
      v.2 = before.length ∧ tokens = before.map Prod.fst ++ v.1 :: after.map Prod.fst := by
  have hfst : tokens = before.map Prod.fst ++ v.1 :: after.map Prod.fst := by
    rw [← List.map_cons, ← List.map_append, ← h, List.zipIdx_map_fst]
  have hget : tokens[before.length]? = some v.1 := by
    rw [hfst, List.getElem?_append_right (by rw [List.length_map]), List.length_map, Nat.sub_self]
    rfl
  have hplace : (tokens.zipIdx)[before.length]? = some v := by
    rw [h, List.getElem?_append_right (Nat.le_refl _), Nat.sub_self]
    rfl
  rw [List.getElem?_zipIdx, hget, Option.map_some] at hplace
  refine ⟨?_, hget, ?_, hfst⟩
  · rw [hfst, List.take_append_of_le_length (by rw [List.length_map]), ← List.length_map Prod.fst,
      List.take_length]
  · rw [← Option.some.inj hplace]
    exact Nat.zero_add _

end Offending

/-! ### Places and offsets -/

section Offsets

variable {tokens : List Token} {c t : Token} {i offset : Nat} {cs : List Char} {text : List TokenKind}
  {k : TokenKind}

/-- Every token has a byte at least. -/
lemma add_le_offset (h : Tokenizes offset cs tokens) (hget : tokens[i]? = some t) : offset + i ≤ t.offset := by
  induction h generalizing i with
  | eof hws =>
    cases i with
    | zero =>
      cases hget
      exact Nat.le_add_right _ _
    | succ i => cases hget
  | @token offset ws word rest kind tokens hws hlexeme hrest ih =>
    cases i with
    | zero =>
      cases hget
      exact Nat.le_add_right _ _
    | succ i =>
      have hle := ih hget
      have hpos : 0 < utf8Len word := by
        have ⟨hne, _⟩ := hlexeme.ne
        cases word with
        | nil => exact absurd rfl hne
        | cons c word => exact utf8Len_cons_pos
      omega

/-- A keyword that a statement begins with has six letters. -/
lemma six_le_utf8Len {word : List Char} (h : Lexeme word k) (hk : beginsStatement k) : 6 ≤ utf8Len word := by
  have hkeywords : ∀ x ∈ keywords, beginsStatement x.2 → x.1.toList.length = 6 := by decide
  cases h with
  | @word c cs _ _ =>
    unfold TokenKind.ofWord at hk
    cases hlookup : keywords.lookup (toAsciiUppercase (String.ofList (c :: cs))) with
    | none =>
      rw [hlookup] at hk
      simp [beginsStatement] at hk
    | some kind =>
      rw [hlookup] at hk
      have hlen := hkeywords _ (mem_of_lookup hlookup) hk
      rw [toAsciiUppercase, String.toList_ofList, String.toList_ofList, List.length_map] at hlen
      rw [← hlen]
      exact length_le_utf8Len
  | number => simp [beginsStatement] at hk
  | string => simp [beginsStatement] at hk
  | symbol hsymbol =>
    unfold symbolKind at hsymbol
    split at hsymbol <;> first | cases hsymbol; exact absurd hk (by decide) | cases hsymbol
  | _ => exact absurd hk (by decide)

/-- Behind the keyword that it begins with, the offset of a token is beyond its place. -/
lemma add_six_le_offset (h : Tokenizes offset cs (c :: tokens)) (hc : beginsStatement c.kind)
    (hget : tokens[i]? = some t) : i + 6 ≤ t.offset := by
  cases h with
  | eof hws => cases hget
  | @token _ ws word rest kind _ hws hlexeme hrest =>
    have hlen := six_le_utf8Len hlexeme hc
    have hle := add_le_offset hrest hget
    omega

lemma begins_head (h : Begins Sentence (k :: text)) : beginsStatement k := by
  have ⟨s, tail, _, explicitAsc, hkinds⟩ := h
  have hhead : some k = (s.kinds explicitAsc ++ [TokenKind.semicolon]).head? := congrArg List.head? hkinds
  cases s <;> cases Option.some.inj hhead <;> decide

end Offsets

/-! ### Errors -/

section Errors

variable {tokens : List Token} {t : Token} {e : ParseError} {p : Parser}

/-- A failed run stops at the offending token. -/
lemma parse_error_cases (herror : parse.run (new tokens) = .err e p) : ∃ i t, Offends tokens i t ∧
    Begins Sentence ((tokens.take i).map Token.kind) ∧
    Stuck rest parse ((tokens.take i).map Token.kind) t.kind ∧
    ((e = .unexpectedToken t.offset ∧
        ∀ k, like t.kind k → Stuck rest parse ((tokens.take i).map Token.kind) k) ∨
      (tokens.take i).map Token.kind = [.create] ∨
      ((∃ front, (tokens.take i).map Token.kind = front ++ [.limit]) ∧ t.kind.IsLiteral ∧
        e = .unexpectedToken (i + 1)) ∨
      AtOperator ((tokens.take i).map Token.kind) ∧ e = .unexpectedToken i) := by
  have hpoints := parse_points admits_misreports fun _ _ _ h => .inl h
  have ⟨text, v, more, hhere, _, hbegins, hstuck, hcase⟩ := (hpoints.points (new tokens)).fails e p herror
  have hzip : tokens.zipIdx = text ++ v :: more := by
    rw [← hhere]
    exact List.drop_zero.symm
  have ⟨htake, hget, hplace, hsplit⟩ := zipIdx_split hzip
  have hkinds : text.map source.kind = (tokens.take text.length).map Token.kind := by
    rw [htake, List.map_map]
    rfl
  have hmisreports (h : Misreports text v e) : (tokens.take text.length).map Token.kind = [.create] ∨
      ((∃ front, (tokens.take text.length).map Token.kind = front ++ [.limit]) ∧ v.1.kind.IsLiteral ∧
        e = .unexpectedToken (text.length + 1)) ∨
      AtOperator ((tokens.take text.length).map Token.kind) ∧ e = .unexpectedToken text.length := by
    unfold Misreports at h
    rwa [hkinds, hplace] at h
  rw [hkinds] at hbegins hstuck hcase
  have htakeNext : tokens.take (text.length + 1) = tokens.take text.length ++ [v.1] := by
    rw [List.take_add_one, hget]
    rfl
  have hoffends : Offends tokens text.length v.1 := by
    refine ⟨hget, ?_, ?_⟩
    · rw [htakeNext]
      exact not_viable_of_stuck hstuck
    · intro j hj
      have hviable := viable_of_begins hbegins
      have hsplit : tokens.take text.length =
          tokens.take (j + 1) ++ (tokens.take text.length).drop (j + 1) := by
        have hsub := List.take_append_drop (j + 1) (tokens.take text.length)
        rw [List.take_take, Nat.min_eq_left (by omega)] at hsub
        exact hsub.symm
      rw [hsplit] at hviable
      exact hviable.of_append
  exact ⟨text.length, v.1, hoffends, hbegins, hstuck, hcase.imp id hmisreports⟩

/-- Where the parser blames the token it stops at, an operator or a number could not stand there. -/
lemma not_misplaced {front : List TokenKind} {k : TokenKind} (hbegins : Begins Sentence front)
    (hlike : ∀ k', like k k' → Stuck rest parse front k') (hcreate : front ≠ [.create]) :
    ¬ Misplaced front k := by
  intro h
  rcases h with h | ⟨⟨front', h⟩, hliteral⟩ | h
  · exact hcreate h
  · exact not_begins_of_stuck (hlike (.integer 0) (.inr (.inr ⟨hliteral, rfl⟩))) (begins_integer hbegins h)
  · exact not_begins_of_stuck (hlike .lt (.inr (.inl rfl))) (begins_lt hbegins h)

/-- `CREATE TABLE` and `CREATE INDEX` begin statements. -/
lemma begins_create {k : TokenKind} (hk : k = .table ∨ k = .index) : Begins Sentence [.create, k] := by
  cases hk with
  | inl htable =>
    rw [htable]
    exact ⟨.createTable ⟨"", [⟨"", .int⟩]⟩, _, List.cons_ne_nil _ _, false, rfl⟩
  | inr hindex =>
    rw [hindex]
    exact ⟨.createIndex ⟨"", "", ""⟩, _, trivial, false, rfl⟩

/-- Behind a `CREATE` alone the error has the offset of that token. -/
lemma error_of_create {i : Nat} (herror : parse.run (new tokens) = .err e p) (hget : tokens[i]? = some t)
    (hstuck : Stuck rest parse ((tokens.take i).map Token.kind) t.kind)
    (hcreate : (tokens.take i).map Token.kind = [.create]) :
    ∃ c more, tokens = c :: t :: more ∧ e = .unexpectedToken c.offset := by
  have ⟨c, htake, hc⟩ := List.map_eq_singleton_iff.mp hcreate
  have hlt : i < tokens.length := (List.getElem?_eq_some_iff.mp hget).1
  have hi : i = 1 := by
    have hlen := congrArg List.length htake
    rw [List.length_take, List.length_singleton] at hlen
    omega
  subst hi
  cases tokens with
  | nil => cases hget
  | cons c' more =>
    cases more with
    | nil => cases hget
    | cons u more =>
      cases hget
      cases htake
      rw [hcreate] at hstuck
      have hne {k : TokenKind} (hk : k = .table ∨ k = .index) : t.kind ≠ k := by
        intro heq
        rw [heq] at hstuck
        exact not_begins_of_stuck hstuck (begins_create hk)
      have ⟨p', hrun⟩ := @run_create more t c hc (hne (.inl rfl)) (hne (.inr rfl))
      rw [herror] at hrun
      cases hrun
      exact ⟨c, more, rfl, rfl⟩

/-- Behind the first token of a statement offsets are beyond places. -/
lemma add_five_le_offset {cs : List Char} {i : Nat} (h : Tokenizes 0 cs tokens)
    (hbegins : Begins Sentence ((tokens.take i).map Token.kind)) (hget : tokens[i]? = some t) (hi : i ≠ 0) :
    i + 5 ≤ t.offset := by
  cases i with
  | zero => exact absurd rfl hi
  | succ i =>
    cases tokens with
    | nil => cases hget
    | cons c tokens =>
      have hle := add_six_le_offset h (begins_head hbegins) hget
      omega

end Errors

/-- The error of the parser has the offset of the offending token unless it stands behind a `CREATE` alone,
is a literal behind `LIMIT` or stands where a column is to be compared. -/
theorem parse_error_iff {input : String} {tokens : List Token} {l : Lexer} {position : Nat} {p : Parser}
    (htokens : Lexer.tokenize.run (.new input) = .ok tokens l)
    (herror : parse.run (new tokens) = .err (.unexpectedToken position) p) :
    (∃ i t, Offends tokens i t) ∧ ∀ i t, Offends tokens i t →
      (position = t.offset ↔ ¬ Misplaced ((tokens.take i).map Token.kind) t.kind) := by
  have htiles := Lexer.tokenizes_of_run htokens
  have ⟨i, t, hoffends, hbegins, hstuck, hcase⟩ := parse_error_cases herror
  refine ⟨⟨i, t, hoffends⟩, ?_⟩
  intro j u hu
  have ⟨hij, htu⟩ := hoffends.unique hu
  rw [← hij, ← htu]
  have hwrong (hne : position ≠ t.offset) (hmis : Misplaced ((tokens.take i).map Token.kind) t.kind) :
      position = t.offset ↔ ¬ Misplaced ((tokens.take i).map Token.kind) t.kind :=
    ⟨fun heq => absurd heq hne, fun hnot => absurd hmis hnot⟩
  have hbeyond (hi : i ≠ 0) : i + 5 ≤ t.offset := add_five_le_offset htiles hbegins hoffends.1 hi
  by_cases hcreate : (tokens.take i).map Token.kind = [.create]
  · have ⟨c, more, hsplit, herr⟩ := error_of_create herror hoffends.1 hstuck hcreate
    cases herr
    have ⟨_, hpairwise⟩ := htiles.offsets
    rw [hsplit] at hpairwise
    have hlt : c.offset < t.offset := (List.pairwise_cons.mp hpairwise).1 t List.mem_cons_self
    exact hwrong (Nat.ne_of_lt hlt) (.inl hcreate)
  · rcases hcase with ⟨herr, hlike⟩ | hfront | ⟨hlimit, hliteral, herr⟩ | ⟨hat, herr⟩
    · cases herr
      exact ⟨fun _ => not_misplaced hbegins hlike hcreate, fun _ => rfl⟩
    · exact absurd hfront hcreate
    · have hposition := ParseError.unexpectedToken.inj herr
      have hi : i ≠ 0 := by
        rintro rfl
        have ⟨front, hfront⟩ := hlimit
        simp at hfront
      have hle := hbeyond hi
      exact hwrong (by omega) (.inr (.inl ⟨hlimit, hliteral⟩))
    · have hposition := ParseError.unexpectedToken.inj herr
      have hi : i ≠ 0 := by
        rintro rfl
        have ⟨front, k, c, _, hfront⟩ := hat
        simp at hfront
      have hle := hbeyond hi
      exact hwrong (by omega) (.inr (.inr hat))

/-- `DELETE t;` lacks a `FROM`. -/
theorem parse_error_iff_delete : (∃ i t, Offends
      [⟨.delete, 0⟩, ⟨.identifier "t", 7⟩, ⟨.semicolon, 8⟩, ⟨.eof, 9⟩] i t) ∧
    ∀ i t, Offends [⟨.delete, 0⟩, ⟨.identifier "t", 7⟩, ⟨.semicolon, 8⟩, ⟨.eof, 9⟩] i t →
      (8 = t.offset ↔ ¬ Misplaced
        (([⟨.delete, 0⟩, ⟨.identifier "t", 7⟩, ⟨.semicolon, 8⟩, ⟨.eof, 9⟩].take i).map Token.kind) t.kind) :=
  @parse_error_iff "DELETE t;" _ ⟨"DELETE t;", 9⟩ 8 ⟨_, 2⟩ rfl rfl

/-- `CREATE x` is said to have an unexpected token at 0, but a statement may begin with `CREATE`. -/
theorem create_misreported :
    Lexer.tokenize.run (.new "CREATE x") =
        .ok [⟨.create, 0⟩, ⟨.identifier "x", 7⟩, ⟨.eof, 8⟩] ⟨"CREATE x", 8⟩ ∧
      (∃ p, parse.run (new [⟨.create, 0⟩, ⟨.identifier "x", 7⟩, ⟨.eof, 8⟩]) =
        .err (.unexpectedToken 0) p) ∧
      ¬ ∃ i t, Offends [⟨.create, 0⟩, ⟨.identifier "x", 7⟩, ⟨.eof, 8⟩] i t ∧ 0 = t.offset := by
  refine ⟨rfl, ⟨_, rfl⟩, ?_⟩
  intro ⟨i, t, ⟨hget, hnot, _⟩, hoffset⟩
  match i with
  | 0 =>
    apply hnot
    exact ⟨[⟨.index, 0⟩, ⟨.identifier "i", 0⟩, ⟨.on, 0⟩, ⟨.identifier "t", 0⟩, ⟨.leftParen, 0⟩,
      ⟨.identifier "c", 0⟩, ⟨.rightParen, 0⟩, ⟨.semicolon, 0⟩, ⟨.eof, 0⟩], _, _, rfl⟩
  | 1 => cases hget; cases hoffset
  | 2 => cases hget; cases hoffset
  | _ + 3 => cases hget

end Parser

end RdbRs
