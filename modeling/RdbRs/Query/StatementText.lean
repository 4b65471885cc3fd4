import RdbRs.Lib.Loop
import RdbRs.Query.ParserSafety
import RdbRs.Query.ParserSpec
import RdbRs.Query.TokenText

/-!
# The texts of statements

From a text to its statement and back. The statements that a text can stand for are those that the parser builds
from names, numbers and strings that can be written down, and each of them is the statement of its own text.
-/

namespace RdbRs

/-- Why a text is no statement. -/
inductive TextError where
  | lexer (error : LexError)
  | parser (error : ParseError)
  deriving DecidableEq

/-- The statement of a text: its tokens, parsed. -/
def readStatement {σ : Type} (input : String) : Exec TextError σ Statement := do
  let (tokens, _) ← Exec.mapErr .lexer (Exec.withLocal (Lexer.new input) Lexer.tokenize)
  let (statement, _) ← Exec.mapErr .parser (Exec.withLocal (Parser.new tokens) Parser.parse)
  pure statement

namespace Statement

/-- The tokens of a statement with single spaces between them. -/
def text (s : Statement) : String := " ".intercalate ((s.kinds false ++ [TokenKind.semicolon]).map TokenKind.text)

/-- Each token of the statement can be written down. -/
def Printable (s : Statement) : Prop := ∀ kind ∈ s.kinds false, kind.Printable

end Statement

section Tokens

variable {text cs : List Char} {kind : TokenKind} {offset : Nat} {tokens : List Token}

lemma printable_of_mem_keywords : ∀ x ∈ keywords, x.2.Printable := by
  rw [← List.forall_iff_forall_mem]
  repeat' constructor

/-- What the lexer finds can be written down. -/
lemma Lexeme.printable (h : Lexeme text kind) : kind.Printable := by
  cases h with
  | @word c cs hstart hcs =>
    unfold TokenKind.ofWord
    cases hlookup : keywords.lookup (toAsciiUppercase (String.ofList (c :: cs))) with
    | some kind => exact printable_of_mem_keywords _ (mem_of_lookup hlookup)
    | none =>
      rw [List.lookup_eq_none_iff] at hlookup
      refine ⟨?_, fun x hx => bne_iff_ne.mp (hlookup x hx)⟩
      rw [String.toList_ofList]
      exact ⟨hstart, List.all_eq_true.mpr hcs⟩
  | number hdigits hvalue =>
    unfold parseI64 at hvalue
    simp only at hvalue
    split at hvalue
    · rename_i hlt
      cases hvalue
      show 0 ≤ (Int64.ofNat _).toInt
      rw [Int64.toInt_ofNat_of_lt hlt]
      exact Int.natCast_nonneg _
    · cases hvalue
  | string hword =>
    show quote ∉ (String.ofList _).toList
    rwa [String.toList_ofList]
  | symbol hsymbol =>
    unfold symbolKind at hsymbol
    split at hsymbol <;> cases hsymbol <;> trivial
  | _ => trivial

lemma Tokenizes.printable (h : Tokenizes offset cs tokens) :
    ∀ token ∈ tokens, token.kind ≠ .eof → token.kind.Printable := by
  induction h with
  | eof =>
    intro token htoken hne
    rw [List.mem_singleton] at htoken
    rw [htoken] at hne
    exact absurd rfl hne
  | token _ hlexeme _ ih =>
    intro token htoken hne
    rcases List.mem_cons.mp htoken with rfl | hrest
    · exact hlexeme.printable
    · exact ih token hrest hne

end Tokens

/-! ### Statements -/

section Kinds

/-- `ASC` is the only token that may be left out. -/
lemma SelectStatement.kinds_subset (s : SelectStatement) : s.kinds false ⊆ s.kinds true := by
  have horder : clauseKinds .order (fun o => .by_ :: OrderBy.kinds false o) s.orderBy ⊆
      clauseKinds .order (fun o => .by_ :: OrderBy.kinds true o) s.orderBy := by
    cases s.orderBy with
    | none => exact List.Subset.refl _
    | some order =>
      obtain ⟨column, direction⟩ := order
      cases direction with
      | asc =>
        apply List.cons_subset_cons
        apply List.cons_subset_cons
        simp [OrderBy.kinds]
      | desc => exact List.Subset.refl _
  intro kind hkind
  have hkind' := @horder kind
  simp only [SelectStatement.kinds, List.mem_cons, List.mem_append] at hkind ⊢
  tauto

lemma Statement.kinds_subset (explicitAsc : Bool) (s : Statement) : s.kinds false ⊆ s.kinds explicitAsc := by
  cases explicitAsc with
  | false => exact List.Subset.refl _
  | true =>
    cases s with
    | select s => exact s.kinds_subset
    | _ => exact List.Subset.refl _

end Kinds

/-- The tokens of the text are parsed as the statement. -/
def Reads (input : String) (s : Statement) : Prop :=
  (readStatement input : Exec TextError Unit Statement).run () = .ok s ()

section Reads

variable {input : String} {s : Statement} {tokens : List Token} {l : Lexer}

/-- The tokens of a text are parsed. -/
lemma readStatement_eq {σ : Type} (hlex : Lexer.tokenize.run (.new input) = .ok tokens l) :
    (readStatement input : Exec TextError σ Statement) =
      (do
        let parsed ← Exec.mapErr .parser (Exec.withLocal (Parser.new tokens) Parser.parse)
        pure parsed.1) := by
  apply Exec.ext_run
  intro t
  rw [readStatement, Exec.run_bind, Exec.run_mapErr, Exec.run_withLocal, hlex]
  rfl

/-- A text is read as a statement, or refused. The state does not matter. -/
lemma readStatement_cases (input : String) :
    (∃ tokens l s p, Lexer.tokenize.run (.new input) = .ok tokens l ∧
      Parser.parse.run (.new tokens) = .ok s p ∧
      ∀ σ : Type, (readStatement input : Exec TextError σ Statement) = pure s) ∨
    ∃ e, ∀ σ : Type, (readStatement input : Exec TextError σ Statement) = Exec.throw e := by
  rcases @Lexer.run_tokenize input with ⟨e, l, hlex⟩ | ⟨tokens, l, hlex, htokens⟩
  · refine .inr ⟨.lexer e, fun σ => Exec.ext_run fun t => ?_⟩
    rw [readStatement, Exec.run_bind, Exec.run_mapErr, Exec.run_withLocal, hlex]
    rfl
  · obtain ⟨init, hinit, -⟩ := (Lexer.tokenizes_of_run hlex).last
    have hnew : Parser.InFrontOf tokens init.length (.new tokens) :=
      ⟨rfl, Nat.zero_le _, _, by rw [hinit, List.getElem?_concat_length], rfl⟩
    obtain ⟨p, hreturns, -⟩ := (Parser.parse_halts _ hnew).returns
    rcases hreturns with ⟨s, hparse⟩ | ⟨e, hparse⟩
    · refine .inl ⟨tokens, l, s, p, hlex, hparse, fun σ => Exec.ext_run fun t => ?_⟩
      rw [readStatement_eq hlex, Exec.run_bind, Exec.run_mapErr, Exec.run_withLocal, hparse]
      rfl
    · refine .inr ⟨.parser e, fun σ => Exec.ext_run fun t => ?_⟩
      rw [readStatement_eq hlex, Exec.run_bind, Exec.run_mapErr, Exec.run_withLocal, hparse]
      rfl

/-- Every text is read as a statement or refused. -/
lemma reads_or_refused (input : String) :
    (∃ s, Reads input s ∧ ∀ σ : Type, (readStatement input : Exec TextError σ Statement) = pure s) ∨
      ∃ e, ∀ σ : Type, (readStatement input : Exec TextError σ Statement) = Exec.throw e := by
  apply (readStatement_cases input).imp_left
  rintro ⟨tokens, l, s, p, -, -, hread⟩
  refine ⟨s, ?_, hread⟩
  rw [Reads, hread Unit, Exec.run_pure]

lemma Reads.parses (h : Reads input s) : ∃ tokens l p, Lexer.tokenize.run (.new input) = .ok tokens l ∧
    Parser.parse.run (.new tokens) = .ok s p := by
  rcases readStatement_cases input with ⟨tokens, l, s', p, hlex, hparse, hread⟩ | ⟨e, hread⟩
  · rw [Reads, hread Unit, Exec.run_pure] at h
    cases h
    exact ⟨tokens, l, p, hlex, hparse⟩
  · rw [Reads, hread Unit, Exec.run_throw] at h
    cases h

lemma reads_of_tokens {p : Parser} (hlex : Lexer.tokenize.run (.new input) = .ok tokens l)
    (hparse : Parser.parse.run (.new tokens) = .ok s p) : Reads input s := by
  rw [Reads, readStatement_eq hlex, Exec.run_bind, Exec.run_mapErr, Exec.run_withLocal, hparse]
  rfl

/-- The tokens of a text are those of its statement, up to an `ASC` that may be left out. -/
lemma Reads.kinds (h : Reads input s) : s.Shaped ∧ ∃ explicitAsc tokens l,
    Lexer.tokenize.run (.new input) = .ok tokens l ∧ tokens.map Token.kind = s.canonical explicitAsc := by
  obtain ⟨tokens, l, p, hlex, hparse⟩ := h.parses
  obtain ⟨init, hinit, hne⟩ := (Lexer.tokenizes_of_run hlex).last
  obtain ⟨hshaped, explicitAsc, hkinds⟩ := Parser.parse_sound ⟨init, _, hinit, rfl, hne⟩ hparse
  exact ⟨hshaped, explicitAsc, tokens, l, hlex, hkinds⟩

/-- The statements of texts can be printed. -/
lemma Reads.printable (h : Reads input s) : s.Printable := by
  obtain ⟨-, explicitAsc, tokens, l, hlex, hkinds⟩ := h.kinds
  have htokens := Lexer.tokenizes_of_run hlex
  obtain ⟨init, hinit, hne⟩ := htokens.last
  have hcanonical : s.canonical explicitAsc = s.kinds explicitAsc ++ [.semicolon] ++ [.eof] := by
    rw [Statement.canonical, List.append_assoc]
    rfl
  have hinner : init.map Token.kind = s.kinds explicitAsc ++ [.semicolon] := by
    rw [hinit, List.map_append, hcanonical] at hkinds
    exact List.append_cancel_right hkinds
  intro kind hkind
  have hmem : kind ∈ init.map Token.kind := by
    rw [hinner]
    exact List.mem_append_left _ (s.kinds_subset explicitAsc hkind)
  obtain ⟨token, htoken, rfl⟩ := List.mem_map.mp hmem
  apply htokens.printable token _ (hne token htoken)
  rw [hinit]
  exact List.mem_append_left _ htoken

/-- The text of a statement is read as the statement. -/
lemma reads_text (hshaped : s.Shaped) (hprintable : s.Printable) : Reads s.text s := by
  have hkinds : ∀ kind ∈ s.kinds false ++ [TokenKind.semicolon], kind.Printable := by
    intro kind hkind
    rcases List.mem_append.mp hkind with hkind | hkind
    · exact hprintable kind hkind
    · rw [List.mem_singleton.mp hkind]
      trivial
  obtain ⟨tokens, l, hlex, htokens⟩ := Lexer.run_tokenize_spaced (Spaced.of_kinds hkinds)
  have hcanonical : tokens.map Token.kind = s.canonical false := by
    rw [htokens, Statement.canonical, List.append_assoc]
    rfl
  obtain ⟨p, hparse⟩ := Parser.parse_complete hshaped false hcanonical
  exact reads_of_tokens hlex hparse

end Reads

/-- Every text is read as one statement or refused. The statements that are read are those that can be printed, each
of them is read from its own text, and a text has the tokens of its statement, up to an explicit `ASC`. -/
theorem readStatement_exact (input : String) (s : Statement) :
    ((∃ s, Reads input s) ∨ ∃ e, (readStatement input : Exec TextError Unit Statement) = Exec.throw e) ∧
    (Reads input s → s.Shaped ∧ s.Printable ∧ ∃ explicitAsc tokens l,
      Lexer.tokenize.run (.new input) = .ok tokens l ∧ tokens.map Token.kind = s.canonical explicitAsc) ∧
    (s.Shaped → s.Printable → Reads s.text s) := by
  refine ⟨?_, ?_, reads_text⟩
  · rcases reads_or_refused input with ⟨s, hread, -⟩ | ⟨e, hrefused⟩
    · exact .inl ⟨s, hread⟩
    · exact .inr ⟨e, hrefused Unit⟩
  · intro hread
    exact ⟨hread.kinds.1, hread.printable, hread.kinds.2⟩

theorem readStatement_exact_delete :
    let s : Statement := .delete ⟨none, .table ⟨"t", none⟩, none⟩
    s.text = "DELETE FROM t ;" ∧ Reads s.text s := by
  intro s
  have hshaped : s.Shaped := ⟨fun _ h => (by cases h), trivial, fun _ h => (by cases h)⟩
  have hprintable : s.Printable := by
    intro kind hkind
    have hkind' : kind ∈ [TokenKind.delete, .from_, .identifier "t"] := hkind
    simp only [List.mem_cons, List.not_mem_nil, or_false] at hkind'
    rcases hkind' with rfl | rfl | rfl
    · trivial
    · trivial
    · exact ⟨by decide, by decide⟩
  exact ⟨by decide, (readStatement_exact "" s).2.2 hshaped hprintable⟩

end RdbRs
