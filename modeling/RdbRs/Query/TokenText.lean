import RdbRs.Query.LexerSpec

/-!
# Printing tokens

The text of a token, and that the lexer reads the tokens back from their texts.
-/

namespace RdbRs

open String (utf8Len)

/-- The text of a token; a keyword is written in capitals. -/
def TokenKind.text : TokenKind → String
  | .identifier name => name
  | .integer value => toString value.toInt
  | .stringLiteral value => String.ofList (quote :: (value.toList ++ [quote]))
  | .leftParen => "("
  | .rightParen => ")"
  | .comma => ","
  | .semicolon => ";"
  | .asterisk => "*"
  | .dot => "."
  | .eq => "="
  | .notEq => "!="
  | .lt => "<"
  | .gt => ">"
  | .ltEq => "<="
  | .gtEq => ">="
  | .eof => ""
  | kind => ((keywords.find? fun x => x.2 = kind).map Prod.fst).getD ""

/-- `[A-Za-z_][A-Za-z0-9_]*`. -/
def IsWord : List Char → Prop
  | [] => False
  | c :: cs => isWordStart c = true ∧ cs.all isWordChar = true

instance : DecidablePred IsWord
  | [] => inferInstanceAs (Decidable False)
  | c :: cs => inferInstanceAs (Decidable (isWordStart c = true ∧ cs.all isWordChar = true))

/-- The tokens that can be written down: an identifier is a word that is no keyword in any letter case,
a string has no quote in it, an integer no sign. -/
def TokenKind.Printable : TokenKind → Prop
  | .identifier name => IsWord name.toList ∧ ∀ x ∈ keywords, toAsciiUppercase name ≠ x.1
  | .integer value => 0 ≤ value.toInt
  | .stringLiteral value => quote ∉ value.toList
  | .eof => False
  | _ => True

/-! ### A token in front of whitespace -/

section Front

variable {c : Char} {start : Nat} {cs text rest : List Char} {kind : TokenKind} {p : Char → Bool}

lemma isWordChar_of_isWhitespace (h : isWhitespace c = true) : isWordChar c = false := by
  cases hword : isWordChar c with
  | false => rfl
  | true =>
    unfold isWordChar Char.isAlphanum Char.isAlpha Char.isUpper Char.isLower Char.isDigit at hword
    simp only [Bool.or_eq_true, Bool.and_eq_true, decide_eq_true_eq, beq_iff_eq, ge_iff_le,
      UInt32.le_iff_toNat_le, Char.reduceVal, UInt32.reduceToNat] at hword
    simp only [isWhitespace, Char.toNat, Bool.or_eq_true, Bool.and_eq_true, decide_eq_true_eq,
      beq_iff_eq] at h
    cases hword with
    | inl hrange => omega
    | inr heq =>
      rw [heq] at h
      exact absurd h (by decide)

lemma takeWhile_front (hcs : ∀ d ∈ cs, p d = true) (hrest : ∀ d ∈ rest.head?, p d = false) :
    (cs ++ rest).takeWhile p = cs := by
  rw [List.takeWhile_append_of_pos hcs]
  cases rest with
  | nil => rw [List.takeWhile_nil, List.append_nil]
  | cons d rest =>
    have hd := hrest d rfl
    rw [List.takeWhile_cons, hd]
    simp

lemma isWordChar_of_isWordStart (h : isWordStart c = true) : isWordChar c = true := by
  unfold isWordStart at h
  unfold isWordChar Char.isAlphanum
  rw [Bool.or_assoc, Bool.or_comm c.isDigit, ← Bool.or_assoc, h, Bool.true_or]

lemma isWordChar_of_isDigit (h : c.isDigit = true) : isWordChar c = true := by
  unfold isWordChar Char.isAlphanum
  rw [h, Bool.or_true, Bool.true_or]

lemma isWordStart_of_isDigit (h : c.isDigit = true) : isWordStart c = false := by
  cases hword : isWordStart c with
  | false => rfl
  | true =>
    unfold isWordStart Char.isAlpha Char.isUpper Char.isLower at hword
    simp only [Bool.or_eq_true, Bool.and_eq_true, decide_eq_true_eq, beq_iff_eq, ge_iff_le,
      UInt32.le_iff_toNat_le, Char.reduceVal, UInt32.reduceToNat] at hword
    unfold Char.isDigit at h
    simp only [Bool.and_eq_true, decide_eq_true_eq, ge_iff_le, UInt32.le_iff_toNat_le, Char.reduceVal,
      UInt32.reduceToNat] at h
    cases hword with
    | inl hrange => omega
    | inr heq =>
      rw [heq] at h
      exact absurd h (by decide)

lemma isWhitespace_of_symbolKind (h : symbolKind c = some kind) : isWhitespace c = false := by
  unfold symbolKind at h
  split at h <;> first | rfl | cases h

/-- A token does not begin with whitespace. -/
lemma Lexeme.front (h : Lexeme text kind) : ∀ c ∈ text.head?, isWhitespace c = false := by
  intro c hc
  cases hspace : isWhitespace c with
  | false => rfl
  | true =>
    exfalso
    have hword := isWordChar_of_isWhitespace hspace
    cases h with
    | word hstart hcs =>
      cases hc
      rw [isWordChar_of_isWordStart hstart] at hword
      cases hword
    | number hdigits hvalue =>
      cases hc
      rw [isWordChar_of_isDigit (hdigits _ List.mem_cons_self)] at hword
      cases hword
    | symbol hsymbol =>
      cases hc
      rw [isWhitespace_of_symbolKind hsymbol] at hspace
      cases hspace
    | _ =>
      cases hc
      exact absurd hspace (by decide)

/-- In front of whitespace `scan` finds the whole token. -/
lemma Lexeme.scan (h : Lexeme text kind) (hrest : ∀ d ∈ rest.head?, isWhitespace d = true) :
    Lexer.scan start (text ++ rest) = .ok (kind, text) := by
  have hword (d : Char) (hd : d ∈ rest.head?) := isWordChar_of_isWhitespace (hrest d hd)
  have hdigit : ∀ d ∈ rest.head?, d.isDigit = false := by
    intro d hd
    cases hdigit : d.isDigit with
    | false => rfl
    | true => rw [← hword d hd, isWordChar_of_isDigit hdigit]
  have hequals : rest.head? ≠ some '=' := fun heq => absurd (hrest '=' heq) (by decide)
  cases h with
  | @word c cs hstart hcs =>
    rw [List.cons_append, Lexer.scan, if_pos hstart, takeWhile_front hcs hword]
  | @number c cs value hdigits hvalue =>
    have hc := hdigits c List.mem_cons_self
    have hcs : ∀ d ∈ cs, d.isDigit = true := fun d hd => hdigits d (List.mem_cons_of_mem c hd)
    rw [List.cons_append, Lexer.scan, if_neg, if_pos hc, takeWhile_front hcs hdigit]
    dsimp only
    rw [hvalue]
    rw [isWordStart_of_isDigit hc]
    exact Bool.false_ne_true
  | @string word hword =>
    have hall : ∀ d ∈ word, decide (d ≠ quote) = true := by
      intro d hd
      apply decide_eq_true
      intro heq
      rw [heq] at hd
      exact hword hd
    have htake : (word ++ (quote :: rest)).takeWhile (fun d => decide (d ≠ quote)) = word := by
      apply takeWhile_front hall
      intro d hd
      cases hd
      exact decide_eq_false fun hne => hne rfl
    have hmem : quote ∈ word ++ (quote :: rest) := List.mem_append_right _ List.mem_cons_self
    rw [List.cons_append, List.append_assoc, List.singleton_append, Lexer.scan, if_neg (by decide),
      if_neg (by decide), if_pos rfl, htake, if_pos hmem]
  | lt =>
    rw [List.singleton_append, Lexer.scan, if_neg (by decide), if_neg (by decide), if_neg (by decide),
      if_neg (by decide), if_pos rfl, if_neg hequals]
  | gt =>
    rw [List.singleton_append, Lexer.scan, if_neg (by decide), if_neg (by decide), if_neg (by decide),
      if_neg (by decide), if_neg (by decide), if_pos rfl, if_neg hequals]
  | symbol hsymbol =>
    unfold symbolKind at hsymbol
    split at hsymbol <;> cases hsymbol <;> rfl
  | _ => rfl

end Front

/-- A text whose tokens are followed by whitespace or the end. -/
inductive Spaced : List Char → List TokenKind → Prop where
  | nil : Spaced [] []
  | cons {ws text rest : List Char} {kind : TokenKind} {kinds : List TokenKind} :
      (∀ c ∈ ws, isWhitespace c = true) → Lexeme text kind →
      (∀ d ∈ rest.head?, isWhitespace d = true) → Spaced rest kinds →
      Spaced (ws ++ (text ++ rest)) (kind :: kinds)

namespace Lexer

variable {input : String} {pre cs : List Char} {n : Nat} {kinds : List TokenKind} {tokens : List Token}

/-- The loop of `tokenize` reads the tokens of such a text. -/
lemma run_tokenizeLoop_spaced (hspaced : Spaced cs kinds) (h : input.toList = pre ++ cs)
    (hn : cs.length < n) : ∃ rest l, (tokenizeLoop n tokens).run (behind input pre) =
      .ok (tokens ++ rest) l ∧ rest.map Token.kind = kinds ++ [.eof] := by
  induction hspaced generalizing pre n tokens with
  | nil =>
    cases n with
    | zero => omega
    | succ n =>
      have hnext := run_nextToken h
      simp only [List.takeWhile_nil, List.dropWhile_nil, List.append_nil] at hnext
      rw [tokenizeLoop, Exec.run_bind, show nextToken.run (behind input pre) = _ from hnext,
        Outcome.andThen_ok, if_pos rfl]
      exact ⟨_, _, rfl, rfl⟩
  | @cons ws text rest kind kinds hws hlexeme hrest hspaced ih =>
    cases n with
    | zero => omega
    | succ n =>
      have hfront : ∀ c ∈ (text ++ rest).head?, isWhitespace c = false := by
        obtain ⟨hne, _⟩ := hlexeme.ne
        cases text with
        | nil => exact absurd rfl hne
        | cons c text => exact hlexeme.front
      have htake : (ws ++ (text ++ rest)).takeWhile isWhitespace = ws := takeWhile_front hws hfront
      have hdrop : (ws ++ (text ++ rest)).dropWhile isWhitespace = text ++ rest := by
        have hsplit := @List.takeWhile_append_dropWhile _ isWhitespace (ws ++ (text ++ rest))
        rw [htake] at hsplit
        exact List.append_cancel_left hsplit
      have hnext := run_nextToken h
      rw [htake, hdrop, hlexeme.scan hrest] at hnext
      have hbehind : input.toList = (pre ++ ws ++ text) ++ rest := by
        rw [h, List.append_assoc, List.append_assoc]
      have hlen : rest.length < n := by
        have hpos := List.length_pos_of_ne_nil hlexeme.ne.1
        rw [List.length_append, List.length_append] at hn
        omega
      obtain ⟨more, l, hrun, hmore⟩ := @ih _ n (tokens ++ [⟨kind, utf8Len (pre ++ ws)⟩]) hbehind hlen
      rw [tokenizeLoop, Exec.run_bind, show nextToken.run (behind input pre) = _ from hnext,
        Outcome.andThen_ok, if_neg hlexeme.ne.2, hrun]
      refine ⟨⟨kind, utf8Len (pre ++ ws)⟩ :: more, l, ?_, ?_⟩
      · rw [List.append_assoc, List.singleton_append]
      · rw [List.map_cons, hmore, List.cons_append]

lemma run_tokenize_spaced (hspaced : Spaced input.toList kinds) : ∃ tokens l,
    tokenize.run (new input) = .ok tokens l ∧ tokens.map Token.kind = kinds ++ [.eof] := by
  have h : input.toList = [] ++ input.toList := rfl
  rw [tokenize, Exec.run_bind, Exec.run_gets, Outcome.andThen_ok]
  exact run_tokenizeLoop_spaced hspaced h (length_lt_rounds h)

end Lexer

/-! ### The texts of tokens -/

section Texts

variable {kind : TokenKind} {name word : String} {value : Int64} {kinds : List TokenKind}

/-- A word is written as itself. -/
lemma Lexeme.of_isWord (h : IsWord name.toList) : Lexeme name.toList (.ofWord name) := by
  cases hname : name.toList with
  | nil =>
    rw [hname] at h
    exact h.elim
  | cons c cs =>
    rw [hname] at h
    have heq : name = String.ofList (c :: cs) := by rw [← hname, String.ofList_toList]
    rw [heq]
    exact .word h.1 (List.all_eq_true.mp h.2)

/-- No two arms of `TokenKind::from` take the same word. -/
lemma keywords_spec : ∀ x ∈ keywords, IsWord x.1.toList ∧ TokenKind.ofWord x.1 = x.2 := by
  decide

lemma Lexeme.of_keyword (h : (word, kind) ∈ keywords) : Lexeme word.toList kind := by
  have ⟨hword, hkind⟩ := keywords_spec _ h
  have hlexeme := Lexeme.of_isWord hword
  rwa [hkind] at hlexeme

lemma parseI64_toDigits {n : Nat} (h : n < 2 ^ 63) :
    parseI64 (String.ofList (Nat.toDigits 10 n)) = some (Int64.ofNat n) := by
  unfold parseI64
  rw [String.toList_ofList, Nat.ofDigitChars_ten_toDigits]
  exact if_pos h

lemma Lexeme.of_integer (h : 0 ≤ value.toInt) : Lexeme (toString value.toInt).toList (.integer value) := by
  have ⟨n, hn⟩ := Int.eq_ofNat_of_zero_le h
  have hlt : n < 2 ^ 63 := by
    have := value.toInt_lt
    omega
  have hvalue : Int64.ofNat n = value := by
    rw [← Int64.ofInt_eq_ofNat, ← hn, Int64.ofInt_toInt]
  have htext : (toString value.toInt).toList = Nat.toDigits 10 n := by
    rw [hn]
    exact Nat.toList_repr
  have hdigits : ∀ d ∈ Nat.toDigits 10 n, d.isDigit = true := fun d =>
    Nat.isDigit_of_mem_toDigits (by decide) (by decide)
  have hparse := parseI64_toDigits hlt
  rw [htext]
  cases htoDigits : Nat.toDigits 10 n with
  | nil => exact absurd htoDigits Nat.toDigits_ne_nil
  | cons c cs =>
    rw [htoDigits, hvalue] at hparse
    rw [htoDigits] at hdigits
    exact .number hdigits hparse

lemma ofWord_eq_identifier (h : ∀ x ∈ keywords, toAsciiUppercase name ≠ x.1) :
    TokenKind.ofWord name = .identifier name := by
  have hnone : keywords.lookup (toAsciiUppercase name) = none := by
    rw [List.lookup_eq_none_iff]
    intro x hx
    rw [bne_iff_ne]
    exact h x hx
  unfold TokenKind.ofWord
  rw [hnone]

/-- The text of a token stands for the token. -/
lemma Lexeme.of_text (h : kind.Printable) : Lexeme kind.text.toList kind := by
  cases kind with
  | identifier name =>
    have hlexeme := Lexeme.of_isWord h.1
    rwa [ofWord_eq_identifier h.2] at hlexeme
  | integer value =>
    have hnonneg : 0 ≤ value.toInt := h
    exact Lexeme.of_integer hnonneg
  | stringLiteral value =>
    have hquote : quote ∉ value.toList := h
    have hlexeme := Lexeme.string hquote
    rw [String.ofList_toList] at hlexeme
    change Lexeme (String.ofList _).toList _
    rwa [String.toList_ofList]
  | eof => exact h.elim
  | notEq => exact .notEq
  | lt => exact .lt
  | gt => exact .gt
  | ltEq => exact .ltEq
  | gtEq => exact .gtEq
  | leftParen | rightParen | comma | semicolon | asterisk | dot | eq => exact .symbol rfl
  | _ => exact .of_keyword (by decide)

/-- The texts of tokens with one space between any two of them. -/
lemma Spaced.of_texts {ws : List Char} (hws : ∀ c ∈ ws, isWhitespace c = true)
    (hne : kinds ≠ []) (h : ∀ kind ∈ kinds, kind.Printable) :
    Spaced (ws ++ [' '].intercalate (kinds.map fun kind => kind.text.toList)) kinds := by
  induction kinds generalizing ws with
  | nil => exact absurd rfl hne
  | cons kind kinds ih =>
    have hlexeme := Lexeme.of_text (h kind List.mem_cons_self)
    have hkinds (next : TokenKind) (hnext : next ∈ kinds) := h next (List.mem_cons_of_mem kind hnext)
    cases kinds with
    | nil =>
      have hend : ∀ d ∈ ([] : List Char).head?, isWhitespace d = true := by
        intro d hd
        cases hd
      have hspaced := Spaced.cons hws hlexeme hend .nil
      rw [List.append_nil] at hspaced
      rwa [List.map_singleton, List.intercalate_singleton]
    | cons next kinds =>
      have hspace : ∀ c ∈ [' '], isWhitespace c = true := by
        intro c hc
        rw [List.mem_singleton.mp hc]
        rfl
      have hrest := ih hspace (List.cons_ne_nil next kinds) hkinds
      have hspaced := Spaced.cons hws hlexeme (fun d hd => hspace d ?_) hrest
      · rwa [List.map_cons, List.map_cons, List.intercalate_cons_cons, List.append_assoc]
      · cases hd
        exact List.mem_cons_self

lemma Spaced.of_kinds (h : ∀ kind ∈ kinds, kind.Printable) :
    Spaced (" ".intercalate (kinds.map TokenKind.text)).toList kinds := by
  rw [String.toList_intercalate, List.map_map]
  cases kinds with
  | nil => exact .nil
  | cons kind kinds =>
    have hnil : ∀ c ∈ ([] : List Char), isWhitespace c = true := by
      intro c hc
      cases hc
    exact Spaced.of_texts hnil (List.cons_ne_nil kind kinds) h

end Texts

/-- The lexer comes back for every input, whose slices all begin and end between two characters. The
tokens it returns take the input apart: each but the last one, which is the end of the input, is written
with one character or more, one begins behind the other, and there is only whitespace between them. From
the texts of tokens with single spaces between them it reads these tokens. -/
theorem tokenize_tiles_and_inverts (input : String) (kinds : List TokenKind) :
    (Lexer.tokenize.run (.new input)).Ends ∧
    (∀ tokens l, Lexer.tokenize.run (.new input) = .ok tokens l →
      Tokenizes 0 input.toList tokens ∧
      (tokens.Pairwise fun t u => t.offset < u.offset) ∧
      ∃ init, tokens = init ++ [⟨.eof, input.utf8ByteSize⟩] ∧ ∀ t ∈ init, t.kind ≠ .eof) ∧
    ((∀ kind ∈ kinds, kind.Printable) → ∃ tokens l,
      Lexer.tokenize.run (.new (" ".intercalate (kinds.map TokenKind.text))) = .ok tokens l ∧
      tokens.map Token.kind = kinds ++ [.eof]) := by
  refine ⟨?_, ?_, ?_⟩
  · cases @Lexer.run_tokenize input with
    | inl herr =>
      have ⟨e, l, hrun⟩ := herr
      rw [hrun]
      exact Outcome.ends_err
    | inr hok =>
      have ⟨tokens, l, hrun, _⟩ := hok
      rw [hrun]
      exact Outcome.ends_ok
  · intro tokens l hrun
    have htokens := Lexer.tokenizes_of_run hrun
    have ⟨init, hinit, hne⟩ := htokens.last
    rw [String.utf8Len_toList, Nat.zero_add] at hinit
    exact ⟨htokens, htokens.offsets.2, init, hinit, hne⟩
  · intro h
    exact Lexer.run_tokenize_spaced (Spaced.of_kinds h)

end RdbRs
