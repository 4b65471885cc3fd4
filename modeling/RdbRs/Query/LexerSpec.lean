import Mathlib.Data.List.TakeWhile
import RdbRs.Query.Lexer
import RdbRs.Query.ParserSpec

/-!
# What the lexer does

`scan` reads the first token off a list of characters; `next_token` does the same with byte offsets.
`Tokenizes` takes an input apart into tokens with whitespace between them.
-/

namespace RdbRs

open String (utf8Len)

/-! ### Slices -/

section Slices

variable {pre cs word rest : List Char} {c : Char}

lemma utf8Len_cons_pos : 0 < utf8Len (c :: cs) := by
  have := c.utf8Size_pos
  rw [String.utf8Len_cons]
  omega

lemma length_le_utf8Len : cs.length ≤ utf8Len cs := by
  induction cs with
  | nil => exact Nat.le_refl 0
  | cons c cs ih =>
    have := c.utf8Size_pos
    rw [String.utf8Len_cons, List.length_cons]
    omega

/-- An offset between two characters is the length of what stands before it. -/
lemma sliceFrom_append : sliceFrom (pre ++ cs) (utf8Len pre) = some cs := by
  induction pre with
  | nil => cases cs <;> rfl
  | cons c pre ih =>
    have hpos := @utf8Len_cons_pos pre c
    cases hlen : utf8Len (c :: pre) with
    | zero => omega
    | succ n =>
      rw [String.utf8Len_cons] at hlen
      have hrest : n + 1 - c.utf8Size = utf8Len pre := by omega
      rw [List.cons_append, sliceFrom, if_pos (by omega), hrest, ih]
      exact Nat.succ_ne_zero n

lemma sliceTo_append : sliceTo (word ++ rest) (utf8Len word) = some word := by
  induction word with
  | nil => cases rest <;> rfl
  | cons c word ih =>
    have hpos := @utf8Len_cons_pos word c
    cases hlen : utf8Len (c :: word) with
    | zero => omega
    | succ n =>
      rw [String.utf8Len_cons] at hlen
      have hrest : n + 1 - c.utf8Size = utf8Len word := by omega
      rw [List.cons_append, sliceTo, if_pos (by omega), hrest, ih, Option.map_some]
      exact Nat.succ_ne_zero n

end Slices

namespace Lexer

/-! ### Reading characters -/

/-- The lexer behind the characters `pre` of its input. -/
def behind (input : String) (pre : List Char) : Lexer := ⟨input, utf8Len pre⟩

section Reading

variable {input : String} {pre cs word rest : List Char} {c : Char} {p : Char → Bool} {n : Nat}

lemma run_currentChar (h : input.toList = pre ++ cs) :
    currentChar.run (behind input pre) = .ok cs.head? (behind input pre) := by
  simp only [currentChar, behind, h, sliceFrom_append]

lemma run_advanceChar (h : input.toList = pre ++ c :: cs) :
    advanceChar.run (behind input pre) = .ok () (behind input (pre ++ [c])) := by
  rw [advanceChar, Exec.run_bind, run_currentChar h]
  simp only [List.head?_cons, Outcome.andThen_ok, Exec.run_modify]
  unfold behind
  rw [String.utf8Len_append, String.utf8Len_cons, String.utf8Len_nil, Nat.zero_add]

lemma run_sliceSince (h : input.toList = pre ++ (word ++ rest)) :
    (sliceSince (utf8Len pre)).run (behind input (pre ++ word)) =
      .ok (String.ofList word) (behind input (pre ++ word)) := by
  have hlen : utf8Len (pre ++ word) - utf8Len pre = utf8Len word := by
    rw [String.utf8Len_append, Nat.add_sub_cancel_left]
  simp only [sliceSince, behind, hlen, h, sliceFrom_append, Option.bind_some, sliceTo_append]
  rw [if_neg]
  rw [String.utf8Len_append]
  omega

lemma length_lt_rounds (h : input.toList = pre ++ cs) : cs.length < rounds (behind input pre) := by
  have hlen : utf8Len input.toList = input.utf8ByteSize := String.utf8Len_toList input
  have hle := @length_le_utf8Len cs
  rw [h, String.utf8Len_append] at hlen
  show cs.length < input.utf8ByteSize + 1
  omega

/-- A loop over characters takes the longest piece of which each character goes on. -/
lemma run_repeatAdvance (h : input.toList = pre ++ cs) (hn : cs.length < n) :
    (Exec.repeatWhile currentChar (fun ch => ch.any p) (fun _ => advanceChar) n ()).run
      (behind input pre) = .ok () (behind input (pre ++ cs.takeWhile p)) := by
  induction n generalizing pre cs with
  | zero => omega
  | succ n ih =>
    rw [Exec.repeatWhile, Exec.run_bind, run_currentChar h, Outcome.andThen_ok]
    cases cs with
    | nil =>
      simp only [List.head?_nil, Option.any_none, Bool.false_eq_true, if_false, Exec.run_pure,
        List.takeWhile_nil, List.append_nil]
    | cons c cs =>
      by_cases hc : p c = true
      · have hrest : input.toList = (pre ++ [c]) ++ cs := by rw [h, List.append_assoc, List.singleton_append]
        rw [List.length_cons] at hn
        simp only [List.head?_cons, Option.any_some, hc, if_true, List.takeWhile_cons, Exec.run_bind,
          run_advanceChar h, Outcome.andThen_ok]
        rw [ih hrest (by omega), List.append_assoc, List.singleton_append]
      · simp only [List.head?_cons, Option.any_some, hc, Bool.false_eq_true, if_false, List.takeWhile_cons,
          Exec.run_pure, List.append_nil]

lemma run_advanceWhile (h : input.toList = pre ++ cs) :
    (advanceWhile p).run (behind input pre) = .ok () (behind input (pre ++ cs.takeWhile p)) := by
  rw [advanceWhile, Exec.run_bind, Exec.run_gets, Outcome.andThen_ok]
  exact run_repeatAdvance h (length_lt_rounds h)

/-- The loop over a string literal has read `done` and finds the quote behind it, or the end. -/
lemma run_readString {first done : List Char} {start : Nat}
    (h : input.toList = first ++ (done ++ cs)) (hn : cs.length < n) :
    (readString start (utf8Len first) n).run (behind input (first ++ done)) =
        .ok ⟨.stringLiteral (String.ofList (done ++ cs.takeWhile (· ≠ quote))), start⟩
          (behind input (first ++ done ++ (cs.takeWhile (· ≠ quote) ++ [quote]))) ∧ quote ∈ cs ∨
      (∃ l, (readString start (utf8Len first) n).run (behind input (first ++ done)) =
        .err (.unterminatedString start) l) ∧ quote ∉ cs := by
  induction n generalizing done cs with
  | zero => omega
  | succ n ih =>
    have hhere : input.toList = (first ++ done) ++ cs := by rw [h, List.append_assoc]
    rw [readString, Exec.run_bind, run_currentChar hhere, Outcome.andThen_ok]
    cases cs with
    | nil => exact Or.inr ⟨⟨_, rfl⟩, List.not_mem_nil⟩
    | cons c cs =>
      simp only [List.head?_cons]
      by_cases hc : c = quote
      · subst hc
        left
        rw [if_pos rfl, Exec.run_bind, run_sliceSince h, Outcome.andThen_ok, Exec.run_bind,
          run_advanceChar hhere, Outcome.andThen_ok, Exec.run_pure]
        simp
      · have hrest : input.toList = first ++ ((done ++ [c]) ++ cs) := by
          rw [h, List.append_assoc done, List.singleton_append]
        rw [List.length_cons] at hn
        rw [if_neg hc, Exec.run_bind, run_advanceChar hhere, Outcome.andThen_ok, List.append_assoc]
        have hne : quote ≠ c := fun heq => hc heq.symm
        have hmem : quote ∈ c :: cs ↔ quote ∈ cs := by
          rw [List.mem_cons, or_iff_right hne]
        rw [hmem, List.takeWhile_cons, if_pos (by simpa using hc)]
        have hih := ih hrest (by omega)
        simp only [List.append_assoc, List.singleton_append] at hih ⊢
        exact hih

lemma run_takesEquals (h : input.toList = pre ++ cs) : takesEquals.run (behind input pre) =
    if cs.head? = some '=' then .ok true (behind input (pre ++ ['='])) else .ok false (behind input pre) := by
  rw [takesEquals, Exec.run_bind, run_currentChar h, Outcome.andThen_ok]
  by_cases hhead : cs.head? = some '='
  · have ⟨tail, hcs⟩ := List.head?_eq_some_iff.mp hhead
    rw [hcs] at h
    rw [if_pos hhead, if_pos hhead, Exec.run_bind, run_advanceChar h, Outcome.andThen_ok, Exec.run_pure]
  · rw [if_neg hhead, if_neg hhead, Exec.run_pure]

end Reading

/-! ### The first token -/

/-- The token at the front of a text that does not begin with whitespace, and its characters. -/
def scan (start : Nat) : List Char → Except LexError (TokenKind × List Char)
  | [] => .ok (.eof, [])
  | c :: cs =>
    if isWordStart c then
      let word := c :: cs.takeWhile isWordChar
      .ok (.ofWord (String.ofList word), word)
    else if c.isDigit then
      let number := c :: cs.takeWhile Char.isDigit
      match parseI64 (String.ofList number) with
      | some value => .ok (.integer value, number)
      | none => .error (.invalidInteger start)
    else if c = quote then
      let word := cs.takeWhile (· ≠ quote)
      if quote ∈ cs then .ok (.stringLiteral (String.ofList word), c :: (word ++ [quote]))
      else .error (.unterminatedString start)
    else if c = '!' then
      if cs.head? = some '=' then .ok (.notEq, [c, '=']) else .error (.unexpectedCharacter start c)
    else if c = '<' then
      if cs.head? = some '=' then .ok (.ltEq, [c, '=']) else .ok (.lt, [c])
    else if c = '>' then
      if cs.head? = some '=' then .ok (.gtEq, [c, '=']) else .ok (.gt, [c])
    else
      match symbolKind c with
      | some kind => .ok (kind, [c])
      | none => .error (.unexpectedCharacter start c)

/-- What a call does that reads the token `scan` finds. -/
def Reads (input : String) (pre : List Char) (o : Outcome LexError Lexer Token) :
    Except LexError (TokenKind × List Char) → Prop
  | .ok (kind, text) => o = .ok ⟨kind, utf8Len pre⟩ (behind input (pre ++ text))
  | .error e => ∃ l, o = .err e l

section NextToken

variable {input : String} {pre cs : List Char}

/-- `next_token` skips the whitespace and reads the token behind it. -/
lemma run_nextToken (h : input.toList = pre ++ cs) :
    Reads input (pre ++ cs.takeWhile isWhitespace) (nextToken.run (behind input pre))
      (scan (utf8Len (pre ++ cs.takeWhile isWhitespace)) (cs.dropWhile isWhitespace)) := by
  have hrest : input.toList = (pre ++ cs.takeWhile isWhitespace) ++ cs.dropWhile isWhitespace := by
    rw [List.append_assoc, List.takeWhile_append_dropWhile, h]
  rw [nextToken, skipWhitespace, Exec.run_bind, run_advanceWhile h, Outcome.andThen_ok, Exec.run_bind,
    Exec.run_gets, Outcome.andThen_ok, Exec.run_bind]
  generalize pre ++ cs.takeWhile isWhitespace = first at hrest
  generalize cs.dropWhile isWhitespace = rest at hrest
  rw [run_currentChar hrest, Outcome.andThen_ok]
  have hoffset : (behind input first).offset = utf8Len first := rfl
  rw [hoffset]
  cases rest with
  | nil =>
    show Outcome.ok _ _ = _
    rw [List.append_nil]
  | cons c rest =>
    have hnext : input.toList = (first ++ [c]) ++ rest := by
      rw [hrest, List.append_assoc, List.singleton_append]
    simp only [List.head?_cons, scan]
    by_cases hword : isWordStart c = true
    · have hsince : input.toList = first ++ ((c :: rest.takeWhile isWordChar) ++ rest.dropWhile isWordChar) := by
        rw [List.cons_append, List.takeWhile_append_dropWhile, hrest]
      have hslice := run_sliceSince hsince
      rw [if_pos hword, if_pos hword, Exec.run_bind, run_advanceChar hrest, Outcome.andThen_ok,
        Exec.run_bind, run_advanceWhile hnext, Outcome.andThen_ok, Exec.run_bind, List.append_assoc,
        List.singleton_append, hslice]
      rfl
    · rw [if_neg hword, if_neg hword]
      by_cases hdigit : c.isDigit = true
      · have hsince : input.toList = first ++ ((c :: rest.takeWhile Char.isDigit) ++ rest.dropWhile Char.isDigit) := by
          rw [List.cons_append, List.takeWhile_append_dropWhile, hrest]
        have hslice := run_sliceSince hsince
        rw [if_pos hdigit, if_pos hdigit, Exec.run_bind, run_advanceChar hrest, Outcome.andThen_ok,
          Exec.run_bind, run_advanceWhile hnext, Outcome.andThen_ok, Exec.run_bind, List.append_assoc,
          List.singleton_append, hslice, Outcome.andThen_ok]
        cases parseI64 (String.ofList (c :: rest.takeWhile Char.isDigit)) with
        | some value => rfl
        | none => exact ⟨_, rfl⟩
      · rw [if_neg hdigit, if_neg hdigit]
        by_cases hquote : c = quote
        · have hdone : input.toList = (first ++ [c]) ++ ([] ++ rest) := hnext
          have hread := @run_readString input rest _ (first ++ [c]) [] (utf8Len first) hdone
            (length_lt_rounds hnext)
          rw [if_pos hquote, if_pos hquote, Exec.run_bind, run_advanceChar hrest, Outcome.andThen_ok,
            Exec.run_bind, Exec.run_gets, Outcome.andThen_ok, Exec.run_bind, Exec.run_gets, Outcome.andThen_ok]
          rw [List.append_nil, List.nil_append, List.append_assoc, List.singleton_append] at hread
          cases hread with
          | inl hok =>
            rw [if_pos hok.2]
            exact hok.1
          | inr herr =>
            rw [if_neg herr.2]
            exact herr.1
        · rw [if_neg hquote, if_neg hquote]
          have hequals := run_takesEquals hnext
          by_cases hbang : c = '!'
          · rw [if_pos hbang, if_pos hbang, Exec.run_bind, run_advanceChar hrest, Outcome.andThen_ok,
              Exec.run_bind, hequals]
            split
            · rw [Outcome.andThen_ok, List.append_assoc]
              rfl
            · rw [hbang]
              exact ⟨_, rfl⟩
          · rw [if_neg hbang, if_neg hbang]
            by_cases hless : c = '<'
            · rw [if_pos hless, if_pos hless, Exec.run_bind, run_advanceChar hrest, Outcome.andThen_ok,
                Exec.run_bind, hequals]
              split
              · rw [Outcome.andThen_ok, List.append_assoc]
                rfl
              · rfl
            · rw [if_neg hless, if_neg hless]
              by_cases hgreater : c = '>'
              · rw [if_pos hgreater, if_pos hgreater, Exec.run_bind, run_advanceChar hrest,
                  Outcome.andThen_ok, Exec.run_bind, hequals]
                split
                · rw [Outcome.andThen_ok, List.append_assoc]
                  rfl
                · rfl
              · rw [if_neg hgreater, if_neg hgreater]
                cases symbolKind c with
                | some kind =>
                  dsimp only
                  rw [Exec.run_bind, run_advanceChar hrest]
                  rfl
                | none => exact ⟨_, rfl⟩

end NextToken

end Lexer

/-! ### The tokens of an input -/

/-- The characters a token is written with. -/
inductive Lexeme : List Char → TokenKind → Prop where
  | word {c : Char} {cs : List Char} : isWordStart c = true → (∀ d ∈ cs, isWordChar d = true) →
      Lexeme (c :: cs) (.ofWord (String.ofList (c :: cs)))
  | number {c : Char} {cs : List Char} {value : Int64} : (∀ d ∈ c :: cs, d.isDigit = true) →
      parseI64 (String.ofList (c :: cs)) = some value → Lexeme (c :: cs) (.integer value)
  | string {word : List Char} : quote ∉ word →
      Lexeme (quote :: (word ++ [quote])) (.stringLiteral (String.ofList word))
  | notEq : Lexeme ['!', '='] .notEq
  | ltEq : Lexeme ['<', '='] .ltEq
  | lt : Lexeme ['<'] .lt
  | gtEq : Lexeme ['>', '='] .gtEq
  | gt : Lexeme ['>'] .gt
  | symbol {c : Char} {kind : TokenKind} : symbolKind c = some kind → Lexeme [c] kind

/-- An input taken apart: whitespace and the characters of a token in turn, with the byte at which each
token begins, and whitespace before the end. -/
inductive Tokenizes : Nat → List Char → List Token → Prop where
  | eof {offset : Nat} {ws : List Char} : (∀ c ∈ ws, isWhitespace c = true) →
      Tokenizes offset ws [⟨.eof, offset + utf8Len ws⟩]
  | token {offset : Nat} {ws text rest : List Char} {kind : TokenKind} {tokens : List Token} :
      (∀ c ∈ ws, isWhitespace c = true) → Lexeme text kind →
      Tokenizes (offset + utf8Len ws + utf8Len text) rest tokens →
      Tokenizes offset (ws ++ (text ++ rest)) (⟨kind, offset + utf8Len ws⟩ :: tokens)

section Tokens

variable {start offset : Nat} {cs text : List Char} {kind : TokenKind} {tokens : List Token}

lemma mem_of_lookup {word : String} (h : keywords.lookup word = some kind) : (word, kind) ∈ keywords := by
  have ⟨before, after, hsplit, _⟩ := List.lookup_eq_some_iff.mp h
  rw [hsplit]
  exact List.mem_append_right _ List.mem_cons_self

lemma lookup_ne_eof {word : String} (h : keywords.lookup word = some kind) : kind ≠ .eof := by
  have hall : ∀ x ∈ keywords, x.2 ≠ .eof := by decide
  exact hall _ (mem_of_lookup h)

lemma ofWord_ne_eof (word : String) : TokenKind.ofWord word ≠ .eof := by
  unfold TokenKind.ofWord
  cases h : keywords.lookup (toAsciiUppercase word) with
  | some kind => exact lookup_ne_eof h
  | none => exact fun heq => nomatch heq

lemma symbolKind_ne_eof {c : Char} (h : symbolKind c = some kind) : kind ≠ .eof := by
  unfold symbolKind at h
  split at h <;> cases h <;> exact fun heq => nomatch heq

/-- A token is not empty, and it is not the end. -/
lemma Lexeme.ne (h : Lexeme text kind) : text ≠ [] ∧ kind ≠ .eof := by
  cases h with
  | word => exact ⟨List.cons_ne_nil _ _, ofWord_ne_eof _⟩
  | symbol hsymbol => exact ⟨List.cons_ne_nil _ _, symbolKind_ne_eof hsymbol⟩
  | _ => exact ⟨List.cons_ne_nil _ _, fun heq => nomatch heq⟩

/-- What `scan` finds stands at the front of the text. -/
lemma scan_ok (h : Lexer.scan start cs = .ok (kind, text)) :
    cs = [] ∧ kind = .eof ∧ text = [] ∨ Lexeme text kind ∧ ∃ rest, cs = text ++ rest := by
  cases cs with
  | nil =>
    cases h
    exact Or.inl ⟨rfl, rfl, rfl⟩
  | cons c cs =>
    right
    have hfront (p : Char → Bool) : ∃ rest, c :: cs = (c :: cs.takeWhile p) ++ rest :=
      ⟨cs.dropWhile p, by rw [List.cons_append, List.takeWhile_append_dropWhile]⟩
    have hequals (hhead : cs.head? = some '=') : ∃ rest, c :: cs = [c, '='] ++ rest := by
      have ⟨tail, htail⟩ := List.head?_eq_some_iff.mp hhead
      exact ⟨tail, by rw [htail]; rfl⟩
    unfold Lexer.scan at h
    dsimp only at h
    split at h
    · rename_i hword
      cases h
      exact ⟨.word hword fun d => List.mem_takeWhile_imp, hfront _⟩
    · split at h
      · rename_i hdigit
        split at h
        · rename_i value hvalue
          cases h
          refine ⟨.number ?_ hvalue, hfront _⟩
          intro d hd
          cases List.mem_cons.mp hd with
          | inl heq => rwa [heq]
          | inr hmem => exact List.mem_takeWhile_imp hmem
        · cases h
      · split at h
        · rename_i hquote
          split at h
          · rename_i hmem
            cases h
            rw [hquote]
            refine ⟨.string ?_, ?_⟩
            · intro hword
              have := List.mem_takeWhile_imp hword
              simp at this
            · have hsplit := List.takeWhile_append_dropWhile (p := fun d => decide (d ≠ quote)) (l := cs)
              cases hdrop : cs.dropWhile (fun d => decide (d ≠ quote)) with
              | nil =>
                have := List.dropWhile_eq_nil_iff.mp hdrop quote hmem
                simp at this
              | cons d rest =>
                have hd : d = quote := by
                  have hhead := List.head?_dropWhile_not (fun d => decide (d ≠ quote)) cs
                  rw [hdrop] at hhead
                  simpa using hhead
                refine ⟨rest, ?_⟩
                rw [hdrop, hd] at hsplit
                rw [List.cons_append, List.append_assoc, List.singleton_append, hsplit]
          · cases h
        · split at h
          · rename_i hbang
            split at h
            · rename_i hhead
              cases h
              rw [hbang] at hequals ⊢
              exact ⟨.notEq, hequals hhead⟩
            · cases h
          · split at h
            · rename_i hless
              split at h
              · rename_i hhead
                cases h
                rw [hless] at hequals ⊢
                exact ⟨.ltEq, hequals hhead⟩
              · cases h
                rw [hless]
                exact ⟨.lt, cs, rfl⟩
            · split at h
              · rename_i hgreater
                split at h
                · rename_i hhead
                  cases h
                  rw [hgreater] at hequals ⊢
                  exact ⟨.gtEq, hequals hhead⟩
                · cases h
                  rw [hgreater]
                  exact ⟨.gt, cs, rfl⟩
              · split at h
                · rename_i hsymbol
                  cases h
                  exact ⟨.symbol hsymbol, cs, rfl⟩
                · cases h

/-- The tokens begin one behind the other. -/
lemma Tokenizes.offsets (h : Tokenizes offset cs tokens) :
    (∀ t ∈ tokens, offset ≤ t.offset) ∧ tokens.Pairwise fun t u => t.offset < u.offset := by
  induction h with
  | eof hws => simp
  | @token offset ws text rest kind tokens hws hlexeme hrest ih =>
    have hpos : 0 < utf8Len text := by
      have ⟨hne, _⟩ := hlexeme.ne
      cases text with
      | nil => exact absurd rfl hne
      | cons c text => exact utf8Len_cons_pos
    have ⟨hbehind, hpairwise⟩ := ih
    refine ⟨?_, List.Pairwise.cons ?_ hpairwise⟩
    · intro t ht
      cases List.mem_cons.mp ht with
      | inl heq =>
        rw [heq]
        exact Nat.le_add_right _ _
      | inr hmem =>
        have := hbehind t hmem
        omega
    · intro t ht
      have := hbehind t ht
      show offset + utf8Len ws < t.offset
      omega

/-- The last token is the end, and it is the only one. -/
lemma Tokenizes.last (h : Tokenizes offset cs tokens) :
    ∃ init, tokens = init ++ [⟨.eof, offset + utf8Len cs⟩] ∧ ∀ t ∈ init, t.kind ≠ .eof := by
  induction h with
  | eof => exact ⟨[], rfl, fun t ht => absurd ht List.not_mem_nil⟩
  | @token offset ws text rest kind tokens hws hlexeme hrest ih =>
    have ⟨init, htokens, hinit⟩ := ih
    refine ⟨⟨kind, offset + utf8Len ws⟩ :: init, ?_, ?_⟩
    · rw [htokens, String.utf8Len_append, String.utf8Len_append]
      simp only [List.cons_append, Nat.add_assoc]
    · intro t ht
      cases List.mem_cons.mp ht with
      | inl heq =>
        rw [heq]
        exact hlexeme.ne.2
      | inr hmem => exact hinit t hmem

end Tokens

namespace Lexer

variable {input : String} {pre cs : List Char} {n : Nat} {tokens : List Token}

/-- The loop of `tokenize` comes back, with the tokens of what is left behind those it had. -/
lemma run_tokenizeLoop (h : input.toList = pre ++ cs) (hn : cs.length < n) :
    (∃ e l, (tokenizeLoop n tokens).run (behind input pre) = .err e l) ∨
    ∃ rest l, (tokenizeLoop n tokens).run (behind input pre) = .ok (tokens ++ rest) l ∧
      Tokenizes (utf8Len pre) cs rest := by
  induction n generalizing pre cs tokens with
  | zero => omega
  | succ n ih =>
    have hws : ∀ c ∈ cs.takeWhile isWhitespace, isWhitespace c = true := fun c => List.mem_takeWhile_imp
    have hsplit : cs = cs.takeWhile isWhitespace ++ cs.dropWhile isWhitespace :=
      List.takeWhile_append_dropWhile.symm
    have hnext := run_nextToken h
    rw [tokenizeLoop, Exec.run_bind]
    cases hscan : scan (utf8Len (pre ++ cs.takeWhile isWhitespace)) (cs.dropWhile isWhitespace) with
    | error e =>
      rw [hscan] at hnext
      have ⟨l, hl⟩ := hnext
      exact Or.inl ⟨e, l, by rw [hl, Outcome.andThen_err]⟩
    | ok found =>
      obtain ⟨kind, text⟩ := found
      rw [hscan] at hnext
      rw [hnext, Outcome.andThen_ok]
      cases scan_ok hscan with
      | inl heof =>
        have ⟨hdrop, hkind, _⟩ := heof
        rw [hdrop, List.append_nil] at hsplit
        rw [if_pos hkind, Exec.run_pure, hkind]
        refine Or.inr ⟨_, _, rfl, ?_⟩
        rw [String.utf8Len_append, ← hsplit]
        rw [← hsplit] at hws
        exact .eof hws
      | inr hlexeme =>
        have ⟨hlexeme, rest, hdrop⟩ := hlexeme
        have ⟨hne, hkind⟩ := hlexeme.ne
        have hlen : rest.length < n := by
          have hcount := congrArg List.length hsplit
          have hpos := List.length_pos_of_ne_nil hne
          rw [hdrop, List.length_append, List.length_append] at hcount
          omega
        have hrest : input.toList = (pre ++ cs.takeWhile isWhitespace ++ text) ++ rest := by
          rw [h, List.append_assoc, List.append_assoc, ← hdrop, ← hsplit]
        rw [if_neg hkind]
        cases @ih _ rest (tokens ++ [⟨kind, utf8Len (pre ++ cs.takeWhile isWhitespace)⟩]) hrest hlen with
        | inl herr => exact Or.inl herr
        | inr hok =>
          have ⟨more, l, hrun, hmore⟩ := hok
          refine Or.inr ⟨⟨kind, utf8Len (pre ++ cs.takeWhile isWhitespace)⟩ :: more, l, ?_, ?_⟩
          · rw [hrun, List.append_assoc, List.singleton_append]
          · rw [String.utf8Len_append] at hmore ⊢
            rw [String.utf8Len_append] at hmore
            have htokens := Tokenizes.token hws hlexeme hmore
            rwa [← hdrop, ← hsplit] at htokens

/-- `tokenize` comes back for every input. -/
lemma run_tokenize : (∃ e l, tokenize.run (new input) = .err e l) ∨
    ∃ tokens l, tokenize.run (new input) = .ok tokens l ∧ Tokenizes 0 input.toList tokens := by
  have h : input.toList = [] ++ input.toList := rfl
  rw [tokenize, Exec.run_bind, Exec.run_gets, Outcome.andThen_ok]
  exact @run_tokenizeLoop input [] input.toList _ [] h (length_lt_rounds h)

/-- The tokens of a run that returns `Ok` take the input apart. -/
lemma tokenizes_of_run {tokens : List Token} {l : Lexer} (hrun : tokenize.run (new input) = .ok tokens l) :
    Tokenizes 0 input.toList tokens := by
  cases @run_tokenize input with
  | inl herr =>
    have ⟨e, l', hrun'⟩ := herr
    rw [hrun] at hrun'
    cases hrun'
  | inr hok =>
    have ⟨tokens', l', hrun', htokens⟩ := hok
    rw [hrun] at hrun'
    cases hrun'
    exact htokens

end Lexer

end RdbRs
