import RdbRs.Database.RowWidths
import RdbRs.Query.StatementText

/-!
# What a text has room for

A text is as long as its tokens. So the values that an `UPDATE` assigns and the columns that a `CREATE TABLE`
defines are bounded by the length of the text that the statement was read from.
-/

namespace RdbRs

open String (utf8Len)

/-- The least number of bytes that the token takes in a text. -/
def TokenKind.size : TokenKind → Nat
  | stringLiteral value => utf8Len value.toList + 2
  | eof => 0
  | _ => 1

/-- The least number of bytes that the tokens take. -/
def sizes (kinds : List TokenKind) : Nat := (kinds.map TokenKind.size).sum

@[simp] lemma sizes_nil : sizes [] = 0 := rfl

@[simp] lemma sizes_cons {kind : TokenKind} {kinds : List TokenKind} :
    sizes (kind :: kinds) = kind.size + sizes kinds := rfl

@[simp] lemma sizes_append {kinds kinds' : List TokenKind} :
    sizes (kinds ++ kinds') = sizes kinds + sizes kinds' := by
  rw [sizes, List.map_append, List.sum_append]
  rfl

/-! ### Tokens -/

section Tokens

variable {text cs : List Char} {kind : TokenKind} {offset : Nat} {tokens : List Token}

lemma TokenKind.size_le_one (h : ∀ value, kind ≠ stringLiteral value) : kind.size ≤ 1 := by
  cases kind with
  | stringLiteral value => exact absurd rfl (h value)
  | eof => exact Nat.zero_le _
  | _ => exact Nat.le_refl _

lemma ofWord_ne_string (word value : String) : TokenKind.ofWord word ≠ .stringLiteral value := by
  have hkeywords : ∀ x ∈ keywords, x.2 ≠ .stringLiteral value := by simp [keywords]
  unfold TokenKind.ofWord
  split
  · next kind hlookup => exact hkeywords _ (mem_of_lookup hlookup)
  · rintro ⟨⟩

lemma symbolKind_ne_string {c : Char} (h : symbolKind c = some kind) (value : String) :
    kind ≠ .stringLiteral value := by
  rintro rfl
  unfold symbolKind at h
  split at h <;> cases h

/-- A token is at least as long as its size. -/
lemma Lexeme.size_le (h : Lexeme text kind) : kind.size ≤ utf8Len text := by
  have hone : 1 ≤ utf8Len text := by
    cases text with
    | nil => exact absurd rfl h.ne.1
    | cons c cs => exact utf8Len_cons_pos
  cases h with
  | word => exact (TokenKind.size_le_one (ofWord_ne_string _)).trans hone
  | @string word hword =>
    rw [TokenKind.size, String.toList_ofList, String.utf8Len_cons, String.utf8Len_append, String.utf8Len_cons]
    have hquote : quote.utf8Size = 1 := rfl
    have hnil : utf8Len [] = 0 := rfl
    omega
  | symbol hsymbol => exact (TokenKind.size_le_one (symbolKind_ne_string hsymbol)).trans hone
  | _ => exact hone

lemma Tokenizes.sizes_le (h : Tokenizes offset cs tokens) : sizes (tokens.map Token.kind) ≤ utf8Len cs := by
  induction h with
  | eof => exact Nat.zero_le _
  | token _ hlexeme _ ih =>
    have hsize := hlexeme.size_le
    simp only [List.map_cons, sizes_cons, String.utf8Len_append]
    omega

end Tokens

/-! ### Statements -/

section Lists

variable {α : Type} (item : α → List TokenKind) (items : List α)

/-- Commas do not make a list shorter. -/
lemma sum_le_sizes_commaKinds : (items.map fun a => sizes (item a)).sum ≤ sizes (commaKinds item items) := by
  have hrest : ∀ items : List α, (items.map fun a => sizes (item a)).sum ≤
      sizes (items.flatMap fun b => .comma :: item b) := by
    intro items
    induction items with
    | nil => exact Nat.le_refl _
    | cons a items ih =>
      rw [List.map_cons, List.sum_cons, List.flatMap_cons, sizes_append, sizes_cons]
      omega
  cases items with
  | nil => exact Nat.le_refl _
  | cons a items =>
    have hitems := hrest items
    rw [List.map_cons, List.sum_cons, commaKinds, sizes_append]
    omega

end Lists

lemma ColumnReference.size_pos (c : ColumnReference) : 1 ≤ sizes c.kinds := by
  unfold ColumnReference.kinds
  split
  · simp [TokenKind.size]
  · simp [TokenKind.size]

section Bound

variable {self : Binder} {database : DatabaseMetadata} {tables : List BoundTable} {input : String}

/-- The value of a literal is at most thrice as long as an assignment of it. -/
lemma bindValue_width {literal : Literal} {column : ColumnMetadata} {value : Value}
    (h : bindValue literal column = .ok value) : value.width ≤ 3 * (literal.kind.size + 2) := by
  unfold bindValue at h
  split at h
  · cases h
    exact Nat.le_of_ble_eq_true rfl
  · split at h
    · cases h
      exact Nat.le_of_ble_eq_true rfl
    · cases h
  · cases h
    exact Nat.le_of_ble_eq_true rfl
  · next v _ =>
    cases h
    have hlen : (utf8Bytes v).length = utf8Len v.toList := (String.utf8Len_toList v).symm
    rw [Value.width, Literal.kind, TokenKind.size, hlen]
    omega
  · cases h

lemma bindAssignment_width {assignment : Assignment} {bound : BoundAssignment}
    (h : self.bindAssignment tables assignment = .ok bound) : bound.value.width ≤ 3 * sizes assignment.kinds := by
  obtain ⟨column, -, h⟩ := except_bind_eq_ok.mp h
  obtain ⟨columnMeta, -, h⟩ := except_bind_eq_ok.mp h
  obtain ⟨value, hvalue, heq⟩ := except_bind_eq_ok.mp h
  cases heq
  have hwidth : value.width ≤ _ := bindValue_width hvalue
  have hcolumn := assignment.column.size_pos
  have heq : TokenKind.eq.size = 1 := rfl
  simp only [Assignment.kinds, sizes_append, sizes_cons, sizes_nil, heq]
  omega

lemma bindAssignments_width {assignments : List Assignment} {bound : List BoundAssignment}
    (h : assignments.mapM (self.bindAssignment tables) = .ok bound) :
    (bound.map fun a => a.value.width).sum ≤ 3 * (assignments.map fun a => sizes a.kinds).sum := by
  have hall := mapM_eq_ok.mp h
  induction hall with
  | nil => exact Nat.le_refl _
  | cons hbind hrest ih =>
    have hwidth := bindAssignment_width hbind
    have hsum := ih (mapM_eq_ok.mpr hrest)
    rw [List.map_cons, List.map_cons, List.sum_cons, List.sum_cons]
    omega

/-- The assigned bytes are at most thrice those of the statement. -/
lemma bindUpdate_width {statement : UpdateStatement} {bound : BoundUpdate}
    (h : self.bindUpdate statement = .ok bound) :
    (bound.assignments.map fun a => a.value.width).sum ≤ 3 * sizes statement.kinds := by
  obtain ⟨⟨from_, stop⟩, -, h⟩ := except_bind_eq_ok.mp h
  obtain ⟨assignments, hassignments, h⟩ := except_bind_eq_ok.mp h
  obtain ⟨filter, -, heq⟩ := except_bind_eq_ok.mp h
  cases heq
  have hwidth := bindAssignments_width hassignments
  have hcommas := sum_le_sizes_commaKinds Assignment.kinds statement.assignments
  simp only [UpdateStatement.kinds, sizes_cons, sizes_append]
  omega

/-- A table has no more columns than its statement bytes. -/
lemma bindCreateTable_length {statement : CreateTableStatement} {bound : BoundCreateTable}
    (h : self.bindCreateTable statement = .ok bound) : bound.columns.length ≤ sizes statement.kinds := by
  unfold Binder.bindCreateTable at h
  split at h
  · cases h
  · cases h
    have hcommas := sum_le_sizes_commaKinds ColumnDefinition.kinds statement.columns
    have hcolumns : statement.columns.length ≤
        (statement.columns.map fun column => sizes column.kinds).sum := by
      induction statement.columns with
      | nil => exact Nat.le_refl _
      | cons column columns ih =>
        have hname : 1 ≤ sizes column.kinds := by
          rw [ColumnDefinition.kinds, sizes_cons]
          exact Nat.le_add_right 1 _
        rw [List.length_cons, List.map_cons, List.sum_cons]
        omega
    rw [List.length_map, CreateTableStatement.kinds, sizes_cons, sizes_cons, sizes_cons, sizes_append]
    omega

/-- The tokens of a statement take no more bytes than the text it was read from. -/
lemma Reads.sizes_le {s : Statement} (h : Reads input s) :
    ∃ explicitAsc, sizes (s.kinds explicitAsc) ≤ input.utf8ByteSize := by
  obtain ⟨-, explicitAsc, tokens, l, hlex, hkinds⟩ := h.kinds
  have hsizes := (Lexer.tokenizes_of_run hlex).sizes_le
  rw [hkinds, Statement.canonical, sizes_append, String.utf8Len_toList] at hsizes
  exact ⟨explicitAsc, by omega⟩

end Bound

end RdbRs
