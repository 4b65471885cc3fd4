import RdbRs.Database.FailedStatements
import RdbRs.Database.Repl
import RdbRs.Database.Returns
import RdbRs.Database.TextWidths

/-!
# The program returns

The loop of `main` comes to its end for any lines of at most 16 KiB: no line crashes it, and none makes it hang.
-/

namespace RdbRs

open Exec

open String (utf8Len)

/-- The bytes of a line that no statement in it can overflow a counter with. -/
def longestLine : Nat := 16384

/-- A statement in a line of this length overflows nothing. -/
lemma Reads.not_oversized {input : String} {statement : Statement} {bound : BoundStatement} {self : Binder}
    (hread : Reads input statement) (hlen : input.utf8ByteSize ≤ longestLine)
    (hbind : self.bind statement = .ok bound) : ¬ bound.Oversized := by
  obtain ⟨explicitAsc, hsizes⟩ := hread.sizes_le
  have hline : longestLine = 16384 := rfl
  cases bound with
  | createTable bound =>
    obtain ⟨table, hcreate, rfl⟩ : ∃ table, self.bindCreateTable table = .ok bound ∧
        statement = .createTable table := by
      cases statement with
      | createTable table =>
        obtain ⟨bound, hcreate, heq⟩ := except_bind_eq_ok.mp hbind
        cases heq
        exact ⟨table, hcreate, rfl⟩
      | _ =>
        obtain ⟨bound, -, heq⟩ := except_bind_eq_ok.mp hbind
        cases heq
    have hcolumns := bindCreateTable_length hcreate
    rw [Statement.kinds, sizes_cons] at hsizes
    have hmax : i32Max = 2147483647 := rfl
    rw [BoundStatement.Oversized]
    omega
  | update bound =>
    obtain ⟨update, hupdate, rfl⟩ : ∃ update, self.bindUpdate update = .ok bound ∧
        statement = .update update := by
      cases statement with
      | update update =>
        obtain ⟨bound, hupdate, heq⟩ := except_bind_eq_ok.mp hbind
        cases heq
        exact ⟨update, hupdate, rfl⟩
      | _ =>
        obtain ⟨bound, -, heq⟩ := except_bind_eq_ok.mp hbind
        cases heq
    have hwidth := bindUpdate_width hupdate
    rw [Statement.kinds] at hsizes
    have hmax : u16Max = 65535 := rfl
    have hpage : pageSize = 8192 := rfl
    rw [BoundStatement.Oversized, BoundUpdate.width]
    omega
  | _ => exact not_false

/-- Trimming makes no line longer. -/
lemma size_trim_le (line : String) : (trim line).utf8ByteSize ≤ line.utf8ByteSize := by
  have hsublist : List.Sublist (line.toList.dropWhile isWhitespace).reverse line.toList.reverse :=
    (List.dropWhile_suffix _).sublist.reverse
  have htrimmed : List.Sublist (trim line).toList line.toList := by
    rw [trim, String.toList_ofList]
    have hboth := ((List.dropWhile_suffix isWhitespace).sublist.trans hsublist).reverse
    rwa [List.reverse_reverse] at hboth
  have hle := String.utf8Len_le_of_sublist htrimmed
  rwa [String.utf8Len_toList, String.utf8Len_toList] at hle

namespace Database

section Program

variable {σ : Type} [PageStore σ] [UnstableSort] {db : Database σ} {input : String}

/-- What a line is for is done or refused, and the database it leaves is one that statements lead to. -/
lemma Reached.run_executeLine (h : Reached db) (hlen : input.utf8ByteSize ≤ longestLine) :
    ∃ printed db', ((executeLine input).attempt : Exec Empty (Database σ) _).run db = .ok printed db' ∧
      Reached db' := by
  rcases reads_or_refused input with ⟨statement, hread, hpure⟩ | ⟨e, hrefused⟩
  · have hhalts := h.halts_execute statement db rfl
    rw [run_attempt, executeLine, hpure, mapErr_pure, Exec.pure_bind, run_mapErr]
    cases hrun : (execute statement).run db with
    | ok result db' => exact ⟨.ok result, db', rfl, h.step (.inl ⟨result, hrun⟩)⟩
    | err e db' => exact ⟨.error (.database e), db', rfl, h.step (.inr ⟨e, hrun⟩)⟩
    | panic =>
      rw [hrun] at hhalts
      obtain ⟨bound, hbind, hover⟩ := hhalts
      exact absurd hover (hread.not_oversized hlen hbind)
    | diverge =>
      rw [hrun] at hhalts
      exact hhalts.elim
  · refine ⟨.error (.text e), db, ?_, h⟩
    rw [run_attempt, executeLine, hrefused, Exec.run_bind, run_mapErr, run_throw]
    rfl

lemma Reached.run_mainLoop {lines : List String} (h : Reached db)
    (hlines : ∀ line ∈ lines, line.utf8ByteSize ≤ longestLine) :
    ∃ printed db', (mainLoop lines).run db = .ok printed db' ∧ Reached db' ∧
      printed.length = (lines.takeWhile fun line => trim line ≠ "\\q").length := by
  induction lines generalizing db with
  | nil => exact ⟨[], db, rfl, h, rfl⟩
  | cons line lines ih =>
    rw [mainLoop]
    by_cases hquit : trim line = "\\q"
    · refine ⟨[], db, ?_, h, ?_⟩
      · rw [if_pos hquit]
        rfl
      · have hstops : ¬ decide (trim line ≠ "\\q") = true := fun hgoes => of_decide_eq_true hgoes hquit
        rw [List.takeWhile_cons, if_neg hstops]
        rfl
    · have hlen := (size_trim_le line).trans (hlines line List.mem_cons_self)
      obtain ⟨printed, db₁, hline, hreached⟩ := h.run_executeLine hlen
      obtain ⟨rest, db₂, hrest, hreached', hcount⟩ :=
        ih hreached fun line hmem => hlines line (List.mem_cons_of_mem _ hmem)
      refine ⟨printed :: rest, db₂, ?_, hreached', ?_⟩
      · simp only [if_neg hquit, Exec.run_bind, hline, Outcome.andThen_ok, hrest]
        rfl
      · rw [List.takeWhile_cons, if_pos (decide_eq_true hquit), List.length_cons, List.length_cons, hcount]

/-- No statement hangs, whatever statements were executed before it and whatever these returned. One that panics
assigns more bytes than a row of sixteen bits has room for beside a page, or defines more columns than an `i32`
counts. -/
theorem execute_returns (h : Reached db) (statement : Statement) :
    ((execute statement).run db).Ends ∨
      (execute statement).run db = .panic ∧
        ∃ bound, (Binder.mk db.catalog.metadata).bind statement = .ok bound ∧ bound.Oversized := by
  have hhalts := h.halts_execute statement db rfl
  cases hrun : (execute statement).run db with
  | ok result db' => exact .inl Outcome.ends_ok
  | err e db' => exact .inl Outcome.ends_err
  | panic =>
    rw [hrun] at hhalts
    exact .inr ⟨rfl, hhalts⟩
  | diverge =>
    rw [hrun] at hhalts
    exact hhalts.elim

/-- Lines of at most 16 KiB each crash nothing and make nothing hang: what every line up to the first `\\q` returns
is printed, and the database that is left is one that statements lead to. -/
theorem mainLoop_returns {lines : List String} (h : Reached db)
    (hlines : ∀ line ∈ lines, line.utf8ByteSize ≤ longestLine) :
    ∃ printed db', (mainLoop lines).run db = .ok printed db' ∧ Reached db' ∧
      printed.length = (lines.takeWhile fun line => trim line ≠ "\\q").length := h.run_mainLoop hlines

end Program

/-! ### A table with two indexes -/

open OutOfStep

/-- `UPDATE t SET n = 'b' WHERE k = 1;` reads its row through an index, and is not oversized. -/
theorem execute_returns_indexed :
    let statement : Statement := .update ⟨.table ⟨"t", none⟩, [⟨⟨none, "n"⟩, .string "b"⟩],
      some (.comparison (.column ⟨none, "k"⟩) .equal (.literal (.integer 1)))⟩
    ((execute statement).run indexed).Ends := by
  intro statement
  rcases execute_returns reached_indexed.1 statement with hends | ⟨-, bound, hbind, hover⟩
  · exact hends
  · cases hbind
    have hover : u16Max < pageSize + 3 + BoundUpdate.width _ := hover
    exact absurd hover (by decide)

theorem mainLoop_returns_indexed :
    let lines := ["UPDATE t SET n = 'b' WHERE k = 1;", "SELECT k", "DELETE FROM t;", " \\q ", "DELETE FROM t;"]
    ∃ printed db', (mainLoop lines).run indexed = .ok printed db' ∧ Reached db' ∧ printed.length = 3 := by
  intro lines
  have hlines : ∀ line ∈ lines, line.utf8ByteSize ≤ longestLine := by decide
  exact mainLoop_returns reached_indexed.1 hlines

end Database

end RdbRs
