import RdbRs.Database.PoolTransparency
import RdbRs.Query.StatementText

/-!
# The program

The loop of `main`: lines are read, trimmed and executed until `\\q` or the end of the input, and what each of them
returns is printed. Reading a line is assumed to succeed.
-/

namespace RdbRs

open Exec

/-- The errors that are printed. -/
inductive LineError where
  | text (error : TextError)
  | database (error : DatabaseError)
  deriving DecidableEq

/-- `input.trim()`. -/
def trim (input : String) : String :=
  String.ofList ((input.toList.dropWhile isWhitespace).reverse.dropWhile isWhitespace).reverse

namespace Database

variable {σ : Type} [Engine σ]

/-- What a line is for: its statement is executed. -/
def executeLine (input : String) : Exec LineError (Database σ) ExecuteResult := do
  let statement ← Exec.mapErr .text (readStatement input)
  Exec.mapErr .database (execute statement)

/-- The loop of `main` over the lines that are still to come, and what it prints. -/
def mainLoop : List String → Exec Empty (Database σ) (List (Except LineError ExecuteResult))
  | [] => pure []
  | line :: lines => do
    let input := trim line
    if input = "\\q" then pure []
    else
      let printed ← (executeLine input).attempt
      let rest ← mainLoop lines
      pure (printed :: rest)

end Database

/-! ### The pool does not show -/

lemma matches_readStatement {σ τ : Type} {R : σ → τ → Prop} (input : String) :
    Matches R (readStatement input : Exec TextError σ Statement) (readStatement input) := by
  apply Matches.bind ((matches_withLocal _ _).mapErr _)
  intro lexed
  apply Matches.bind ((matches_withLocal _ _).mapErr _)
  exact fun _ => matches_pure _

section Engines

variable {σ τ : Type} [Engine σ] [Engine τ] {C : Catalog → Prop} {R : σ → τ → Prop}

lemma EnginesMatch.executeLine (h : EnginesMatch R) (hC : CatalogKeeps C) (input : String) :
    Matches (Beside C R) (Database.executeLine input : Exec LineError (Database σ) ExecuteResult)
      (Database.executeLine input) := by
  apply Matches.bind ((matches_readStatement input).mapErr _)
  exact fun statement => (h.execute hC statement).mapErr _

lemma EnginesMatch.mainLoop (h : EnginesMatch R) (hC : CatalogKeeps C) (lines : List String) :
    Matches (Beside C R) (Database.mainLoop lines : Exec Empty (Database σ) _) (Database.mainLoop lines) := by
  induction lines with
  | nil => exact matches_pure _
  | cons line lines ih =>
    apply (matches_pure _).ite
    apply Matches.bind (h.executeLine hC _).attempt
    intro printed
    apply Matches.bind ih
    exact fun _ => matches_pure _

end Engines

namespace Database

open ReliableManager

/-- The databases have one catalog, and their managers show the same pages. -/
def SameContents (db db' : Database ReliableManager) : Prop :=
  db.catalog = db'.catalog ∧ PageStore.pages db.storage = PageStore.pages db'.storage

section Pool

variable [UnstableSort] {db db' : Database ReliableManager}

/-- Two databases with one catalog, whose managers show the same pages, print the same for any input and have the
same contents afterwards, whatever is in their pools and however many frames these have. -/
theorem mainLoop_pool (lines : List String) (h : SameContents db db') :
    ((mainLoop lines).run db).Coupled SameContents SameContents ((mainLoop lines).run db') := by
  have hC : CatalogKeeps fun _ => True := ⟨fun _ => keeps_true _, fun _ => keeps_true _⟩
  have hbeside : Beside (fun _ => True) SamePages db db' := ⟨h.1, trivial, h.2⟩
  have hsame (db db' : Database ReliableManager) (h : Beside (fun _ => True) SamePages db db') :
      SameContents db db' := ⟨h.catalog, h.storage⟩
  exact (samePages_engines.mainLoop hC lines db db' hbeside).imp hsame hsame

end Pool

/-- A database that has just been created, over a pool with this many frames. -/
def created (capacity : Nat) (h : 0 < capacity) : Database ReliableManager :=
  ⟨⟨[], ⟨"default", [], [], .empty⟩⟩, .opened .empty capacity h⟩

lemma pages_created (capacity : Nat) (h : 0 < capacity) :
    PageStore.pages (created capacity h).storage = FileStore.empty.files := pages_opened .empty capacity h

/-- What is printed, without the errors. -/
def shownResult : Except LineError ExecuteResult → Option ExecuteResult
  | .ok result => some result
  | .error _ => none

/-- A table and a row through the default number of frames, told from a run through one frame. -/
theorem mainLoop_pool_created :
    let lines := ["CREATE TABLE t (k INT);", "INSERT INTO t VALUES (1);", "SELECT * FROM t WHERE k = 1;",
      "SELECT k", "\\q", "DELETE FROM t;"]
    ((mainLoop lines).run (created 16 (by decide))).value?.map (List.map shownResult) =
      some [some .success, some (.command 1), some (.rows [[.int 1]]), none] := by
  intro lines
  have hone : ((mainLoop lines).run (created 1 (by decide))).value?.map (List.map shownResult) =
      some [some .success, some (.command 1), some (.rows [[.int 1]]), none] := by
    decide +kernel
  have hsame : SameContents (created 1 (by decide)) (created 16 (by decide)) :=
    ⟨rfl, (pages_created 1 (by decide)).trans (pages_created 16 (by decide)).symm⟩
  rw [← (mainLoop_pool lines hsame).value?_eq]
  exact hone

end Database

end RdbRs
