import RdbRs.Executor.TypedRows
import RdbRs.Lib.RunningSum

/-!
# Sums

`SUM` checks every partial sum. It returns the sum of the values, or that the sum does not fit,
whenever no partial sum leaves the range on the way to a sum that fits; in every order of the
rows exactly when the positive values alone and the negative values alone fit.
-/

namespace RdbRs

def InI64 (n : Int) : Prop := -9223372036854775808 ≤ n ∧ n ≤ 9223372036854775807

instance (n : Int) : Decidable (InI64 n) := inferInstanceAs (Decidable (_ ∧ _))

lemma inI64_toInt (a : Int64) : InI64 a.toInt := by
  have hle := a.le_toInt
  have hlt := a.toInt_lt
  rw [InI64]
  omega

lemma checkedAdd_of_fits {a b : Int64} (h : InI64 (a.toInt + b.toInt)) : checkedAdd a b = some (a + b) :=
  if_pos h

lemma checkedAdd_of_not_fits {a b : Int64} (h : ¬ InI64 (a.toInt + b.toInt)) : checkedAdd a b = none :=
  if_neg h

lemma toInt_add_of_fits {a b : Int64} (h : InI64 (a.toInt + b.toInt)) :
    (a + b).toInt = a.toInt + b.toInt := by
  rw [InI64] at h
  rw [Int64.toInt_add]
  apply Int.bmod_eq_of_le <;> omega

/-- What a numeric value adds to a sum. -/
def Value.addend : Value → Option Int64
  | int v => some v.toInt64
  | bigInt v => some v
  | _ => none

lemma valueToAddend_eq {v : Value} {dataType : DataType} (h : v.HasType dataType)
    (htype : dataType = .int ∨ dataType = .bigInt) : valueToAddend v = .ok v.addend := by
  cases v with
  | int v => rfl
  | bigInt v => rfl
  | null => rfl
  | boolean v =>
    rcases htype with rfl | rfl
    all_goals exact h.elim
  | varchar v =>
    rcases htype with rfl | rfl
    all_goals exact h.elim

namespace Executor

variable {σ : Type} {self : Executor} {tables : List BoundTable} {rows : List QueryRow}
  {c : BoundColumnReference} {dataType : DataType}

/-- The values of a column that are not `NULL`, as numbers. -/
def addends (self : Executor) (column : BoundColumnReference) (rows : List QueryRow) : List Int :=
  rows.filterMap fun row => (self.valueOf row column).addend.map Int64.toInt

/-- The sum as a `BIGINT`, `NULL` for no values. -/
def exactSum (values : List Int) : Except ExecutorError Value :=
  if values = [] then .ok .null
  else if InI64 values.sum then .ok (.bigInt (Int64.ofInt values.sum))
  else .error .sumOverflow

/-- Whether no partial sum of the values leaves the range. -/
def Runs (t : Int) (values : List Int) : Prop :=
  RunsWithin (-9223372036854775808) 9223372036854775807 t values

section Typed

variable (hscope : Scope tables) (hc : c.IsIn self.database tables dataType)
  (htype : dataType = .int ∨ dataType = .bigInt)

include hscope hc htype

/-- A round adds the value of the row, if it has one. -/
lemma sumRow_eq {row : QueryRow} (hrow : row.IsFrom self.database tables) (acc : Option Int64) :
    (self.sumRow c acc row : Exec ExecutorError σ _) =
      match (self.valueOf row c).addend with
      | none => pure acc
      | some a =>
        Exec.okOr .sumOverflow (checkedAdd (acc.getD 0) a) >>= fun total => pure (some total) := by
  have hhas := valueOf_hasType hscope hrow hc
  rw [sumRow, columnValue_eq hscope hrow hc, Exec.pure_bind, valueToAddend_eq hhas htype]
  rfl

/-- The loop of a `SUM`, from any accumulated sum. -/
lemma sumRows_eq (hrows : ∀ row ∈ rows, row.IsFrom self.database tables) (acc : Option Int64) :
    (Runs (acc.getD 0).toInt (self.addends c rows) →
      (rows.foldlM (self.sumRow c) acc : Exec ExecutorError σ _) =
        pure (if self.addends c rows = [] then acc
          else some (Int64.ofInt ((acc.getD 0).toInt + (self.addends c rows).sum)))) ∧
    (¬ Runs (acc.getD 0).toInt (self.addends c rows) →
      (rows.foldlM (self.sumRow c) acc : Exec ExecutorError σ _) = Exec.throw .sumOverflow) := by
  induction rows generalizing acc with
  | nil =>
    constructor
    · intro _
      rfl
    · intro h
      exact absurd (runsWithin_nil.mpr (inI64_toInt _)) h
  | cons row rows ih =>
    have hlater := ih fun r hr => hrows r (List.mem_cons_of_mem row hr)
    rw [Exec.foldlM_cons, sumRow_eq hscope hc htype (hrows row List.mem_cons_self), addends,
      List.filterMap_cons]
    cases ha : (self.valueOf row c).addend with
    | none =>
      simp only [Option.map_none, Exec.pure_bind]
      exact hlater acc
    | some a =>
      simp only [Option.map_some]
      have hacc := inI64_toInt (acc.getD 0)
      have hcons : Runs (acc.getD 0).toInt (a.toInt :: self.addends c rows) ↔
          Runs ((acc.getD 0).toInt + a.toInt) (self.addends c rows) := by
        rw [Runs, runsWithin_cons]
        exact and_iff_right hacc
      by_cases hfits : InI64 ((acc.getD 0).toInt + a.toInt)
      · have htotal := toInt_add_of_fits hfits
        have hround := hlater (some (acc.getD 0 + a))
        rw [Option.getD_some, htotal] at hround
        rw [checkedAdd_of_fits hfits, Exec.okOr_some, Exec.pure_bind, Exec.pure_bind]
        constructor
        · intro h
          rw [hround.1 (hcons.mp h), if_neg (List.cons_ne_nil _ _), List.sum_cons]
          congr 1
          split
          · next hnil =>
            have hsum : (self.addends c rows).sum = 0 := by rw [hnil, List.sum_nil]
            rw [addends] at hsum
            rw [hsum, add_zero, ← htotal, Int64.ofInt_toInt]
          · rw [add_assoc]
            rfl
        · intro h
          exact hround.2 fun hr => h (hcons.mpr hr)
      · have hnot : ¬ Runs (acc.getD 0).toInt (a.toInt :: self.addends c rows) := by
          rw [hcons]
          intro h
          have hstart := h [] List.nil_prefix
          rw [List.sum_nil, add_zero] at hstart
          exact hfits hstart
        rw [checkedAdd_of_not_fits hfits, Exec.okOr_none, Exec.throw_bind, Exec.throw_bind]
        exact ⟨fun h => absurd h hnot, fun _ => rfl⟩

/-! ### The outcome -/

omit hscope hc htype in
/-- What `SUM` is to return, as the values of a result row. -/
def sumSpec (self : Executor) (column : BoundColumnReference) (rows : List QueryRow) :
    Exec ExecutorError σ (List Value) := do
  let value ← Exec.liftExcept (exactSum (self.addends column rows))
  pure [value]

variable {key : List Value} {groupBy : List BoundColumnReference}

omit hscope hc htype in
lemma aggregateSum_eq : (self.aggregateGroup ⟨key, rows⟩ groupBy [.aggregate (.sum c)] :
      Exec ExecutorError σ _) =
    rows.foldlM (self.sumRow c) none >>= fun sum => pure [(sum.map Value.bigInt).getD .null] := by
  apply Exec.ext_run
  intro s
  simp only [aggregateGroup, Exec.foldlM_cons, Exec.foldlM_nil, aggregateProjection, Exec.run_bind]
  cases (rows.foldlM (self.sumRow c) none).run s <;> rfl

lemma sumRows_of_runs (hrows : ∀ row ∈ rows, row.IsFrom self.database tables)
    (h : Runs 0 (self.addends c rows)) :
    ∃ sum, (rows.foldlM (self.sumRow c) none : Exec ExecutorError σ _) = pure sum ∧
      exactSum (self.addends c rows) = .ok ((sum.map Value.bigInt).getD .null) := by
  have htotal : InI64 (self.addends c rows).sum := by
    have ht := h.total
    rwa [zero_add] at ht
  refine ⟨_, (sumRows_eq hscope hc htype hrows none).1 h, ?_⟩
  by_cases hnil : self.addends c rows = []
  · rw [exactSum, if_pos hnil, if_pos hnil]
    rfl
  · rw [exactSum, if_neg hnil, if_neg hnil, if_pos htotal, Option.getD_none, Int64.toInt_zero, zero_add]
    rfl

lemma aggregateSum_of_runs (hrows : ∀ row ∈ rows, row.IsFrom self.database tables)
    (h : Runs 0 (self.addends c rows)) :
    (self.aggregateGroup ⟨key, rows⟩ groupBy [.aggregate (.sum c)] : Exec ExecutorError σ _) =
      self.sumSpec c rows := by
  have ⟨sum, hrun, hexact⟩ := sumRows_of_runs (σ := σ) hscope hc htype hrows h
  rw [aggregateSum_eq, hrun, sumSpec, hexact]
  rfl

lemma aggregateSum_of_not_runs (hrows : ∀ row ∈ rows, row.IsFrom self.database tables)
    (h : ¬ Runs 0 (self.addends c rows)) :
    (self.aggregateGroup ⟨key, rows⟩ groupBy [.aggregate (.sum c)] : Exec ExecutorError σ _) =
      Exec.throw .sumOverflow := by
  rw [aggregateSum_eq, (sumRows_eq hscope hc htype hrows none).2 h, Exec.throw_bind]

omit hscope hc htype in
lemma sumSpec_of_not_fits (h : ¬ InI64 (self.addends c rows).sum) :
    (self.sumSpec c rows : Exec ExecutorError σ _) = Exec.throw .sumOverflow := by
  have hne : self.addends c rows ≠ [] := by
    intro hnil
    rw [hnil, List.sum_nil] at h
    exact h (by decide)
  rw [sumSpec, exactSum, if_neg hne, if_neg h, Exec.liftExcept_error, Exec.throw_bind]

omit hscope hc htype in
lemma sumSpec_of_fits (h : InI64 (self.addends c rows).sum) :
    ∃ v, (self.sumSpec c rows : Exec ExecutorError σ _) = pure [v] := by
  rw [sumSpec, exactSum]
  by_cases hnil : self.addends c rows = []
  · rw [if_pos hnil]
    exact ⟨_, rfl⟩
  · rw [if_neg hnil, if_pos h]
    exact ⟨_, rfl⟩

/-- The sum is exact for the rows in this order when no partial sum leaves the range, or the sum
does not fit itself. -/
lemma aggregateSum_exact_iff (hrows : ∀ row ∈ rows, row.IsFrom self.database tables) (s : σ) :
    (self.aggregateGroup ⟨key, rows⟩ groupBy [.aggregate (.sum c)]).run s =
        (self.sumSpec c rows).run s ↔
      Runs 0 (self.addends c rows) ∨ ¬ InI64 (self.addends c rows).sum := by
  by_cases hruns : Runs 0 (self.addends c rows)
  · rw [aggregateSum_of_runs hscope hc htype hrows hruns]
    simp [hruns]
  · rw [aggregateSum_of_not_runs hscope hc htype hrows hruns]
    by_cases hfits : InI64 (self.addends c rows).sum
    · have ⟨v, hv⟩ := sumSpec_of_fits (σ := σ) hfits
      rw [hv]
      simp [hruns, hfits]
    · rw [sumSpec_of_not_fits hfits]
      simp [hfits]

/-! ### The order of the rows -/

section Order

omit hscope hc htype

variable {rows' : List QueryRow}

lemma addends_perm (h : rows'.Perm rows) : (self.addends c rows').Perm (self.addends c rows) :=
  h.filterMap _

lemma sumSpec_perm (h : rows'.Perm rows) :
    (self.sumSpec c rows' : Exec ExecutorError σ _) = self.sumSpec c rows := by
  have hperm : (self.addends c rows').Perm (self.addends c rows) := addends_perm h
  have hnil : self.addends c rows' = [] ↔ self.addends c rows = [] := by
    rw [← List.length_eq_zero_iff, hperm.length_eq, List.length_eq_zero_iff]
  simp only [sumSpec, exactSum, hnil, hperm.sum_eq]

/-- The rows with a value that passes a test, in front of the others. -/
def testedFirst (self : Executor) (c : BoundColumnReference) (test : Int → Bool)
    (rows : List QueryRow) : List QueryRow :=
  let first (row : QueryRow) := ((self.valueOf row c).addend.map Int64.toInt).any test
  rows.filter first ++ rows.filter fun row => !first row

lemma testedFirst_perm (test : Int → Bool) : (self.testedFirst c test rows).Perm rows :=
  List.filter_append_perm _ _

lemma filter_prefix_addends (test : Int → Bool) :
    (self.addends c rows).filter test <+: self.addends c (self.testedFirst c test rows) := by
  have hfirst : (self.addends c rows).filter test = self.addends c (rows.filter fun row =>
      ((self.valueOf row c).addend.map Int64.toInt).any test) := by
    unfold addends
    induction rows with
    | nil => rfl
    | cons row rows ih =>
      rw [List.filterMap_cons, List.filter_cons]
      cases ha : (self.valueOf row c).addend.map Int64.toInt with
      | none => simpa using ih
      | some a =>
        simp only [List.filter_cons, Option.any_some]
        split
        · rw [List.filterMap_cons, ha, ih]
        · exact ih
  rw [hfirst, testedFirst]
  unfold addends
  rw [List.filterMap_append]
  exact List.prefix_append _ _

end Order

/-- A `SUM` is the sum of the values, and the same for the rows in every order, exactly when the
sum does not fit or the positive values alone and the negative values alone fit. -/
theorem aggregateSum_orderFree_iff (hrows : ∀ row ∈ rows, row.IsFrom self.database tables) (s : σ) :
    ((self.aggregateGroup ⟨key, rows⟩ groupBy [.aggregate (.sum c)]).run s =
        (self.sumSpec c rows).run s ∧
      ∀ rows' : List QueryRow, rows'.Perm rows →
        (self.aggregateGroup ⟨key, rows'⟩ groupBy [.aggregate (.sum c)]).run s =
          (self.aggregateGroup ⟨key, rows⟩ groupBy [.aggregate (.sum c)]).run s) ↔
      ¬ InI64 (self.addends c rows).sum ∨
        (-9223372036854775808 ≤ (negatives (self.addends c rows)).sum ∧
          (positives (self.addends c rows)).sum ≤ 9223372036854775807) := by
  have hperm (rows' : List QueryRow) (h : rows'.Perm rows) :
      ∀ row ∈ rows', row.IsFrom self.database tables := fun row hrow => hrows row (h.mem_iff.mp hrow)
  constructor
  · intro ⟨hexact, hsame⟩
    by_cases hfits : InI64 (self.addends c rows).sum
    · right
      -- the sum is exact in every order, so no order leaves the range
      have hruns (rows' : List QueryRow) (h : rows'.Perm rows) : Runs 0 (self.addends c rows') := by
        have hexact' := (hsame rows' h).trans hexact
        rw [← sumSpec_perm h] at hexact'
        have haddends : (self.addends c rows').Perm (self.addends c rows) := addends_perm h
        have hsum := haddends.sum_eq
        cases (aggregateSum_exact_iff hscope hc htype (hperm rows' h) s).mp hexact' with
        | inl hruns => exact hruns
        | inr hnot => exact absurd (hsum ▸ hfits) hnot
      have hbounds (test : Int → Bool) :=
        hruns _ (testedFirst_perm test) _ (filter_prefix_addends test)
      constructor
      · have hneg := (hbounds fun a => decide (a < 0)).1
        rwa [zero_add] at hneg
      · have hpos := (hbounds fun a => decide (0 < a)).2
        rwa [zero_add] at hpos
    · exact .inl hfits
  · intro h
    have hspec (rows' : List QueryRow) (hp : rows'.Perm rows) :
        (self.aggregateGroup ⟨key, rows'⟩ groupBy [.aggregate (.sum c)] : Exec ExecutorError σ _).run s =
          (self.sumSpec c rows).run s := by
      rw [← sumSpec_perm hp]
      apply (aggregateSum_exact_iff hscope hc htype (hperm rows' hp) s).mpr
      cases h with
      | inl hnot =>
        right
        rwa [(addends_perm hp).sum_eq]
      | inr hboth =>
        left
        exact runsWithin_of_perm (addends_perm hp) hboth.1 hboth.2
    have hself := hspec rows List.Perm.rfl
    refine ⟨hself, fun rows' hp => ?_⟩
    rw [hspec rows' hp, hself]

end Typed

/-- The amounts `i64::MAX`, `1` and `-1`: the sum fits, the sum of the first two does not. -/
theorem aggregateSum_partialOverflow :
    let amount : BoundColumnReference := ⟨⟨1⟩, ⟨0⟩, ⟨2⟩⟩
    let row (slot : Nat) (v : Int64) : QueryRow := ⟨[ledgerRow 0 slot 0 (.bigInt v) "x"]⟩
    let rows := [row 0 9223372036854775807, row 1 1, row 2 (-1)]
    (aggregateGroup ⟨ledger⟩ ⟨[], rows⟩ [] [.aggregate (.sum amount)]).run () = .err .sumOverflow () ∧
      (sumSpec ⟨ledger⟩ amount rows).run () = .ok [.bigInt 9223372036854775807] () ∧
        (aggregateGroup ⟨ledger⟩ ⟨[], rows.reverse⟩ [] [.aggregate (.sum amount)]).run () =
          .ok [.bigInt 9223372036854775807] () := by
  exact ⟨rfl, rfl, rfl⟩

theorem aggregateSum_orderFree_iff_twoRows :
    let amount : BoundColumnReference := ⟨⟨1⟩, ⟨0⟩, ⟨2⟩⟩
    let rows : List QueryRow :=
      [⟨[ledgerRow 0 0 0 (.bigInt 5) "x"]⟩, ⟨[ledgerRow 0 1 0 .null "x"]⟩]
    ((aggregateGroup ⟨ledger⟩ ⟨[], rows⟩ [] [.aggregate (.sum amount)]).run () =
        (sumSpec ⟨ledger⟩ amount rows).run () ∧
      ∀ rows' : List QueryRow, rows'.Perm rows →
        (aggregateGroup ⟨ledger⟩ ⟨[], rows'⟩ [] [.aggregate (.sum amount)]).run () =
          (aggregateGroup ⟨ledger⟩ ⟨[], rows⟩ [] [.aggregate (.sum amount)]).run ()) := by
  intro amount rows
  have hscope : Scope [⟨⟨1⟩, ⟨0⟩, none⟩] := by decide
  have hc : amount.IsIn ledger [⟨⟨1⟩, ⟨0⟩, none⟩] .bigInt :=
    ⟨⟨⟨1⟩, ⟨0⟩, none⟩, by decide, rfl, rfl, _, rfl, _, rfl, rfl⟩
  have hrows : ∀ row ∈ rows, row.IsFrom ledger [⟨⟨1⟩, ⟨0⟩, none⟩] := by
    intro row hrow
    simp only [rows, List.mem_cons, List.not_mem_nil, or_false] at hrow
    rcases hrow with rfl | rfl
    all_goals exact .cons (ledgerRow_isOf trivial) .nil
  apply (aggregateSum_orderFree_iff hscope hc (.inr rfl) hrows ()).mpr
  right
  decide

end Executor

end RdbRs
