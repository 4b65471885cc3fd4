import RdbRs.Lib.Walk
import RdbRs.Storage.CheckedPage

/-!
# Searching any free list

What `find_free_block` and `try_allocate_from_free_block` do on a page of any bytes. `Search` is the
walk of the loop, without a bound on its steps.
-/

namespace RdbRs

namespace Page

/-! ### The walk of `find_free_block` -/

/-- The block at which the search goes on. -/
def searchNext (p : Page) (required offset : Nat) : Option Nat :=
  match p.readFreeBlock offset with
  | .ok block => if block.length ≥ required then none else some block.next
  | .error _ => none

/-- What the search that has come from `prev` to `offset` returns. -/
inductive Search (p : Page) (required : Nat) :
    Nat → Option Nat → Except PageError (Option (Nat × Option Nat × FreeBlock)) → Prop where
  | tail {prev : Option Nat} : Search p required u16Max prev (.ok none)
  | damaged {offset : Nat} {prev : Option Nat} {e : PageError} : offset ≠ u16Max →
      p.readFreeBlock offset = .error e → Search p required offset prev (.error e)
  | found {offset : Nat} {prev : Option Nat} {block : FreeBlock} : p.readFreeBlock offset = .ok block →
      required ≤ block.length → Search p required offset prev (.ok (some (offset, prev, block)))
  | next {offset : Nat} {prev : Option Nat} {block : FreeBlock}
      {result : Except PageError (Option (Nat × Option Nat × FreeBlock))} :
      p.readFreeBlock offset = .ok block → block.length < required →
      Search p required block.next (some offset) result → Search p required offset prev result

section Walk

variable {p : Page} {required offset cur n fuel : Nat} {prev before : Option Nat} {block : FreeBlock}
  {result result' : Except PageError (Option (Nat × Option Nat × FreeBlock))}

lemma readFreeBlock_le (h : p.readFreeBlock offset = .ok block) : offset + freeBlockSize ≤ pageSize := by
  unfold readFreeBlock at h
  have ⟨_, hoffset, _⟩ := except_bind_eq_ok.mp h
  exact (freeBlockOffset_le hoffset).2

lemma readFreeBlock_ne (h : p.readFreeBlock offset = .ok block) : offset ≠ u16Max := by
  have := readFreeBlock_le h
  simp only [pageSize, freeBlockSize, u16Max] at *
  omega

lemma searchNext_max : p.searchNext required u16Max = none := by
  unfold searchNext
  cases hread : p.readFreeBlock u16Max with
  | ok block => exact absurd rfl (readFreeBlock_ne hread)
  | error e => rfl

lemma searchNext_lt (h : p.searchNext required offset ≠ none) : offset < pageSize - 3 := by
  unfold searchNext at h
  cases hread : p.readFreeBlock offset with
  | ok block =>
    have := readFreeBlock_le hread
    simp only [pageSize, freeBlockSize] at *
    omega
  | error e =>
    rw [hread] at h
    exact absurd rfl h

lemma Search.endsIn (h : Search p required offset prev result) :
    ∃ n, EndsIn (p.searchNext required) n offset := by
  induction h with
  | tail => exact ⟨0, searchNext_max⟩
  | damaged hne hread => exact ⟨0, by simp only [EndsIn, searchNext, hread]⟩
  | found hread hlarge => exact ⟨0, by simp only [EndsIn, searchNext, hread, ge_iff_le, hlarge, if_true]⟩
  | @next offset prev block result hread hsmall hrest ih =>
    have ⟨n, hn⟩ := ih
    refine ⟨n + 1, block.next, ?_, hn⟩
    simp only [searchNext, hread]
    rw [if_neg (by omega)]

lemma exists_search (h : EndsIn (p.searchNext required) n offset) (prev : Option Nat) :
    ∃ result, Search p required offset prev result := by
  induction n generalizing offset prev with
  | zero =>
    have hstop : p.searchNext required offset = none := h
    unfold searchNext at hstop
    by_cases hmax : offset = u16Max
    · rw [hmax]
      exact ⟨_, .tail⟩
    · cases hread : p.readFreeBlock offset with
      | error e => exact ⟨_, .damaged hmax hread⟩
      | ok block =>
        simp only [hread] at hstop
        split at hstop
        · rename_i hlarge
          exact ⟨_, .found hread hlarge⟩
        · cases hstop
  | succ n ih =>
    have ⟨next, hnext, hrest⟩ := h
    unfold searchNext at hnext
    cases hread : p.readFreeBlock offset with
    | error e =>
      rw [hread] at hnext
      cases hnext
    | ok block =>
      simp only [hread] at hnext
      split at hnext
      · cases hnext
      · rename_i hsmall
        cases hnext
        have ⟨result, hresult⟩ := ih hrest (some offset)
        exact ⟨result, .next hread (by omega) hresult⟩

lemma Search.unique (h : Search p required offset prev result)
    (h' : Search p required offset prev result') : result = result' := by
  induction h with
  | tail =>
    cases h' with
    | tail => rfl
    | damaged hne _ => exact absurd rfl hne
    | found hread _ => exact absurd rfl (readFreeBlock_ne hread)
    | next hread _ _ => exact absurd rfl (readFreeBlock_ne hread)
  | damaged hne hread =>
    cases h' with
    | tail => exact absurd rfl hne
    | damaged _ hread' =>
      rw [hread] at hread'
      cases hread'
      rfl
    | found hread' _ => exact nomatch hread.symm.trans hread'
    | next hread' _ _ => exact nomatch hread.symm.trans hread'
  | found hread hlarge =>
    cases h' with
    | tail => exact absurd rfl (readFreeBlock_ne hread)
    | damaged _ hread' => exact nomatch hread.symm.trans hread'
    | found hread' _ =>
      cases hread.symm.trans hread'
      rfl
    | next hread' hsmall _ =>
      cases hread.symm.trans hread'
      omega
  | next hread hsmall _ ih =>
    cases h' with
    | tail => exact absurd rfl (readFreeBlock_ne hread)
    | damaged _ hread' => exact nomatch hread.symm.trans hread'
    | found hread' hlarge =>
      cases hread.symm.trans hread'
      omega
    | next hread' _ hrest' =>
      cases hread.symm.trans hread'
      exact ih hrest'

/-- The block before the one that is found has been read. -/
lemma Search.before_read (h : Search p required offset prev result)
    (hprev : ∀ o, prev = some o → ∃ b, p.readFreeBlock o = .ok b)
    (hresult : result = .ok (some (cur, before, block))) :
    ∀ o, before = some o → ∃ b, p.readFreeBlock o = .ok b := by
  induction h with
  | tail => cases hresult
  | damaged => cases hresult
  | found =>
    cases hresult
    exact hprev
  | @next offset _ block' _ hread _ _ ih =>
    apply ih _ hresult
    intro o ho
    cases ho
    exact ⟨block', hread⟩

lemma Search.large (h : Search p required offset prev result)
    (hresult : result = .ok (some (cur, before, block))) : required ≤ block.length := by
  induction h with
  | tail => cases hresult
  | damaged => cases hresult
  | found _ hlarge =>
    cases hresult
    exact hlarge
  | next _ _ _ ih => exact ih hresult

lemma Search.cur_le (h : Search p required offset prev result)
    (hresult : result = .ok (some (cur, before, block))) : cur + freeBlockSize ≤ pageSize := by
  induction h with
  | tail => cases hresult
  | damaged => cases hresult
  | found hread =>
    cases hresult
    exact readFreeBlock_le hread
  | next _ _ _ ih => exact ih hresult

/-- The loop returns what the search returns, if it makes enough steps. -/
lemma Search.run_loop (h : Search p required offset prev result)
    (hends : EndsIn (p.searchNext required) n offset) (hfuel : n < fuel) :
    (findFreeBlockLoop required fuel offset prev).run p = (Exec.liftExcept result).run p := by
  induction h generalizing n fuel with
  | tail =>
    cases fuel with
    | zero => omega
    | succ fuel => rfl
  | damaged hne hread =>
    cases fuel with
    | zero => omega
    | succ fuel =>
      simp only [findFreeBlockLoop, if_neg hne, Exec.run_bind, Exec.run_query, hread, Outcome.andThen_err]
      rfl
  | found hread hlarge =>
    cases fuel with
    | zero => omega
    | succ fuel =>
      simp only [findFreeBlockLoop, if_neg (readFreeBlock_ne hread), Exec.run_bind, Exec.run_query, hread,
        Outcome.andThen_ok, ge_iff_le, hlarge, if_true]
      rfl
  | @next offset prev block result hread hsmall _ ih =>
    have hnext : p.searchNext required offset = some block.next := by
      simp only [searchNext, hread]
      rw [if_neg (by omega)]
    cases fuel with
    | zero => omega
    | succ fuel =>
      cases n with
      | zero =>
        have hstop : p.searchNext required offset = none := hends
        rw [hnext] at hstop
        cases hstop
      | succ n =>
        have ⟨_, hsome, hrest⟩ := hends
        rw [hnext] at hsome
        cases hsome
        simp only [findFreeBlockLoop, if_neg (readFreeBlock_ne hread), Exec.run_bind, Exec.run_query, hread,
          Outcome.andThen_ok, ge_iff_le, Nat.not_le.mpr hsmall, if_false]
        exact ih hrest (by omega)

/-- A search that never ends uses up every number of steps. -/
lemma run_loop_diverges (h : ∀ n, ¬EndsIn (p.searchNext required) n offset) :
    (findFreeBlockLoop required fuel offset prev).run p = .diverge := by
  induction fuel generalizing offset prev with
  | zero => rfl
  | succ fuel ih =>
    cases hnext : p.searchNext required offset with
    | none => exact absurd hnext (h 0)
    | some next =>
      have hrest (n : Nat) : ¬EndsIn (p.searchNext required) n next :=
        fun hends => h (n + 1) ⟨next, hnext, hends⟩
      unfold searchNext at hnext
      cases hread : p.readFreeBlock offset with
      | error e =>
        rw [hread] at hnext
        cases hnext
      | ok block =>
        simp only [hread] at hnext
        split at hnext
        · cases hnext
        · rename_i hsmall
          cases hnext
          simp only [findFreeBlockLoop, if_neg (readFreeBlock_ne hread), Exec.run_bind, Exec.run_query,
            hread, Outcome.andThen_ok, hsmall, if_false]
          exact ih hrest

/-- `find_free_block` returns what the search returns, and never ends if the search does not. -/
lemma findFreeBlock_cases : (∃ result, Search p required p.freeListHead none result ∧
      (findFreeBlock required).run p = (Exec.liftExcept result).run p) ∨
    (¬∃ result, Search p required p.freeListHead none result) ∧
      (findFreeBlock required).run p = .diverge := by
  have hrun : (findFreeBlock required).run p =
      (findFreeBlockLoop required pageSize p.freeListHead none).run p := rfl
  rw [hrun]
  by_cases hends : ∃ result, Search p required p.freeListHead none result
  · have ⟨result, hsearch⟩ := hends
    have ⟨n, hn⟩ := hsearch.endsIn
    have hle := hn.le fun x => searchNext_lt
    refine Or.inl ⟨result, hsearch, hsearch.run_loop hn ?_⟩
    simp only [pageSize] at hle ⊢
    omega
  · refine Or.inr ⟨hends, run_loop_diverges ?_⟩
    intro n hn
    exact hends (exists_search hn none)

end Walk

/-! ### Taking a block -/

section Blocks

variable {p : Page} {slotId : SlotId} {slot : Slot} {offset length n cur : Nat} {before : Option Nat}
  {block : FreeBlock}

/-- A call that only checks an offset and writes. -/
lemma writeFreeBlock_cases : (∃ q, (writeFreeBlock offset block).run p = .ok () q) ∨
    ∃ e, (writeFreeBlock offset block).run p = .err e p := by
  unfold writeFreeBlock
  rw [Exec.run_bind, Exec.run_query]
  cases p.freeBlockOffset offset with
  | ok o => exact Or.inl ⟨_, rfl⟩
  | error e => exact Or.inr ⟨e, rfl⟩

lemma writeFreeBlock_le {q : Page} (h : (writeFreeBlock offset block).run p = .ok () q) :
    offset + freeBlockSize ≤ pageSize := by
  unfold writeFreeBlock at h
  rw [Exec.run_bind, Exec.run_query] at h
  cases hoffset : p.freeBlockOffset offset with
  | ok o => exact (freeBlockOffset_le hoffset).2
  | error e =>
    rw [hoffset] at h
    cases h

lemma writeFreeBlock_of_read {b : FreeBlock} (h : p.readFreeBlock offset = .ok b) (block : FreeBlock) :
    ∃ q, (writeFreeBlock offset block).run p = .ok () q := by
  unfold readFreeBlock at h
  have ⟨o, hoffset, _⟩ := except_bind_eq_ok.mp h
  unfold writeFreeBlock
  rw [Exec.run_bind, Exec.run_query, hoffset]
  exact ⟨_, rfl⟩

lemma addFreeBlock_ends : ((addFreeBlock offset length).run p).Ends := by
  unfold addFreeBlock
  rw [Exec.run_bind, Exec.run_gets, Outcome.andThen_ok, Exec.run_bind]
  cases @writeFreeBlock_cases p offset ⟨p.freeListHead, length⟩ with
  | inl hok =>
    have ⟨q, hq⟩ := hok
    rw [hq]
    exact Outcome.ends_ok
  | inr herr =>
    have ⟨e, he⟩ := herr
    rw [he]
    exact Outcome.ends_err

lemma replaceFreeBlockLink_cases : (∃ q, (replaceFreeBlockLink before offset).run p = .ok () q) ∨
    ∃ e, (replaceFreeBlockLink before offset).run p = .err e p := by
  cases before with
  | none => exact Or.inl ⟨_, rfl⟩
  | some prev =>
    unfold replaceFreeBlockLink
    dsimp only
    rw [Exec.run_bind, Exec.run_query]
    cases p.readFreeBlock prev with
    | ok b => exact writeFreeBlock_cases
    | error e => exact Or.inr ⟨e, rfl⟩

lemma replaceFreeBlockLink_of_read (h : ∀ o, before = some o → ∃ b, p.readFreeBlock o = .ok b) :
    ∃ q, (replaceFreeBlockLink before offset).run p = .ok () q := by
  cases before with
  | none => exact ⟨_, rfl⟩
  | some prev =>
    have ⟨b, hb⟩ := h prev rfl
    unfold replaceFreeBlockLink
    dsimp only
    rw [Exec.run_bind, Exec.run_query, hb, Outcome.andThen_ok]
    exact writeFreeBlock_of_read hb _

/-- How `try_allocate_from_free_block` ends. A block that is larger than asked for is split, and its
rest is checked to lie in the page; a block of the length asked for is not checked. -/
inductive Allocates (p : Page) (n : Nat) : Outcome PageError Page (Option Nat) → Prop where
  | diverges : (¬∃ result, Search p n p.freeListHead none result) → Allocates p n .diverge
  | failed {e : PageError} {q : Page} {cur : Nat} {before : Option Nat} {block : FreeBlock} :
      Search p n p.freeListHead none (.ok (some (cur, before, block))) → n < block.length →
      Allocates p n (.err e q)
  | damaged {e : PageError} : Search p n p.freeListHead none (.error e) → Allocates p n (.err e p)
  | none : Search p n p.freeListHead none (.ok none) → Allocates p n (.ok none p)
  | split {q : Page} {cur : Nat} {before : Option Nat} {block : FreeBlock} :
      Search p n p.freeListHead none (.ok (some (cur, before, block))) → n < block.length →
      cur + n ≤ pageSize → Allocates p n (.ok (some cur) q)
  | whole {q : Page} {cur : Nat} {before : Option Nat} {block : FreeBlock} :
      Search p n p.freeListHead none (.ok (some (cur, before, block))) → block.length = n →
      (replaceFreeBlockLink before block.next).run p = .ok () q → Allocates p n (.ok (some cur) q)

lemma tryAllocateFromFreeBlock_allocates (hn : n ≤ pageSize) :
    Allocates p n ((tryAllocateFromFreeBlock n).run p) := by
  have hnarrow : asU16 n = n := Nat.mod_eq_of_lt (by simp only [pageSize] at hn; omega)
  unfold tryAllocateFromFreeBlock
  rw [hnarrow, Exec.run_bind]
  cases @findFreeBlock_cases p n with
  | inr hdiverges =>
    rw [hdiverges.2]
    exact .diverges hdiverges.1
  | inl hends =>
    have ⟨result, hsearch, hrun⟩ := hends
    rw [hrun, Exec.run_liftExcept]
    cases result with
    | error e => exact .damaged hsearch
    | ok found =>
      cases found with
      | none => exact .none hsearch
      | some found =>
        obtain ⟨cur, before, block⟩ := found
        have hlarge := hsearch.large rfl
        have hbefore := hsearch.before_read (fun o ho => nomatch ho) rfl
        simp only [Outcome.andThen_ok]
        by_cases hsplit : block.length > n
        · rw [if_pos hsplit, Exec.run_bind]
          cases @writeFreeBlock_cases p (asU16 (cur + n)) ⟨block.next, asU16 (block.length - n)⟩ with
          | inr herr =>
            have ⟨e, he⟩ := herr
            rw [he]
            exact .failed hsearch hsplit
          | inl hok =>
            have ⟨q, hwrite⟩ := hok
            have hle := writeFreeBlock_le hwrite
            rw [hwrite, Outcome.andThen_ok, Exec.run_bind]
            cases @replaceFreeBlockLink_cases q (asU16 (cur + n)) before with
            | inl hok =>
              have ⟨q', hq'⟩ := hok
              rw [hq']
              refine .split hsearch hsplit ?_
              have hcur := hsearch.cur_le rfl
              simp only [asU16, freeBlockSize, pageSize] at *
              omega
            | inr herr =>
              have ⟨e, he⟩ := herr
              rw [he]
              exact .failed hsearch hsplit
        · have heq : block.length = n := by omega
          have ⟨q, hq⟩ := @replaceFreeBlockLink_of_read p block.next before hbefore
          rw [if_neg hsplit, if_pos heq, Exec.run_bind, hq]
          exact .whole hsearch heq hq

end Blocks

end Page

end RdbRs
