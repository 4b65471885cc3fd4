import RdbRs.Lib.LeafChainUnique
import RdbRs.Index.TextTrees

/-!
# Trees with unique keys

While a key is only inserted when it has no live entry, a tree is a finite map: what the calls so
far have stored is what the live leaves hold, and a search finds just that.
-/

namespace RdbRs

open LeafChain BTree

section Lists

variable {es : List LeafEntry} {k : BTreeKey} {m : BTreeKey → Option RowId}

/-- A list of entries with different keys is a map. -/
lemma map_rowId_entriesAt (hnodup : (es.map LeafEntry.key).Nodup)
    (hm : ∀ e, e ∈ es ↔ m e.key = some e.rowId) (k : BTreeKey) :
    (entriesAt LeafEntry.key k es).map LeafEntry.rowId = (m k).toList := by
  have hmem : ∀ e ∈ entriesAt LeafEntry.key k es, e.key = k ∧ m k = some e.rowId := by
    intro e he
    have ⟨hes, hk⟩ := mem_entriesAt.mp he
    subst hk
    exact ⟨rfl, (hm e).mp hes⟩
  have hsub : ((entriesAt LeafEntry.key k es).map LeafEntry.key).Nodup :=
    List.Nodup.sublist (List.filter_sublist.map _) hnodup
  match hat : entriesAt LeafEntry.key k es with
  | [] =>
    cases hk : m k with
    | none => rfl
    | some r =>
      have hr : ⟨k, r⟩ ∈ entriesAt LeafEntry.key k es := mem_entriesAt.mpr ⟨(hm ⟨k, r⟩).mpr hk, rfl⟩
      rw [hat] at hr
      cases hr
  | [e] =>
    rw [hat] at hmem
    rw [(hmem e List.mem_cons_self).2]
    rfl
  | e :: e' :: rest =>
    rw [hat] at hmem hsub
    have he := (hmem e (by simp)).1
    have he' := (hmem e' (by simp)).1
    simp [he, he'] at hsub

/-- The map that entries with different keys make up. -/
def entryMap (es : List LeafEntry) (k : BTreeKey) : Option RowId :=
  (es.find? fun e => e.key = k).map LeafEntry.rowId

lemma entryMap_eq_none (h : k ∉ es.map LeafEntry.key) : entryMap es k = none := by
  rw [entryMap, Option.map_eq_none_iff, List.find?_eq_none]
  intro e he heq
  exact h (List.mem_map.mpr ⟨e, he, of_decide_eq_true heq⟩)

lemma entryMap_append {r : RowId} (h : k ∉ es.map LeafEntry.key) :
    entryMap (es ++ [⟨k, r⟩]) = Function.update (entryMap es) k (some r) := by
  funext j
  rw [entryMap, List.find?_append]
  by_cases hj : j = k
  · subst hj
    rw [Option.map_eq_none_iff.mp (entryMap_eq_none h), Function.update_self]
    simp
  · rw [Function.update_of_ne hj, entryMap]
    simp [Ne.symm hj]

end Lists

section Effects

variable {root x : PageId} {nodes : PageId → Node} {seq : List (PageId × WithTop BTreeKey)}
  {l : Leaf PageId LeafEntry} {e : LeafEntry}

/-- An entry of the live leaves is on the leaf its key is sent to. -/
lemma mem_contents_iff (hs : Unique LeafEntry.key (leavesOf nodes) seq)
    (hroute : route seq e.key = some x) (hx : nodes x = .leaf l) :
    e ∈ contents (leavesOf nodes) seq ↔ e ∈ l.entries := by
  have ⟨pre, u, post, hseq, hlt, hle⟩ := route_eq_some.mp hroute
  subst hseq
  have heq := hs.entriesAt_contents (leavesOf_eq_some.mpr hx) hlt hle
  have hiff : e ∈ entriesAt LeafEntry.key e.key (contents (leavesOf nodes) (pre ++ (x, u) :: post)) ↔
      e ∈ entriesAt LeafEntry.key e.key l.entries := by rw [heq]
  rw [mem_entriesAt, mem_entriesAt] at hiff
  simpa using hiff

end Effects

namespace BTree

section Runs

variable {σ : Type} [PageStore σ] (tree : BTree)

/-- Runs in which every call succeeds and only keys without a live entry are inserted, with what
they have stored. -/
inductive UniqueRun [UnstableSort] : σ → (BTreeKey → Option RowId) → Prop where
  | create {indexId : IndexId} {keyType : BTreeKeyType} {s s' : σ} :
      (create indexId keyType).run s = .ok tree s' → UniqueRun s' fun _ => none
  | insert {k : BTreeKey} {r : RowId} {s s' : σ} {m : BTreeKey → Option RowId} : UniqueRun s m →
      m k = none → (tree.insert k r).run s = .ok () s' → UniqueRun s' (Function.update m k (some r))
  | delete {k : BTreeKey} {r : RowId} {found : Bool} {s s' : σ} {m : BTreeKey → Option RowId} :
      UniqueRun s m → (tree.delete k r).run s = .ok found s' →
      UniqueRun s' (if m k = some r then Function.update m k none else m)
  | search {k : BTreeKey} {rows : List RowId} {s s' : σ} {m : BTreeKey → Option RowId} :
      UniqueRun s m → (tree.search k).run s = .ok rows s' → UniqueRun s' m
  | elsewhere {s s' : σ} {m : BTreeKey → Option RowId} : UniqueRun s m →
      PageStore.pages s' tree.relationId = PageStore.pages s tree.relationId → UniqueRun s' m

/-- The tree answers as the map `m` does. -/
structure ActsAs [UnstableSort] (s : σ) (m : BTreeKey → Option RowId) : Prop where
  search_ok : ∀ k, k.keyType = tree.keyType → ∃ s', (tree.search k).run s = .ok (m k).toList s'
  search_eq : ∀ k rows s', (tree.search k).run s = .ok rows s' → rows = (m k).toList
  delete_iff : ∀ k r found s', (tree.delete k r).run s = .ok found s' → (found = true ↔ m k = some r)

/-- The live leaves hold the map `m`. -/
structure Holds (nodes : PageId → Node) (n : Nat) (seq : List (PageId × WithTop BTreeKey)) (s : σ)
    (m : BTreeKey → Option RowId) : Prop where
  shows' : tree.Shows nodes n s
  wired : Wired tree.rootPageId nodes seq
  unique : Unique LeafEntry.key (leavesOf nodes) seq
  mem_iff : ∀ e, e ∈ contents (leavesOf nodes) seq ↔ m e.key = some e.rowId

variable {tree} {nodes : PageId → Node} {n : Nat} {seq : List (PageId × WithTop BTreeKey)} {s s' : σ}
  {m : BTreeKey → Option RowId} {k : BTreeKey} {r : RowId} {found : Bool} {rows : List RowId}

/-- A new tree holds nothing. -/
lemma Shows.holds_empty (hs : tree.Shows nodes n s)
    (hroot : nodes tree.rootPageId = .leaf ⟨[], none⟩) :
    tree.Holds nodes n [(tree.rootPageId, ⊤)] s fun _ => none := by
  have hleaf := leavesOf_eq_some.mpr hroot
  refine ⟨hs, wired_leaf hroot, unique_single hleaf, ?_⟩
  intro e
  rw [contents_cons hleaf]
  simp [contents]

lemma Holds.search_run (h : tree.Holds nodes n seq s m) (hk : k.keyType = tree.keyType) :
    ∃ s', (tree.search k).run s = .ok (m k).toList s' ∧ tree.Holds nodes n seq s' m := by
  have ⟨ps, hps⟩ := h.wired.linked.exists_search k
  have ⟨s', hrun, hs'⟩ := h.shows'.search_ok h.wired hk hps
  refine ⟨s', ?_, hs', h.wired, h.unique, h.mem_iff⟩
  rw [hrun, foundRows, h.unique.found_eq hps, map_rowId_entriesAt h.unique.nodup h.mem_iff]

lemma search_of_keyType_ne (hk : k.keyType ≠ tree.keyType) :
    (tree.search k).run s = .err .invalidKeyType s := by
  have haccept : tree.acceptsKey k = false := decide_eq_false (Ne.symm hk)
  unfold search
  rw [haccept]
  rfl

lemma Holds.search_eq (h : tree.Holds nodes n seq s m) (hrun : (tree.search k).run s = .ok rows s') :
    rows = (m k).toList ∧ tree.Holds nodes n seq s' m := by
  by_cases hk : k.keyType = tree.keyType
  · have ⟨s₁, hrun₁, h₁⟩ := h.search_run hk
    have heq := Outcome.ok.inj (hrun.symm.trans hrun₁)
    rw [heq.1, heq.2]
    exact ⟨rfl, h₁⟩
  · rw [search_of_keyType_ne hk] at hrun
    cases hrun

variable [UnstableSort]

/-- An insertion of a new key extends the map. -/
lemma Holds.insert (h : tree.Holds nodes n seq s m) (hnew : m k = none)
    (hrun : (tree.insert k r).run s = .ok () s') :
    ∃ nodes' n' seq', tree.Holds nodes' n' seq' s' (Function.update m k (some r)) := by
  rcases h.shows'.insert_cases h.wired k r with ⟨s₁, hrun₁, hdone⟩ | ⟨e, s₁, _, hrun₁, _⟩
  swap
  · rw [hrun₁] at hrun
    cases hrun
  obtain ⟨-, rfl⟩ := Outcome.ok.inj (hrun.symm.trans hrun₁)
  have ⟨nodes', n', seq', hs', hw', hgrown⟩ := hdone
  refine ⟨nodes', n', seq', hs', hw', hgrown.unique h.unique ?_, ?_⟩
  · intro c hc heq
    have hm := (h.mem_iff c).mp hc
    rw [heq, hnew] at hm
    cases hm
  · intro e
    rw [(hgrown.contents h.wired.linked).mem_iff, List.mem_cons, h.mem_iff]
    by_cases hek : e.key = k
    · rw [hek, Function.update_self, hnew]
      obtain ⟨key, rowId⟩ := e
      simp only at hek
      subst hek
      simp [eq_comm]
    · rw [Function.update_of_ne hek]
      constructor
      · intro he
        rcases he with rfl | he
        · exact absurd rfl hek
        · exact he
      · exact .inr

/-- A deletion finds its entry exactly when it is the one of the map, and takes it out. -/
lemma Holds.delete (h : tree.Holds nodes n seq s m) (hrun : (tree.delete k r).run s = .ok found s') :
    (found = true ↔ m k = some r) ∧
      ∃ nodes' n' seq', tree.Holds nodes' n' seq' s'
        (if m k = some r then Function.update m k none else m) := by
  by_cases hk : k.keyType = tree.keyType
  swap
  · rw [delete_of_keyType_ne hk] at hrun
    cases hrun
  have ⟨d, parent, x, hd, hplace, hn⟩ := h.shows'.exists_place h.wired k
  have ⟨z, hz, hzx⟩ := mem_of_route hplace.route_eq
  have ⟨l, hx⟩ := leaf_of_mem h.wired.linked hz
  rw [hzx] at hx
  have hdeleted := h.shows'.delete_spec (r := r) h.wired hk hd hx
  rw [hrun] at hdeleted
  have hmem : ⟨k, r⟩ ∈ l.entries ↔ m k = some r := by
    rw [← mem_contents_iff h.unique hplace.route_eq hx]
    exact h.mem_iff ⟨k, r⟩
  rcases hdeleted.shrunk h.wired hplace.route_eq hx with ⟨rfl, habsent, hs'⟩ |
    ⟨rfl, hpresent, nodes', seq', hs', hw', hshrunk⟩
  · have hne : ¬ m k = some r := fun heq => habsent (hmem.mpr heq)
    rw [if_neg hne]
    exact ⟨by simp [hne], nodes, n, seq, hs', h.wired, h.unique, h.mem_iff⟩
  · have hk := hmem.mp hpresent
    rw [if_pos hk]
    refine ⟨by simp [hk], nodes', n, seq', hs', hw', hshrunk.unique h.unique, ?_⟩
    have hperm := hshrunk.contents h.wired.linked
    intro e
    by_cases hek : e.key = k
    · rw [hek, Function.update_self]
      have hnodup := (hperm.map LeafEntry.key).nodup_iff.mp h.unique.nodup
      rw [List.map_cons, List.nodup_cons] at hnodup
      constructor
      · intro he
        apply absurd _ hnodup.1
        have hkey := List.mem_map_of_mem (f := LeafEntry.key) he
        rwa [hek] at hkey
      · intro hnone
        cases hnone
    · rw [Function.update_of_ne hek, ← h.mem_iff, hperm.mem_iff, List.mem_cons]
      constructor
      · exact .inr
      · intro he
        rcases he with rfl | he
        · exact absurd rfl hek
        · exact he

/-- What a run has stored is what the live leaves hold. -/
lemma UniqueRun.holds (h : tree.UniqueRun s m) : ∃ nodes n seq, tree.Holds nodes n seq s m := by
  induction h with
  | @create indexId keyType s s' hrun =>
    have ⟨pages, hpages, hlt⟩ := create_eq_ok hrun
    have ⟨s₁, hrun', hs⟩ := create_ok keyType hpages hlt
    obtain ⟨rfl, rfl⟩ := Outcome.ok.inj (hrun'.symm.trans hrun)
    exact ⟨_, _, _, hs.holds_empty (Function.update_self ..)⟩
  | insert _ hnew hrun ih =>
    have ⟨nodes, n, seq, hholds⟩ := ih
    exact hholds.insert hnew hrun
  | delete _ hrun ih =>
    have ⟨nodes, n, seq, hholds⟩ := ih
    exact (hholds.delete hrun).2
  | search _ hrun ih =>
    have ⟨nodes, n, seq, hholds⟩ := ih
    exact ⟨nodes, n, seq, (hholds.search_eq hrun).2⟩
  | elsewhere _ hpages ih =>
    have ⟨nodes, n, seq, hholds⟩ := ih
    exact ⟨nodes, n, seq, hholds.shows'.congr hpages, hholds.wired, hholds.unique, hholds.mem_iff⟩

/-- A tree with unique keys is a finite map. -/
theorem uniqueRun_actsAs (h : tree.UniqueRun s m) : tree.ActsAs s m := by
  have ⟨nodes, n, seq, hholds⟩ := h.holds
  constructor
  · intro k hk
    have ⟨s', hrun, _⟩ := hholds.search_run hk
    exact ⟨s', hrun⟩
  · intro k rows s' hrun
    exact (hholds.search_eq hrun).1
  · intro k r found s' hrun
    exact (hholds.delete hrun).1

/-- Insertions under different keys are a run. -/
lemma uniqueRun_insertClosed : tree.InsertClosed fun es (s : σ) =>
    (es.map LeafEntry.key).Nodup → tree.UniqueRun s (entryMap es) := by
  constructor
  · intro indexId keyType s s' hrun _
    exact .create hrun
  · intro es k r s s' h hrun hnodup
    rw [List.map_append, List.map_cons, List.map_nil, List.nodup_append] at hnodup
    obtain ⟨hes, -, hdisjoint⟩ := hnodup
    have hnew : k ∉ es.map LeafEntry.key := fun hmem => hdisjoint k hmem k List.mem_cons_self rfl
    rw [entryMap_append hnew]
    exact .insert (h hes) (entryMap_eq_none hnew) hrun

end Runs

/-- Four rows on two leaves, and what is left of them after a deletion. -/
theorem uniqueRun_actsAs_twoLeaves : ∃ (s s' : FileStore) (nodes : PageId → Node),
    TwoLeaves [('a', 100), ('b', 100)] [('c', 4000), ('d', 4090)] ('b', 100) s nodes ∧
    ((open' ⟨0⟩ (PageId.new 0) .varchar).delete (.repeated 'c' 4000) (.ofSlot 2)).run s = .ok true s' ∧
    (open' ⟨0⟩ (PageId.new 0) .varchar).ActsAs s
      (entryMap (textEntries 0 [('a', 100), ('b', 100), ('c', 4000), ('d', 4090)])) ∧
    (open' ⟨0⟩ (PageId.new 0) .varchar).ActsAs s'
      (Function.update (entryMap (textEntries 0 [('a', 100), ('b', 100), ('c', 4000), ('d', 4090)]))
        (.repeated 'c' 4000) none) := by
  obtain ⟨s, nodes, s', hunique, htree, -, hrun⟩ := uniqueRun_insertClosed.exists_deleted
  have hbefore := hunique (nodup_textEntries (by decide))
  have hacts := uniqueRun_actsAs hbefore
  have hstored := (hacts.delete_iff _ _ _ _ hrun).mp rfl
  have hafter := hbefore.delete hrun
  rw [if_pos hstored] at hafter
  exact ⟨s, s', nodes, htree, hrun, hacts, uniqueRun_actsAs hafter⟩

end BTree

end RdbRs
