/-
The search for an identifier, one candidate after another.

* `NameTable.Search`: how the search goes. It is left with a candidate that is free; behind a taken
  one the next number is tried. Nothing bounds it, so that it ends is a fact about the candidates.
* `Search.unique`: it can go in one way only.
* `le_card_of_taken`: candidates that are taken are as many different identifiers, so there are no
  more of them than identifiers that are issued or reserved.
* `fresh_search`: hence the search ends, with the first candidate that is free, and this identifier
  is issued and nothing else is changed.
-/
import Mathlib.Data.Finset.Card
import Mathlib.Data.Finset.Dedup
import Mathlib.Data.Finset.Lattice.Basic
import Blockscribe.Proofs.Name.Choice

namespace Blockscribe.NameTable

variable {t : NameTable} {base current identifier identifier' : String}
  {suffix tried tried' k n : ℕ}

/-! ### The search -/

/-- The search that looks at the candidate `current`, when `suffix` is the last number that has been
used, ends with `identifier` after as many candidates as `tried` says. -/
inductive Search (t : NameTable) (base : String) : String → ℕ → String → ℕ → Prop
  | found {current : String} {suffix : ℕ} (hfree : t.isTaken current = false) :
      Search t base current suffix current 1
  | next {current identifier : String} {suffix tried : ℕ} (htaken : t.isTaken current = true)
      (hrest : Search t base (base ++ toString (suffix + 1)) (suffix + 1) identifier tried) :
      Search t base current suffix identifier (tried + 1)

/-- The search goes in one way only. -/
lemma Search.unique (h : t.Search base current suffix identifier tried)
    (h' : t.Search base current suffix identifier' tried') :
    identifier' = identifier ∧ tried' = tried := by
  induction h generalizing tried' with
  | found hfree =>
      cases h' with
      | found _ => exact ⟨rfl, rfl⟩
      | next htaken _ => exact absurd (hfree.symm.trans htaken) Bool.false_ne_true
  | next htaken _ ih =>
      cases h' with
      | found hfree => exact absurd (hfree.symm.trans htaken) Bool.false_ne_true
      | next _ hrest' => exact (ih hrest').imp_right (congrArg (· + 1))

/-- The search passes over the candidates that are taken and stops at the first that is not. -/
lemma search_candidate (hfree : t.isTaken (candidate base n) = false) (hk : k ≤ n)
    (htaken : ∀ j, k ≤ j → j < n → t.isTaken (candidate base j) = true) :
    t.Search base (candidate base k) (k + 1) (candidate base n) (n - k + 1) := by
  induction hk using Nat.decreasingInduction with
  | self =>
      rw [Nat.sub_self]
      exact .found hfree
  | of_succ k hk ih =>
      have hcount : n - k + 1 = n - (k + 1) + 1 + 1 := by omega
      rw [hcount]
      exact .next (htaken k le_rfl hk) (ih fun j hj => htaken j (Nat.le_of_succ_le hj))

/-! ### Counting -/

/-- Candidates that are all taken are no more than the identifiers that are issued or reserved. -/
lemma le_card_of_taken (htaken : ∀ j < k, t.isTaken (candidate base j) = true) :
    k ≤ t.issued.toFinset.card + t.reserved.toFinset.card := by
  have hmaps : ∀ j ∈ Finset.range k,
      candidate base j ∈ t.issued.toFinset ∪ t.reserved.toFinset := by
    intro j hj
    rw [← List.toFinset_append, List.mem_toFinset]
    exact isTaken_iff.mp (htaken j (Finset.mem_range.mp hj))
  calc k = (Finset.range k).card := (Finset.card_range k).symm
    _ ≤ (t.issued.toFinset ∪ t.reserved.toFinset).card :=
      Finset.card_le_card_of_injOn (candidate base) hmaps fun _ _ _ _ h => candidate_injective h
    _ ≤ t.issued.toFinset.card + t.reserved.toFinset.card := Finset.card_union_le _ _

/-! ### Issuing -/

/-- The candidate with the number `k` is the first one that is neither issued nor reserved. -/
structure IsFirstFree (t : NameTable) (base : String) (k : ℕ) : Prop where
  notMem_issued : candidate base k ∉ t.issued
  notMem_reserved : candidate base k ∉ t.reserved
  taken_before : ∀ j < k, candidate base j ∈ t.issued ∨ candidate base j ∈ t.reserved

/-- **Issuing an identifier ends, and with the first free candidate.** The search over `base`,
`base2`, `base3`, ... goes in one way only, looks at no more candidates than there are issued and
reserved identifiers, and one; the identifier that it ends with is the first that is neither issued
nor reserved. It becomes issued, and nothing else is changed. -/
theorem fresh_search (t : NameTable) (hint : String) :
    ∃ k, (t.fresh hint).1 = candidate (safeName hint) k ∧ t.IsFirstFree (safeName hint) k ∧
      t.Search (safeName hint) (safeName hint) 1 (t.fresh hint).1 (k + 1) ∧
      (∀ identifier tried, t.Search (safeName hint) (safeName hint) 1 identifier tried →
        identifier = (t.fresh hint).1 ∧ tried = k + 1) ∧
      k + 1 ≤ t.issued.toFinset.card + t.reserved.toFinset.card + 1 ∧
      (t.fresh hint).2.issued.toFinset = insert (t.fresh hint).1 t.issued.toFinset ∧
      (t.fresh hint).2.reserved = t.reserved ∧ (t.fresh hint).2.known = t.known := by
  have hfree := not_isTaken_choose t hint
  have hchoose : t.choose hint =
      candidate (safeName hint) (firstFree t.isTaken (safeName hint) t.bound 0) := rfl
  have htaken : ∀ j < firstFree t.isTaken (safeName hint) t.bound 0,
      t.isTaken (candidate (safeName hint) j) = true :=
    fun j hj => taken_candidate_of_lt_firstFree (Nat.zero_le j) hj
  generalize firstFree t.isTaken (safeName hint) t.bound 0 = k at hchoose htaken
  have hsearch : t.Search (safeName hint) (safeName hint) 1 (t.fresh hint).1 (k + 1) := by
    have hend : (t.fresh hint).1 = candidate (safeName hint) k := hchoose
    rw [hchoose] at hfree
    rw [hend]
    exact search_candidate hfree (Nat.zero_le k) fun j _ => htaken j
  have hfirst : t.IsFirstFree (safeName hint) k :=
    ⟨hchoose ▸ choose_notMem_issued t hint, hchoose ▸ choose_notMem_reserved t hint,
      fun j hj => List.mem_append.mp (isTaken_iff.mp (htaken j hj))⟩
  exact ⟨k, hchoose, hfirst, hsearch, fun _ _ h => hsearch.unique h,
    Nat.succ_le_succ (le_card_of_taken htaken), List.toFinset_cons, rfl, rfl⟩

end Blockscribe.NameTable
