/-
The identifier that a hint gets.

* `firstFree_eq_of_taken`: a search that ends on a taken candidate has tried all it was allowed to.
* `not_isTaken_choose`: the chosen identifier is neither issued nor reserved. The candidates differ
  from each other, so more of them than there are taken identifiers cannot all be taken.
* `isIdentifier_choose`: the chosen identifier is a word of letters, digits and underscores that
  starts with no digit.
-/
import Mathlib.Data.List.Nodup
import Mathlib.Data.List.Perm.Subperm
import Blockscribe.Name.Table

namespace Blockscribe

namespace Name

/-- An identifier stays one when word characters follow. -/
lemma isIdentifierChars_append {cs ds : List Char} (h : isIdentifierChars cs = true)
    (hd : ∀ d ∈ ds, isWordChar d = true) : isIdentifierChars (cs ++ ds) = true := by
  cases cs with
  | nil => simp [isIdentifierChars] at h
  | cons c rest =>
      rw [isIdentifierChars, Bool.and_eq_true] at h
      rw [List.cons_append, isIdentifierChars, List.all_append, h.2, Bool.true_and,
        Bool.and_eq_true]
      exact ⟨h.1, List.all_eq_true.mpr hd⟩

/-- The digits of a number are word characters. -/
lemma isWordChar_of_mem_toString {n : ℕ} {c : Char} (h : c ∈ (toString n).toList) :
    isWordChar c = true := by
  rw [Nat.toString_eq_ofList_toDigits, String.toList_ofList] at h
  have hc : c.isDigit = true := Nat.isDigit_of_mem_toDigits (by omega) (by omega) h
  simp [isWordChar, Char.isAlphanum, hc]

end Name

namespace NameTable

/-- A number behind an identifier makes another identifier. -/
lemma isIdentifier_candidate {base : String} (h : isIdentifier base = true) (k : ℕ) :
    isIdentifier (candidate base k) = true := by
  cases k with
  | zero => exact h
  | succ k =>
      rw [candidate, isIdentifier, String.toList_append]
      exact Name.isIdentifierChars_append h fun d hd => Name.isWordChar_of_mem_toString hd

/-- The chosen identifier is an identifier. -/
lemma isIdentifier_choose (t : NameTable) (hint : String) :
    isIdentifier (t.choose hint) = true :=
  isIdentifier_candidate (isIdentifier_safeName hint) _

/-- A search that ends on a taken candidate has used up its fuel. -/
lemma firstFree_eq_of_taken {taken : String → Bool} {base : String} (fuel k : ℕ)
    (h : taken (candidate base (firstFree taken base fuel k)) = true) :
    firstFree taken base fuel k = k + fuel := by
  induction fuel generalizing k with
  | zero => rfl
  | succ fuel ih =>
      by_cases hk : taken (candidate base k) = true
      · rw [firstFree, if_pos hk] at h ⊢
        rw [ih (k + 1) h]
        omega
      · rw [firstFree, if_neg hk] at h
        exact absurd h hk

/-- The taken identifiers are the issued and the reserved ones. -/
lemma isTaken_iff {t : NameTable} {identifier : String} :
    t.isTaken identifier = true ↔ identifier ∈ t.issued ++ t.reserved := by
  simp [isTaken]

/-- Not all of the first `bound + 1` candidates are taken. -/
lemma exists_candidate_free (t : NameTable) (base : String) :
    ∃ k ≤ t.bound, t.isTaken (candidate base k) = false := by
  by_contra hall
  have htaken : ∀ k ≤ t.bound, t.isTaken (candidate base k) = true := by
    intro k hk
    by_contra hfree
    exact hall ⟨k, hk, by simpa using hfree⟩
  -- as many different candidates as fit below the bound, and one more, would all be taken
  have hnodup : ((List.range (t.bound + 1)).map (candidate base)).Nodup :=
    List.Nodup.map (fun _ _ h => candidate_injective h) List.nodup_range
  have hsubset : (List.range (t.bound + 1)).map (candidate base) ⊆ t.issued ++ t.reserved := by
    intro identifier h
    obtain ⟨k, hk, rfl⟩ := List.mem_map.mp h
    exact isTaken_iff.mp (htaken k (by have := List.mem_range.mp hk; omega))
  have hlength := (hnodup.subperm hsubset).length_le
  rw [List.length_map, List.length_range, List.length_append] at hlength
  have hbound : t.bound = t.issued.length + t.reserved.length := rfl
  omega

/-- The chosen identifier is neither issued nor reserved. -/
lemma not_isTaken_choose (t : NameTable) (hint : String) : t.isTaken (t.choose hint) = false := by
  by_contra h
  rw [Bool.not_eq_false] at h
  have hend := firstFree_eq_of_taken t.bound 0 h
  obtain ⟨k, hk, hfree⟩ := exists_candidate_free t (safeName hint)
  have hlast : k ≠ t.bound := by
    rintro rfl
    rw [choose, hend, Nat.zero_add] at h
    simp [hfree] at h
  have hearly : t.isTaken (candidate (safeName hint) k) = true :=
    taken_candidate_of_lt_firstFree (Nat.zero_le k) (by rw [hend]; omega)
  simp [hfree] at hearly

/-- The chosen identifier has not been issued. -/
lemma choose_notMem_issued (t : NameTable) (hint : String) : t.choose hint ∉ t.issued := by
  intro h
  have htaken := isTaken_iff.mpr (List.mem_append_left t.reserved h)
  simp [not_isTaken_choose] at htaken

/-- The chosen identifier is not reserved. -/
lemma choose_notMem_reserved (t : NameTable) (hint : String) : t.choose hint ∉ t.reserved := by
  intro h
  have htaken := isTaken_iff.mpr (List.mem_append_right t.issued h)
  simp [not_isTaken_choose] at htaken

end NameTable

end Blockscribe
