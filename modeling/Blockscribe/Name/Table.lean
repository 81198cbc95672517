/-
Allocation of identifiers.

* `NameTable`: the reserved words, the identifiers issued so far, and the identifier of every name
  that has been asked for.
* `NameTable.fresh`: a new identifier for a hint: the first of `base`, `base2`, `base3`, ... that is
  neither issued nor reserved.
* `NameTable.named`: the identifier of a name, the same one for every spelling of it that agrees up
  to letter case.
* `taken_candidate_of_lt_firstFree`, `candidate_injective`: the search skips taken candidates only,
  and the candidates differ from each other, which is why the search ends.
-/
import Blockscribe.Log
import Blockscribe.Name.Safe
import Blockscribe.Text.Lowercase

namespace Blockscribe

/-- The identifiers of one run. -/
structure NameTable where
  reserved : List String
  issued : List String
  known : List ((String × NameKind) × String)

namespace NameTable

/-- A table with nothing issued. -/
def empty (reserved : List String) : NameTable := ⟨reserved, [], []⟩

/-- Forgets everything issued and keeps the reserved words. -/
def reset (t : NameTable) : NameTable := empty t.reserved

/-- Whether an identifier cannot be issued. -/
def isTaken (t : NameTable) (identifier : String) : Bool :=
  t.issued.contains identifier || t.reserved.contains identifier

/-- The candidates for a base: itself, then itself with the numbers from two on. -/
def candidate (base : String) : Nat → String
  | 0 => base
  | k + 1 => base ++ toString (k + 2)

/-- The number of the first candidate from `k` on that is not taken, among the next `fuel`. -/
def firstFree (taken : String → Bool) (base : String) : Nat → Nat → Nat
  | 0, k => k
  | fuel + 1, k => if taken (candidate base k) then firstFree taken base fuel (k + 1) else k

/-- How many candidates can be taken. -/
def bound (t : NameTable) : Nat := t.issued.length + t.reserved.length

/-- The identifier that a hint gets. -/
def choose (t : NameTable) (hint : String) : String :=
  let base := safeName hint
  candidate base (firstFree t.isTaken base t.bound 0)

/-- Issues an identifier that has not been issued before. -/
def fresh (t : NameTable) (hint : String) : String × NameTable :=
  (t.choose hint, { t with issued := t.choose hint :: t.issued })

/-- The key of a name: lower case, with its name space. -/
def keyOf (name : String) (kind : NameKind) : String × NameKind :=
  (String.ofList (Text.lowercase name.toList), kind)

/-- The identifier of a name, issued on first use. -/
def named (t : NameTable) (name : String) (kind : NameKind) : String × NameTable :=
  match t.known.lookup (keyOf name kind) with
  | some identifier => (identifier, t)
  | none =>
    let (identifier, t') := t.fresh name
    (identifier, { t' with known := (keyOf name kind, identifier) :: t'.known })

/-- How many identifiers have been issued. -/
def size (t : NameTable) : Nat := t.issued.length

/-- Numbered candidates differ from each other. -/
theorem candidate_injective {base : String} {i j : Nat}
    (h : candidate base i = candidate base j) : i = j := by
  have numbered : ∀ k : Nat, (toString k).toList ≠ [] := by
    intro k
    simp [Nat.toDigits_ne_nil]
  have hl := congrArg String.toList h
  cases i with
  | zero =>
    cases j with
    | zero => rfl
    | succ j =>
      simp only [candidate, String.toList_append] at hl
      exact absurd (List.append_right_eq_self.1 hl.symm) (numbered _)
  | succ i =>
    cases j with
    | zero =>
      simp only [candidate, String.toList_append] at hl
      exact absurd (List.append_right_eq_self.1 hl) (numbered _)
    | succ j =>
      simp only [candidate, String.toList_append] at hl
      have hd := List.append_cancel_left hl
      have hn := congrArg (fun ds => Nat.ofDigitChars 10 ds 0) hd
      simp at hn
      omega

/-- The search passes over taken candidates only. -/
theorem taken_candidate_of_lt_firstFree {taken : String → Bool} {base : String} {fuel k i : Nat}
    (hk : k ≤ i) (hi : i < firstFree taken base fuel k) : taken (candidate base i) = true := by
  induction fuel generalizing k with
  | zero => simp only [firstFree] at hi; omega
  | succ fuel ih =>
    simp only [firstFree] at hi
    split at hi
    · rename_i h
      rcases Nat.eq_or_lt_of_le hk with rfl | hlt
      · exact h
      · exact ih hlt hi
    · omega

end NameTable

end Blockscribe
