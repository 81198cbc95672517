/-
Accesses to a sequence, as the program writes them and carries them out.

* `Form`, `Form.text`: reading an element, reading a part, taking an element out, replacing one,
  inserting one and appending one.
* `locate`, `clamp`: the element that an index means, and where the end of a part lies. Both count
  from the end if the index is below zero; an end outside of the sequence is moved to its edge.
* `Form.effect`: what an access gives, and what is left of the sequence.
* `locate_eq`, `clamp_eq`: an element has two indexes, one counted from the front and one counted
  from the end.
-/
import Blockscribe.Proofs.Access.Reader

namespace Blockscribe.Access

/-- The forms of access to a sequence, with the texts of indexes and values. -/
inductive Form
  | item (index : String)
  | part (start stop : String)
  | pop (index : String)
  | assign (index value : String)
  | insert (index value : String)
  | append (value : String)

/-- How an access is written. -/
def Form.text (sequence : String) : Form → String
  | item index => sequence ++ "[" ++ index ++ "]"
  | part start stop => sequence ++ "[" ++ start ++ " : " ++ stop ++ "]"
  | pop index => sequence ++ ".pop(" ++ index ++ ")"
  | assign index value => sequence ++ "[" ++ index ++ "] = " ++ value
  | insert index value => sequence ++ ".insert(" ++ index ++ ", " ++ value ++ ")"
  | append value => sequence ++ ".append(" ++ value ++ ")"

/-- The element that an index means, if there is one. -/
def locate (len : ℕ) (i : ℤ) : Option ℕ :=
  let k := if i < 0 then i + len else i
  if 0 ≤ k ∧ k < len then some k.toNat else none

/-- Where the end of a part lies. -/
def clamp (len : ℕ) (i : ℤ) : ℕ := (max 0 (min (len : ℤ) (if i < 0 then i + len else i))).toNat

/-- The value of an end; without a text there is no limit. -/
def Scope.limit (scope : Scope) (text : String) : Option (Option ℤ) :=
  if text = "" then some none else (scope.eval text).map some

/-- The index of what is popped; without a text that is the last element. -/
def Scope.popped (scope : Scope) (text : String) : Option ℤ :=
  if text = "" then some (-1) else scope.eval text

/-- The part of a sequence between two ends. -/
def between {α : Type} (xs : List α) (start stop : Option ℤ) : List α :=
  (xs.take ((stop.map (clamp xs.length)).getD xs.length)).drop
    ((start.map (clamp xs.length)).getD 0)

/-- What an access to a sequence gives and what it leaves, where `v` is the element that its value
stands for. -/
def Form.effect {α : Type} (scope : Scope) (v : α) (xs : List α) : Form → Option (List α × List α)
  | item index => do
    let k ← locate xs.length (← scope.eval index)
    return (xs[k]?.toList, xs)
  | part start stop => do return (between xs (← scope.limit start) (← scope.limit stop), xs)
  | pop index => do
    let k ← locate xs.length (← scope.popped index)
    return (xs[k]?.toList, xs.eraseIdx k)
  | assign index _ => do
    let k ← locate xs.length (← scope.eval index)
    return ([], xs.set k v)
  | insert index _ => do return ([], xs.insertIdx (clamp xs.length (← scope.eval index)) v)
  | append _ => some ([], xs ++ [v])

/-- The two indexes of an element. -/
def IsIndexOf (len k : ℕ) (i : ℤ) : Prop := k < len ∧ (i = k ∨ i + len = k)

variable {len k : ℕ} {i : ℤ}

lemma locate_eq (h : IsIndexOf len k i) : locate len i = some k := by
  obtain ⟨hk, hi⟩ := h
  have hplace : (if i < 0 then i + len else i) = k := by
    split <;> omega
  have hinside : (0 : ℤ) ≤ k ∧ (k : ℤ) < len := by omega
  simp only [locate, hplace, if_pos hinside, Int.toNat_natCast]

lemma clamp_eq (h : IsIndexOf len k i) : clamp len i = k := by
  obtain ⟨hk, hi⟩ := h
  have hplace : (if i < 0 then i + len else i) = k := by
    split <;> omega
  rw [clamp, hplace]
  omega

/-- An end that is not below zero stays where it is, up to the edge. -/
lemma clamp_of_nonneg (hi : 0 ≤ i) : clamp len i = min len i.toNat := by
  rw [clamp, if_neg (not_lt.mpr hi)]
  omega

end Blockscribe.Access
