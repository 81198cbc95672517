/-
Texts that are no plain numerals.

* `Number.Foreign`: a text with a character that no plain numeral has. It has it also beside another
  text.
* `foreign_of_isIdentifier`: identifiers are such texts.
* `not_isNumeral_difference`: a difference is no numeral, though it may have a numeral's characters.
* `Number.Inert`: nothing, or such a text; beside it a numeral stays as it is or is none.
-/
import Blockscribe.Proofs.Number.Bounded

namespace Blockscribe.Number

open Text

/-- Blanks, minus signs, points and digits; plain numerals have no other characters. -/
def isNumeralChar (c : Char) : Bool := isBlank c || c == '-' || c == '.' || isDecimal c

/-- The text has a character that no plain numeral has. -/
def Foreign (text : String) : Prop := ∃ c ∈ text.toList, isNumeralChar c = false

instance : DecidablePred Foreign :=
  fun text => List.decidableBEx (fun c => isNumeralChar c = false) text.toList

variable {a b text : String} {cs u v : List Char} {x y : Char}

/-! ### Characters that no numeral has -/

lemma Foreign.not_isNumeral (h : Foreign text) : isNumeral text = false := by
  obtain ⟨c, hmem, hc⟩ := h
  refine Bool.eq_false_iff.mpr fun hnumeral => ?_
  simp only [isNumeralChar, Bool.or_eq_false_iff, beq_eq_false_iff_ne] at hc
  rcases mem_of_isNumeral hnumeral hmem with h | h | h | h
  · exact absurd h (by simp [hc.1.1.1])
  · exact hc.1.1.2 h
  · exact hc.1.2 h
  · exact absurd h (by simp [hc.2])

lemma folds_of_not_isNumeral (h : isNumeral text = false) : Folds text :=
  fun hnumeral => absurd hnumeral (Bool.eq_false_iff.mp h)

lemma Foreign.folds (h : Foreign text) : Folds text := folds_of_not_isNumeral h.not_isNumeral

/-- A text has what its parts have. -/
@[simp]
lemma foreign_append : Foreign (a ++ b) ↔ Foreign a ∨ Foreign b := by
  simp only [Foreign, String.toList_append, List.mem_append, or_and_right, exists_or]

lemma Foreign.append_right (h : Foreign a) (b : String) : Foreign (a ++ b) :=
  foreign_append.mpr (.inl h)

lemma Foreign.append_left (h : Foreign b) (a : String) : Foreign (a ++ b) :=
  foreign_append.mpr (.inr h)

/-- The letters and the underscore are in no plain numeral. -/
lemma isNumeralChar_of_isWordChar {c : Char} (hc : Name.isWordChar c = true)
    (hdigit : c.isDigit = false) : isNumeralChar c = false := by
  have hascii := Name.toNat_lt_of_isWordChar hc
  have htable : ∀ k : Fin 128, Name.isWordChar (Char.ofNat k) = true →
      (Char.ofNat k).isDigit = false → isNumeralChar (Char.ofNat k) = false := by
    decide
  have hk := htable ⟨c.toNat, hascii⟩
  rw [Char.ofNat_toNat] at hk
  exact hk hc hdigit

/-- Identifiers are no numerals. -/
lemma foreign_of_isIdentifier (h : isIdentifier text = true) : Foreign text := by
  obtain ⟨c, rest, hcs, hdigit, hword, -⟩ := exists_of_isIdentifier h
  exact ⟨c, hcs ▸ List.mem_cons_self, isNumeralChar_of_isWordChar hword hdigit⟩

/-! ### Differences -/

/-- Nothing is trimmed off from the first character on that is not blank. -/
lemma exists_trimLeft_eq (hx : isBlank x = false) (u v : List Char) :
    ∃ front, trimLeft (u ++ x :: v) = front ++ x :: v := by
  induction u with
  | nil => exact ⟨[], List.dropWhile_cons_of_neg (by simp [hx])⟩
  | cons c rest ih =>
      cases hc : isBlank c with
      | true =>
          obtain ⟨front, hfront⟩ := ih
          exact ⟨front, (List.dropWhile_cons_of_pos hc).trans hfront⟩
      | false => exact ⟨c :: rest, List.dropWhile_cons_of_neg (by simp [hc])⟩

/-- Nothing is trimmed off up to the last character that is not blank. -/
lemma exists_trimRight_eq (hx : isBlank x = false) (u v : List Char) :
    ∃ back, trimRight (u ++ x :: v) = u ++ x :: back := by
  have hreverse : (u ++ x :: v).reverse = v.reverse ++ x :: u.reverse := by simp
  obtain ⟨front, hfront⟩ := exists_trimLeft_eq hx v.reverse u.reverse
  refine ⟨front.reverse, ?_⟩
  rw [trimRight, hreverse]
  exact (congrArg List.reverse hfront).trans (by simp)

/-- What stands between two characters that are not blank is not trimmed off. -/
lemma mem_trim_of_between (hx : isBlank x = false) (hy : isBlank y = false) {mid : List Char}
    {c : Char} (hc : c ∈ mid) : c ∈ trim (u ++ x :: (mid ++ y :: v)) := by
  obtain ⟨front, hfront⟩ := exists_trimLeft_eq hx u (mid ++ y :: v)
  have hgroup : front ++ x :: (mid ++ y :: v) = (front ++ x :: mid) ++ y :: v := by simp
  obtain ⟨back, hback⟩ := exists_trimRight_eq hy (front ++ x :: mid) v
  rw [trim, hfront, hgroup, hback]
  exact List.mem_append_left _ (List.mem_append_right _ (List.mem_cons_of_mem _ hc))

/-- There is no space inside a plain numeral. -/
lemma not_isNumeral_of_space (h : ' ' ∈ trim text.toList) : isNumeral text = false := by
  refine Bool.eq_false_iff.mpr fun hnumeral => ?_
  exact absurd (mem_of_isNumeral_trim hnumeral h) (by decide)

/-- A difference is no numeral: either the space in front of the minus sign or the one behind it is
inside, or there is nothing but the sign. -/
lemma not_isNumeral_difference (left right : String) :
    isNumeral (left ++ " - " ++ right) = false := by
  have htext : (left ++ " - " ++ right).toList =
      left.toList ++ ' ' :: '-' :: ' ' :: right.toList := by
    rw [String.toList_append, String.toList_append, List.append_assoc]
    rfl
  have hsign : isBlank '-' = false := by decide
  by_cases hright : allBlank right.toList = true
  · by_cases hleft : allBlank left.toList = true
    · have htrim : trim (left ++ " - " ++ right).toList = ['-'] := by
        have hfront : trimLeft (left.toList ++ ' ' :: '-' :: ' ' :: right.toList) =
            '-' :: ' ' :: right.toList := by
          rw [trimLeft, List.dropWhile_append_of_pos (List.all_eq_true.mp hleft)]
          rfl
        have hback : ∀ c ∈ right.toList.reverse ++ [' '], isBlank c = true := by
          refine List.forall_mem_append.mpr ⟨fun c hc => ?_, List.forall_mem_singleton.mpr rfl⟩
          exact List.all_eq_true.mp hright c (List.mem_reverse.mp hc)
        rw [htext, trim, hfront, trimRight, List.reverse_cons, List.reverse_cons,
          List.dropWhile_append_of_pos hback]
        rfl
      rw [isNumeral, htrim]
      rfl
    · -- the space in front of the sign is between a character on the left and the sign
      simp only [allBlank, List.all_eq_true, not_forall, Bool.not_eq_true] at hleft
      obtain ⟨x, hmem, hx⟩ := hleft
      obtain ⟨u, mid, hu⟩ := List.append_of_mem hmem
      have hbetween := mem_trim_of_between (u := u) (v := ' ' :: right.toList) hx hsign
        (List.mem_append_right mid (List.mem_singleton_self ' '))
      refine not_isNumeral_of_space ?_
      rw [htext, hu]
      simpa using hbetween
  · -- the space behind the sign is between the sign and a character on the right
    simp only [allBlank, List.all_eq_true, not_forall, Bool.not_eq_true] at hright
    obtain ⟨y, hmem, hy⟩ := hright
    obtain ⟨mid, v, hv⟩ := List.append_of_mem hmem
    have hbetween := mem_trim_of_between (u := left.toList ++ [' ']) (v := v) hsign hy
      (List.mem_cons_self (a := ' ') (l := mid))
    refine not_isNumeral_of_space ?_
    rw [htext, hv]
    simpa using hbetween

/-! ### Around a numeral -/

/-- Nothing, or a text that is in no plain numeral. -/
def Inert (text : String) : Prop := text = "" ∨ Foreign text

lemma inert_empty : Inert "" := .inl rfl

lemma Foreign.inert (h : Foreign text) : Inert text := .inr h

/-- Beside such texts a numeral stays as it is or is none. -/
lemma Folds.between (h : Folds text) (ha : Inert a) (hb : Inert b) : Folds (a ++ text ++ b) := by
  rcases ha with rfl | ha
  · rcases hb with rfl | hb
    · rwa [String.empty_append, String.append_empty]
    · exact (hb.append_left _).folds
  · exact ((ha.append_right text).append_right b).folds

end Blockscribe.Number
