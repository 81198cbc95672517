/-
Finite numbers are written as numerals.

* `Double.magnitude`: a number without its sign.
* `plainText_eq`: the text of a finite number is that of its magnitude, with a sign in front if it
  is below zero.
* `isNumeral_layOut`, `isNumeral_magnitude`: decimals that are laid out, and the magnitudes of
  finite numbers, are numerals.
* `Number.mem_of_isNumeral`: what a text is made of that is a plain numeral.
-/
import Mathlib.Data.List.TakeWhile
import Blockscribe.Number.Decimal
import Blockscribe.Number.Reading
import Blockscribe.Proofs.Grammar.Lex

namespace Blockscribe

open Grammar

/-! ### Digits -/

lemma isDigit_of_mem_digitsOf {n : ℕ} {c : Char} (h : c ∈ Double.digitsOf n) : c.isDigit = true :=
  Nat.isDigit_of_mem_toDigits (by decide) (by decide) h

/-- The digits of a positive number do not start with a zero. -/
lemma head?_digitsOf {n : ℕ} (hn : 0 < n) : (Double.digitsOf n).head? ≠ some '0' := by
  rw [Double.digitsOf]
  induction n using Nat.strongRecOn with
  | ind n ih =>
      by_cases hlt : n < 10
      · rw [Nat.toDigits_of_lt_base hlt]
        have hdigit : ∀ k < 10, 0 < k → [Nat.digitChar k].head? ≠ some '0' := by decide
        exact hdigit n hlt hn
      · rw [Nat.toDigits_of_base_le (by decide) (by omega), List.head?_append,
          List.head?_eq_some_head Nat.toDigits_ne_nil, Option.some_or,
          ← List.head?_eq_some_head Nat.toDigits_ne_nil]
        exact ih (n / 10) (by omega) (by omega)

/-! ### Numerals -/

namespace Grammar

/-- Digits are taken off up to what follows them. -/
lemma span_digits {ds rest : List Char} (hds : ∀ c ∈ ds, c.isDigit = true)
    (hrest : ∀ c ∈ rest.head?, c.isDigit = false) :
    (ds ++ rest).takeWhile Char.isDigit = ds ∧ (ds ++ rest).dropWhile Char.isDigit = rest := by
  have hstop : rest.takeWhile Char.isDigit = [] ∧ rest.dropWhile Char.isDigit = rest := by
    cases rest with
    | nil => exact ⟨rfl, rfl⟩
    | cons c cs =>
        have hc : ¬ c.isDigit = true := by simp [hrest c rfl]
        exact ⟨List.takeWhile_cons_of_neg hc, List.dropWhile_cons_of_neg hc⟩
  rw [List.takeWhile_append_of_pos hds, List.dropWhile_append_of_pos hds, hstop.1, hstop.2,
    List.append_nil]
  exact ⟨rfl, rfl⟩

lemma head?_of_isScale {cs : List Char} (h : isScale cs = true) :
    ∀ c ∈ cs.head?, c.isDigit = false := by
  cases cs with
  | nil => exact fun _ hc => nomatch hc
  | cons e rest =>
      intro c hc
      obtain rfl := Option.mem_some_iff.mp hc
      rw [isScale, Bool.and_eq_true, Bool.or_eq_true, beq_iff_eq, beq_iff_eq] at h
      rcases h.1 with rfl | rfl <;> decide

/-- Digits that do not start with a zero are a numeral, and so is a zero. -/
lemma isNumeral_of_digits {ds : List Char} (hne : ds ≠ []) (hds : ∀ c ∈ ds, c.isDigit = true)
    (hzero : ds.head? ≠ some '0' ∨ ds = ['0']) : isNumeral ds = true := by
  have hnil : ∀ c ∈ ([] : List Char).head?, c.isDigit = false := fun _ h => nomatch h
  obtain ⟨htake, hdrop⟩ := span_digits hds hnil
  rw [List.append_nil] at htake hdrop
  rw [isNumeral, htake, hdrop]
  rcases hzero with hzero | rfl
  · simp [hne, hzero]
  · rfl

/-- Digits, a point, digits and perhaps an exponent are a numeral. -/
lemma isNumeral_of_point {ds fs scale : List Char} (hne : ds ≠ [])
    (hds : ∀ c ∈ ds, c.isDigit = true) (hfs : ∀ c ∈ fs, c.isDigit = true)
    (hscale : isScale scale = true) : isNumeral (ds ++ '.' :: (fs ++ scale)) = true := by
  have hpoint : ∀ c ∈ ('.' :: (fs ++ scale)).head?, c.isDigit = false := by
    intro c hc
    obtain rfl := Option.mem_some_iff.mp hc
    decide
  obtain ⟨htake, hdrop⟩ := span_digits hds hpoint
  have hrest := (span_digits hfs (head?_of_isScale hscale)).2
  rw [isNumeral, htake, hdrop]
  simp [hne, hrest, hscale]

/-- Digits, a point and digits are a numeral. -/
lemma isNumeral_of_fraction {ds fs : List Char} (hne : ds ≠ []) (hds : ∀ c ∈ ds, c.isDigit = true)
    (hfs : ∀ c ∈ fs, c.isDigit = true) : isNumeral (ds ++ '.' :: fs) = true := by
  have h := isNumeral_of_point hne hds hfs (rfl : isScale [] = true)
  rw [List.append_nil] at h
  exact h

/-- Digits and an exponent are a numeral. -/
lemma isNumeral_of_scale {ds rest : List Char} (hne : ds ≠ []) (hds : ∀ c ∈ ds, c.isDigit = true)
    (hscale : isScale ('e' :: rest) = true) : isNumeral (ds ++ 'e' :: rest) = true := by
  obtain ⟨htake, hdrop⟩ := span_digits hds (head?_of_isScale hscale)
  rw [isNumeral, htake, hdrop]
  simp [hne, hscale]

end Grammar

/-! ### Decimals and finite numbers -/

namespace Double

lemma digitsOf_ne_nil (n : ℕ) : digitsOf n ≠ [] := Nat.toDigits_ne_nil

/-- An exponent is written with a sign and digits. -/
lemma isScale_exponentText (e : Int) : isScale ('e' :: exponentText e) = true := by
  have hdigits : ∀ ds : List Char, ds ≠ [] → (∀ c ∈ ds, c.isDigit = true) →
      ∀ sign, sign = '+' ∨ sign = '-' → isExponent (sign :: ds) = true := by
    intro ds hne hds sign hsign
    have hall : ds.all Char.isDigit = true := List.all_eq_true.mpr hds
    rcases hsign with rfl | rfl <;> simp [isExponent, hne, hall]
  rw [isScale, exponentText, Bool.and_eq_true]
  refine ⟨rfl, hdigits _ ?_ ?_ _ ?_⟩
  · split
    · exact List.cons_ne_nil _ _
    · exact digitsOf_ne_nil _
  · intro c hc
    split at hc
    · rcases List.mem_cons.mp hc with rfl | hc
      · decide
      · exact isDigit_of_mem_digitsOf hc
    · exact isDigit_of_mem_digitsOf hc
  · split
    · exact Or.inr rfl
    · exact Or.inl rfl

lemma isDigit_of_mem_zeros (n : ℕ) : ∀ c ∈ List.replicate n '0', c.isDigit = true := by
  intro c hc
  rw [List.eq_of_mem_replicate hc]
  decide

/-- A decimal that is laid out is a numeral. -/
lemma isNumeral_layOut (d : Decimal) : isNumeral (layOut d) = true := by
  have hdigits : ∀ c ∈ digitsOf d.digits, c.isDigit = true := fun c => isDigit_of_mem_digitsOf
  have hne := digitsOf_ne_nil d.digits
  rw [layOut]
  generalize digitsOf d.digits = digits at hdigits hne
  split
  · -- one digit in front of the point, and an exponent
    split
    · exact absurd rfl hne
    · exact isNumeral_of_scale hne hdigits (isScale_exponentText _)
    · rename_i first more hlong _
      rw [List.forall_mem_cons] at hdigits
      have hfirst : ∀ c ∈ [first], c.isDigit = true := List.forall_mem_singleton.mpr hdigits.1
      exact isNumeral_of_point (List.cons_ne_nil first []) hfirst hdigits.2 (isScale_exponentText _)
  split
  · -- zeros behind the point
    have hfs := List.forall_mem_append.mpr
      ⟨isDigit_of_mem_zeros (-(digits.length + d.exponent)).toNat, hdigits⟩
    exact isNumeral_of_fraction (List.cons_ne_nil '0' []) (isDigit_of_mem_zeros 1) hfs
  split
  · -- zeros in front of the point
    have hds := List.forall_mem_append.mpr ⟨hdigits, isDigit_of_mem_zeros d.exponent.toNat⟩
    exact isNumeral_of_fraction (List.append_ne_nil_of_left_ne_nil hne _) hds
      (isDigit_of_mem_zeros 1)
  · -- the point among the digits
    have htake : digits.take (digits.length + d.exponent).toNat ≠ [] := by
      have hlength := List.length_pos_iff.mpr hne
      rw [ne_eq, List.take_eq_nil_iff, not_or]
      exact ⟨by omega, hne⟩
    exact isNumeral_of_fraction htake (fun c hc => hdigits c (List.mem_of_mem_take hc))
      fun c hc => hdigits c (List.mem_of_mem_drop hc)

/-- A natural number is a numeral. -/
lemma isNumeral_repr (n : ℕ) : isNumeral n.repr.toList = true := by
  rw [Nat.toList_repr]
  refine isNumeral_of_digits Nat.toDigits_ne_nil
    (fun c hc => Nat.isDigit_of_mem_toDigits (by decide) (by decide) hc) ?_
  rcases Nat.eq_zero_or_pos n with rfl | hn
  · exact Or.inr (Nat.toDigits_zero 10)
  · exact Or.inl (head?_digitsOf hn)

/-- A number without its sign. -/
def magnitude : Double → Double
  | nan => nan
  | infinite _ => infinite false
  | finite _ m e => finite false m e

/-- What follows the sign of a finite number that is not whole. -/
def unsignedText (m : ℕ) (e : Int) : String :=
  if m = 0 then "0.0" else String.ofList (layOut (shortest m e))

lemma plainText_finite (negative : Bool) (m : ℕ) (e : Int) :
    (finite negative m e).plainText =
      if (ratio m e).1 % (ratio m e).2 = 0 then
        (signed negative ((ratio m e).1 / (ratio m e).2)).repr
      else (if negative then "-" else "") ++ unsignedText m e := by
  have htext : (finite negative m e).text = (if negative then "-" else "") ++ unsignedText m e := by
    rw [text, unsignedText]
    cases negative with
    | false => rw [if_neg Bool.false_ne_true, if_neg Bool.false_ne_true, String.empty_append]
    | true => rw [if_pos rfl, if_pos rfl]
  rw [plainText, htext]
  simp only [truncate?, isWhole, beq_iff_eq, Int.toString_eq_repr]

lemma ratio_pos {m : ℕ} (hm : m ≠ 0) (e : Int) : 0 < (ratio m e).1 := by
  rw [ratio]
  split
  · exact Nat.mul_pos (Nat.pos_of_ne_zero hm) (Nat.pow_pos (by decide))
  · exact Nat.pos_of_ne_zero hm

lemma ratio_snd_pos (m : ℕ) (e : Int) : 0 < (ratio m e).2 := by
  rw [ratio]
  split
  · exact Nat.one_pos
  · exact Nat.pow_pos (by decide)

lemma ratio_zero (e : Int) : (ratio 0 e).1 = 0 := by
  rw [ratio]
  split
  · exact Nat.zero_mul _
  · rfl

/-- The magnitude of a finite number is written as a numeral. -/
lemma isNumeral_magnitude (negative : Bool) (m : ℕ) (e : Int) :
    isNumeral (finite negative m e).magnitude.plainText.toList = true := by
  rw [magnitude, plainText_finite]
  split
  · exact isNumeral_repr _
  · have hbody : isNumeral (unsignedText m e).toList = true := by
      rw [unsignedText]
      split
      · decide
      · rw [String.toList_ofList]
        exact isNumeral_layOut _
    exact (congrArg (fun t : String => isNumeral t.toList) String.empty_append).trans hbody

/-- The text of a finite number is that of its magnitude, with a sign if it is below zero. -/
lemma plainText_eq (negative : Bool) (m : ℕ) (e : Int) :
    (finite negative m e).plainText =
      (if (finite negative m e).isNegative then "-" else "") ++
        (finite negative m e).magnitude.plainText := by
  rw [magnitude, plainText_finite, plainText_finite, isNegative]
  cases negative with
  | false => exact String.empty_append.symm
  | true =>
      by_cases hm : m = 0
      · rw [hm, ratio_zero, Nat.zero_mod, if_pos rfl, if_pos rfl, Nat.zero_div]
        rfl
      · have hpos := ratio_pos hm e
        have hsign : (true && m != 0) = true := by simp [hm]
        rw [hsign]
        split
        · rename_i hwhole
          have hquotient : 0 < (ratio m e).1 / (ratio m e).2 := by
            have hsplit := Nat.div_add_mod (ratio m e).1 (ratio m e).2
            refine Nat.pos_of_ne_zero fun hzero => ?_
            rw [hzero, hwhole, Nat.mul_zero] at hsplit
            omega
          generalize (ratio m e).1 / (ratio m e).2 = k at hquotient
          obtain ⟨k, rfl⟩ := Nat.exists_eq_add_of_le' hquotient
          rfl
        · exact congrArg ("-" ++ ·) String.empty_append.symm

end Double

/-! ### Texts that are numerals -/

namespace Number

open Text

/-- What is trimmed off is blank. -/
lemma mem_trim_of_not_blank {cs : List Char} {c : Char} (h : c ∈ cs) (hc : isBlank c = false) :
    c ∈ trim cs := by
  have hdrop : ∀ {l : List Char}, c ∈ l → c ∈ l.dropWhile isBlank := by
    intro l hl
    rw [← List.takeWhile_append_dropWhile (p := isBlank) (l := l)] at hl
    refine (List.mem_append.mp hl).resolve_left fun htake => ?_
    exact absurd (List.mem_takeWhile_imp htake) (by simp [hc])
  exact List.mem_reverse.mpr (hdrop (List.mem_reverse.mpr (hdrop h)))

/-- Trimmed, a plain numeral is made of a sign, a point and digits. -/
lemma mem_of_isNumeral_trim {text : String} {c : Char} (h : isNumeral text = true)
    (hc : c ∈ trim text.toList) : c = '-' ∨ c = '.' ∨ isDecimal c = true := by
  rw [isNumeral] at h
  generalize trim text.toList = cs at h hc
  generalize hbody : (if cs.head? = some '-' then cs.tail else cs) = body at h
  have hsplit : c = '-' ∨ c ∈ body := by
    rw [← hbody]
    split
    · rename_i hhead
      obtain ⟨rest, rfl⟩ := List.head?_eq_some_iff.mp hhead
      exact List.mem_cons.mp hc
    · exact .inr hc
  refine hsplit.imp_right fun hin => ?_
  rw [← List.takeWhile_append_dropWhile (p := isDecimal) (l := body)] at hin
  rcases List.mem_append.mp hin with hfront | hback
  · exact .inr (List.mem_takeWhile_imp hfront)
  · split at h
    · rename_i hnil
      rw [hnil] at hback
      exact nomatch hback
    · rename_i d after hafter
      rw [hafter] at hback
      simp only [Bool.and_eq_true, beq_iff_eq] at h
      rcases List.mem_cons.mp hback with rfl | hlast
      · exact .inl h.1.1.2
      · exact .inr (List.all_eq_true.mp h.2 c hlast)

/-- A plain numeral is made of blanks, a sign, a point and digits. -/
lemma mem_of_isNumeral {text : String} {c : Char} (h : isNumeral text = true)
    (hc : c ∈ text.toList) : isBlank c = true ∨ c = '-' ∨ c = '.' ∨ isDecimal c = true := by
  cases hblank : isBlank c with
  | true => exact .inl rfl
  | false => exact .inr (mem_of_isNumeral_trim h (mem_trim_of_not_blank hc hblank))

end Number

end Blockscribe
