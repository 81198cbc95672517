/-
Numbers no greater than the largest double.

* `Double.largest`, `Double.Bounded`: the largest finite number that double precision has, and the
  numbers that do not exceed it.
* `finite_round`: a quotient that does not exceed it is rounded to a finite number.
* `bounded_round`, `bounded_of_toDouble`: no number that is rounded or read exceeds it.
* `Number.Folds`: if a text is a plain numeral, an offset and a sign can be applied to it.
* `Number.folds_plainText`: numbers that do not exceed the largest double are written as such texts.
-/
import Blockscribe.Handler.Variables
import Blockscribe.Proofs.Number.Digits
import Blockscribe.Proofs.Number.Width

namespace Blockscribe

namespace Double

/-- The largest finite number. -/
def largest : ℕ := (2 ^ 53 - 1) * 2 ^ maxExponent.toNat

/-- A finite number is no greater than the largest that double precision has. -/
def Bounded : Double → Prop
  | finite _ m e => (ratio m e).1 ≤ largest * (ratio m e).2
  | _ => True

variable {num den m : ℕ} {e : Int} {negative : Bool}

/-! ### Rounding -/

/-- A quotient of no more than a natural is rounded to no more than that. -/
lemma halfEven_le (hden : 0 < den) {k : ℕ} (h : num ≤ k * den) : halfEven num den ≤ k := by
  by_contra hgreater
  have hround := halfEven_mul_le num den
  have hscaled := Nat.mul_le_mul_right den (Nat.succ_le_of_lt (not_le.mp hgreater))
  rw [Nat.succ_mul] at hscaled
  omega

lemma bounded_finite (hm : m < 2 ^ 53) (he : e ≤ maxExponent) : (finite negative m e).Bounded := by
  have hmantissa : m ≤ 2 ^ 53 - 1 := Nat.le_sub_one_of_lt hm
  by_cases hsign : 0 ≤ e
  · have hpower : 2 ^ e.toNat ≤ 2 ^ maxExponent.toNat :=
      Nat.pow_le_pow_right (by decide) (Int.toNat_le_toNat he)
    rw [Bounded, ratio, if_pos hsign, Nat.mul_one, largest]
    exact Nat.mul_le_mul hmantissa hpower
  · rw [Bounded, ratio, if_neg hsign]
    calc m ≤ 2 ^ 53 - 1 := hmantissa
      _ ≤ largest := by
        rw [largest]
        exact Nat.le_mul_of_pos_right _ (Nat.pow_pos (by decide))
      _ ≤ largest * 2 ^ (-e).toNat := Nat.le_mul_of_pos_right _ (Nat.pow_pos (by decide))

/-- A quotient is less than `2 ^ 53` in units of a power of two that is large enough. -/
lemma inUnits_lt (hden : den ≠ 0) (h : num.log2 ≤ e + den.log2 + 52) :
    (inUnits num den e).1 < 2 ^ 53 * (inUnits num den e).2 := by
  have hhigh : num < 2 ^ (num.log2 + 1) := Nat.lt_log2_self
  have hlow : 2 ^ den.log2 ≤ den := Nat.log2_self_le hden
  by_cases he : 0 ≤ e
  · rw [inUnits_of_nonneg he]
    calc num < 2 ^ (num.log2 + 1) := hhigh
      _ ≤ 2 ^ (53 + (den.log2 + e.toNat)) := Nat.pow_le_pow_right (by decide) (by omega)
      _ = 2 ^ 53 * (2 ^ den.log2 * 2 ^ e.toNat) := by rw [pow_add, pow_add]
      _ ≤ 2 ^ 53 * (den * 2 ^ e.toNat) :=
        Nat.mul_le_mul_left _ (Nat.mul_le_mul_right _ hlow)
  · rw [inUnits_of_neg he]
    calc num * 2 ^ (-e).toNat < 2 ^ (num.log2 + 1) * 2 ^ (-e).toNat :=
          Nat.mul_lt_mul_of_pos_right hhigh (Nat.pow_pos (by decide))
      _ = 2 ^ (num.log2 + 1 + (-e).toNat) := (pow_add _ _ _).symm
      _ ≤ 2 ^ (53 + den.log2) := Nat.pow_le_pow_right (by decide) (by omega)
      _ = 2 ^ 53 * 2 ^ den.log2 := pow_add _ _ _
      _ ≤ 2 ^ 53 * den := Nat.mul_le_mul_left _ hlow

lemma inUnits_pos (hden : den ≠ 0) (e : Int) : 0 < (inUnits num den e).2 := by
  rw [inUnits]
  split
  · exact Nat.mul_pos (Nat.pos_of_ne_zero hden) (Nat.pow_pos (by decide))
  · exact Nat.pos_of_ne_zero hden

/-- In the units in which a quotient is rounded, it has 53 bits at most. -/
lemma units_lt (hden : den ≠ 0) :
    (inUnits num den (exponentFor num den)).1 <
      2 ^ 53 * (inUnits num den (exponentFor num den)).2 := by
  simp only [exponentFor]
  split
  · rename_i hquotient
    exact (Nat.div_lt_iff_lt_mul (inUnits_pos hden _)).mp hquotient
  · have hlow := le_max_left ((num.log2 : Int) - den.log2 - 53) minExponent
    exact inUnits_lt hden (by omega)

/-- A quotient that does not exceed the largest number has an exponent of double precision. -/
lemma exponentFor_le (hden : den ≠ 0) (hnum : num ≠ 0) (h : num ≤ largest * den) :
    exponentFor num den ≤ maxExponent := by
  have hmax : (maxExponent.toNat : Int) = maxExponent := rfl
  have hlarge : num < 2 ^ (53 + maxExponent.toNat) * den := by
    refine h.trans_lt (Nat.mul_lt_mul_of_pos_right ?_ (Nat.pos_of_ne_zero hden))
    rw [largest, pow_add]
    exact Nat.mul_lt_mul_of_pos_right (by decide) (Nat.pow_pos (by decide))
  by_contra hgreat
  refine hlarge.not_ge ?_
  simp only [exponentFor] at hgreat
  split at hgreat
  · -- the leading bits are too far apart
    have hlog : den.log2 + 1 + (53 + maxExponent.toNat) ≤ num.log2 := by
      have hmin : minExponent ≤ maxExponent := by decide
      omega
    calc 2 ^ (53 + maxExponent.toNat) * den
        ≤ 2 ^ (53 + maxExponent.toNat) * 2 ^ (den.log2 + 1) :=
          Nat.mul_le_mul_left _ Nat.lt_log2_self.le
      _ = 2 ^ (den.log2 + 1 + (53 + maxExponent.toNat)) := by rw [← pow_add, Nat.add_comm]
      _ ≤ 2 ^ num.log2 := Nat.pow_le_pow_right (by decide) hlog
      _ ≤ num := Nat.log2_self_le hnum
  · -- the quotient has more than 53 bits in the greatest units already
    rename_i hquotient
    generalize max ((num.log2 : Int) - den.log2 - 53) minExponent = low at hgreat hquotient
    have hsign : 0 ≤ maxExponent := by decide
    rw [inUnits_of_nonneg (by omega), not_lt, Nat.le_div_iff_mul_le
      (Nat.mul_pos (Nat.pos_of_ne_zero hden) (Nat.pow_pos (by decide)))] at hquotient
    calc 2 ^ (53 + maxExponent.toNat) * den = 2 ^ 53 * (den * 2 ^ maxExponent.toNat) := by
          rw [pow_add, Nat.mul_assoc, Nat.mul_comm den]
      _ ≤ 2 ^ 53 * (den * 2 ^ low.toNat) :=
        Nat.mul_le_mul_left _
          (Nat.mul_le_mul_left _ (Nat.pow_le_pow_right (by decide) (by omega)))
      _ ≤ num := hquotient

/-- A mantissa of 53 bits at most makes a number that is bounded. -/
lemma bounded_carry (hm : m ≤ 2 ^ 53) (e : Int) : (carry negative m e).Bounded := by
  rw [carry]
  by_cases hfull : m = Nat.pow 2 53
  · rw [if_pos hfull]
    dsimp only
    split
    · trivial
    · exact bounded_finite (by decide) (by omega)
  · rw [if_neg hfull]
    dsimp only
    split
    · trivial
    · exact bounded_finite (lt_of_le_of_ne hm hfull) (by omega)

/-- No number that is rounded exceeds the largest. -/
lemma bounded_round (hden : den ≠ 0) : (round negative num den).Bounded := by
  rw [round]
  split
  · exact bounded_finite (by decide) (by decide)
  · exact bounded_carry (halfEven_le (inUnits_pos hden _) (units_lt hden).le) _

/-- A number is finite. -/
def Finite (x : Double) : Prop := ∃ negative m e, x = finite negative m e

lemma finite_carry (hm : m = 2 ^ 53 → e < maxExponent) (he : e ≤ maxExponent) :
    (carry negative m e).Finite := by
  rw [carry]
  by_cases hfull : m = Nat.pow 2 53
  · have hless := hm hfull
    rw [if_pos hfull]
    dsimp only
    rw [if_neg (by omega)]
    exact ⟨_, _, _, rfl⟩
  · rw [if_neg hfull]
    dsimp only
    rw [if_neg (by omega)]
    exact ⟨_, _, _, rfl⟩

/-- A quotient that does not exceed the largest number is rounded to a finite one. -/
lemma finite_round (hden : den ≠ 0) (h : num ≤ largest * den) :
    (round negative num den).Finite := by
  by_cases hnum : num = 0
  · rw [round, if_pos hnum]
    exact ⟨_, _, _, rfl⟩
  have hexponent := exponentFor_le hden hnum h
  have hround : round negative num den =
      carry negative (halfEven (inUnits num den (exponentFor num den)).1
        (inUnits num den (exponentFor num den)).2) (exponentFor num den) := if_neg hnum
  rw [hround]
  refine finite_carry (fun hfull => lt_of_le_of_ne hexponent fun hmax => ?_) hexponent
  -- with the greatest exponent the mantissa is that of the largest number at most
  rw [hmax, inUnits_of_nonneg (by decide)] at hfull
  have hmantissa : halfEven num (den * 2 ^ maxExponent.toNat) ≤ 2 ^ 53 - 1 := by
    refine halfEven_le (Nat.mul_pos (Nat.pos_of_ne_zero hden) (Nat.pow_pos (by decide))) ?_
    rw [Nat.mul_comm den, ← Nat.mul_assoc, ← largest]
    exact h
  exact absurd (hfull.symm.trans_le hmantissa) (by decide)

/-! ### Decimals -/

lemma ratio_snd_ne_zero (d : Decimal) : d.ratio.2 ≠ 0 := by
  rw [Decimal.ratio]
  split
  · exact Nat.one_ne_zero
  · exact (Nat.pow_pos (by decide)).ne'

/-- Digits behind a point count as much less. -/
lemma ratio_fraction_le {n k places : ℕ} (h : n ≤ k * 10 ^ places) :
    (Decimal.ratio ⟨n, -(places : Int)⟩).1 ≤ k * (Decimal.ratio ⟨n, -(places : Int)⟩).2 := by
  rw [Decimal.ratio]
  split
  · rename_i hsign
    obtain rfl : places = 0 := by
      dsimp only at hsign
      omega
    rw [pow_zero] at h
    exact (Nat.mul_one n).trans_le h
  · dsimp only
    rw [neg_neg, Int.toNat_natCast]
    exact h

/-- No number that is read exceeds the largest. -/
lemma bounded_ofDecimal (d : Decimal) : (ofDecimal negative d).Bounded := by
  rw [ofDecimal]
  split
  · exact bounded_finite (by decide) (by decide)
  dsimp only
  split
  · trivial
  split
  · exact bounded_finite (by decide) (by decide)
  · exact bounded_round (ratio_snd_ne_zero d)

/-- A decimal of at most 310 places that does not exceed the largest number is read as a finite one.
-/
lemma finite_ofDecimal {d : Decimal} (hplaces : (Decimal.length d.digits : Int) + d.exponent ≤ 310)
    (h : d.ratio.1 ≤ largest * d.ratio.2) : (ofDecimal negative d).Finite := by
  rw [ofDecimal]
  split
  · exact ⟨_, _, _, rfl⟩
  dsimp only
  rw [if_neg (by omega)]
  split
  · exact ⟨_, _, _, rfl⟩
  · exact finite_round (ratio_snd_ne_zero d) h

/-! ### Texts of finite numbers -/

/-- A decimal is laid out with an exponent, or with at most sixteen digits before the point. -/
lemma layOut_cases (d : Decimal) : 'e' ∈ layOut d ∨ ∃ ds fs, layOut d = ds ++ '.' :: fs ∧ ds ≠ [] ∧
    (∀ c ∈ ds, c.isDigit = true) ∧ (∀ c ∈ fs, c.isDigit = true) ∧ ds.length ≤ 16 := by
  have hdigits : ∀ c ∈ digitsOf d.digits, c.isDigit = true := fun c => isDigit_of_mem_digitsOf
  have hne := digitsOf_ne_nil d.digits
  rw [layOut]
  generalize digitsOf d.digits = digits at hdigits hne
  have hlength := List.length_pos_iff.mpr hne
  split
  · refine .inl ?_
    split
    · exact absurd rfl hne
    · exact List.mem_cons_of_mem _ List.mem_cons_self
    · simp
  split
  · -- zeros behind the point
    exact .inr ⟨['0'], _, rfl, List.cons_ne_nil _ _, isDigit_of_mem_zeros 1,
      List.forall_mem_append.mpr ⟨isDigit_of_mem_zeros _, hdigits⟩, by decide⟩
  split
  · -- zeros in front of the point
    refine .inr ⟨digits ++ List.replicate d.exponent.toNat '0', ['0'], rfl,
      List.append_ne_nil_of_left_ne_nil hne _,
      List.forall_mem_append.mpr ⟨hdigits, isDigit_of_mem_zeros _⟩, isDigit_of_mem_zeros 1, ?_⟩
    rw [List.length_append, List.length_replicate]
    omega
  · -- the point among the digits
    refine .inr ⟨digits.take (digits.length + d.exponent).toNat,
      digits.drop (digits.length + d.exponent).toNat, rfl, ?_,
      fun c hc => hdigits c (List.mem_of_mem_take hc),
      fun c hc => hdigits c (List.mem_of_mem_drop hc), ?_⟩
    · rw [ne_eq, List.take_eq_nil_iff, not_or]
      exact ⟨by omega, hne⟩
    · rw [List.length_take]
      omega

end Double

/-! ### Numerals to which an offset can be applied -/

namespace Number

open Double (Bounded digitsOf largest)
open Handler (foldedIndex)

/-- If the text is a plain numeral, an offset and a sign can be applied to it. -/
def Folds (text : String) : Prop :=
  isNumeral text = true → ∀ shift negate, ∃ folded, foldedIndex text shift negate = .ok folded

variable {text : String} {ds fs : List Char} {negative : Bool}

/-- A number that is read and does not exceed the largest double is not in the way of an offset. -/
lemma folds_of_spells (h : Spells text.toList negative ds fs) (hplaces : ds.length ≤ 310)
    (hle : natOf (ds ++ fs) ≤ largest * 10 ^ fs.length) : Folds text := by
  have hread := h.readDouble?_eq
  rw [String.ofList_toList] at hread
  have hfinite : (Double.ofDecimal negative ⟨natOf (ds ++ fs), -(fs.length : Int)⟩).Finite := by
    refine Double.finite_ofDecimal ?_ ?_
    · have hlength : Decimal.length (natOf (ds ++ fs)) ≤ (ds ++ fs).length :=
        (Nat.length_toDigits_le_iff (by decide)
          (List.length_pos_iff.mpr (List.append_ne_nil_of_left_ne_nil h.nonempty fs))).mpr
          (natOf_lt (List.forall_mem_append.mpr ⟨h.whole, h.fraction⟩))
      rw [List.length_append] at hlength
      dsimp only
      omega
    · exact Double.ratio_fraction_le hle
  obtain ⟨sign, m, e, hx⟩ := hfinite
  intro _ shift negate
  rw [foldedIndex, hread, hx]
  exact ⟨_, rfl⟩

/-- So it is with an integer that does not exceed the largest double. -/
lemma folds_toString {i : Int} (h : i.natAbs ≤ largest) : Folds (toString i) := by
  refine folds_of_spells (spells_toString i) ?_ ?_
  · exact (Nat.length_toDigits_le_iff (by decide) (by decide)).mpr
      (h.trans_lt (by decide +kernel))
  · rw [List.append_nil, natOf_digitsOf, List.length_nil, pow_zero, mul_one]
    exact h

/-- The digits of a number that is not whole are read, unless there is an exponent behind them. -/
lemma folds_layOut (negative : Bool) (d : Decimal) :
    Folds ((if negative then "-" else "") ++ String.ofList (Double.layOut d)) := by
  rcases Double.layOut_cases d with hscale | ⟨ds, fs, hlayOut, hne, hds, hfs, hlength⟩
  · intro hnumeral
    have hmem : 'e' ∈
        ((if negative then "-" else "") ++ String.ofList (Double.layOut d)).toList := by
      rw [String.toList_append, String.toList_ofList]
      exact List.mem_append_right _ hscale
    exact absurd (mem_of_isNumeral hnumeral hmem) (by decide)
  · have hspells : Spells ((if negative then "-" else "") ++
        String.ofList (Double.layOut d)).toList negative ds fs := by
      refine ⟨hne, hds, hfs, '.' :: fs, .inl rfl, ?_⟩
      rw [String.toList_append, String.toList_ofList, hlayOut]
      cases negative <;> rfl
    refine folds_of_spells hspells (by omega) ?_
    have hlt := natOf_lt (List.forall_mem_append.mpr ⟨hds, hfs⟩)
    rw [List.length_append, pow_add] at hlt
    refine hlt.le.trans (Nat.mul_le_mul_right _ ?_)
    exact (Nat.pow_le_pow_right (by decide) hlength).trans (by decide +kernel)

/-- **Numbers that do not exceed the largest double are written in a way that an offset can be
applied to**, if what is written is a numeral at all. -/
lemma folds_plainText {m : ℕ} {e : Int} (h : (Double.finite negative m e).Bounded) :
    Folds (Double.finite negative m e).plainText := by
  rw [Double.plainText_finite]
  split
  · rw [← Int.toString_eq_repr]
    refine folds_toString ?_
    have hquotient := Nat.div_le_of_le_mul (h.trans_eq (Nat.mul_comm _ _))
    rw [Double.signed]
    split
    · rwa [Int.natAbs_neg, Int.natAbs_natCast]
    · exact hquotient
  · rename_i hwhole
    have hm : m ≠ 0 := by
      rintro rfl
      exact hwhole (by rw [Double.ratio_zero, Nat.zero_mod])
    rw [Double.unsignedText, if_neg hm]
    exact folds_layOut _ _

end Number

/-! ### Numbers that values stand for -/

section Values

variable {P : Double → Prop} {x : Double}

/-- A number that is read is infinite, no number, or a decimal. -/
lemma Number.holds_of_readDouble? (hnan : P .nan) (hinfinite : ∀ negative, P (.infinite negative))
    (hdecimal : ∀ negative d, P (.ofDecimal negative d)) {text : String}
    (h : readDouble? text = some x) : P x := by
  obtain ⟨cs, -, hread⟩ := Option.bind_eq_some_iff.mp h
  dsimp only [readUnsigned?] at hread
  split at hread
  · exact Option.some.inj hread ▸ hinfinite _
  split at hread
  · exact Option.some.inj hread ▸ hnan
  · obtain ⟨d, -, rfl⟩ := Option.map_eq_some_iff.mp hread
    exact hdecimal _ d

/-- A number that a value stands for is the value itself, a rounded integer, or one that is read. -/
lemma Value.holds_of_toDouble (hnan : P .nan) (hinfinite : ∀ negative, P (.infinite negative))
    (hdecimal : ∀ negative d, P (.ofDecimal negative d))
    (hround : ∀ negative num, P (.round negative num 1)) {v : Value}
    (hreal : ∀ y, v = .real y → P y) (h : v.toDouble = .ok x) : P x := by
  cases v with
  | bool b => exact Except.ok.inj h ▸ hround _ _
  | int i =>
      rw [toDouble] at h
      split at h
      · exact nomatch h
      · exact Except.ok.inj h ▸ hround _ _
  | real y => exact Except.ok.inj h ▸ hreal y rfl
  | text s =>
      rw [toDouble] at h
      split at h
      · rename_i y hread
        exact Except.ok.inj h ▸ Number.holds_of_readDouble? hnan hinfinite hdecimal hread
      · exact nomatch h
  | null | list | record => exact nomatch h

/-- A number that a value stands for exceeds the largest double only if the value is such a number
itself. -/
lemma Value.bounded_of_toDouble {v : Value} (hv : ∀ y, v = .real y → y.Bounded)
    (h : v.toDouble = .ok x) : x.Bounded :=
  Value.holds_of_toDouble (P := Double.Bounded) trivial (fun _ => trivial)
    (fun _ => Double.bounded_ofDecimal) (fun _ _ => Double.bounded_round Nat.one_ne_zero) hv h

end Values

end Blockscribe
