/-
Widths that leave room.

* `Double.InRange`, `Extent.InRange`: numbers whose exponent double precision has.
* `Double.le_units`: in the units in which a quotient is rounded, it is at least one.
* `Double.atMost_round`: so a number above zero is not rounded to zero.
* `Extent.isUsable_minus`: what is left of a width that is greater than so many columns is more than
  nothing.
* `Extent.fits_of_le`, `Extent.isUsable_of_fits`: what is shorter fits as well, and lines can be filled
  to a width in which one character fits.
-/
import Mathlib.Algebra.Order.Ring.Int
import Blockscribe.Number.Extent
import Blockscribe.Proofs.Number.Numeral

namespace Blockscribe

namespace Double

/-- A finite number has an exponent that is no less than the least one. -/
def InRange : Double → Prop
  | finite _ _ e => minExponent ≤ e
  | _ => True

variable {num den : ℕ} {e low : Int}

/-! ### Units -/

lemma inUnits_of_nonneg (h : 0 ≤ e) : inUnits num den e = (num, den * 2 ^ e.toNat) := if_pos h

lemma inUnits_of_neg (h : ¬ 0 ≤ e) : inUnits num den e = (num * 2 ^ (-e).toNat, den) := if_neg h

/-- A quotient is at least one in units of a power of two that is below it. -/
lemma le_inUnits (hnum : num ≠ 0) (h : e + den.log2 < num.log2) :
    (inUnits num den e).2 ≤ (inUnits num den e).1 := by
  have hlow : 2 ^ num.log2 ≤ num := Nat.log2_self_le hnum
  have hhigh : den < 2 ^ (den.log2 + 1) := Nat.lt_log2_self
  by_cases he : 0 ≤ e
  · rw [inUnits_of_nonneg he]
    have hle : den.log2 + 1 + e.toNat ≤ num.log2 := by omega
    calc den * 2 ^ e.toNat ≤ 2 ^ (den.log2 + 1) * 2 ^ e.toNat := Nat.mul_le_mul_right _ hhigh.le
      _ = 2 ^ (den.log2 + 1 + e.toNat) := (pow_add _ _ _).symm
      _ ≤ 2 ^ num.log2 := Nat.pow_le_pow_right (by decide) hle
      _ ≤ num := hlow
  · rw [inUnits_of_neg he]
    have hle : den.log2 + 1 ≤ num.log2 + (-e).toNat := by omega
    calc den ≤ 2 ^ (den.log2 + 1) := hhigh.le
      _ ≤ 2 ^ (num.log2 + (-e).toNat) := Nat.pow_le_pow_right (by decide) hle
      _ = 2 ^ num.log2 * 2 ^ (-e).toNat := pow_add _ _ _
      _ ≤ num * 2 ^ (-e).toNat := Nat.mul_le_mul_right _ hlow

/-- A quotient is at least one in units of which its denominator is no multiple. -/
lemma le_inUnits_of_le (hnum : num ≠ 0) (he : e < 0) (h : den ≤ 2 ^ (-e).toNat) :
    (inUnits num den e).2 ≤ (inUnits num den e).1 := by
  rw [inUnits_of_neg (not_le.mpr he)]
  exact h.trans (Nat.le_mul_of_pos_left _ (Nat.pos_of_ne_zero hnum))

/-- A quotient of two or more is at least one in units of twice the size. -/
lemma le_inUnits_succ (he : e + 1 < 0) (h : 2 * (inUnits num den e).2 ≤ (inUnits num den e).1) :
    (inUnits num den (e + 1)).2 ≤ (inUnits num den (e + 1)).1 := by
  have hexp : (-e).toNat = (-(e + 1)).toNat + 1 := by omega
  rw [inUnits_of_neg (by omega), hexp, pow_succ, ← mul_assoc, mul_comm 2 den] at h
  rw [inUnits_of_neg (not_le.mpr he)]
  exact Nat.le_of_mul_le_mul_right h (by decide)

/-- The denominator of a number with a great exponent is small. -/
lemma ratio_le (m : ℕ) (he : low ≤ e) : (ratio m e).2 ≤ 2 ^ (-low).toNat := by
  by_cases hsign : 0 ≤ e
  · rw [ratio, if_pos hsign]
    exact Nat.one_le_two_pow
  · rw [ratio, if_neg hsign]
    exact Nat.pow_le_pow_right (by decide) (Int.toNat_le_toNat (Int.neg_le_neg he))

/-- In the units in which a quotient is rounded, it is at least one. -/
lemma le_units (hnum : num ≠ 0) (hden : 0 < den) (hle : den ≤ 2 ^ (-minExponent).toNat) :
    (inUnits num den (exponentFor num den)).2 ≤ (inUnits num den (exponentFor num den)).1 := by
  have hmin : minExponent + 1 < 0 := by decide
  simp only [exponentFor]
  rcases max_cases ((num.log2 : Int) - den.log2 - 53) minExponent with ⟨hmax, -⟩ | ⟨hmax, -⟩
  · rw [hmax]
    split <;> exact le_inUnits hnum (by omega)
  · rw [hmax]
    split
    · exact le_inUnits_of_le hnum (by omega) hle
    · rename_i hquotient
      have hpos : 0 < (inUnits num den minExponent).2 := by
        rw [inUnits_of_neg (by omega)]
        exact hden
      have htwo : 2 ≤ (inUnits num den minExponent).1 / (inUnits num den minExponent).2 :=
        le_trans (by decide) (not_lt.mp hquotient)
      exact le_inUnits_succ hmin ((Nat.le_div_iff_mul_le hpos).mp htwo)

/-! ### Rounding -/

lemma halfEven_pos (hden : 0 < den) (h : den ≤ num) : 0 < halfEven num den := by
  have hquotient : 0 < num / den := Nat.div_pos h hden
  rw [halfEven]
  split
  · exact Nat.succ_pos _
  · exact hquotient

/-- A mantissa above zero makes a number above zero. -/
lemma atMost_carry {m : ℕ} (hm : 0 < m) (e : Int) : (carry false m e).atMost 0 = false := by
  have hfinite : ∀ k : ℕ, k ≠ 0 → ∀ e : Int, (finite false k e).atMost 0 = false := by
    intro k hk e
    have hpos := ratio_pos hk e
    simp only [atMost, signed, zero_mul, decide_eq_false_iff_not, Bool.false_eq_true, if_false]
    omega
  rw [carry]
  by_cases hfull : m = Nat.pow 2 53
  · rw [if_pos hfull]
    dsimp only
    split
    · rfl
    · exact hfinite _ (by decide) _
  · rw [if_neg hfull]
    dsimp only
    split
    · rfl
    · exact hfinite _ hm.ne' _

/-- A number above zero is not rounded to zero. -/
lemma atMost_round (hnum : num ≠ 0) (hden : 0 < den) (hle : den ≤ 2 ^ (-minExponent).toNat) :
    (round false num den).atMost 0 = false := by
  have hunits := le_units hnum hden hle
  have hpos : 0 < (inUnits num den (exponentFor num den)).2 := by
    rw [inUnits]
    split
    · exact Nat.mul_pos hden (Nat.pow_pos (by decide))
    · exact hden
  rw [round, if_neg hnum]
  exact atMost_carry (halfEven_pos hpos hunits) _

/-- What is left of a number that is greater than an integer is above zero. -/
lemma atMost_minus {x : Double} (hx : x.InRange) {i : Int} (h : x.atMost i = false) :
    (x.minus i).atMost 0 = false := by
  cases x with
  | nan => rfl
  | infinite negative => exact h
  | finite negative m e =>
      have hpos : 0 < (ratio m e).2 := ratio_snd_pos m e
      simp only [atMost, decide_eq_false_iff_not, not_le] at h
      have hdifference : 0 < signed negative (ratio m e).1 - i * (ratio m e).2 := by omega
      simp only [minus]
      rw [if_neg (by omega), decide_eq_false (by omega)]
      exact atMost_round (by omega) hpos (ratio_le m hx)

/-! ### Comparing -/

lemma atLeast_of_le {x : Double} {i j : Int} (hle : j ≤ i) (h : x.atLeast i = true) :
    x.atLeast j = true := by
  cases x with
  | nan => exact h
  | infinite negative => exact h
  | finite negative m e =>
      simp only [atLeast, decide_eq_true_eq] at h ⊢
      exact (mul_le_mul_of_nonneg_right hle (Int.natCast_nonneg _)).trans h

lemma not_atMost_of_atLeast {x : Double} {i j : Int} (hlt : j < i) (h : x.atLeast i = true) :
    x.atMost j = false := by
  cases x with
  | nan => rfl
  | infinite negative => simpa [atLeast, atMost] using h
  | finite negative m e =>
      simp only [atLeast, decide_eq_true_eq] at h
      simp only [atMost, decide_eq_false_iff_not, not_le]
      exact (mul_lt_mul_of_pos_right hlt (Int.natCast_pos.mpr (ratio_snd_pos m e))).trans_le h

end Double

namespace Extent

/-- A whole width, or one that double precision has. -/
def InRange : Extent → Prop
  | whole _ => True
  | real x => x.InRange

/-- What is left of a width that is greater than so many columns can be filled. -/
lemma isUsable_minus {w : Extent} (hw : w.InRange) {columns : ℕ} (h : w.atMost columns = false) :
    (w.minus columns).isUsable = true := by
  cases w with
  | whole n =>
      simp only [atMost, decide_eq_false_iff_not] at h
      simp only [isUsable, minus, atMost, Bool.not_eq_true', decide_eq_false_iff_not]
      omega
  | real x =>
      have hleft : (x.minus columns).atMost 0 = false := Double.atMost_minus hw h
      rw [isUsable, minus, atMost]
      exact congrArg not hleft

/-- A line that is shorter than one within the width is within the width. -/
lemma fits_of_le {w : Extent} {length length' : ℕ} (hle : length' ≤ length)
    (h : w.fits length = true) : w.fits length' = true := by
  cases w with
  | whole n =>
      simp only [fits, decide_eq_true_eq] at h ⊢
      exact (Int.ofNat_le.mpr hle).trans h
  | real x => exact Double.atLeast_of_le (Int.ofNat_le.mpr hle) h

/-- Lines can be filled to a width in which one character fits. -/
lemma isUsable_of_fits {w : Extent} (h : w.fits 1 = true) : w.isUsable = true := by
  cases w with
  | whole n =>
      simp only [fits, decide_eq_true_eq] at h
      simp only [isUsable, atMost, Bool.not_eq_true', decide_eq_false_iff_not]
      omega
  | real x => exact congrArg not (Double.not_atMost_of_atLeast (by decide) h)

end Extent

end Blockscribe
