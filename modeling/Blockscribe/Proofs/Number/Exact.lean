/-
Exact values, and numbers that are rounded to themselves.

* `Double.exact`, `Decimal.exact`: the values of finite numbers and of decimals.
* `Double.Canonical`: what the finite numbers of double precision are. Every number that is rounded
  or read is one (`canonical_round`, `Value.canonical_of_toDouble`).
* `Double.exponentFor_eq`: the units in which a quotient is rounded follow from its value, so
  rounding does (`round_congr`, `ofDecimal_congr`).
* `Double.round_eq`, `ofDecimal_eq`: a value that double precision has is not changed by rounding.
-/
import Mathlib.Data.Int.Log
import Mathlib.Data.Rat.Floor
import Mathlib.Tactic.FieldSimp
import Mathlib.Tactic.Linarith
import Mathlib.Tactic.NormNum
import Mathlib.Tactic.Positivity
import Blockscribe.Proofs.Number.Bounded
import Blockscribe.Proofs.Number.Whole

namespace Blockscribe

/-- The value of a decimal. -/
def Decimal.exact (d : Decimal) : ℚ := d.digits * 10 ^ d.exponent

namespace Double

/-- The value of a finite number. -/
def exact : Double → ℚ
  | finite negative m e => (if negative then -1 else 1) * (m * 2 ^ e)
  | _ => 0

/-- A finite number of double precision has a mantissa of 53 bits, or the least exponent and a
mantissa of no more than that. -/
def Canonical : Double → Prop
  | finite _ m e => m < 2 ^ 53 ∧ minExponent ≤ e ∧ e ≤ maxExponent ∧ (2 ^ 52 ≤ m ∨ e = minExponent)
  | _ => True

variable {negative : Bool} {num den num' den' m : ℕ} {e : Int}

/-! ### Values -/

lemma two_zpow_pos (e : Int) : (0 : ℚ) < 2 ^ e := zpow_pos two_pos e

/-- A quotient in units of a power of two. -/
lemma inUnits_exact (num den : ℕ) (e : Int) :
    ((inUnits num den e).1 : ℚ) / (inUnits num den e).2 = num / den / 2 ^ e := by
  by_cases he : 0 ≤ e
  · obtain ⟨k, rfl⟩ := Int.eq_ofNat_of_zero_le he
    rw [inUnits_of_nonneg he, Int.toNat_natCast, zpow_natCast]
    push_cast
    rw [div_div]
  · obtain ⟨k, hk⟩ : ∃ k : ℕ, e = -(k : Int) := ⟨(-e).toNat, by omega⟩
    subst hk
    rw [inUnits_of_neg he, neg_neg, Int.toNat_natCast, zpow_neg, zpow_natCast, div_inv_eq_mul]
    push_cast
    rw [mul_div_right_comm]

lemma ratio_exact (m : ℕ) (e : Int) : ((ratio m e).1 : ℚ) / (ratio m e).2 = m * 2 ^ e := by
  by_cases he : 0 ≤ e
  · obtain ⟨k, rfl⟩ := Int.eq_ofNat_of_zero_le he
    rw [ratio, if_pos he, Int.toNat_natCast, zpow_natCast, Nat.pow_eq]
    push_cast
    rw [div_one]
  · obtain ⟨k, hk⟩ : ∃ k : ℕ, e = -(k : Int) := ⟨(-e).toNat, by omega⟩
    subst hk
    rw [ratio, if_neg he, neg_neg, Int.toNat_natCast, zpow_neg, zpow_natCast, Nat.pow_eq]
    push_cast
    rw [div_eq_mul_inv]

/-! ### Rounding a quotient -/

/-- The leading bits of numerator and denominator tell the leading bit of a quotient, up to one. -/
lemma log_bounds (hnum : num ≠ 0) (hden : den ≠ 0) :
    (num.log2 : Int) - den.log2 - 1 ≤ Int.log 2 ((num : ℚ) / den) ∧
      Int.log 2 ((num : ℚ) / den) ≤ num.log2 - den.log2 := by
  have hpos : (0 : ℚ) < den := by exact_mod_cast Nat.pos_of_ne_zero hden
  have hquotient : (0 : ℚ) < (num : ℚ) / den :=
    div_pos (by exact_mod_cast Nat.pos_of_ne_zero hnum) hpos
  have hnumLow : (2 : ℚ) ^ num.log2 ≤ num := by exact_mod_cast Nat.log2_self_le hnum
  have hnumHigh : (num : ℚ) < 2 ^ (num.log2 + 1) := by exact_mod_cast Nat.lt_log2_self
  have hdenLow : (2 : ℚ) ^ den.log2 ≤ den := by exact_mod_cast Nat.log2_self_le hden
  have hdenHigh : (den : ℚ) < 2 ^ (den.log2 + 1) := by exact_mod_cast Nat.lt_log2_self
  constructor
  · refine (Int.zpow_le_iff_le_log one_lt_two hquotient).mp ?_
    have hsplit : ((2 : ℕ) : ℚ) ^ ((num.log2 : Int) - den.log2 - 1) =
        2 ^ num.log2 / 2 ^ (den.log2 + 1) := by
      rw [show (num.log2 : Int) - den.log2 - 1 = num.log2 - ((den.log2 + 1 : ℕ) : Int) by
        push_cast; ring, Nat.cast_ofNat, zpow_sub₀ two_ne_zero, zpow_natCast, zpow_natCast]
    rw [hsplit]
    exact div_le_div₀ (Nat.cast_nonneg num) hnumLow hpos hdenHigh.le
  · refine Int.lt_add_one_iff.mp ((Int.lt_zpow_iff_log_lt one_lt_two hquotient).mp ?_)
    have hsplit : ((2 : ℕ) : ℚ) ^ ((num.log2 : Int) - den.log2 + 1) =
        2 ^ (num.log2 + 1) / 2 ^ den.log2 := by
      rw [show (num.log2 : Int) - den.log2 + 1 = ((num.log2 + 1 : ℕ) : Int) - den.log2 by
        push_cast; ring, Nat.cast_ofNat, zpow_sub₀ two_ne_zero, zpow_natCast, zpow_natCast]
    rw [hsplit]
    exact div_lt_div₀ hnumHigh hdenLow (by positivity) (by positivity)

/-- The exponent of a quotient is that of its leading bit, less 52, unless that is too small. -/
lemma exponentFor_eq (hnum : num ≠ 0) (hden : den ≠ 0) :
    exponentFor num den = max (Int.log 2 ((num : ℚ) / den) - 52) minExponent := by
  obtain ⟨hlower, hupper⟩ := log_bounds hnum hden
  have hquotient : (0 : ℚ) < (num : ℚ) / den :=
    div_pos (by exact_mod_cast Nat.pos_of_ne_zero hnum)
      (by exact_mod_cast Nat.pos_of_ne_zero hden)
  -- in units of a power of two, whether there are 54 bits is decided by the leading one
  have hunits : ∀ low : Int, (inUnits num den low).1 / (inUnits num den low).2 < Nat.pow 2 53 ↔
      Int.log 2 ((num : ℚ) / den) < 53 + low := by
    intro low
    have hpos : 0 < (inUnits num den low).2 := inUnits_pos hden low
    have hcast : (0 : ℚ) < (inUnits num den low).2 := by exact_mod_cast hpos
    rw [Nat.div_lt_iff_lt_mul hpos, ← Int.lt_zpow_iff_log_lt one_lt_two hquotient, Nat.cast_ofNat,
      zpow_add₀ two_ne_zero, ← div_lt_iff₀ (two_zpow_pos low), ← inUnits_exact, div_lt_iff₀ hcast]
    exact_mod_cast Iff.rfl
  simp only [exponentFor, hunits]
  split <;> omega

/-- Rounding to the nearest natural follows from the quotient. -/
lemma halfEven_congr (hden : 0 < den) (hden' : 0 < den') (h : num * den' = num' * den) :
    halfEven num den = halfEven num' den' := by
  have hscale : ∀ {n d k : ℕ}, 0 < k → halfEven (n * k) (d * k) = halfEven n d := by
    intro n d k hk
    have hless : d * k < 2 * (n % d * k) ↔ d < 2 * (n % d) := by
      rw [← Nat.mul_assoc, Nat.mul_lt_mul_right hk]
    have hequal : 2 * (n % d * k) = d * k ↔ 2 * (n % d) = d := by
      rw [← Nat.mul_assoc, Nat.mul_left_inj hk.ne']
    simp only [halfEven, Nat.mul_mod_mul_right, Nat.mul_div_mul_right _ _ hk, hless, hequal]
  rw [← hscale hden', h, Nat.mul_comm den, hscale hden]

/-- Equal quotients are rounded to the same number. -/
lemma round_congr (hden : den ≠ 0) (hden' : den' ≠ 0) (h : (num : ℚ) / den = num' / den') :
    round negative num den = round negative num' den' := by
  have hcast : (den : ℚ) ≠ 0 := by exact_mod_cast hden
  have hcast' : (den' : ℚ) ≠ 0 := by exact_mod_cast hden'
  have hzero : num = 0 ↔ num' = 0 := by
    rw [← Nat.cast_eq_zero (R := ℚ), ← Nat.cast_eq_zero (R := ℚ) (n := num')]
    simpa [hcast, hcast'] using congrArg (· = 0) h
  by_cases hnum : num = 0
  · rw [round, round, if_pos hnum, if_pos (hzero.mp hnum)]
  have hnum' : num' ≠ 0 := fun hnil => hnum (hzero.mpr hnil)
  have hexponent : exponentFor num den = exponentFor num' den' := by
    rw [exponentFor_eq hnum hden, exponentFor_eq hnum' hden', h]
  rw [round, round, if_neg hnum, if_neg hnum', hexponent]
  refine congrArg (carry negative · _) (halfEven_congr (inUnits_pos hden _) (inUnits_pos hden' _) ?_)
  have hunits := inUnits_exact num den (exponentFor num' den')
  rw [h, ← inUnits_exact, div_eq_div_iff (by exact_mod_cast (inUnits_pos hden _).ne')
    (by exact_mod_cast (inUnits_pos hden' _).ne')] at hunits
  exact_mod_cast hunits

/-- A number that double precision has is rounded to itself. -/
lemma round_eq (h : (finite negative m e).Canonical) (hm : m ≠ 0) (hden : den ≠ 0)
    (hexact : (num : ℚ) / den = m * 2 ^ e) : round negative num den = finite negative m e := by
  obtain ⟨hlt, hmin, hmax, hfull⟩ := h
  have hmpos : (0 : ℚ) < m := by exact_mod_cast Nat.pos_of_ne_zero hm
  have hpos : (0 : ℚ) < m * 2 ^ e := mul_pos hmpos (two_zpow_pos e)
  have hnum : num ≠ 0 := by
    rintro rfl
    rw [Nat.cast_zero, zero_div] at hexact
    exact hpos.ne hexact
  have hupper : Int.log 2 ((m : ℚ) * 2 ^ e) < 53 + e := by
    refine (Int.lt_zpow_iff_log_lt one_lt_two hpos).mp ?_
    rw [Nat.cast_ofNat, zpow_add₀ two_ne_zero]
    exact mul_lt_mul_of_pos_right (by exact_mod_cast hlt) (two_zpow_pos e)
  have hexponent : exponentFor num den = e := by
    rw [exponentFor_eq hnum hden, hexact]
    rcases hfull with hfull | rfl
    · have hlower : 52 + e ≤ Int.log 2 ((m : ℚ) * 2 ^ e) := by
        refine (Int.zpow_le_iff_le_log one_lt_two hpos).mp ?_
        rw [Nat.cast_ofNat, zpow_add₀ two_ne_zero]
        exact mul_le_mul_of_nonneg_right (by exact_mod_cast hfull) (two_zpow_pos e).le
      omega
    · omega
  have hmantissa : halfEven (inUnits num den e).1 (inUnits num den e).2 = m := by
    rw [← halfEven_one m]
    refine halfEven_congr (inUnits_pos hden e) Nat.one_pos ?_
    have hunits := inUnits_exact num den e
    rw [hexact, mul_div_cancel_right₀ _ (two_zpow_pos e).ne',
      div_eq_iff (by exact_mod_cast (inUnits_pos hden e).ne')] at hunits
    rw [Nat.mul_one]
    exact_mod_cast hunits
  have hround : round negative num den = carry negative m e := by
    rw [round, if_neg hnum, hexponent]
    exact congrArg (carry negative · e) hmantissa
  rw [hround, carry, if_neg (show m ≠ Nat.pow 2 53 from hlt.ne)]
  exact if_neg (not_lt.mpr hmax)

/-! ### What is rounded is canonical -/

lemma le_halfEven (num den : ℕ) : num / den ≤ halfEven num den := by
  rw [halfEven]
  split <;> omega

/-- No canonical number exceeds the largest. -/
lemma Canonical.bounded {x : Double} (h : x.Canonical) : x.Bounded := by
  cases x with
  | nan | infinite => trivial
  | finite negative m e => exact bounded_finite h.1 h.2.2.1

lemma canonical_zero (negative : Bool) : (zero negative).Canonical := by
  refine ⟨by decide, le_rfl, by decide, .inr rfl⟩

lemma canonical_carry (hm : m ≤ 2 ^ 53) (hmin : minExponent ≤ e)
    (hfull : 2 ^ 52 ≤ m ∨ e = minExponent) : (carry negative m e).Canonical := by
  rw [carry]
  by_cases hcarried : m = Nat.pow 2 53
  · rw [if_pos hcarried]
    dsimp only
    split
    · trivial
    · exact ⟨by decide, by omega, by omega, .inl le_rfl⟩
  · rw [if_neg hcarried]
    dsimp only
    split
    · trivial
    · exact ⟨lt_of_le_of_ne hm hcarried, hmin, by omega, hfull⟩

/-- Every number that is rounded is canonical. -/
lemma canonical_round (hden : den ≠ 0) : (round negative num den).Canonical := by
  by_cases hnum : num = 0
  · rw [round, if_pos hnum]
    exact canonical_zero negative
  have hpos : 0 < (inUnits num den (exponentFor num den)).2 := inUnits_pos hden _
  have hexponent := exponentFor_eq hnum hden
  rw [round, if_neg hnum]
  refine canonical_carry (halfEven_le hpos (units_lt hden).le) (by omega) ?_
  refine (em (exponentFor num den = minExponent)).symm.imp_left fun hne => ?_
  -- the leading bit of the quotient is the 53rd one
  have hleading : exponentFor num den = Int.log 2 ((num : ℚ) / den) - 52 := by omega
  have hquotient : (0 : ℚ) < (num : ℚ) / den :=
    div_pos (by exact_mod_cast Nat.pos_of_ne_zero hnum)
      (by exact_mod_cast Nat.pos_of_ne_zero hden)
  have hfull : 2 ^ 52 * (inUnits num den (exponentFor num den)).2 ≤
      (inUnits num den (exponentFor num den)).1 := by
    have hlow : (2 : ℚ) ^ (52 : Int) ≤ num / den / 2 ^ exponentFor num den := by
      rw [le_div_iff₀ (two_zpow_pos _), ← zpow_add₀ two_ne_zero, hleading,
        show 52 + (Int.log 2 ((num : ℚ) / den) - 52) = Int.log 2 ((num : ℚ) / den) by ring]
      exact_mod_cast Int.zpow_log_le_self one_lt_two hquotient
    rw [← inUnits_exact, le_div_iff₀ (by exact_mod_cast hpos)] at hlow
    exact_mod_cast hlow
  exact ((Nat.le_div_iff_mul_le hpos).mpr hfull).trans (le_halfEven _ _)

/-! ### Decimals -/

lemma decimal_ratio_exact (d : Decimal) : (d.ratio.1 : ℚ) / d.ratio.2 = d.exact := by
  by_cases he : 0 ≤ d.exponent
  · obtain ⟨k, hk⟩ := Int.eq_ofNat_of_zero_le he
    rw [Decimal.ratio, if_pos he, Decimal.exact, hk, Int.toNat_natCast, zpow_natCast, Nat.pow_eq]
    push_cast
    rw [div_one]
  · obtain ⟨k, hk⟩ : ∃ k : ℕ, d.exponent = -(k : Int) := ⟨(-d.exponent).toNat, by omega⟩
    rw [Decimal.ratio, if_neg he, Decimal.exact, hk, neg_neg, Int.toNat_natCast, zpow_neg,
      zpow_natCast, Nat.pow_eq]
    push_cast
    rw [div_eq_mul_inv]

lemma exact_eq_zero_iff (d : Decimal) : d.exact = 0 ↔ d.digits = 0 := by
  rw [Decimal.exact, mul_eq_zero, Nat.cast_eq_zero]
  exact or_iff_left (zpow_ne_zero _ (by norm_num))

lemma exact_pos {d : Decimal} (h : d.digits ≠ 0) : 0 < d.exact :=
  mul_pos (by exact_mod_cast Nat.pos_of_ne_zero h) (zpow_pos (by norm_num) _)

/-- The places before the point follow from the value. -/
lemma length_add_exponent {d : Decimal} (h : d.digits ≠ 0) :
    (Decimal.length d.digits : Int) + d.exponent = Int.log 10 d.exact + 1 := by
  have hpos := exact_pos h
  have hlength : 0 < Decimal.length d.digits :=
    List.length_pos_iff.mpr (digitsOf_ne_nil d.digits)
  have hten : (0 : ℚ) < 10 ^ d.exponent := zpow_pos (by norm_num) _
  have hhigh : d.digits < 10 ^ Decimal.length d.digits :=
    (Nat.length_toDigits_le_iff (by decide) hlength).mp le_rfl
  have hlow : 10 ^ (Decimal.length d.digits - 1) ≤ d.digits := by
    by_contra hless
    rcases Nat.eq_zero_or_pos (Decimal.length d.digits - 1) with hone | hmore
    · rw [hone, pow_zero] at hless
      omega
    · have hfew := (Nat.length_toDigits_le_iff (by decide) hmore).mpr (not_le.mp hless)
      rw [← Decimal.length] at hfew
      omega
  have hlower : (Decimal.length d.digits : Int) - 1 + d.exponent ≤ Int.log 10 d.exact := by
    refine (Int.zpow_le_iff_le_log (by decide) hpos).mp ?_
    rw [Nat.cast_ofNat, zpow_add₀ (by norm_num), Decimal.exact,
      show (Decimal.length d.digits : Int) - 1 = ((Decimal.length d.digits - 1 : ℕ) : Int) by omega,
      zpow_natCast]
    exact mul_le_mul_of_nonneg_right (by exact_mod_cast hlow) hten.le
  have hupper : Int.log 10 d.exact < (Decimal.length d.digits : Int) + d.exponent := by
    refine (Int.lt_zpow_iff_log_lt (by decide) hpos).mp ?_
    rw [Nat.cast_ofNat, zpow_add₀ (by norm_num), Decimal.exact, zpow_natCast]
    exact mul_lt_mul_of_pos_right (by exact_mod_cast hhigh) hten
  omega

/-- Decimals of one value are read alike. -/
lemma ofDecimal_congr {d d' : Decimal} (h : d.exact = d'.exact) :
    ofDecimal negative d = ofDecimal negative d' := by
  by_cases hd : d.digits = 0
  · have hd' : d'.digits = 0 := by rwa [← exact_eq_zero_iff, ← h, exact_eq_zero_iff]
    rw [ofDecimal, ofDecimal, if_pos hd, if_pos hd']
  have hd' : d'.digits ≠ 0 := by rwa [ne_eq, ← exact_eq_zero_iff, ← h, exact_eq_zero_iff]
  have hround : round negative d.ratio.1 d.ratio.2 = round negative d'.ratio.1 d'.ratio.2 :=
    round_congr (ratio_snd_ne_zero d) (ratio_snd_ne_zero d')
      (by rw [decimal_ratio_exact, decimal_ratio_exact, h])
  rw [ofDecimal, ofDecimal, if_neg hd, if_neg hd', length_add_exponent hd, length_add_exponent hd',
    h, hround]

/-- A number that double precision has is read back from its value. -/
lemma ofDecimal_eq {d : Decimal} (h : (finite negative m e).Canonical)
    (hexact : d.exact = m * 2 ^ e) : ofDecimal negative d = finite negative m e := by
  by_cases hm : m = 0
  · subst hm
    have hd : d.digits = 0 := by
      rw [← exact_eq_zero_iff, hexact, Nat.cast_zero, zero_mul]
    obtain rfl : e = minExponent := h.2.2.2.resolve_left (by decide)
    rw [ofDecimal, if_pos hd, zero]
  have hmpos : (1 : ℚ) ≤ m := by exact_mod_cast Nat.pos_of_ne_zero hm
  have hd : d.digits ≠ 0 := by
    rw [ne_eq, ← exact_eq_zero_iff, hexact]
    exact (mul_pos (by linarith) (two_zpow_pos e)).ne'
  have hpos := exact_pos hd
  -- the value lies between the powers of ten beyond which nothing is rounded
  have hupper : Int.log 10 d.exact < 310 := by
    refine (Int.lt_zpow_iff_log_lt (by decide) hpos).mp ?_
    have hmantissa : (m : ℚ) < 2 ^ 53 := by exact_mod_cast h.1
    have hscale : (2 : ℚ) ^ e ≤ 2 ^ maxExponent := zpow_le_zpow_right₀ one_le_two h.2.2.1
    calc d.exact = m * 2 ^ e := hexact
      _ ≤ m * 2 ^ maxExponent := mul_le_mul_of_nonneg_left hscale (by linarith)
      _ < 2 ^ 53 * 2 ^ maxExponent := mul_lt_mul_of_pos_right hmantissa (two_zpow_pos _)
      _ ≤ ((10 : ℕ) : ℚ) ^ (310 : Int) := by
          have hbound : 2 ^ 53 * 2 ^ 971 ≤ 10 ^ 310 := by decide +kernel
          have hcast := (Nat.cast_le (α := ℚ)).mpr hbound
          rwa [Nat.cast_mul, Nat.cast_pow, Nat.cast_pow, Nat.cast_pow, Nat.cast_ofNat,
            ← zpow_natCast _ 971, ← zpow_natCast _ 310] at hcast
  have hlower : -330 ≤ Int.log 10 d.exact := by
    refine (Int.zpow_le_iff_le_log (by decide) hpos).mp ?_
    have hscale : (2 : ℚ) ^ minExponent ≤ 2 ^ e := zpow_le_zpow_right₀ one_le_two h.2.1
    calc ((10 : ℕ) : ℚ) ^ (-330 : Int) = ((10 : ℚ) ^ 330)⁻¹ := zpow_neg _ _
      _ ≤ ((2 : ℚ) ^ 1074)⁻¹ := by
          have hbound : 2 ^ 1074 ≤ 10 ^ 330 := by decide +kernel
          have hcast := (Nat.cast_le (α := ℚ)).mpr hbound
          rw [Nat.cast_pow, Nat.cast_pow, Nat.cast_ofNat] at hcast
          exact inv_anti₀ (pow_pos two_pos _) hcast
      _ = 2 ^ minExponent := (zpow_neg (2 : ℚ) (1074 : ℕ)).symm
      _ ≤ 2 ^ e := hscale
      _ ≤ m * 2 ^ e := le_mul_of_one_le_left (two_zpow_pos e).le hmpos
      _ = d.exact := hexact.symm
  have hplaces := length_add_exponent hd
  rw [ofDecimal, if_neg hd]
  dsimp only
  rw [if_neg (by omega), if_neg (by omega)]
  exact round_eq h hm (ratio_snd_ne_zero d) ((decimal_ratio_exact d).trans hexact)

/-- Every number that is read is canonical. -/
lemma canonical_ofDecimal (d : Decimal) : (ofDecimal negative d).Canonical := by
  rw [ofDecimal]
  split
  · exact canonical_zero negative
  dsimp only
  split
  · trivial
  split
  · exact canonical_zero negative
  · exact canonical_round (ratio_snd_ne_zero d)

end Double

/-- A number that a value stands for is canonical, if the value is so where it is a number itself. -/
lemma Value.canonical_of_toDouble {v : Value} {x : Double} (hv : ∀ y, v = .real y → y.Canonical)
    (h : v.toDouble = .ok x) : x.Canonical :=
  Value.holds_of_toDouble (P := Double.Canonical) trivial (fun _ => trivial)
    (fun _ => Double.canonical_ofDecimal) (fun _ _ => Double.canonical_round Nat.one_ne_zero) hv h

/-- So is a number that a field stands for. -/
lemma Face.canonical_of_fieldOr {f : Face} {name : String} {i : ℤ} {x : Double}
    (hfields : ∀ entry ∈ f.fields, ∀ y, entry.2 = .real y → y.Canonical)
    (h : (f.fieldOr name (.int i)).toDouble = .ok x) : x.Canonical := by
  refine Value.canonical_of_toDouble (fun y hy => ?_) h
  rw [Face.fieldOr] at hy
  cases hget : f.fields.get? name with
  | none =>
      rw [hget] at hy
      exact nomatch hy
  | some v =>
      obtain ⟨before, after, hsplit, -⟩ := List.lookup_eq_some_iff.mp hget
      have hmem : (name, v) ∈ f.fields := hsplit ▸ List.mem_append_right before List.mem_cons_self
      rw [hget] at hy
      exact hfields _ hmem y hy

end Blockscribe
