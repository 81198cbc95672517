/-
Whole numbers below two to the fifty-third.

* `Double.Counts`: a double is exactly a natural number.
* `counts_round`: naturals below `2 ^ 53` are doubles exactly, so rounding leaves them alone.
* `Number.exists_readDouble?_repr`: reading the decimal digits of such a natural gives it back.
* `Value.exists_toDouble_int`: so a field with such an integer stands for it.
* `Handler.foldedIndex_repr`: the offset and the sign of an index are applied exactly.
-/
import Blockscribe.Handler.Variables
import Blockscribe.Proofs.Number.Digits

namespace Blockscribe

/-! ### Rounding -/

namespace Double

/-- The double is whole, and it is this natural number. -/
def Counts (x : Double) (n : ℕ) : Prop := x.isWhole = true ∧ x.truncate? = some (n : Int)

lemma counts_finite {m n : ℕ} {e : Int} (h : (ratio m e).1 = n * (ratio m e).2) :
    (finite false m e).Counts n := by
  refine ⟨?_, ?_⟩
  · simp only [isWhole, h, Nat.mul_mod_left, beq_self_eq_true]
  · simp only [truncate?, h, Nat.mul_div_cancel _ (ratio_snd_pos m e)]
    rfl

lemma counts_zero : (zero false).Counts 0 :=
  counts_finite ((ratio_zero _).trans (Nat.zero_mul _).symm)

/-- The quotient by one is not rounded. -/
lemma halfEven_one (n : ℕ) : halfEven n 1 = n := by
  rw [halfEven, Nat.mod_one, Nat.div_one, if_neg]
  omega

lemma inUnits_of_nonpos {e : Int} (he : e ≤ 0) (n : ℕ) :
    inUnits n 1 e = (n * 2 ^ (-e).toNat, 1) := by
  rw [inUnits]
  split
  · obtain rfl : e = 0 := by omega
    exact congrArg (·, 1) (Nat.mul_one n).symm
  · rfl

lemma ratio_of_nonpos {e : Int} (he : e ≤ 0) (m : ℕ) : ratio m e = (m, 2 ^ (-e).toNat) := by
  rw [ratio]
  split
  · obtain rfl : e = 0 := by omega
    exact congrArg (·, 1) (Nat.mul_one m)
  · rfl

/-- The exponent of a natural below `2 ^ 53` is that of its leading bit, less 52. -/
lemma exponentFor_one {n : ℕ} (hn : n ≠ 0) (hlog : n.log2 < 53) :
    exponentFor n 1 = (n.log2 : Int) - 52 := by
  have hlow : max ((n.log2 : Int) - (1 : ℕ).log2 - 53) minExponent = (n.log2 : Int) - 53 := by
    have hone : (1 : ℕ).log2 = 0 := by decide
    rw [hone, minExponent]
    omega
  have hlarge : ¬ n * 2 ^ (-((n.log2 : Int) - 53)).toNat / 1 < Nat.pow 2 53 := by
    have hshift : n.log2 + (-((n.log2 : Int) - 53)).toNat = 53 := by omega
    rw [Nat.div_one, not_lt]
    calc 2 ^ 53 = 2 ^ n.log2 * 2 ^ (-((n.log2 : Int) - 53)).toNat := by rw [← Nat.pow_add, hshift]
      _ ≤ n * 2 ^ (-((n.log2 : Int) - 53)).toNat :=
        Nat.mul_le_mul_right _ (Nat.log2_self_le hn)
  rw [exponentFor, hlow, inUnits_of_nonpos (by omega)]
  simp only [if_neg hlarge]
  omega

/-- Naturals below `2 ^ 53` are doubles exactly. -/
lemma counts_round {n : ℕ} (hlt : n < 2 ^ 53) : (round false n 1).Counts n := by
  by_cases hn : n = 0
  · rw [round, if_pos hn, hn]
    exact counts_zero
  have hlog : n.log2 < 53 := (Nat.log2_lt hn).mpr hlt
  have hexponent : (n.log2 : Int) - 52 ≤ 0 := by omega
  -- the mantissa has 53 bits, so nothing is carried
  have hmantissa : n * 2 ^ (-((n.log2 : Int) - 52)).toNat < 2 ^ 53 := by
    have hshift : n.log2 + 1 + (-((n.log2 : Int) - 52)).toNat = 53 := by omega
    calc n * 2 ^ (-((n.log2 : Int) - 52)).toNat
        < 2 ^ (n.log2 + 1) * 2 ^ (-((n.log2 : Int) - 52)).toNat :=
          Nat.mul_lt_mul_of_pos_right Nat.lt_log2_self (Nat.pow_pos (by decide))
      _ = 2 ^ 53 := by rw [← Nat.pow_add, hshift]
  have hround : round false n 1 =
      finite false (n * 2 ^ (-((n.log2 : Int) - 52)).toNat) ((n.log2 : Int) - 52) := by
    rw [round, if_neg hn, exponentFor_one hn hlog]
    simp only [inUnits_of_nonpos hexponent, halfEven_one]
    have hne : ¬ n * 2 ^ (-((n.log2 : Int) - 52)).toNat = Nat.pow 2 53 := Nat.ne_of_lt hmantissa
    rw [carry, if_neg hne]
    exact if_neg (by rw [maxExponent]; omega)
  rw [hround]
  exact counts_finite (by rw [ratio_of_nonpos hexponent])

/-- A number that is a natural is written by its decimal digits. -/
lemma Counts.plainText_eq {x : Double} {n : ℕ} (h : x.Counts n) : x.plainText = n.repr := by
  rw [plainText, h.2]
  simp only [h.1, if_true]
  rfl

lemma Counts.isFinite {x : Double} {n : ℕ} (h : x.Counts n) :
    ∃ negative m e, x = finite negative m e := by
  cases x with
  | nan => exact nomatch h.2
  | infinite negative => exact nomatch h.2
  | finite negative m e => exact ⟨negative, m, e, rfl⟩

end Double

/-! ### Reading digits -/

namespace Number

variable {n : ℕ}

/-- Reading the decimal digits of a natural below `2 ^ 53` gives it back. -/
lemma exists_readDouble?_repr (hlt : n < 2 ^ 53) :
    ∃ x : Double, readDouble? n.repr = some x ∧ x.Counts n := by
  have hspells := spells_digits false (Double.digitsOf_ne_nil n) fun _ => isDigit_of_mem_digitsOf
  have hread : readDouble? n.repr = some (Double.ofDecimal false ⟨n, 0⟩) := by
    rw [repr_eq]
    refine hspells.readDouble?_eq.trans ?_
    rw [List.append_nil, natOf_digitsOf]
    rfl
  refine ⟨_, hread, ?_⟩
  have hlength : Decimal.length n ≤ 16 :=
    (Nat.length_toDigits_le_iff (by decide) (by decide)).mpr (hlt.trans (by decide))
  rw [Double.ofDecimal]
  split
  · rename_i hzero
    obtain rfl : n = 0 := hzero
    exact Double.counts_zero
  · -- there are at most sixteen places before the point, and none behind it
    have hplaces : ¬ (Decimal.length n : Int) + 0 > 310 ∧ ¬ (Decimal.length n : Int) + 0 < -330 := by
      omega
    have hratio : Decimal.ratio ⟨n, 0⟩ = (n, 1) := by
      rw [Decimal.ratio, if_pos le_rfl]
      exact congrArg (·, 1) (Nat.mul_one n)
    simp only [if_neg hplaces.1, if_neg hplaces.2, hratio]
    exact Double.counts_round hlt

end Number

/-- A field with a natural below `2 ^ 53` stands for it. -/
lemma Value.exists_toDouble_int {n : ℕ} (hlt : n < 2 ^ 53) :
    ∃ x, (Value.int n).toDouble = .ok x ∧ x.Counts n := by
  have hcounts := Double.counts_round hlt
  have hof : Double.ofInt n = Double.round false n 1 := by
    rw [Double.ofInt, Int.natAbs_natCast, decide_eq_false (by omega)]
  obtain ⟨negative, m, e, hfinite⟩ := hcounts.isFinite
  refine ⟨Double.round false n 1, ?_, hcounts⟩
  rw [Value.toDouble, hof, hfinite]

/-- The offset and the sign of an index are applied exactly. -/
lemma Handler.foldedIndex_repr {n : ℕ} (hlt : n < 2 ^ 53) (shift : Int) (negate : Bool) :
    foldedIndex n.repr shift negate =
      .ok (toString (if negate then -((n : Int) + shift) else (n : Int) + shift)) := by
  obtain ⟨x, hread, hcounts⟩ := Number.exists_readDouble?_repr hlt
  simp only [foldedIndex, hread, hcounts.2]

end Blockscribe
