/-
Numbers are read back as they are written.

* `Double.ofDecimal_shortest`: the fewest digits of a number are read as that number, with either
  sign.
* `Number.readDouble?_layOut`: digits that are laid out, with an exponent or without, are read as
  the decimal that they stand for.
* `Number.readDouble?_plainText`: so a number is read back from its text, but for the sign of zero.
-/
import Blockscribe.Proofs.Number.Exact

namespace Blockscribe

namespace Double

variable {negative : Bool} {num den m : ℕ} {e : Int}

/-! ### Signs -/

/-- The number of the same magnitude that has the given sign. -/
def withSign (negative : Bool) : Double → Double
  | nan => nan
  | infinite _ => infinite negative
  | finite _ m e => finite negative m e

/-- A decimal is rounded by its magnitude. -/
lemma ofDecimal_eq_withSign (negative : Bool) (d : Decimal) :
    ofDecimal negative d = (ofDecimal false d).withSign negative := by
  have hcarry : ∀ m e, carry negative m e = (carry false m e).withSign negative := by
    intro m e
    simp only [carry]
    split_ifs <;> rfl
  have hround : round negative d.ratio.1 d.ratio.2 =
      (round false d.ratio.1 d.ratio.2).withSign negative := by
    rw [round, round]
    split
    · rfl
    · exact hcarry _ _
  rw [ofDecimal, ofDecimal]
  dsimp only
  split_ifs
  · rfl
  · rfl
  · rfl
  · exact hround

/-! ### The fewest digits -/

lemma passes_of_nearestPassing {passes : Decimal → Bool} {d : Decimal}
    (h : nearestPassing passes num den e = some d) : passes d = true := by
  rw [nearestPassing] at h
  dsimp only at h
  split at h
  · rename_i hbelow
    rw [Bool.and_eq_true] at hbelow
    exact Option.some.inj h ▸ hbelow.1
  split at h
  · rename_i habove
    exact Option.some.inj h ▸ habove
  · exact nomatch h

/-- Zeros at the end count in the exponent instead. -/
lemma exact_shorten (fuel : ℕ) (d : Decimal) : (Decimal.shorten fuel d).exact = d.exact := by
  induction fuel generalizing d with
  | zero => rfl
  | succ fuel ih =>
      rw [Decimal.shorten]
      split
      · rename_i hzero
        have hdigits : (d.digits : ℚ) = (d.digits / 10 : ℕ) * 10 := by
          exact_mod_cast (Nat.div_mul_cancel (Nat.dvd_of_mod_eq_zero hzero.2)).symm
        rw [ih, Decimal.exact, Decimal.exact, hdigits, zpow_add₀ (by norm_num), zpow_one]
        ring
      · rfl

lemma exact_exactDecimal (m : ℕ) (e : Int) : (exactDecimal m e).exact = m * 2 ^ e := by
  by_cases he : 0 ≤ e
  · obtain ⟨k, rfl⟩ := Int.eq_ofNat_of_zero_le he
    rw [exactDecimal, if_pos he, Decimal.exact, Int.toNat_natCast, zpow_zero, mul_one,
      zpow_natCast, Nat.pow_eq]
    push_cast
    rfl
  · obtain ⟨k, hk⟩ : ∃ k : ℕ, e = -(k : Int) := ⟨(-e).toNat, by omega⟩
    subst hk
    -- a power of two below the point is a power of five among as many places
    have hten : (10 : ℚ) ^ k = 2 ^ k * 5 ^ k := by rw [← mul_pow]; norm_num
    rw [exactDecimal, if_neg he, Decimal.exact, neg_neg, Int.toNat_natCast, zpow_neg, zpow_neg,
      zpow_natCast, zpow_natCast, Nat.pow_eq, hten]
    push_cast
    field_simp

/-- **The fewest digits of a number are read as that number.** -/
lemma ofDecimal_shortest (h : (finite negative m e).Canonical) :
    ofDecimal negative (shortest m e) = finite negative m e := by
  have hshorten : ∀ d, ofDecimal false d = finite false m e →
      ofDecimal negative (Decimal.shorten 17 d) = finite negative m e := by
    intro d hd
    rw [ofDecimal_congr (exact_shorten 17 d), ofDecimal_eq_withSign, hd]
    rfl
  rw [shortest]
  refine hshorten _ ?_
  generalize hfound : List.findSome? _ (List.range 17) = found
  cases found with
  | none => exact ofDecimal_eq h (exact_exactDecimal m e)
  | some d =>
      obtain ⟨k, -, hpassing⟩ := List.exists_of_findSome?_eq_some hfound
      exact beq_iff_eq.mp (passes_of_nearestPassing hpassing)

end Double

/-! ### Digits that are laid out -/

namespace Number

open Double (digitsOf exponentText layOut)
open Text

variable {ds fs : List Char} {negative : Bool}

lemma readExponent?_exponentText (e : Int) : readExponent? ('e' :: exponentText e) = some e := by
  have hdigits : ∀ c ∈ digitsOf e.natAbs, c.isDigit = true := fun _ => isDigit_of_mem_digitsOf
  -- a zero in front does not count
  have hpadded : ∃ ds, (if (digitsOf e.natAbs).length < 2 then '0' :: digitsOf e.natAbs
      else digitsOf e.natAbs) = ds ∧ ds ≠ [] ∧ (∀ c ∈ ds, c.isDigit = true) ∧
      natOf ds = e.natAbs := by
    refine ⟨_, rfl, ?_⟩
    split
    · exact ⟨List.cons_ne_nil _ _, List.forall_mem_cons.mpr ⟨rfl, hdigits⟩, natOf_digitsOf _⟩
    · exact ⟨Double.digitsOf_ne_nil _, hdigits, natOf_digitsOf _⟩
  obtain ⟨ds, hds, hne, hall, hvalue⟩ := hpadded
  have hsplit : splitSign (exponentText e) = (decide (e < 0), ds) := by
    rw [exponentText, hds]
    by_cases he : e < 0
    · rw [if_pos he, decide_eq_true he]
      rfl
    · rw [if_neg he, decide_eq_false he]
      rfl
  have hsome : (ds.isEmpty || !ds.all Char.isDigit) = false := by
    rw [List.isEmpty_eq_false_iff.mpr hne, List.all_eq_true.mpr hall]
    rfl
  rw [readExponent?, if_pos (.inl rfl), hsplit]
  dsimp only
  rw [hsome, if_neg Bool.false_ne_true, hvalue, Double.signed]
  split
  · rename_i hneg
    rw [decide_eq_true_eq] at hneg
    rw [Int.ofNat_natAbs_of_nonpos hneg.le, neg_neg]
  · rename_i hneg
    rw [decide_eq_true_eq, not_lt] at hneg
    rw [Int.natAbs_of_nonneg hneg]

/-- Digits with a point, if there are any behind it, and with an exponent. -/
lemma readDecimal?_scale {tail : List Char} (hne : ds ≠ []) (hds : ∀ c ∈ ds, c.isDigit = true)
    (hfs : ∀ c ∈ fs, c.isDigit = true) (e : Int)
    (htail : tail = '.' :: (fs ++ 'e' :: exponentText e) ∨ tail = 'e' :: exponentText e ∧ fs = []) :
    readDecimal? (ds ++ tail) = some ⟨natOf (ds ++ fs), e - fs.length⟩ := by
  have hempty : ds.isEmpty = false := List.isEmpty_eq_false_iff.mpr hne
  have hscale : ∀ c ∈ ('e' :: exponentText e).head?, c.isDigit = false := by
    intro c hc
    obtain rfl := Option.mem_some_iff.mp hc
    rfl
  have hpoint : ∀ c ∈ ('.' :: (fs ++ 'e' :: exponentText e)).head?, c.isDigit = false := by
    intro c hc
    obtain rfl := Option.mem_some_iff.mp hc
    rfl
  rcases htail with rfl | ⟨rfl, rfl⟩
  · obtain ⟨htake, hdrop⟩ := Grammar.span_digits hds hpoint
    obtain ⟨htake', hdrop'⟩ := Grammar.span_digits hfs hscale
    simp only [readDecimal?, htake, hdrop, htake', hdrop', hempty, Bool.false_and,
      readExponent?_exponentText, Option.map_some]
    rfl
  · obtain ⟨htake, hdrop⟩ := Grammar.span_digits hds hscale
    simp [readDecimal?, htake, hdrop, hempty, readExponent?_exponentText]

/-- Zeros in front of other digits do not count. -/
lemma natOf_replicate_append (k : ℕ) (ds : List Char) :
    natOf (List.replicate k '0' ++ ds) = natOf ds := by
  induction k with
  | zero => rfl
  | succ k ih => exact ih

/-- Zeros behind other digits are powers of ten. -/
lemma natOf_append_replicate (ds : List Char) (k : ℕ) :
    natOf (ds ++ List.replicate k '0') = natOf ds * 10 ^ k := by
  induction k with
  | zero => rw [List.replicate_zero, List.append_nil, pow_zero, mul_one]
  | succ k ih =>
      rw [List.replicate_succ', ← List.append_assoc, natOf, List.foldl_append, ← natOf, ih,
        List.foldl_cons, List.foldl_nil, pow_succ]
      show 10 * _ + 0 = _
      ring

/-- Digits on both sides of a point are read as all of them, with the places behind it. -/
lemma readDecimal?_point {ds fs : List Char} (hne : ds ≠ []) (hds : ∀ c ∈ ds, c.isDigit = true)
    (hfs : ∀ c ∈ fs, c.isDigit = true) :
    readDecimal? (ds ++ '.' :: fs) = some ⟨natOf (ds ++ fs), -(fs.length : Int)⟩ := by
  have hspells : Spells (ds ++ '.' :: fs) false ds fs := ⟨hne, hds, hfs, '.' :: fs, .inl rfl, rfl⟩
  exact hspells.readDecimal?_eq (.inl rfl)

/-- Digits that are laid out are a decimal of the same value. -/
lemma readDecimal?_layOut (d : Decimal) :
    ∃ d', readDecimal? (layOut d) = some d' ∧ d'.exact = d.exact := by
  have hdigits : ∀ c ∈ digitsOf d.digits, c.isDigit = true := fun _ => isDigit_of_mem_digitsOf
  have hne := Double.digitsOf_ne_nil d.digits
  have hvalue := natOf_digitsOf d.digits
  -- with the digits behind each other and the exponent that the point leaves, it is the decimal
  have hsame : ∀ cs (e : Int), natOf cs = d.digits → e = d.exponent →
      (Decimal.exact ⟨natOf cs, e⟩) = d.exact := by
    rintro cs e hcs rfl
    rw [hcs]
  rw [layOut]
  generalize digitsOf d.digits = digits at hdigits hne hvalue
  have hlength := List.length_pos_iff.mpr hne
  split
  · -- one digit in front of the point, and an exponent
    split
    · exact absurd rfl hne
    · exact ⟨_, readDecimal?_scale hne hdigits (List.forall_mem_nil _) _ (.inr ⟨rfl, rfl⟩),
        hsame _ _ hvalue (by simp)⟩
    · rename_i first more _ _
      rw [List.forall_mem_cons] at hdigits
      refine ⟨_, readDecimal?_scale (List.cons_ne_nil first [])
        (List.forall_mem_singleton.mpr hdigits.1) hdigits.2 _ (.inl rfl), hsame _ _ hvalue ?_⟩
      rw [List.length_cons]
      omega
  split
  · -- zeros behind the point
    refine ⟨_, readDecimal?_point (List.cons_ne_nil '0' []) (List.forall_mem_singleton.mpr rfl)
      (List.forall_mem_append.mpr ⟨Double.isDigit_of_mem_zeros _, hdigits⟩), hsame _ _ ?_ ?_⟩
    · exact (natOf_replicate_append _ digits).trans hvalue
    · rw [List.append_eq, List.length_append, List.length_replicate]
      omega
  split
  · -- zeros in front of the point
    obtain ⟨k, hk⟩ := Int.eq_ofNat_of_zero_le (show 0 ≤ d.exponent by omega)
    refine ⟨_, readDecimal?_point (List.append_ne_nil_of_left_ne_nil hne _)
      (List.forall_mem_append.mpr ⟨hdigits, Double.isDigit_of_mem_zeros _⟩)
      (List.forall_mem_singleton.mpr rfl), ?_⟩
    rw [List.append_assoc, ← List.replicate_succ', natOf_append_replicate, hvalue, Decimal.exact,
      Decimal.exact, hk, Int.toNat_natCast, List.length_singleton, zpow_natCast]
    push_cast
    rw [pow_succ, zpow_neg_one]
    field_simp
  · -- the point among the digits
    have htake : digits.take (digits.length + d.exponent).toNat ≠ [] := by
      rw [ne_eq, List.take_eq_nil_iff, not_or]
      exact ⟨by omega, hne⟩
    refine ⟨_, readDecimal?_point htake (fun c hc => hdigits c (List.mem_of_mem_take hc))
      (fun c hc => hdigits c (List.mem_of_mem_drop hc)), hsame _ _ ?_ ?_⟩
    · rw [List.take_append_drop, hvalue]
    · rw [List.length_drop]
      omega

/-- There is a point or an exponent among digits that are laid out. -/
lemma exists_not_digit_layOut (d : Decimal) : ∃ c ∈ layOut d, c.isDigit = false := by
  have hne := Double.digitsOf_ne_nil d.digits
  rw [layOut]
  split_ifs
  · split
    · rename_i hnil
      exact absurd hnil hne
    · exact ⟨'e', by simp, rfl⟩
    · exact ⟨'.', by simp, rfl⟩
  · exact ⟨'.', by simp, rfl⟩
  · exact ⟨'.', by simp, rfl⟩
  · exact ⟨'.', by simp, rfl⟩

/-- An exponent is made of digits, signs and its letter. -/
lemma mem_of_isScale {cs : List Char} {c : Char} (h : Grammar.isScale cs = true) (hc : c ∈ cs) :
    c.isDigit = true ∨ c ∈ ['e', 'E', '+', '-'] := by
  cases cs with
  | nil => exact nomatch hc
  | cons e rest =>
      rw [Grammar.isScale, Bool.and_eq_true, Bool.or_eq_true, beq_iff_eq, beq_iff_eq] at h
      obtain ⟨he, hrest⟩ := h
      rcases List.mem_cons.mp hc with rfl | hin
      · rcases he with rfl | rfl <;> exact .inr (by decide)
      rw [Grammar.isExponent.eq_def] at hrest
      split at hrest <;> rw [Bool.and_eq_true, List.all_eq_true] at hrest
      · rcases List.mem_cons.mp hin with rfl | hds
        · exact .inr (by decide)
        · exact .inl (hrest.2 c hds)
      · rcases List.mem_cons.mp hin with rfl | hds
        · exact .inr (by decide)
        · exact .inl (hrest.2 c hds)
      · exact .inl (hrest.2 c hin)

/-- A numeral is made of digits, signs, a point and the letter of its exponent. -/
lemma mem_of_numeral {cs : List Char} {c : Char} (h : Grammar.isNumeral cs = true) (hc : c ∈ cs) :
    c.isDigit = true ∨ c ∈ ['.', 'e', 'E', '+', '-'] := by
  rw [← List.takeWhile_append_dropWhile (p := Char.isDigit) (l := cs)] at hc
  rcases List.mem_append.mp hc with hfront | hback
  · exact .inl (List.mem_takeWhile_imp hfront)
  rw [Grammar.isNumeral, Bool.and_eq_true] at h
  obtain ⟨-, htail⟩ := h
  split at htail
  · rename_i hdrop
    rw [hdrop] at hback
    exact absurd hback List.not_mem_nil
  · rename_i rest hdrop
    rw [hdrop] at hback
    rcases List.mem_cons.mp hback with rfl | hin
    · exact .inr (by decide)
    rw [← List.takeWhile_append_dropWhile (p := Char.isDigit) (l := rest)] at hin
    rcases List.mem_append.mp hin with hdigits | hscale
    · exact .inl (List.mem_takeWhile_imp hdigits)
    · exact (mem_of_isScale htail hscale).imp_right (List.mem_cons_of_mem _)
  · exact (mem_of_isScale htail hback).imp_right (List.mem_cons_of_mem _)

/-- **Digits that are laid out are read as the decimal that they stand for.** -/
lemma readDouble?_layOut (negative : Bool) (d : Decimal) :
    readDouble? ((if negative then "-" else "") ++ String.ofList (layOut d)) =
      some (Double.ofDecimal negative d) := by
  have hnumeral := Double.isNumeral_layOut d
  obtain ⟨d', hread, hexact⟩ := readDecimal?_layOut d
  cases hcs : layOut d with
  | nil => exact absurd (hcs ▸ hnumeral) (by decide)
  | cons c rest =>
      rw [hcs] at hnumeral hread
      have hplain : ∀ x ∈ rest, plainChar x = x ∧ isAsciiBlank x = false ∧ x ≠ '_' := by
        intro x hx
        rcases mem_of_numeral hnumeral (List.mem_cons_of_mem c hx) with hdigit | hmark
        · have hx := plain_of_isDigit hdigit
          exact ⟨hx.1, hx.2.2.1, hx.2.2.2.2.1⟩
        · have hmarks : (['.', 'e', 'E', '+', '-'].all fun x =>
              plainChar x = x ∧ isAsciiBlank x = false ∧ x ≠ '_') = true := by decide
          exact of_decide_eq_true (List.all_eq_true.mp hmarks x hmark)
      have htext : (if negative then "-" else "") ++ String.ofList (c :: rest) =
          String.ofList ((if negative then ['-'] else []) ++ c :: rest) := by
        refine String.toList_inj.mp ?_
        cases negative <;> simp
      rw [htext, readDouble?_of_isDigit negative (Grammar.runsOn_of_isNumeral hnumeral).1 hplain,
        hread, Option.map_some, Double.ofDecimal_congr hexact]

end Number

/-! ### Numbers as text -/

namespace Double

variable {negative : Bool} {m : ℕ} {e : Int}

lemma natAbs_signed (negative : Bool) (n : ℕ) : (signed negative n).natAbs = n := by
  cases negative
  · rfl
  · exact Int.natAbs_neg n

/-- There is nothing behind the point: the quotient has no remainder. -/
lemma quotient_exact (hwhole : (ratio m e).1 % (ratio m e).2 = 0) :
    (((ratio m e).1 / (ratio m e).2 : ℕ) : ℚ) = m * 2 ^ e := by
  rw [← ratio_exact, eq_div_iff (by exact_mod_cast (ratio_snd_pos m e).ne')]
  exact_mod_cast Nat.div_mul_cancel (Nat.dvd_of_mod_eq_zero hwhole)

/-- The integer that a number is. -/
def whole? (x : Double) : Option ℤ := if x.isWhole then x.truncate? else none

lemma whole?_finite (negative : Bool) (m : ℕ) (e : Int) :
    (finite negative m e).whole? =
      if (ratio m e).1 % (ratio m e).2 = 0 then
        some (signed negative ((ratio m e).1 / (ratio m e).2))
      else none := by
  simp only [whole?, isWhole, truncate?, beq_iff_eq]

/-- A number that is an integer is written with the digits of a natural. -/
lemma exists_of_whole? {x : Double} {i : ℤ} (h : x.whole? = some i) :
    ∃ n : ℕ, x.magnitude.plainText = n.repr ∧ signed x.isNegative n = i := by
  obtain ⟨negative, m, e, rfl⟩ : ∃ negative m e, x = finite negative m e := by
    cases x with
    | nan | infinite => exact nomatch h
    | finite negative m e => exact ⟨negative, m, e, rfl⟩
  rw [whole?_finite, Option.ite_none_right_eq_some] at h
  obtain ⟨hremainder, hvalue⟩ := h
  refine ⟨(ratio m e).1 / (ratio m e).2, ?_, ?_⟩
  · rw [magnitude, plainText_finite, if_pos hremainder]
    rfl
  · rw [← Option.some.inj hvalue, isNegative]
    by_cases hm : m = 0
    · rw [hm, ratio_zero, Nat.zero_div]
      cases negative <;> rfl
    · rw [bne_iff_ne.mpr hm, Bool.and_true]

/-- A number with nothing behind the point is read back from its digits, but for the sign of zero.
-/
lemma Canonical.readDouble?_toString (h : (finite negative m e).Canonical)
    (hwhole : (ratio m e).1 % (ratio m e).2 = 0) :
    Number.readDouble? (toString (signed negative ((ratio m e).1 / (ratio m e).2))) =
      some (finite (negative && m != 0) m e) := by
  have hvalue := quotient_exact hwhole
  generalize (ratio m e).1 / (ratio m e).2 = n at hvalue
  have hzero : n = 0 ↔ m = 0 := by
    rw [← Nat.cast_eq_zero (R := ℚ), hvalue, mul_eq_zero, Nat.cast_eq_zero]
    exact or_iff_left (two_zpow_pos e).ne'
  have hsign : decide (signed negative n < 0) = (negative && m != 0) := by
    by_cases hm : m = 0
    · rw [hm, hzero.mpr hm]
      cases negative <;> rfl
    · have hn := Nat.pos_of_ne_zero (fun hn => hm (hzero.mp hn))
      cases negative
      · simp [signed]
      · simp [signed, hm, hn]
  have hread := (Number.spells_toString (signed negative n)).readDouble?_eq
  rw [String.ofList_toList, List.append_nil, Number.natOf_digitsOf, natAbs_signed, hsign] at hread
  rw [hread]
  refine congrArg some (ofDecimal_eq h ?_)
  rw [Decimal.exact, ← hvalue]
  exact mul_one _

/-- **A number is read back from its text**, but for the sign of zero. -/
lemma Canonical.readDouble?_plainText (h : (finite negative m e).Canonical) :
    Number.readDouble? (finite negative m e).plainText =
      some (finite (negative && m != 0) m e) := by
  rw [plainText_finite]
  split
  · rename_i hwhole
    rw [← Int.toString_eq_repr]
    exact h.readDouble?_toString hwhole
  · rename_i hwhole
    have hm : m ≠ 0 := by
      rintro rfl
      exact hwhole (by rw [ratio_zero, Nat.zero_mod])
    rw [unsignedText, if_neg hm, Number.readDouble?_layOut, ofDecimal_shortest h,
      bne_iff_ne.mpr hm, Bool.and_true]

/-- The text of a number that is no integer is not made of digits alone. -/
lemma exists_not_digit_plainText (h : (finite negative m e).whole? = none) :
    m ≠ 0 ∧ ∃ c ∈ (finite negative m e).magnitude.plainText.toList, c.isDigit = false := by
  have hremainder : ¬ (ratio m e).1 % (ratio m e).2 = 0 := by
    intro hzero
    rw [whole?_finite, if_pos hzero] at h
    exact nomatch h
  have hm : m ≠ 0 := by
    rintro rfl
    exact hremainder (by rw [ratio_zero, Nat.zero_mod])
  refine ⟨hm, ?_⟩
  rw [magnitude, plainText_finite, if_neg hremainder, if_neg Bool.false_ne_true,
    String.empty_append, unsignedText, if_neg hm, String.toList_ofList]
  exact Number.exists_not_digit_layOut _

end Double

end Blockscribe
