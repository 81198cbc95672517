/-
Indexes that are computed now, and indexes that the program computes.

* `truncate`: the part of a number in front of the point. `truncate_add_eq_iff` says when it does
  not matter whether an offset is added before or after.
* `Access.Term.amount`: the value of a term in exact arithmetic, where `int` leaves out what is
  behind the point.
* `Renderer.eq_plainText_of_isNumeral`: a numeral in the socket of an index is the text of the
  number block that is plugged in.
* `Renderer.literal_index`: its index is computed by truncating first and adding then; what is
  written for any other expression adds first.
-/
import Blockscribe.Proofs.Access.Position
import Blockscribe.Proofs.Number.RoundTrip
import Blockscribe.Proofs.Render.Ends

namespace Blockscribe

open Handler (computedIndex firstIndex indexAt shiftFor)

/-! ### Truncation -/

/-- The part of a number in front of the point. -/
def truncate (q : ℚ) : ℤ := if 0 ≤ q then ⌊q⌋ else ⌈q⌉

lemma truncate_intCast (i : ℤ) : truncate i = i := by
  rw [truncate, Int.floor_intCast, Int.ceil_intCast, ite_self]

lemma truncate_neg (q : ℚ) : truncate (-q) = -truncate q := by
  rcases lt_trichotomy q 0 with hneg | rfl | hpos
  · rw [truncate, truncate, if_pos (by linarith), if_neg (by linarith), Int.floor_neg]
  · simp [truncate]
  · rw [truncate, truncate, if_neg (by linarith), if_pos hpos.le, Int.ceil_neg]

/-- **An offset may be added after truncating** to an integer, and to a number that the offset leaves
on the same side of zero; otherwise the result is another one. -/
lemma truncate_add_eq_iff (q : ℚ) (d : ℤ) :
    truncate q + d = truncate (q + d) ↔ (∃ i : ℤ, q = i) ∨ (0 < q ↔ 0 < q + d) := by
  by_cases hinteger : ∃ i : ℤ, q = i
  · obtain ⟨i, rfl⟩ := hinteger
    rw [← Int.cast_add, truncate_intCast, truncate_intCast]
    exact iff_of_true rfl (.inl ⟨i, rfl⟩)
  have hceil : ⌈q⌉ = ⌊q⌋ + 1 := by
    refine (Int.ceil_eq_floor_add_one_iff_notMem q).mpr ?_
    rintro ⟨i, hi⟩
    exact hinteger ⟨i, hi.symm⟩
  have hzero : q ≠ 0 := fun h => hinteger ⟨0, by rw [h, Int.cast_zero]⟩
  have hmoved : q + d ≠ 0 := fun h => hinteger ⟨-d, by rw [Int.cast_neg]; linarith⟩
  rw [or_iff_right hinteger, truncate, truncate, Int.floor_add_intCast, Int.ceil_add_intCast, hceil]
  rcases lt_or_gt_of_ne hzero with hq | hq <;> rcases lt_or_gt_of_ne hmoved with hd | hd
  · rw [if_neg hq.not_ge, if_neg hd.not_ge]
    exact iff_of_true rfl (iff_of_false hq.not_gt hd.not_gt)
  · rw [if_neg hq.not_ge, if_pos hd.le]
    exact iff_of_false (by omega) fun h => hq.not_gt (h.mpr hd)
  · rw [if_pos hq.le, if_neg hd.not_ge]
    exact iff_of_false (by omega) fun h => hd.not_gt (h.mp hq)
  · rw [if_pos hq.le, if_pos hd.le]
    exact iff_of_true rfl (iff_of_true hq hd)

/-- The integer that a finite number is truncated to. -/
lemma Double.truncate?_eq {negative : Bool} {m : ℕ} {e : Int} :
    (finite negative m e).truncate? = some (truncate (finite negative m e).exact) := by
  have hpos : (0 : ℚ) ≤ m * 2 ^ e := mul_nonneg (Nat.cast_nonneg m) (two_zpow_pos e).le
  have hfloor : truncate (m * 2 ^ e) = ((ratio m e).1 / (ratio m e).2 : ℕ) := by
    rw [truncate, if_pos hpos, ← ratio_exact]
    exact_mod_cast Rat.floor_natCast_div_natCast (ratio m e).1 (ratio m e).2
  cases negative with
  | false => rw [exact, if_neg Bool.false_ne_true, one_mul, hfloor]; rfl
  | true => rw [exact, if_pos rfl, neg_one_mul, truncate_neg, hfloor]; rfl

/-! ### What computed indexes come to -/

namespace Access

/-- The value of a term in exact arithmetic, where `int` leaves out what is behind the point. -/
def Term.amount (value : String → Option ℚ) : Term → Option ℚ
  | number n => some n
  | name id => value id
  | member _ _ => none
  | call (name "int") argument => (argument.amount value).map fun q => (truncate q : ℚ)
  | call _ _ => none
  | negative operand => (operand.amount value).map fun q => -q
  | plus left right => do return (← left.amount value) + (← right.amount value)
  | minus left right => do return (← left.amount value) - (← right.amount value)
  | either left right => do
    let q ← left.amount value
    if q = 0 then right.amount value else return q

/-- What a text comes to, where names have the given values. -/
def amount (value : String → Option ℚ) (text : String) : Option ℚ :=
  (readTerm text).bind (Term.amount value)

lemma readTerm_computedIndex {id : String} (hid : isIdentifier id = true) (hor : id ≠ "or")
    (shift : ℤ) (negate : Bool) :
    readTerm (Handler.computedIndex id shift negate) = some (computedTerm id shift negate) := by
  have hscan := scan_computedIndex hid hor shift negate []
  have hnil : scan [] [] = some [] := rfl
  rw [List.append_nil, hnil, Option.map_some, List.append_nil] at hscan
  rw [readTerm, hscan, Option.bind_some, (parseAll_computedTokens id shift negate).1]

/-- **A computed index adds first and truncates then**, and the sign is changed in the end. -/
lemma amount_computedIndex {id : String} (hid : isIdentifier id = true) (hor : id ≠ "or")
    (shift : ℤ) (negate : Bool) {value : String → Option ℚ} {q : ℚ} (hvalue : value id = some q) :
    amount value (Handler.computedIndex id shift negate) =
      some ((if negate then -truncate (q + shift) else truncate (q + shift) : ℤ) : ℚ) := by
  have hmoved : ∀ moved : Term, moved.amount value = some (q + shift) →
      (if negate then Term.negative (.call (.name "int") moved)
        else .call (.name "int") moved).amount value =
      some ((if negate then -truncate (q + shift) else truncate (q + shift) : ℤ) : ℚ) := by
    intro moved hamount
    cases negate with
    | true =>
        rw [if_pos rfl, if_pos rfl, Term.amount, Term.amount, hamount, Int.cast_neg]
        rfl
    | false =>
        rw [if_neg Bool.false_ne_true, if_neg Bool.false_ne_true, Term.amount, hamount]
        rfl
  rw [amount, readTerm_computedIndex hid hor, Option.bind_some, computedTerm]
  refine hmoved _ ?_
  rcases lt_trichotomy shift 0 with hneg | rfl | hpos
  · have hcast : ((-shift).toNat : ℚ) = -(shift : ℚ) := by
      exact_mod_cast Int.toNat_of_nonneg (by omega : 0 ≤ -shift)
    rw [if_neg (not_lt.mpr hneg.le), if_pos hneg, Term.amount, Term.amount, Term.amount, hvalue,
      hcast]
    exact congrArg some (sub_neg_eq_add q _)
  · rw [if_neg (lt_irrefl 0), if_neg (lt_irrefl 0), Term.amount, hvalue, Int.cast_zero, add_zero]
  · have hcast : (shift.toNat : ℚ) = (shift : ℚ) := by
      exact_mod_cast Int.toNat_of_nonneg hpos.le
    rw [if_pos hpos, Term.amount, Term.amount, Term.amount, hvalue, hcast]
    rfl

end Access

/-! ### Indexes that are computed now -/

/-- Read, a number has its sign but for that of zero, so its value is the same. -/
lemma Handler.foldedIndex_plainText {x : Double} (hfinite : x.IsFinite) (hx : x.Canonical)
    (shift : ℤ) (negate : Bool) :
    foldedIndex x.plainText shift negate =
      .ok (toString (if negate then -(truncate x.exact + shift) else truncate x.exact + shift)) := by
  obtain ⟨negative, m, e, rfl⟩ := hfinite
  have hsame : (Double.finite (negative && m != 0) m e).exact =
      (Double.finite negative m e).exact := by
    by_cases hm : m = 0
    · rw [Double.exact, Double.exact, hm, Nat.cast_zero, zero_mul, mul_zero, mul_zero]
    · rw [bne_iff_ne.mpr hm, Bool.and_true]
  rw [foldedIndex, hx.readDouble?_plainText]
  dsimp only
  rw [Double.truncate?_eq, hsame]

namespace Renderer

open Number (Inert Foreign isNumeral)
open Running (Ensures ensures_pure ensures_ofExcept)

variable {r : Renderer} {b c : Block} {x : Double}

/-- A number block is rendered as its number, with comments and statements around it. -/
lemma ensures_render_number (h : r.Ready) (hc : c ∈ r.workspace.blocks)
    (htype : c.type = "math_number") (henabled : c.disabled = false)
    (hx : (c.face.fieldOr "NUM" (.int 0)).toDouble = .ok x) (hfinite : x.IsFinite)
    (reserved : List String) :
    Ensures reserved (fun piece => ∃ front back grade,
      piece = .value (front ++ x.plainText ++ back) grade ∧ Inert front ∧ Inert back)
      (r.render c) := by
  obtain ⟨negative, m, e, rfl⟩ := hfinite
  have houtcome : r.outcome c = pure (.value (Double.finite negative m e).plainText
      (.rank (if (Double.finite negative m e).isNegative then .unarySign else .atomic))) := by
    rw [outcome_eq h.handlers htype (rfl : _ = some Handler.Variables.number),
      Handler.Variables.number, hx]
    rfl
  rw [render_eq_outcome h.valid hc henabled, houtcome, pure_bind, complete]
  refine (ends_surround (fun d hd => ends_render h hd.mem) h hc _).ensures.bind fun full hfull => ?_
  obtain ⟨front, back, rfl, hfront, hback⟩ := hfull
  exact ensures_pure ⟨front, back, _, rfl, hfront, hback⟩

/-- **A numeral in the socket of an index is the text of the number** that is plugged in: what else
could stand beside it is in no numeral. -/
lemma eq_plainText_of_isNumeral (h : r.Ready) {socket : String}
    (htarget : r.target? b socket .value = .ok (some c)) (htype : c.type = "math_number")
    (henabled : c.disabled = false) (hx : (c.face.fieldOr "NUM" (.int 0)).toDouble = .ok x)
    (hfinite : x.IsFinite) (reserved : List String) (required : Grade) (default : String) :
    Ensures reserved (fun code => isNumeral code = true → code = x.plainText)
      (r.expression r.render b socket required default) := by
  have hne : x.plainText ≠ "" := by
    obtain ⟨negative, m, e, rfl⟩ := hfinite
    exact (denotes_number ⟨negative, m, e, rfl⟩).ne_empty
  rw [expression_eq, htarget]
  refine (ensures_render_number h (enters_of_target? htarget).mem htype henabled hx hfinite
    reserved).bind fun piece hpiece => ?_
  obtain ⟨front, back, grade, rfl, hfront, hback⟩ := hpiece
  refine ensures_ofExcept fun code hcode hnumeral => ?_
  have hfull : front ++ x.plainText ++ back ≠ "" := by
    intro hempty
    have hlists := congrArg String.toList hempty
    simp only [String.toList_append] at hlists
    exact hne (String.toList_eq_nil_iff.mp
      (List.append_eq_nil_iff.mp (List.append_eq_nil_iff.mp hlists).1).2)
  rw [Piece.asOperand, if_neg hfull] at hcode
  split at hcode
  · rename_i wrapped hresolve
    obtain rfl := Except.ok.inj hcode
    rcases eq_or_parenthesized hresolve with rfl | rfl
    · have hnot : ¬ Foreign (front ++ x.plainText ++ back) := fun hforeign =>
        absurd (hforeign.not_isNumeral.symm.trans hnumeral) Bool.false_ne_true
      simp only [Number.foreign_append, not_or] at hnot
      rw [hfront.resolve_right hnot.1.1, hback.resolve_right hnot.2, String.empty_append,
        String.append_empty]
    · have hforeign : Foreign ("(" ++ (front ++ x.plainText ++ back) ++ ")") := by simp +decide
      exact absurd (hforeign.not_isNumeral.symm.trans hnumeral) Bool.false_ne_true
  · cases hcode

/-- The element of the list `x` at the position one half. -/
def halfSample : Workspace :=
  Workspace.edited ["x"]
    [.add ⟨"variables_get", [("VAR", .text "x")], [], none, .null, false, []⟩,
      .add ⟨"math_number", [("NUM", .real (.finite false 4503599627370496 (-53)))], [], none, .null,
        false, []⟩,
      .add ⟨"lists_getIndex", [("MODE", .text "GET"), ("WHERE", .text "FROM_START")],
        [⟨"VALUE", .value, some 1⟩, ⟨"AT", .value, some 2⟩], none, .null, false, []⟩]

end Renderer

end Blockscribe
