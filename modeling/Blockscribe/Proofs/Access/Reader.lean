/-
Indexes as the program reads and evaluates them.

* `Term`: names, numerals, calls, attributes, signs, sums, differences and `or`.
* `scan`, `parse`, `readTerm`: the term that a text spells. A call and an attribute bind more
  tightly than a sign, a sign more tightly than a sum, and a sum more tightly than `or`.
* `Scope`, `Term.value`: the value of a term, given those of the names: `int` leaves an integer
  alone, and `x or y` is `y` if `x` is zero.
* `eval_toString`, `eval_computedIndex`, `eval_orEverything`: the values of the indexes that
  handlers write.
-/
import Blockscribe.Handler.Index
import Blockscribe.Proofs.Number.Whole

namespace Blockscribe.Access

open Name (isWordChar)

/-! ### Terms and their values -/

/-- Expressions of indexes. -/
inductive Term
  | number (n : ℕ)
  | name (id : String)
  | member (owner : Term) (field : String)
  | call (function argument : Term)
  | negative (operand : Term)
  | plus (left right : Term)
  | minus (left right : Term)
  | either (left right : Term)
  deriving DecidableEq, Repr

/-- The values that names have, where they are integers, and the largest size of a sequence, where
the module that tells it is in reach. -/
structure Scope where
  value : String → Option ℤ
  maxSize : Option ℤ

/-- The largest size is known, and a sequence can be that long. -/
def Scope.Admits (scope : Scope) (len : ℕ) : Prop :=
  ∃ size, scope.maxSize = some size ∧ (len : ℤ) ≤ size

/-- The value of a term, if it has one. -/
def Term.value (scope : Scope) : Term → Option ℤ
  | number n => some n
  | name id => scope.value id
  | member (name "sys") "maxsize" => scope.maxSize
  | member _ _ => none
  | call (name "int") argument => argument.value scope
  | call _ _ => none
  | negative operand => (operand.value scope).map fun v => -v
  | plus left right => do return (← left.value scope) + (← right.value scope)
  | minus left right => do return (← left.value scope) - (← right.value scope)
  | either left right => do
    let v ← left.value scope
    if v = 0 then right.value scope else return v

/-! ### Reading a text -/

/-- What terms are written with. -/
inductive Token
  | number (n : ℕ)
  | name (id : String)
  | or
  | plus
  | minus
  | opening
  | closing
  | point
  deriving DecidableEq, Repr

/-- The tokens of a run of letters, digits and underscores: none if there is no run. A numeral has
no zeros in front. -/
def word : List Char → Option (List Token)
  | [] => some []
  | c :: rest =>
      if c.isDigit then
        if rest.all Char.isDigit && (c != '0' || rest.isEmpty) then
          some [.number (Nat.ofDigitChars 10 (c :: rest) 0)]
        else none
      else if c :: rest = ['o', 'r'] then some [.or]
      else some [.name (String.ofList (c :: rest))]

/-- The tokens of a mark; a space separates only. -/
def mark : Char → Option (List Token)
  | ' ' => some []
  | '+' => some [.plus]
  | '-' => some [.minus]
  | '(' => some [.opening]
  | ')' => some [.closing]
  | '.' => some [.point]
  | _ => none

/-- The tokens of a text that goes on with a run that has begun. -/
def scan : List Char → List Char → Option (List Token)
  | run, [] => word run
  | run, c :: cs =>
      if isWordChar c then scan (run ++ [c]) cs
      else do return (← word run) ++ (← mark c) ++ (← scan [] cs)

/-- Levels of precedence. -/
inductive Level
  | disjunction
  | sum
  | factor
  | primary

mutual

/-- The term of a level at the front of some tokens, and what is left of them. -/
def parse : ℕ → Level → List Token → Option (Term × List Token)
  | 0, _, _ => none
  | n + 1, .disjunction, ts => (parse n .sum ts).bind fun (x, rest) => goOn n .disjunction x rest
  | n + 1, .sum, ts => (parse n .factor ts).bind fun (x, rest) => goOn n .sum x rest
  | n + 1, .factor, .minus :: ts => (parse n .factor ts).map fun (x, rest) => (.negative x, rest)
  | n + 1, .factor, ts => parse n .primary ts
  | n + 1, .primary, .number k :: ts => goOn n .primary (.number k) ts
  | n + 1, .primary, .name id :: ts => goOn n .primary (.name id) ts
  | n + 1, .primary, .opening :: ts =>
      (parse n .disjunction ts).bind fun
        | (x, .closing :: rest) => goOn n .primary x rest
        | _ => none
  | _ + 1, .primary, _ => none

/-- Goes on with a term of a level. -/
def goOn : ℕ → Level → Term → List Token → Option (Term × List Token)
  | 0, _, _, _ => none
  | n + 1, .disjunction, x, .or :: ts =>
      (parse n .sum ts).bind fun (y, rest) => goOn n .disjunction (.either x y) rest
  | n + 1, .sum, x, .plus :: ts =>
      (parse n .factor ts).bind fun (y, rest) => goOn n .sum (.plus x y) rest
  | n + 1, .sum, x, .minus :: ts =>
      (parse n .factor ts).bind fun (y, rest) => goOn n .sum (.minus x y) rest
  | n + 1, .primary, x, .opening :: ts =>
      (parse n .disjunction ts).bind fun
        | (y, .closing :: rest) => goOn n .primary (.call x y) rest
        | _ => none
  | n + 1, .primary, x, .point :: .name field :: ts => goOn n .primary (.member x field) ts
  | _ + 1, _, x, ts => some (x, ts)

end

/-- The term that tokens spell, if nothing is left of them. -/
def parseAll (ts : List Token) : Option Term :=
  match parse (4 * ts.length + 4) .disjunction ts with
  | some (x, []) => some x
  | _ => none

/-- The term that a text spells. -/
def readTerm (text : String) : Option Term := (scan [] text.toList).bind parseAll

/-- The value of a text. -/
def Scope.eval (scope : Scope) (text : String) : Option ℤ :=
  (readTerm text).bind fun x => x.value scope

/-! ### Runs and marks -/

/-- A run takes in all the letters, digits and underscores that follow. -/
lemma scan_append (run : List Char) {cs : List Char} (hcs : cs.all isWordChar = true)
    (rest : List Char) :
    scan run (cs ++ rest) = scan (run ++ cs) rest := by
  induction cs generalizing run with
  | nil => rw [List.nil_append, List.append_nil]
  | cons c cs ih =>
      rw [List.all_cons, Bool.and_eq_true] at hcs
      rw [List.cons_append, scan, if_pos hcs.1, ih _ hcs.2, List.append_assoc, List.singleton_append]

/-- A run ends at the first mark. -/
lemma scan_run (run : List Char) {c : Char} {ts us : List Token} (hrun : word run = some ts)
    (hall : run.all isWordChar = true) (hword : isWordChar c = false) (hc : mark c = some us)
    (rest : List Char) :
    scan [] (run ++ c :: rest) = (scan [] rest).map ((ts ++ us) ++ ·) := by
  rw [scan_append _ hall, List.nil_append, scan, if_neg (by rw [hword]; exact Bool.false_ne_true),
    hrun, hc]
  cases scan [] rest with
  | none => rfl
  | some more => rfl

lemma scan_mark {c : Char} {us : List Token} (hword : isWordChar c = false)
    (hc : mark c = some us) (rest : List Char) :
    scan [] (c :: rest) = (scan [] rest).map (us ++ ·) :=
  scan_run [] rfl rfl hword hc rest

/-- Identifiers other than `or` are names. -/
lemma word_of_isIdentifier {id : String} (hid : isIdentifier id = true) (hor : id ≠ "or") :
    word id.toList = some [.name id] ∧ id.toList.all isWordChar = true := by
  obtain ⟨c, rest, hcs, hdigit, hword, hwords⟩ := exists_of_isIdentifier hid
  have hne : c :: rest ≠ ['o', 'r'] := by
    intro heq
    exact hor (String.toList_inj.mp (hcs.trans heq))
  rw [hcs, List.all_cons, hword, hwords, word, if_neg (by rw [hdigit]; exact Bool.false_ne_true),
    if_neg hne, ← hcs, String.ofList_toList]
  exact ⟨rfl, rfl⟩

/-- Decimal digits are a numeral. -/
lemma word_repr (n : ℕ) :
    word n.repr.toList = some [.number n] ∧ n.repr.toList.all isWordChar = true := by
  have hdigits : ∀ c ∈ n.repr.toList, c.isDigit = true := by
    rw [Nat.toList_repr]
    exact fun c => isDigit_of_mem_digitsOf
  have hvalue : Nat.ofDigitChars 10 n.repr.toList 0 = n := by
    rw [Nat.toList_repr]
    exact Nat.ofDigitChars_ten_toDigits
  have hzero : n.repr.toList.head? = some '0' → n.repr.toList = ['0'] := by
    rw [Nat.toList_repr]
    intro hhead
    rcases Nat.eq_zero_or_pos n with rfl | hn
    · rfl
    · exact absurd hhead (head?_digitsOf hn)
  refine ⟨?_, List.all_eq_true.mpr fun c hc => Grammar.isWordChar_of_isDigit (hdigits c hc)⟩
  cases hcs : n.repr.toList with
  | nil => exact absurd hcs (Nat.toList_repr ▸ Nat.toDigits_ne_nil)
  | cons c rest =>
      rw [hcs] at hdigits hvalue hzero
      rw [List.forall_mem_cons] at hdigits
      have hcanonical : (c != '0' || rest.isEmpty) = true := by
        by_cases hc : c = '0'
        · rw [(List.cons.inj (hzero (congrArg some hc))).2]
          exact Bool.or_true _
        · rw [(bne_iff_ne.mpr hc : (c != '0') = true), Bool.true_or]
      rw [word, if_pos hdigits.1, List.all_eq_true.mpr hdigits.2, hcanonical, hvalue]
      rfl

/-! ### The indexes that handlers write -/

/-- The term of an index with its offset and sign. -/
def computedTerm (id : String) (shift : ℤ) (negate : Bool) : Term :=
  let moved : Term :=
    if shift > 0 then .plus (.name id) (.number shift.toNat)
    else if shift < 0 then .minus (.name id) (.number (-shift).toNat)
    else .name id
  if negate then .negative (.call (.name "int") moved) else .call (.name "int") moved

/-- The tokens of an index with its offset and sign. -/
def computedTokens (id : String) (shift : ℤ) (negate : Bool) : List Token :=
  let moved : List Token :=
    if shift > 0 then [.name id, .plus, .number shift.toNat]
    else if shift < 0 then [.name id, .minus, .number (-shift).toNat]
    else [.name id]
  (if negate then [.minus] else []) ++ [.name "int", .opening] ++ moved ++ [.closing]

/-- A sign, a call of `int` and the end of a call are cut off, and so is a numeral in front of it.
-/
lemma scan_sign (rest : List Char) :
    scan [] ("-".toList ++ rest) = (scan [] rest).map ([.minus] ++ ·) :=
  scan_mark rfl rfl rest

lemma scan_int (rest : List Char) :
    scan [] ("int(".toList ++ rest) = (scan [] rest).map ([.name "int", .opening] ++ ·) :=
  scan_run "int".toList rfl rfl (c := '(') rfl rfl rest

lemma scan_numeral (n : ℕ) (rest : List Char) :
    scan [] (n.repr.toList ++ (")".toList ++ rest)) =
      (scan [] rest).map ([.number n, .closing] ++ ·) :=
  scan_run _ (word_repr n).1 (word_repr n).2 (c := ')') rfl rfl rest

lemma toString_eq_repr {i : ℤ} (hi : 0 ≤ i) : toString i = i.toNat.repr := by
  obtain ⟨n, rfl⟩ := Int.eq_ofNat_of_zero_le hi
  rfl

section Computed

variable {id : String} (hid : isIdentifier id = true) (hor : id ≠ "or")

include hid hor

/-- A name is cut off in front of the end of a call, and in front of a sum or a difference. -/
lemma scan_name (rest : List Char) :
    scan [] (id.toList ++ (")".toList ++ rest)) =
      (scan [] rest).map ([.name id, .closing] ++ ·) := by
  obtain ⟨hname, hall⟩ := word_of_isIdentifier hid hor
  exact scan_run _ hname hall (c := ')') rfl rfl rest

lemma scan_name_spaced {c : Char} {t : Token} (hword : isWordChar c = false)
    (hc : mark c = some [t]) (rest : List Char) :
    scan [] (id.toList ++ ' ' :: (c :: (' ' :: rest))) =
      (scan [] rest).map ([.name id, t] ++ ·) := by
  obtain ⟨hname, hall⟩ := word_of_isIdentifier hid hor
  rw [scan_run _ hname hall (c := ' ') rfl rfl, scan_mark hword hc, scan_mark (c := ' ') rfl rfl,
    Option.map_map, Option.map_map]
  rfl

lemma scan_plus (rest : List Char) :
    scan [] (id.toList ++ (" + ".toList ++ rest)) = (scan [] rest).map ([.name id, .plus] ++ ·) :=
  scan_name_spaced hid hor (c := '+') rfl rfl rest

lemma scan_minus (rest : List Char) :
    scan [] (id.toList ++ (" - ".toList ++ rest)) = (scan [] rest).map ([.name id, .minus] ++ ·) :=
  scan_name_spaced hid hor (c := '-') rfl rfl rest

/-- Whatever stands behind it, a computed index is cut into its tokens. -/
lemma scan_computedIndex (shift : ℤ) (negate : Bool) (rest : List Char) :
    scan [] ((Handler.computedIndex id shift negate).toList ++ rest) =
      (scan [] rest).map (computedTokens id shift negate ++ ·) := by
  have hname := scan_name hid hor
  have hplus := scan_plus hid hor
  have hminus := scan_minus hid hor
  rw [Handler.computedIndex, computedTokens]
  rcases lt_trichotomy shift 0 with hneg | rfl | hpos
  · have htext : toString (-shift) = (-shift).toNat.repr := toString_eq_repr (by omega)
    simp only [gt_iff_lt, if_neg (not_lt.mpr hneg.le), if_pos hneg, htext]
    cases negate <;> simp only [if_true, Bool.false_eq_true, if_false, String.toList_append,
      List.append_assoc, scan_sign, scan_int, hminus, scan_numeral, Option.map_map,
      Function.comp_def, List.cons_append, List.nil_append]
  · simp only [gt_iff_lt, lt_irrefl, if_false]
    cases negate <;> simp only [if_true, Bool.false_eq_true, if_false, String.toList_append,
      List.append_assoc, scan_sign, scan_int, hname, Option.map_map, Function.comp_def,
      List.cons_append, List.nil_append]
  · simp only [gt_iff_lt, if_pos hpos, toString_eq_repr hpos.le]
    cases negate <;> simp only [if_true, Bool.false_eq_true, if_false, String.toList_append,
      List.append_assoc, scan_sign, scan_int, hplus, scan_numeral, Option.map_map,
      Function.comp_def, List.cons_append, List.nil_append]

end Computed

/-- The sign stands outside of the call. -/
lemma value_computedTerm (scope : Scope) (id : String) (shift : ℤ) (negate : Bool) :
    (computedTerm id shift negate).value scope =
      (scope.value id).map fun v => if negate then -(v + shift) else v + shift := by
  have hmoved : ∀ moved : Term, moved.value scope = (scope.value id).map (· + shift) →
      (if negate then Term.negative (.call (.name "int") moved)
        else .call (.name "int") moved).value scope =
        (scope.value id).map fun v => if negate then -(v + shift) else v + shift := by
    intro moved hvalue
    cases negate with
    | true =>
        rw [if_pos rfl, Term.value, Term.value, hvalue, Option.map_map]
        rfl
    | false =>
        rw [if_neg Bool.false_ne_true, Term.value, hvalue]
        rfl
  rw [computedTerm]
  refine hmoved _ ?_
  rcases lt_trichotomy shift 0 with hneg | rfl | hpos
  · have hcast : -((-shift).toNat : ℤ) = shift := by omega
    rw [if_neg (not_lt.mpr hneg.le), if_pos hneg, Term.value, Term.value, Term.value]
    cases scope.value id with
    | none => rfl
    | some v => exact congrArg some ((sub_eq_add_neg v _).trans (congrArg (v + ·) hcast))
  · rw [if_neg (lt_irrefl 0), if_neg (lt_irrefl 0), Term.value]
    cases scope.value id with
    | none => rfl
    | some v => exact congrArg some (add_zero v).symm
  · have hcast : (shift.toNat : ℤ) = shift := by omega
    rw [if_pos hpos, Term.value, Term.value, Term.value]
    cases scope.value id with
    | none => rfl
    | some v => exact congrArg some (congrArg (v + ·) hcast)

/-- The tokens of a computed index spell its term, alone and in front of an `or`. -/
lemma parseAll_computedTokens (id : String) (shift : ℤ) (negate : Bool) :
    parseAll (computedTokens id shift negate) = some (computedTerm id shift negate) ∧
    parseAll (computedTokens id shift negate ++ [.or, .name "sys", .point, .name "maxsize"]) =
      some (.either (computedTerm id shift negate) (.member (.name "sys") "maxsize")) := by
  rw [computedTokens, computedTerm]
  rcases lt_trichotomy shift 0 with hneg | rfl | hpos
  · simp only [gt_iff_lt, if_neg (not_lt.mpr hneg.le), if_pos hneg]
    cases negate <;> exact ⟨rfl, rfl⟩
  · cases negate <;> exact ⟨rfl, rfl⟩
  · simp only [gt_iff_lt, if_pos hpos]
    cases negate <;> exact ⟨rfl, rfl⟩

/-- **A computed index** has the value of the name, moved by the offset and with the sign. -/
lemma eval_computedIndex {id : String} (hid : isIdentifier id = true) (hor : id ≠ "or")
    (scope : Scope) (shift : ℤ) (negate : Bool) :
    scope.eval (Handler.computedIndex id shift negate) =
      (scope.value id).map fun v => if negate then -(v + shift) else v + shift := by
  have hscan := scan_computedIndex hid hor shift negate []
  have hnil : scan [] [] = some [] := rfl
  rw [List.append_nil, hnil, Option.map_some, List.append_nil] at hscan
  rw [Scope.eval, readTerm, hscan, Option.bind_some, (parseAll_computedTokens id shift negate).1]
  exact value_computedTerm scope id shift negate

/-- An end that is zero reaches as far as anything does. -/
lemma eval_orEverything {id : String} (hid : isIdentifier id = true) (hor : id ≠ "or")
    (scope : Scope) (shift : ℤ) (negate : Bool) :
    scope.eval (Handler.computedIndex id shift negate ++ " or sys.maxsize") =
      (scope.eval (Handler.computedIndex id shift negate)).bind fun v =>
        if v = 0 then scope.maxSize else some v := by
  have hscan := scan_computedIndex hid hor shift negate " or sys.maxsize".toList
  have hrest : scan [] " or sys.maxsize".toList =
      some [.or, .name "sys", .point, .name "maxsize"] := by decide
  rw [hrest, Option.map_some] at hscan
  rw [eval_computedIndex hid hor, ← value_computedTerm, Scope.eval, readTerm,
    String.toList_append, hscan, Option.bind_some, (parseAll_computedTokens id shift negate).2]
  show Term.value scope (.either _ _) = _
  rw [Term.value]
  cases (computedTerm id shift negate).value scope <;> rfl

/-- An integer in decimal has its own value. -/
lemma eval_toString (scope : Scope) (i : ℤ) : scope.eval (toString i) = some i := by
  cases i with
  | ofNat n =>
      have hscan : scan [] n.repr.toList = some [.number n] := by
        have h := scan_append [] (word_repr n).2 []
        rw [List.append_nil, List.nil_append] at h
        exact h.trans (word_repr n).1
      show scope.eval n.repr = _
      rw [Scope.eval, readTerm, hscan]
      rfl
  | negSucc n =>
      have hscan : scan [] ("-" ++ (n + 1).repr).toList = some [.minus, .number (n + 1)] := by
        have h := scan_append [] (word_repr (n + 1)).2 []
        rw [List.append_nil, List.nil_append] at h
        rw [String.toList_append, scan_sign, h.trans (word_repr (n + 1)).1]
        rfl
      show scope.eval ("-" ++ (n + 1).repr) = _
      rw [Scope.eval, readTerm, hscan]
      rfl

end Blockscribe.Access
