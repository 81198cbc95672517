/-
Numbers spelled by digits.

* `Number.readDouble?_of_isDigit`: what has a digit behind its sign is read as a decimal.
* `Number.Spells`: digits with a minus sign in front and a point among them, where there are any.
* `Spells.readDouble?_eq`: such a text is read as the decimal that it spells.
* `isNumeral_of_digits`, `isNumeral_toString`: digits are a plain numeral, and so is every integer
  in decimal.
-/
import Mathlib.Tactic.Ring
import Blockscribe.Proofs.Number.Numeral

namespace Blockscribe.Number

open Double (digitsOf)
open Text

/-- The characters are digits, with a minus sign in front if the number is negative, and with a
point behind the digits of the whole part unless there are no others. -/
structure Spells (cs : List Char) (negative : Bool) (ds fs : List Char) : Prop where
  nonempty : ds ≠ []
  whole : ∀ c ∈ ds, c.isDigit = true
  fraction : ∀ c ∈ fs, c.isDigit = true
  shape : ∃ tail, (tail = '.' :: fs ∨ tail = [] ∧ fs = []) ∧
    cs = (if negative then ['-'] else []) ++ (ds ++ tail)

variable {n : ℕ} {cs ds fs : List Char} {negative : Bool}

/-! ### Digits -/

lemma natOf_digitsOf (n : ℕ) : natOf (digitsOf n) = n := Nat.ofDigitChars_ten_toDigits

/-- What holds of the ten ASCII digits holds of every character that is one. -/
lemma forall_isDigit {P : Char → Prop} (h : ∀ k : Fin 10, P (Char.ofNat (48 + k))) {c : Char}
    (hc : c.isDigit = true) : P c := by
  have hrange : 48 ≤ c.toNat ∧ c.toNat ≤ 57 := by
    rw [Char.isDigit, Bool.and_eq_true, decide_eq_true_eq, decide_eq_true_eq] at hc
    exact hc
  have hk := h ⟨c.toNat - 48, by omega⟩
  have hnat : 48 + (c.toNat - 48) = c.toNat := by omega
  rw [hnat, Char.ofNat_toNat] at hk
  exact hk

/-- ASCII digits are digits in every sense, and nothing else. -/
lemma plain_of_isDigit {c : Char} (hc : c.isDigit = true) :
    plainChar c = c ∧ isBlank c = false ∧ isAsciiBlank c = false ∧ isDecimal c = true ∧ c ≠ '_' ∧
      c ≠ '-' ∧ c ≠ '+' ∧ c.toLower.isDigit = true ∧ c.toNat - '0'.toNat < 10 :=
  forall_isDigit (P := fun c => plainChar c = c ∧ isBlank c = false ∧ isAsciiBlank c = false ∧
    isDecimal c = true ∧ c ≠ '_' ∧ c ≠ '-' ∧ c ≠ '+' ∧ c.toLower.isDigit = true ∧
    c.toNat - '0'.toNat < 10) (by decide) hc

/-- So many digits spell a number below that power of ten. -/
lemma natOf_lt (hds : ∀ c ∈ ds, c.isDigit = true) : natOf ds < 10 ^ ds.length := by
  have hfold : ∀ (ds : List Char) (n : ℕ), (∀ c ∈ ds, c.isDigit = true) →
      ds.foldl (fun n c => 10 * n + (c.toNat - '0'.toNat)) n < (n + 1) * 10 ^ ds.length := by
    intro ds
    induction ds with
    | nil => intro n _; simp
    | cons c rest ih =>
        intro n hds
        rw [List.forall_mem_cons] at hds
        have hdigit := (plain_of_isDigit hds.1).2.2.2.2.2.2.2.2
        rw [List.foldl_cons, List.length_cons]
        calc _ < (10 * n + (c.toNat - '0'.toNat) + 1) * 10 ^ rest.length := ih _ hds.2
          _ ≤ (n + 1) * 10 * 10 ^ rest.length := Nat.mul_le_mul_right _ (by omega)
          _ = (n + 1) * 10 ^ (rest.length + 1) := by ring
  have h := hfold ds 0 hds
  rwa [Nat.zero_add, Nat.one_mul] at h

/-! ### Reading digits -/

/-- A character that stays is not dropped at either end. -/
lemma dropWhile_both {p : Char → Bool} {cs : List Char} (h : ∀ c ∈ cs, p c = false) :
    cs.dropWhile p = cs ∧ ((cs.dropWhile p).reverse.dropWhile p).reverse = cs := by
  have hfront : ∀ l : List Char, (∀ c ∈ l, p c = false) → l.dropWhile p = l := by
    intro l hl
    cases l with
    | nil => rfl
    | cons c rest => exact List.dropWhile_cons_of_neg (by simp [hl c List.mem_cons_self])
  refine ⟨hfront cs h, ?_⟩
  rw [hfront cs h, hfront cs.reverse fun c hc => h c (List.mem_reverse.mp hc), List.reverse_reverse]

/-- Without underscores there is nothing to take out. -/
lemma joinDigits_of_not_mem (h : ∀ c ∈ cs, c ≠ '_') (afterDigit : Bool) :
    joinDigits afterDigit cs = some cs := by
  induction cs generalizing afterDigit with
  | nil => rfl
  | cons c rest ih =>
      rw [List.forall_mem_cons] at h
      rw [joinDigits.eq_def]
      simp only [if_neg h.1, ih h.2, Option.map_some]

/-- **What has a digit behind its sign is read as a decimal**, if none of its characters is a blank,
an underscore or of another script. -/
lemma readDouble?_of_isDigit (negative : Bool) {c : Char} {rest : List Char} (hc : c.isDigit = true)
    (hrest : ∀ x ∈ rest, plainChar x = x ∧ isAsciiBlank x = false ∧ x ≠ '_') :
    readDouble? (String.ofList ((if negative then ['-'] else []) ++ c :: rest)) =
      (readDecimal? (c :: rest)).map (Double.ofDecimal negative) := by
  have hdigit := plain_of_isDigit hc
  have hall : ∀ x ∈ (if negative then ['-'] else []) ++ c :: rest,
      plainChar x = x ∧ isAsciiBlank x = false ∧ x ≠ '_' := by
    refine List.forall_mem_append.mpr ⟨?_, List.forall_mem_cons.mpr
      ⟨⟨hdigit.1, hdigit.2.2.1, hdigit.2.2.2.2.1⟩, hrest⟩⟩
    split
    · exact List.forall_mem_singleton.mpr (by decide)
    · exact List.forall_mem_nil _
  have hsign : splitSign ((if negative then ['-'] else []) ++ c :: rest) = (negative, c :: rest) := by
    cases negative with
    | true => rfl
    | false =>
        rw [if_neg Bool.false_ne_true, List.nil_append, splitSign.eq_def]
        split
        · rename_i heq
          exact absurd (List.cons.inj heq).1 hdigit.2.2.2.2.2.1
        · rename_i heq
          exact absurd (List.cons.inj heq).1 hdigit.2.2.2.2.2.2.1
        · rfl
  -- a word that stands for a number has a letter in front
  have hword : ∀ word : String, word.toList.head?.any Char.isDigit = false →
      String.ofList ((c :: rest).map Char.toLower) ≠ word := by
    rintro _ hletter rfl
    rw [String.toList_ofList, List.map_cons, List.head?_cons] at hletter
    exact Bool.noConfusion (hletter.symm.trans hdigit.2.2.2.2.2.2.2.1)
  have hmap : ((if negative then ['-'] else []) ++ c :: rest).map plainChar =
      (if negative then ['-'] else []) ++ c :: rest :=
    (List.map_congr_left fun x hx => (hall x hx).1).trans (List.map_id _)
  have htrim := (dropWhile_both fun x hx => (hall x hx).2.1).2
  have hjoin := joinDigits_of_not_mem (fun x hx => (hall x hx).2.2) false
  rw [readDouble?, String.toList_ofList, hmap, trimAscii, htrim, hjoin, Option.bind_some, hsign]
  simp only [readUnsigned?, hword "inf" rfl, hword "infinity" rfl, hword "nan" rfl, or_self,
    if_false]

namespace Spells

variable (h : Spells cs negative ds fs)

include h

/-- There are digits, a sign and a point only. -/
lemma forall_mem {P : Char → Prop} (hdigit : ∀ c, c.isDigit = true → P c) (hsign : P '-')
    (hpoint : P '.') : ∀ c ∈ cs, P c := by
  obtain ⟨tail, htail, rfl⟩ := h.shape
  refine List.forall_mem_append.mpr ⟨?_, List.forall_mem_append.mpr ⟨?_, ?_⟩⟩
  · split
    · exact List.forall_mem_singleton.mpr hsign
    · exact List.forall_mem_nil _
  · exact fun c hc => hdigit c (h.whole c hc)
  · rcases htail with rfl | ⟨rfl, -⟩
    · exact List.forall_mem_cons.mpr ⟨hpoint, fun c hc => hdigit c (h.fraction c hc)⟩
    · exact List.forall_mem_nil _

/-- The digits are taken off, those in front of the point and those behind it. -/
lemma readDecimal?_eq {tail : List Char} (htail : tail = '.' :: fs ∨ tail = [] ∧ fs = []) :
    readDecimal? (ds ++ tail) = some ⟨natOf (ds ++ fs), -(fs.length : Int)⟩ := by
  have hne : ds.isEmpty = false := List.isEmpty_eq_false_iff.mpr h.nonempty
  rcases htail with rfl | ⟨rfl, rfl⟩
  · have hpoint : ∀ c ∈ ('.' :: fs).head?, c.isDigit = false := by
      intro c hc
      obtain rfl := Option.mem_some_iff.mp hc
      rfl
    obtain ⟨htake, hdrop⟩ := Grammar.span_digits h.whole hpoint
    have hnil : ∀ c ∈ ([] : List Char).head?, c.isDigit = false := nofun
    obtain ⟨htake', hdrop'⟩ := Grammar.span_digits h.fraction hnil
    rw [List.append_nil] at htake' hdrop'
    simp only [readDecimal?, htake, hdrop, htake', hdrop', hne, Bool.false_and, readExponent?,
      Option.map_some, Int.zero_sub]
    rfl
  · have hnil : ∀ c ∈ ([] : List Char).head?, c.isDigit = false := nofun
    obtain ⟨htake, hdrop⟩ := Grammar.span_digits h.whole hnil
    rw [List.append_nil] at htake hdrop
    simp only [readDecimal?, List.append_nil, htake, hdrop, hne, Bool.false_and, readExponent?,
      Option.map_some]
    rfl

/-- **Digits are read as the decimal that they spell.** -/
lemma readDouble?_eq : readDouble? (String.ofList cs) =
    some (Double.ofDecimal negative ⟨natOf (ds ++ fs), -(fs.length : Int)⟩) := by
  obtain ⟨tail, htail, rfl⟩ := h.shape
  have hdecimal := h.readDecimal?_eq htail
  have hplain := h.forall_mem
    (P := fun c => plainChar c = c ∧ isAsciiBlank c = false ∧ c ≠ '_')
    (fun c hc => ⟨(plain_of_isDigit hc).1, (plain_of_isDigit hc).2.2.1,
      (plain_of_isDigit hc).2.2.2.2.1⟩) (by decide) (by decide)
  obtain ⟨c, more, hds⟩ := List.exists_cons_of_ne_nil h.nonempty
  have hc : c.isDigit = true := h.whole c (hds ▸ List.mem_cons_self)
  rw [hds, List.cons_append] at hdecimal hplain ⊢
  rw [readDouble?_of_isDigit negative hc fun x hx =>
    hplain x (List.mem_append_right _ (List.mem_cons_of_mem c hx)), hdecimal, Option.map_some]

end Spells

/-! ### Plain numerals -/

/-- Digits spell a number. -/
lemma spells_digits (negative : Bool) (hne : ds ≠ []) (hds : ∀ c ∈ ds, c.isDigit = true) :
    Spells ((if negative then ['-'] else []) ++ ds) negative ds [] :=
  ⟨hne, hds, List.forall_mem_nil _, [], .inr ⟨rfl, rfl⟩, by rw [List.append_nil]⟩

/-- Digits are a plain numeral, and so are digits behind a minus sign. -/
lemma isNumeral_of_digits (hds : ∀ c ∈ ds, c.isDigit = true) (hne : ds ≠ []) :
    isNumeral (String.ofList ds) = true ∧ isNumeral (String.ofList ('-' :: ds)) = true := by
  have hblank : ∀ c ∈ ds, isBlank c = false := fun c hc => (plain_of_isDigit (hds c hc)).2.1
  have htrim : trim ds = ds := (dropWhile_both hblank).2
  have htrim' : trim ('-' :: ds) = '-' :: ds :=
    (dropWhile_both (List.forall_mem_cons.mpr ⟨by decide, hblank⟩)).2
  have hminus : ds.head? ≠ some '-' := by
    intro hhead
    obtain ⟨rest, rfl⟩ := List.head?_eq_some_iff.mp hhead
    exact absurd (hds '-' List.mem_cons_self) (by decide)
  have hdecimal : ∀ c ∈ ds, isDecimal c = true := fun c hc => (plain_of_isDigit (hds c hc)).2.2.2.1
  have htake : ds.takeWhile isDecimal = ds := List.takeWhile_eq_self_iff.mpr hdecimal
  have hdrop : ds.dropWhile isDecimal = [] := List.dropWhile_eq_nil_iff.mpr hdecimal
  refine ⟨?_, ?_⟩
  · rw [isNumeral, String.toList_ofList, htrim]
    simp only [if_neg hminus, htake, hdrop, List.isEmpty_eq_false_iff.mpr hne, Bool.not_false]
  · rw [isNumeral, String.toList_ofList, htrim']
    simp only [List.head?_cons, if_true, List.tail_cons, htake, hdrop,
      List.isEmpty_eq_false_iff.mpr hne, Bool.not_false]

lemma repr_eq (n : ℕ) : n.repr = String.ofList (digitsOf n) :=
  String.toList_inj.mp (Nat.toList_repr.trans String.toList_ofList.symm)

/-- An integer in decimal: a minus sign if it is negative, and the digits of its absolute value. -/
lemma toString_eq (i : ℤ) : toString i =
    String.ofList ((if decide (i < 0) = true then ['-'] else []) ++ digitsOf i.natAbs) := by
  cases i with
  | ofNat n => exact repr_eq n
  | negSucc n =>
      rw [show toString (Int.negSucc n) = "-" ++ (n + 1).repr from rfl, repr_eq]
      refine String.toList_inj.mp ?_
      simp only [String.toList_append, String.toList_ofList, Int.negSucc_lt_zero, decide_true,
        if_true, Int.natAbs_negSucc]
      rfl

/-- An integer in decimal spells itself. -/
lemma spells_toString (i : ℤ) :
    Spells (toString i).toList (decide (i < 0)) (digitsOf i.natAbs) [] := by
  rw [toString_eq, String.toList_ofList]
  exact spells_digits _ (Double.digitsOf_ne_nil _) fun _ => isDigit_of_mem_digitsOf

/-- The decimal digits of a natural are a plain numeral. -/
lemma isNumeral_repr (n : ℕ) : isNumeral n.repr = true := by
  rw [repr_eq]
  exact (isNumeral_of_digits (fun _ => isDigit_of_mem_digitsOf) (Double.digitsOf_ne_nil n)).1

/-- So is every integer in decimal. -/
lemma isNumeral_toString (i : ℤ) : isNumeral (toString i) = true := by
  have hdigits := isNumeral_of_digits (fun _ => isDigit_of_mem_digitsOf)
    (Double.digitsOf_ne_nil i.natAbs)
  rw [toString_eq]
  split
  · exact hdigits.2
  · exact hdigits.1

end Blockscribe.Number
