/-
The identifier for a name, by way of percent-encoding.

* `percentEncode`: letters, digits and a few marks are kept, and every other character is written as
  the bytes of its UTF-8 form.
* `spelled`, `identifierOf`: the identifier step by step. Spaces become underscores, the name is
  percent-encoded, all but word characters become underscores, and a word goes in front of a digit
  of any script, or stands for an empty name.
* `safeChar_eq`, `spelled_ne_nil`: what one character contributes to it, and that it is something.
* `isDigit_eq_of_isWordChar`: the only digits among word characters are those of ASCII.
* `safeChars_eq_identifierOf`: so the identifier is the one that is made character by character.
* `safeName_legal`: it is legal for every name, and legal identifiers are left as they are.
-/
import Mathlib.Data.List.Basic
import Blockscribe.Name.Safe
import Blockscribe.Text.Digit

namespace Blockscribe

namespace Name

variable {c : Char} {cs : List Char}

/-! ### Step by step -/

/-- A byte as a percent sign and two hexadecimal digits. -/
def percentByte (b : UInt8) : List Char :=
  ['%', hexDigit (b.toNat / 16), hexDigit (b.toNat % 16)]

/-- The characters that percent-encoding keeps: ASCII letters and digits, and four marks. -/
def isKept (c : Char) : Bool := c.isAlphanum || ['_', '.', '-', '~'].contains c

/-- A character in percent-encoding: itself, or the bytes of its UTF-8 form. -/
def percentChar (c : Char) : List Char :=
  if isKept c then [c] else (String.utf8EncodeChar c).flatMap percentByte

/-- A text in percent-encoding. -/
def percentEncode (cs : List Char) : List Char := cs.flatMap percentChar

/-- An underscore in place of a space. -/
def unspaced (c : Char) : Char := if c = ' ' then '_' else c

/-- An underscore in place of anything but a word character. -/
def worded (c : Char) : Char := if isWordChar c then c else '_'

/-- The word characters that spell a name. -/
def spelled (cs : List Char) : List Char := (percentEncode (cs.map unspaced)).map worded

/-- The identifier for a name, step by step. -/
def identifierOf (cs : List Char) : List Char :=
  if cs = [] then unnamed
  else if (spelled cs).head?.any Text.isDigit then digitLead ++ spelled cs
  else spelled cs

/-! ### Character by character -/

lemma worded_of_isWordChar (h : isWordChar c = true) : worded c = c := if_pos h

lemma worded_percentByte (b : UInt8) : (percentByte b).map worded = byteChars b := by
  have hb : b.toNat < 256 := b.toNat_lt
  have hhigh : isWordChar (hexDigit (b.toNat / 16)) = true := isWordChar_hexDigit (by omega)
  have hlow : isWordChar (hexDigit (b.toNat % 16)) = true := isWordChar_hexDigit (by omega)
  rw [percentByte, byteChars, List.map_cons, List.map_cons, List.map_cons, List.map_nil,
    worded_of_isWordChar hhigh, worded_of_isWordChar hlow]
  rfl

/-- What a character contributes to the identifier is what percent-encoding makes of it. -/
lemma safeChar_eq (c : Char) : safeChar c = (percentChar (unspaced c)).map worded := by
  by_cases hword : isWordChar c = true
  · -- a word character is kept
    have hspace : c ≠ ' ' := by
      rintro rfl
      exact absurd hword (by decide)
    have hkept : isKept c = true := by
      rw [isWordChar, Bool.or_eq_true, beq_iff_eq] at hword
      rcases hword with hletter | rfl
      · rw [isKept, hletter, Bool.true_or]
      · decide
    rw [safeChar, if_pos hword, unspaced, if_neg hspace, percentChar, if_pos hkept,
      List.map_singleton, worded_of_isWordChar hword]
  rw [safeChar, if_neg hword]
  by_cases hmark : c = ' ' ∨ c = '.' ∨ c = '-' ∨ c = '~'
  · -- a space or a mark gives an underscore
    rw [if_pos hmark]
    rcases hmark with rfl | rfl | rfl | rfl <;> decide
  · -- any other character is written by its bytes
    have hspace : c ≠ ' ' := fun h => hmark (.inl h)
    have hcoded : ¬ isKept c = true := by
      simp only [isWordChar, Bool.or_eq_true, beq_iff_eq, not_or] at hword hmark
      simp [isKept, hword, hmark]
    rw [if_neg hmark, unspaced, if_neg hspace, percentChar, if_neg hcoded, List.map_flatMap]
    simp only [worded_percentByte]

lemma flatMap_safeChar_eq (cs : List Char) : cs.flatMap safeChar = spelled cs := by
  rw [spelled, percentEncode, List.flatMap_map, List.map_flatMap]
  exact congrArg (cs.flatMap ·) (funext safeChar_eq)

/-- Every character contributes something. -/
lemma safeChar_ne_nil (c : Char) : safeChar c ≠ [] := by
  rw [safeChar]
  split
  · exact List.cons_ne_nil _ _
  · split
    · exact List.cons_ne_nil _ _
    · obtain ⟨b, more, hbytes⟩ := List.exists_cons_of_ne_nil (@String.utf8EncodeChar_ne_nil c)
      rw [hbytes]
      exact List.cons_ne_nil _ _

lemma spelled_ne_nil (h : cs ≠ []) : spelled cs ≠ [] := by
  obtain ⟨c, rest, rfl⟩ := List.exists_cons_of_ne_nil h
  rw [← flatMap_safeChar_eq, List.flatMap_cons]
  exact List.append_ne_nil_of_left_ne_nil (safeChar_ne_nil c) _

/-! ### Digits -/

/-- Among word characters the digits of all scripts are those of ASCII. -/
lemma isDigit_eq_of_isWordChar (h : isWordChar c = true) : Text.isDigit c = c.isDigit := by
  have hascii : c.toNat < 128 := toNat_lt_of_isWordChar h
  have hsigns : Text.digitSigns.mem c.toNat = false := by
    have hlarge : ∀ r ∈ Text.digitSigns, 128 ≤ r.1 := by decide
    rw [Bool.eq_false_iff]
    intro hmem
    obtain ⟨r, hr, hle, -⟩ := Text.Ranges.mem_iff.mp hmem
    exact absurd (hlarge r hr) (by omega)
  rw [Text.isDigit, hsigns, Bool.or_false, Text.isDecimal, Text.decimalValue?, if_pos hascii]
  cases c.isDigit <;> rfl

/-- The identifier that is made character by character is the one that is made step by step. -/
lemma safeChars_eq_identifierOf (cs : List Char) : safeChars cs = identifierOf cs := by
  rw [safeChars, flatMap_safeChar_eq, identifierOf]
  by_cases hnil : cs = []
  · subst hnil
    rfl
  · obtain ⟨c, rest, hspelled⟩ := List.exists_cons_of_ne_nil (spelled_ne_nil hnil)
    have hmem : c ∈ cs.flatMap safeChar := by
      rw [flatMap_safeChar_eq, hspelled]
      exact List.mem_cons_self
    obtain ⟨d, -, hd⟩ := List.mem_flatMap.mp hmem
    have hdigit := isDigit_eq_of_isWordChar (isWordChar_of_mem_safeChar hd)
    rw [if_neg hnil, hspelled, List.head?_cons, Option.any_some, hdigit]

end Name

/-- **Every name has a legal identifier, and a legal identifier is its own.** The identifier for a
name is made from its percent-encoding; for every name it is a nonempty word of ASCII letters,
digits and underscores that starts with no digit. The names that are their own identifiers are
exactly these words, so making an identifier twice is making it once. -/
theorem safeName_legal (name : String) :
    (safeName name).toList = Name.identifierOf name.toList ∧
    isIdentifier (safeName name) = true ∧
    (safeName name = name ↔ isIdentifier name = true) ∧
    safeName (safeName name) = safeName name := by
  have hlegal := isIdentifier_safeName name
  refine ⟨?_, hlegal, ⟨fun hsame => ?_, safeName_of_isIdentifier⟩, safeName_of_isIdentifier hlegal⟩
  · rw [safeName, String.toList_ofList, Name.safeChars_eq_identifierOf]
  · rwa [hsame] at hlegal

/-- A superscript digit is written by its bytes, so that an underscore comes first; a percent sign
is written by its byte as well, but a tilde is not. -/
example : safeName "² %~" = "_C2_B2__25_" ∧ safeName "2²" = "my_2_C2_B2" := by decide

end Blockscribe
