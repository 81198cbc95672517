/-
Identifiers made from arbitrary names.

* `safeChar`: what one character contributes. ASCII letters, digits and the underscore stand for
  themselves, a few marks become an underscore, and every other character is spelled by the bytes
  of its UTF-8 form, each as an underscore and two hexadecimal digits.
* `safeName`: the identifier for a name. An empty name and a leading digit get a word in front.
* `isIdentifier`: nonempty words of ASCII letters, digits and underscores that start with no digit.
* `isIdentifier_safeName`, `safeName_of_isIdentifier`: the result is such a word, and such a word
  is left alone.
-/
namespace Blockscribe

namespace Name

/-- An ASCII letter, digit or underscore. -/
def isWordChar (c : Char) : Bool := c.isAlphanum || c == '_'

/-- Words of ASCII letters, digits and underscores that start with no digit. -/
def isIdentifierChars : List Char → Bool
  | [] => false
  | c :: rest => !c.isDigit && isWordChar c && rest.all isWordChar

/-- An upper-case hexadecimal digit. -/
def hexDigit (n : Nat) : Char := (Nat.digitChar n).toUpper

/-- A byte as an underscore and two hexadecimal digits. -/
def byteChars (b : UInt8) : List Char :=
  ['_', hexDigit (b.toNat / 16), hexDigit (b.toNat % 16)]

/-- What one character contributes to an identifier. -/
def safeChar (c : Char) : List Char :=
  if isWordChar c then [c]
  else if c = ' ' ∨ c = '.' ∨ c = '-' ∨ c = '~' then ['_']
  else (String.utf8EncodeChar c).flatMap byteChars

/-- The word for an empty name. -/
def unnamed : List Char := "unnamed".toList

/-- The word in front of a leading digit. -/
def digitLead : List Char := "my_".toList

/-- The identifier for a name, on characters. -/
def safeChars (cs : List Char) : List Char :=
  match cs.flatMap safeChar with
  | [] => unnamed
  | c :: rest => if c.isDigit then digitLead ++ c :: rest else c :: rest

/-- Word characters are ASCII characters. -/
theorem toNat_lt_of_isWordChar {c : Char} (h : isWordChar c = true) : c.toNat < 128 := by
  have hword : (((decide (65 ≤ c.toNat ∧ c.toNat ≤ 90) ||
      decide (97 ≤ c.toNat) && decide (c.toNat ≤ 122)) ||
      decide (48 ≤ c.toNat) && decide (c.toNat ≤ 57)) || c == '_') = true := h
  simp only [Bool.or_eq_true, Bool.and_eq_true, decide_eq_true_eq, beq_iff_eq] at hword
  rcases hword with hletter | rfl
  · omega
  · decide

/-- Hexadecimal digits are letters and digits. -/
theorem isWordChar_hexDigit {n : Nat} (h : n < 16) : isWordChar (hexDigit n) = true := by
  have : ∀ k : Fin 16, isWordChar (hexDigit k.val) = true := by decide
  exact this ⟨n, h⟩

/-- Every character contributes word characters only. -/
theorem isWordChar_of_mem_safeChar {c d : Char} (h : d ∈ safeChar c) : isWordChar d = true := by
  unfold safeChar at h
  split at h
  · rename_i hc
    simp only [List.mem_singleton] at h
    exact h ▸ hc
  · split at h
    · simp only [List.mem_singleton] at h
      subst h
      decide
    · obtain ⟨b, -, hd⟩ := List.mem_flatMap.1 h
      have hb : b.toNat < 256 := b.toNat_lt
      simp only [byteChars, List.mem_cons, List.not_mem_nil, or_false] at hd
      rcases hd with rfl | rfl | rfl
      · decide
      · exact isWordChar_hexDigit (by omega)
      · exact isWordChar_hexDigit (by omega)

/-- The identifier for a name is an identifier. -/
theorem isIdentifierChars_safeChars (cs : List Char) : isIdentifierChars (safeChars cs) = true := by
  have hall : ∀ d ∈ cs.flatMap safeChar, isWordChar d = true := by
    intro d hd
    obtain ⟨c, -, hc⟩ := List.mem_flatMap.1 hd
    exact isWordChar_of_mem_safeChar hc
  unfold safeChars
  split
  · decide
  · rename_i c rest h
    rw [h] at hall
    split
    · rename_i hc
      -- the lead is a word of its own, and what follows it are word characters
      have hrest : (c :: rest).all isWordChar = true := List.all_eq_true.2 hall
      show (!('m').isDigit && isWordChar 'm' && (['y', '_'] ++ c :: rest).all isWordChar) = true
      rw [List.all_append, hrest]
      decide
    · rename_i hc
      simp only [Bool.not_eq_true] at hc
      simp only [isIdentifierChars, hc, Bool.not_false, Bool.true_and, Bool.and_eq_true]
      exact ⟨hall c (by simp), List.all_eq_true.2 fun d hd => hall d (by simp [hd])⟩

/-- Word characters contribute themselves. -/
theorem flatMap_safeChar {cs : List Char} (h : cs.all isWordChar = true) :
    cs.flatMap safeChar = cs := by
  induction cs with
  | nil => rfl
  | cons c rest ih =>
    simp only [List.all_cons, Bool.and_eq_true] at h
    simp [List.flatMap_cons, safeChar, h.1, ih h.2]

/-- An identifier is left alone. -/
theorem safeChars_of_isIdentifierChars {cs : List Char} (h : isIdentifierChars cs = true) :
    safeChars cs = cs := by
  cases cs with
  | nil => simp [isIdentifierChars] at h
  | cons c rest =>
    simp only [isIdentifierChars, Bool.and_eq_true, Bool.not_eq_true'] at h
    have hall : (c :: rest).all isWordChar = true := by
      simp only [List.all_cons, h.1.2, h.2, Bool.and_self]
    unfold safeChars
    rw [flatMap_safeChar hall]
    simp [h.1.1]

end Name

/-- The identifier for a name. -/
def safeName (name : String) : String := String.ofList (Name.safeChars name.toList)

/-- Whether a text is a nonempty word of ASCII letters, digits and underscores that starts with no
digit. -/
def isIdentifier (text : String) : Bool := Name.isIdentifierChars text.toList

/-- An identifier is a word character other than a digit and further word characters. -/
theorem exists_of_isIdentifier {text : String} (h : isIdentifier text = true) :
    ∃ c rest, text.toList = c :: rest ∧ c.isDigit = false ∧ Name.isWordChar c = true ∧
      rest.all Name.isWordChar = true := by
  unfold isIdentifier at h
  cases hchars : text.toList with
  | nil => simp [hchars, Name.isIdentifierChars] at h
  | cons c rest =>
    rw [hchars, Name.isIdentifierChars, Bool.and_eq_true, Bool.and_eq_true, Bool.not_eq_true'] at h
    exact ⟨c, rest, rfl, h.1.1, h.1.2, h.2⟩

/-- An identifier is not empty. -/
theorem ne_empty_of_isIdentifier {text : String} (h : isIdentifier text = true) : text ≠ "" := by
  rintro rfl
  exact absurd h (by decide)

/-- The identifier for a name is an identifier. -/
theorem isIdentifier_safeName (name : String) : isIdentifier (safeName name) = true := by
  simp [isIdentifier, safeName, Name.isIdentifierChars_safeChars]

/-- An identifier is left alone. -/
theorem safeName_of_isIdentifier {name : String} (h : isIdentifier name = true) :
    safeName name = name := by
  unfold safeName
  rw [Name.safeChars_of_isIdentifierChars h, String.ofList_toList]

end Blockscribe
