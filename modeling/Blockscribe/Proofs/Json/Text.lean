/-
Texts in JSON.

* `Text.Shown.hex_succ`: hexadecimal digits from the last one on; `unitValue?_hex` reads four of
  them back.
* `Json.utf16`: the code units of a character, one or a pair of surrogates. `readUnits?_escapeChar`
  says that these are what is read where the character has been written, and `joinPairs_utf16` that
  they are put together again.
* `readText?_escape`: every text is read back as it is, up to its closing quote.
-/
import Mathlib.Data.Nat.Notation
import Mathlib.Tactic.Lemma
import Blockscribe.Json.Reader
import Blockscribe.Json.Writer

namespace Blockscribe

/-! ### Hexadecimal digits -/

namespace Text.Shown

/-- The last digit is written behind those of the rest of the number. -/
lemma hex_succ {width : ℕ} (hwidth : 0 < width) (n : ℕ) :
    hex (width + 1) n = hex width (n / 16) ++ [Nat.digitChar (n % 16)] := by
  by_cases hn : n < 16
  · have hzero : Nat.toDigits 16 0 = ['0'] := rfl
    rw [hex, hex, Nat.toDigits_of_lt_base hn, Nat.div_eq_of_lt hn, Nat.mod_eq_of_lt hn, hzero]
    simp only [List.length_singleton, Nat.add_sub_cancel]
    rw [← List.replicate_succ', Nat.sub_add_cancel hwidth]
  · rw [hex, hex, Nat.toDigits_of_base_le (by decide) (by omega)]
    simp only [List.length_append, List.length_singleton, Nat.add_sub_add_right, List.append_assoc]

end Text.Shown

namespace Json

open Text.Shown (hex hex_succ)

variable {n : ℕ} {c : Char} {cs rest : List Char}

lemma hexValue?_digitChar {d : ℕ} (h : d < 16) : hexValue? (Nat.digitChar d) = some d := by
  have hall : ∀ d < 16, hexValue? (Nat.digitChar d) = some d := by decide
  exact hall d h

/-- Four digits are read back as the number. -/
lemma unitValue?_hex (h : n < 0x10000) :
    ∃ h₁ h₂ h₃ h₄, hex 4 n = [h₁, h₂, h₃, h₄] ∧ unitValue? h₁ h₂ h₃ h₄ = some n := by
  have hone : hex 1 (n / 16 / 16 / 16) = [Nat.digitChar (n / 16 / 16 / 16)] := by
    rw [hex, Nat.toDigits_of_lt_base (by omega)]
    rfl
  have hdigits : hex 4 n = [Nat.digitChar (n / 16 / 16 / 16), Nat.digitChar (n / 16 / 16 % 16),
      Nat.digitChar (n / 16 % 16), Nat.digitChar (n % 16)] := by
    rw [hex_succ (by decide), hex_succ (by decide), hex_succ (by decide), hone]
    rfl
  refine ⟨_, _, _, _, hdigits, ?_⟩
  rw [unitValue?, hexValue?_digitChar (by omega), hexValue?_digitChar (by omega),
    hexValue?_digitChar (by omega), hexValue?_digitChar (by omega)]
  simp only [Option.bind_eq_bind, Option.bind_some, Option.pure_def, Option.some.injEq]
  omega

/-! ### Code units -/

/-- The code units of a character: its code point, or a pair of surrogates for it. -/
def utf16 (c : Char) : List ℕ :=
  if c.toNat < 0x10000 then [c.toNat]
  else [0xd800 + (c.toNat - 0x10000) / 0x400, 0xdc00 + (c.toNat - 0x10000) % 0x400]

/-- The closing quote ends a text. -/
lemma readUnits?_quote (rest : List Char) : readUnits? ('\x22' :: rest) = some ([], rest) := by
  rw [readUnits?.eq_def]
  exact if_pos rfl

/-- A character that is not escaped stands for itself. -/
lemma readUnits?_plain (hquote : c ≠ '\x22') (hbackslash : c ≠ '\\') (h : 0x20 ≤ c.toNat)
    (rest : List Char) :
    readUnits? (c :: rest) =
      (readUnits? rest).map fun (units, left) => (c.toNat :: units, left) := by
  rw [readUnits?.eq_def]
  exact (if_neg hquote).trans ((if_neg hbackslash).trans (if_neg (by omega)))

lemma readUnits?_unitEscape (h : n < 0x10000) (rest : List Char) :
    readUnits? (unitEscape n ++ rest) =
      (readUnits? rest).map fun (units, left) => (n :: units, left) := by
  obtain ⟨h₁, h₂, h₃, h₄, hdigits, hvalue⟩ := unitValue?_hex h
  rw [unitEscape, hdigits]
  show readUnits? ('\\' :: 'u' :: h₁ :: h₂ :: h₃ :: h₄ :: rest) = _
  rw [readUnits?, if_neg (by decide), if_pos rfl, hvalue]

/-- A letter behind a backslash is read as the character that it has been written for. -/
lemma readUnits?_shortEscape {letter : Char} (h : (c, letter) ∈ shortEscapes) (rest : List Char) :
    readUnits? ('\\' :: letter :: rest) =
      (readUnits? rest).map fun (units, left) => (c.toNat :: units, left) := by
  simp only [shortEscapes, List.mem_cons, Prod.mk.injEq, List.not_mem_nil, or_false] at h
  rcases h with ⟨rfl, rfl⟩ | ⟨rfl, rfl⟩ | ⟨rfl, rfl⟩ | ⟨rfl, rfl⟩ | ⟨rfl, rfl⟩ | ⟨rfl, rfl⟩ |
    ⟨rfl, rfl⟩ <;> rfl

lemma utf16_of_lt (h : c.toNat < 0x10000) : utf16 c = [c.toNat] := if_pos h

lemma isValidChar_toNat (c : Char) : c.toNat.isValidChar := c.valid

/-- What is read where a character has been written are its code units. -/
lemma readUnits?_escapeChar (c : Char) (rest : List Char) :
    readUnits? (escapeChar c ++ rest) =
      (readUnits? rest).map fun (units, left) => (utf16 c ++ units, left) := by
  rw [escapeChar]
  split
  · rename_i letter hletter
    have hshort : ∀ e ∈ shortEscapes, e.1.toNat < 0x10000 := by decide
    have hmem : (c, letter) ∈ shortEscapes := by
      obtain ⟨before, after, hsplit, -⟩ := List.lookup_eq_some_iff.mp hletter
      rw [hsplit]
      exact List.mem_append_right _ List.mem_cons_self
    rw [utf16_of_lt (hshort _ hmem)]
    exact readUnits?_shortEscape hmem rest
  · rename_i hnone
    simp only []
    split
    · -- printable characters of ASCII stand for themselves
      rename_i hplain
      have hquote : c ≠ '\x22' := by
        rintro rfl
        exact absurd hnone (by decide)
      have hbackslash : c ≠ '\\' := by
        rintro rfl
        exact absurd hnone (by decide)
      rw [utf16_of_lt (by omega), List.singleton_append,
        readUnits?_plain hquote hbackslash hplain.1]
      rfl
    split
    · rename_i hsmall
      rw [utf16_of_lt hsmall]
      exact readUnits?_unitEscape hsmall rest
    · -- a pair of surrogates
      rename_i hlarge
      have hvalid : c.toNat < 0x110000 := by
        have := isValidChar_toNat c
        rw [Nat.isValidChar] at this
        omega
      rw [utf16, if_neg hlarge, List.append_assoc, readUnits?_unitEscape (by omega),
        readUnits?_unitEscape (by omega), Option.map_map]
      rfl

lemma charOf_toNat (c : Char) : charOf c.toNat = c := by
  rw [charOf, if_pos (isValidChar_toNat c), Char.ofNat_toNat]

/-- The code units of a character are put together again. -/
lemma joinPairs_utf16 (c : Char) (units : List ℕ) :
    joinPairs (utf16 c ++ units) = c :: joinPairs units := by
  have hvalid := isValidChar_toNat c
  rw [Nat.isValidChar] at hvalid
  by_cases hsmall : c.toNat < 0x10000
  · rw [utf16_of_lt hsmall]
    cases units with
    | nil =>
        show [charOf c.toNat] = [c]
        rw [charOf_toNat]
    | cons unit units =>
        rw [List.singleton_append, joinPairs, if_neg (by omega), charOf_toNat]
  · have hcode : 0x10000 + (0xd800 + (c.toNat - 0x10000) / 0x400 - 0xd800) * 0x400 +
        (0xdc00 + (c.toNat - 0x10000) % 0x400 - 0xdc00) = c.toNat := by omega
    rw [utf16, if_neg hsmall, List.cons_append, List.singleton_append, joinPairs,
      if_pos (by omega), hcode, charOf_toNat]

/-! ### Whole texts -/

lemma readUnits?_escape (cs rest : List Char) :
    readUnits? (cs.flatMap escapeChar ++ '\x22' :: rest) = some (cs.flatMap utf16, rest) := by
  induction cs with
  | nil =>
      rw [List.flatMap_nil, List.nil_append, readUnits?_quote]
      rfl
  | cons c cs ih =>
      rw [List.flatMap_cons, List.append_assoc, readUnits?_escapeChar, ih, List.flatMap_cons]
      rfl

lemma joinPairs_flatMap (cs : List Char) : joinPairs (cs.flatMap utf16) = cs := by
  induction cs with
  | nil => rfl
  | cons c cs ih => rw [List.flatMap_cons, joinPairs_utf16, ih]

/-- **A text is read back as it has been written**, whatever its characters are, and what stands
behind its closing quote is left. -/
lemma readText?_escape (s : String) (rest : List Char) :
    ∃ cs, (escape s).toList = '\x22' :: cs ∧ readText? (cs ++ rest) = some (s, rest) := by
  refine ⟨s.toList.flatMap escapeChar ++ ['\x22'], by rw [escape, String.toList_ofList]; rfl, ?_⟩
  rw [readText?, List.append_assoc, List.singleton_append, readUnits?_escape]
  show some (String.ofList (joinPairs _), rest) = some (s, rest)
  rw [joinPairs_flatMap, String.ofList_toList]

end Json

end Blockscribe
