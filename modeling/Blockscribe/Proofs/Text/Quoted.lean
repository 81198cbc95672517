/-
Where a quoted literal ends.

* `escape_eq_replaceAll`: escaping a text is replacing backslashes, line feeds, percent signs and
  single quotes, one after the other, each in the whole text.
* `Quoted.span`: what is read of a literal from behind its opening quote, and what is left: the text
  from the first quote or line feed on that no backslash consumes.
* `Quoted.unescape`: a text without the backslashes that consume a character.
* `quote_closes`: reading a quoted text stops at its last character, whatever follows, and what is
  read gives the text back; so texts that are quoted alike are the same.
-/
import Blockscribe.Proofs.Text.Literal
import Blockscribe.Text.Replace

namespace Blockscribe.Text

/-! ### Escaping by replacing -/

/-- Replacing a character is a matter of each character alone. -/
lemma replaceAll_singleton (c : Char) (replacement cs : List Char) :
    replaceAll [c] replacement cs = cs.flatMap fun d => if d = c then replacement else [d] := by
  rw [replaceAll]
  induction cs with
  | nil => rfl
  | cons d rest ih =>
      rw [replaceFrom, List.flatMap_cons]
      by_cases hd : d = c
      · subst hd
        rw [if_pos rfl, if_pos (by simp), List.length_singleton, ih]
      · rw [if_neg hd, if_neg (by simpa [List.isPrefixOf] using Ne.symm hd), ih,
          List.singleton_append]

namespace Quoted

variable {c : Char}

/-- **Escaping is replacing four characters one after the other.** Backslashes come first, so none
of those that are put in front of other characters is doubled. -/
lemma escape_eq_replaceAll (cs : List Char) :
    escape cs = replaceAll [mark] ['\\', mark] (replaceAll ['%'] ['\\', '%']
      (replaceAll ['\n'] ['\\', '\n'] (replaceAll ['\\'] ['\\', '\\'] cs))) := by
  rw [← escapeLed_nil, escapeLed]
  simp only [replaceAll_singleton, List.flatMap_assoc]
  refine List.flatMap_congr fun c _ => ?_
  by_cases hslash : c = '\\'
  · subst hslash
    rfl
  by_cases hbreak : c = '\n'
  · subst hbreak
    rfl
  by_cases hpercent : c = '%'
  · subst hpercent
    rfl
  by_cases hmark : c = mark
  · subst hmark
    rfl
  · simp [ledChar, needsEscape, hslash, hbreak, hpercent, hmark]

/-! ### Reading up to the end -/

/-- What is read of a literal from behind its opening quote, and what is left. A backslash consumes
the next character; a single quote or a line feed that is not consumed ends the reading. -/
def span : List Char → List Char × List Char
  | '\\' :: c :: rest => ('\\' :: c :: (span rest).1, (span rest).2)
  | c :: rest => if c = mark ∨ c = '\n' then ([], c :: rest) else (c :: (span rest).1, (span rest).2)
  | [] => ([], [])

/-- A text without the backslashes that consume a character. -/
def unescape : List Char → List Char
  | '\\' :: c :: rest => c :: unescape rest
  | c :: rest => c :: unescape rest
  | [] => []

lemma span_cons (hslash : c ≠ '\\') (hend : ¬ (c = mark ∨ c = '\n')) (rest : List Char) :
    span (c :: rest) = (c :: (span rest).1, (span rest).2) := by
  rw [span, if_neg hend]
  rintro d more rfl
  exact absurd rfl hslash

lemma unescape_cons (hslash : c ≠ '\\') (rest : List Char) :
    unescape (c :: rest) = c :: unescape rest := by
  rw [unescape]
  rintro d more rfl
  exact absurd rfl hslash

/-- Every character that could end the reading is consumed. -/
lemma span_escape (cs after : List Char) :
    span (escape cs ++ mark :: after) = (escape cs, mark :: after) := by
  induction cs with
  | nil => rfl
  | cons c rest ih =>
      rw [escape]
      cases hescape : needsEscape c with
      | true =>
          rw [if_pos rfl, List.cons_append, List.cons_append, span, ih]
      | false =>
          simp only [needsEscape, Bool.or_eq_false_iff, beq_eq_false_iff_ne] at hescape
          obtain ⟨⟨⟨hslash, hbreak⟩, -⟩, hmark⟩ := hescape
          rw [if_neg Bool.false_ne_true, List.cons_append,
            span_cons hslash (not_or.mpr ⟨hmark, hbreak⟩), ih]

/-- A backslash that stands for itself consumes another one, so no other is lost. -/
lemma unescape_escape (cs : List Char) : unescape (escape cs) = cs := by
  induction cs with
  | nil => rfl
  | cons c rest ih =>
      rw [escape]
      cases hescape : needsEscape c with
      | true => rw [if_pos rfl, unescape, ih]
      | false =>
          have hslash : c ≠ '\\' := by
            rintro rfl
            exact absurd hescape (by decide)
          rw [if_neg Bool.false_ne_true, unescape_cons hslash, ih]

end Quoted

end Blockscribe.Text

namespace Blockscribe

open Text Text.Quoted

lemma toList_quote_eq (text : String) :
    (quote text).toList = mark :: (escape text.toList ++ [mark]) := by
  rw [toList_quote, literal, escapeLed_nil]

/-- **A quoted text cannot be broken out of.** Between the quotes stands the text in which
backslashes, line feeds, percent signs and single quotes have been replaced one after the other.
Whatever follows, reading from behind the opening quote goes as far as the closing one and stops
there; without the backslashes that consume a character, what is read is the text. So texts that are
quoted alike are the same. -/
theorem quote_closes :
    (∀ text after : String, ∃ body,
      (quote text).toList = mark :: (body ++ [mark]) ∧
      body = replaceAll [mark] ['\\', mark] (replaceAll ['%'] ['\\', '%']
        (replaceAll ['\n'] ['\\', '\n'] (replaceAll ['\\'] ['\\', '\\'] text.toList))) ∧
      span ((quote text ++ after).toList.drop 1) = (body, mark :: after.toList) ∧
      unescape body = text.toList) ∧
    Function.Injective quote := by
  constructor
  · intro text after
    refine ⟨escape text.toList, toList_quote_eq text, escape_eq_replaceAll text.toList, ?_,
      unescape_escape text.toList⟩
    rw [String.toList_append, toList_quote_eq, List.cons_append, List.drop_one, List.tail_cons,
      List.append_assoc, List.singleton_append]
    exact span_escape text.toList after.toList
  · intro text other hquote
    have hescape : escape text.toList ++ [mark] = escape other.toList ++ [mark] := by
      have hlists := congrArg String.toList hquote
      rw [toList_quote_eq, toList_quote_eq] at hlists
      exact (List.cons.inj hlists).2
    have htext := congrArg unescape (List.append_cancel_right hescape)
    rw [unescape_escape, unescape_escape] at htext
    exact String.toList_inj.mp htext

end Blockscribe
