/-
What a single-quoted literal denotes, and what indentation does to one.

* `Quoted.denote`: reads a literal from behind its opening quote, with the meaning that a backslash
  and the character behind it have there.
* `Quoted.escapeLed`: an escaped text with an indent behind each of its line feeds.
* `Quoted.altered`: a text with a backslash in front of each percent sign, and an indent in place of
  each line feed.
* `leadAfterBreaks_escapeLed`: indenting code in which a literal stands makes its indent wider.
* `denote_escapeLed`: the literal of a text denotes the altered text, or nothing if the text holds a
  character that cannot stand inside a literal.
* `denote_escapeLed_eq_iff`: so the texts that their literals denote are those without line breaks,
  percent signs and null characters.
-/
import Mathlib.Data.List.Basic
import Mathlib.Tactic.Conv
import Mathlib.Tactic.Tauto
import Blockscribe.Text.Lines
import Blockscribe.Text.Quoted

namespace Blockscribe.Text

namespace Quoted

variable {lead cs rest : List Char} {c : Char}

/-! ### Reading -/

/-- The controls that a backslash and a letter stand for. -/
def controls : List (Char × Char) :=
  [('a', '\x07'), ('b', '\x08'), ('f', '\x0c'), ('n', '\n'), ('r', '\r'), ('t', '\t'),
    ('v', '\x0b')]

/-- The characters behind a backslash with which a longer escape begins: an octal, hexadecimal or
named character. -/
def opensEscape (c : Char) : Bool := ['x', 'u', 'U', 'N'].contains c || ('0' ≤ c && c ≤ '7')

/-- The characters that cannot stand inside a literal. -/
def isOutside (c : Char) : Bool := c == '\r' || c == '\x00'

/-- What a backslash and the character behind it stand for. A line feed is dropped; a backslash in
front of a character with which it has no meaning is kept. Longer escapes are not read. -/
def escaped? (c : Char) : Option (List Char) :=
  if c = '\n' then some []
  else if c = '\\' ∨ c = mark ∨ c = '"' then some [c]
  else if opensEscape c || isOutside c then none
  else
    match controls.lookup c with
    | some d => some [d]
    | none => some ['\\', c]

/-- Reads a literal from behind its opening quote: the text that it denotes, and what follows its
closing quote. A line break that no backslash precedes ends the reading without a result. -/
def denote : List Char → Option (List Char × List Char)
  | [] => none
  | c :: rest =>
    if c = mark then some ([], rest)
    else if c = '\n' || isOutside c then none
    else if c = '\\' then
      match rest with
      | [] => none
      | d :: more =>
        (escaped? d).bind fun text => (denote more).map fun (value, after) => (text ++ value, after)
    else (denote rest).map fun (value, after) => (c :: value, after)

lemma denote_mark (rest : List Char) : denote (mark :: rest) = some ([], rest) := by
  rw [denote.eq_def]
  exact if_pos rfl

lemma denote_of_isOutside (h : isOutside c = true) : denote (c :: rest) = none := by
  have hmark : c ≠ mark := by
    rintro rfl
    exact absurd h (by decide)
  rw [denote.eq_def]
  simp [hmark, h]

/-- A character with no meaning of its own stands for itself. -/
lemma denote_cons (hescape : needsEscape c = false) (houtside : isOutside c = false) :
    denote (c :: rest) = (denote rest).map fun p => (c :: p.1, p.2) := by
  simp only [needsEscape, Bool.or_eq_false_iff, beq_eq_false_iff_ne] at hescape
  obtain ⟨⟨⟨hslash, hbreak⟩, -⟩, hmark⟩ := hescape
  rw [denote.eq_def]
  simp [hmark, hbreak, houtside, hslash]

lemma denote_escaped {text : List Char} (h : escaped? c = some text) :
    denote ('\\' :: c :: rest) = (denote rest).map fun p => (text ++ p.1, p.2) := by
  rw [denote.eq_def]
  simp [show '\\' ≠ mark by decide, isOutside, h]

/-- Spaces and tabs stand for themselves. -/
lemma denote_append (hlead : ∀ c ∈ lead, c = ' ' ∨ c = '\t') :
    denote (lead ++ rest) = (denote rest).map fun p => (lead ++ p.1, p.2) := by
  induction lead with
  | nil => exact (congrFun Option.map_id (denote rest)).symm
  | cons c lead ih =>
      rw [List.forall_mem_cons] at hlead
      have hplain : needsEscape c = false ∧ isOutside c = false := by
        rcases hlead.1 with rfl | rfl <;> decide
      rw [List.cons_append, denote_cons hplain.1 hplain.2, ih hlead.2, Option.map_map]
      rfl

/-! ### Literals with an indent -/

/-- A character in a literal: escaped if it needs to be, with an indent behind a line feed. -/
def ledChar (lead : List Char) (c : Char) : List Char :=
  if c = '\n' then '\\' :: '\n' :: lead else if needsEscape c then ['\\', c] else [c]

/-- An escaped text with an indent behind each of its line feeds. -/
def escapeLed (lead cs : List Char) : List Char := cs.flatMap (ledChar lead)

/-- What a character in a literal denotes. -/
def alteredChar (lead : List Char) (c : Char) : List Char :=
  if c = '\n' then lead else if c = '%' then ['\\', '%'] else [c]

/-- A text with a backslash in front of each percent sign, and an indent in place of each line
feed. -/
def altered (lead cs : List Char) : List Char := cs.flatMap (alteredChar lead)

/-- The literal of a text with an indent behind each line feed. -/
def literal (lead cs : List Char) : List Char := mark :: (escapeLed lead cs ++ [mark])

lemma escapeLed_nil (cs : List Char) : escapeLed [] cs = escape cs := by
  induction cs with
  | nil => rfl
  | cons c rest ih =>
      rw [escapeLed, List.flatMap_cons, ← escapeLed, ih, escape, ledChar]
      by_cases hbreak : c = '\n'
      · subst hbreak
        rfl
      · rw [if_neg hbreak]
        split <;> rfl

lemma toList_quote (text : String) : (quote text).toList = literal [] text.toList := by
  simp only [quote, String.toList_append, String.toList_ofList, literal, escapeLed_nil,
    List.append_assoc]
  rfl

/-! ### What a literal denotes -/

/-- A character of a literal denotes what it has been altered to. -/
lemma denote_ledChar (hlead : c = '\n' → ∀ c ∈ lead, c = ' ' ∨ c = '\t')
    (h : isOutside c = false) (rest : List Char) :
    denote (ledChar lead c ++ rest) =
      (denote rest).map fun p => (alteredChar lead c ++ p.1, p.2) := by
  rw [ledChar, alteredChar]
  by_cases hbreak : c = '\n'
  · rw [if_pos hbreak, if_pos hbreak, List.cons_append, List.cons_append,
      denote_escaped (show escaped? '\n' = some [] from rfl), denote_append (hlead hbreak),
      Option.map_map]
    rfl
  · rw [if_neg hbreak, if_neg hbreak]
    cases hescape : needsEscape c with
    | false =>
        have hpercent : c ≠ '%' := by
          rintro rfl
          exact absurd hescape (by decide)
        rw [if_neg (by decide), if_neg hpercent]
        exact denote_cons hescape h
    | true =>
        rw [if_pos rfl]
        refine denote_escaped ?_
        simp only [needsEscape, Bool.or_eq_true, beq_iff_eq] at hescape
        rcases hescape with ((rfl | rfl) | rfl) | rfl
        · rfl
        · exact absurd rfl hbreak
        · rfl
        · rfl

/-- **What a literal denotes.** The literal of a text, with an indent of spaces and tabs behind each
line feed, denotes the altered text, if the text holds no character that cannot stand in a literal;
otherwise it cannot be read. -/
theorem denote_escapeLed (hlead : '\n' ∈ cs → ∀ c ∈ lead, c = ' ' ∨ c = '\t') (rest : List Char) :
    denote (escapeLed lead cs ++ mark :: rest) =
      if cs.any isOutside then none else some (altered lead cs, rest) := by
  induction cs with
  | nil => exact denote_mark rest
  | cons c cs ih =>
      have hrest := ih fun hmem => hlead (List.mem_cons_of_mem c hmem)
      rw [escapeLed, List.flatMap_cons, ← escapeLed, List.append_assoc, List.any_cons]
      cases hc : isOutside c with
      | true =>
          have hled : ledChar lead c = [c] := by
            simp only [isOutside, Bool.or_eq_true, beq_iff_eq] at hc
            rcases hc with rfl | rfl <;> rfl
          rw [hled, List.singleton_append, denote_of_isOutside hc, Bool.true_or, if_pos rfl]
      | false =>
          rw [denote_ledChar (fun hbreak => hlead (hbreak ▸ List.mem_cons_self)) hc, hrest,
            Bool.false_or]
          split <;> rfl

/-- A text that stays as it is has no percent sign, and no line feed unless the indent has one. -/
lemma altered_eq_iff (hlead : '\n' ∈ cs → '\n' ∉ lead) :
    altered lead cs = cs ↔ '%' ∉ cs ∧ '\n' ∉ cs := by
  constructor
  · intro h
    have hbreak : '\n' ∉ cs := by
      intro hmem
      rw [← h, altered, List.mem_flatMap] at hmem
      obtain ⟨c, hc, hin⟩ := hmem
      rw [alteredChar] at hin
      split at hin
      · rename_i heq
        exact hlead (heq ▸ hc) hin
      · split at hin
        · exact absurd hin (by decide)
        · rename_i hne _
          exact hne (List.mem_singleton.mp hin).symm
    refine ⟨fun hmem => ?_, hbreak⟩
    -- without line feeds no character is lost, and each percent sign is one character more
    have hlength : ∀ ds : List Char, '\n' ∉ ds →
        (altered lead ds).length = ds.length + ds.count '%' := by
      intro ds hds
      induction ds with
      | nil => rfl
      | cons d ds ih =>
          rw [List.mem_cons, not_or] at hds
          rw [altered, List.flatMap_cons, ← altered, List.length_append, ih hds.2, alteredChar,
            if_neg (Ne.symm hds.1), List.count_cons, List.length_cons]
          by_cases hd : d = '%'
          · rw [if_pos hd, if_pos (beq_iff_eq.mpr hd), List.length_cons, List.length_singleton]
            omega
          · rw [if_neg hd, if_neg (by simpa using hd), List.length_singleton]
            omega
    have hsame := hlength cs hbreak
    rw [h] at hsame
    have hcount := List.count_pos_iff.mpr hmem
    omega
  · rintro ⟨hpercent, hbreak⟩
    conv_rhs => rw [← List.flatMap_singleton' cs]
    refine List.flatMap_congr fun c hc => ?_
    rw [alteredChar, if_neg (ne_of_mem_of_not_mem hc hbreak),
      if_neg (ne_of_mem_of_not_mem hc hpercent)]

/-- **The texts that their literals denote** are those without line breaks, percent signs and null
characters. -/
theorem denote_escapeLed_eq_iff (hlead : '\n' ∈ cs → ∀ c ∈ lead, c = ' ' ∨ c = '\t')
    (rest : List Char) :
    denote (escapeLed lead cs ++ mark :: rest) = some (cs, rest) ↔
      '%' ∉ cs ∧ '\n' ∉ cs ∧ '\r' ∉ cs ∧ '\x00' ∉ cs := by
  have hbreaks : '\n' ∈ cs → '\n' ∉ lead := fun hmem hin =>
    (hlead hmem _ hin).elim (by decide) (by decide)
  have houtside : cs.any isOutside = true ↔ '\r' ∈ cs ∨ '\x00' ∈ cs := by
    simp only [List.any_eq_true, isOutside, Bool.or_eq_true, beq_iff_eq]
    constructor
    · rintro ⟨c, hc, rfl | rfl⟩
      · exact .inl hc
      · exact .inr hc
    · rintro (hc | hc)
      · exact ⟨_, hc, .inl rfl⟩
      · exact ⟨_, hc, .inr rfl⟩
  rw [denote_escapeLed hlead, Option.ite_none_left_eq_some, Option.some.injEq, Prod.mk.injEq,
    houtside, altered_eq_iff hbreaks, not_or]
  tauto

/-! ### Indenting -/

lemma leadAfterBreaks_append_of_not_mem {a : List Char} (h : '\n' ∉ a) (indent rest : List Char) :
    leadAfterBreaks indent (a ++ rest) = a ++ leadAfterBreaks indent rest := by
  induction a with
  | nil => rfl
  | cons c a ih =>
      rw [List.mem_cons, not_or] at h
      rw [List.cons_append, leadAfterBreaks, if_neg fun hc => h.1 hc.1.symm, ih h.2,
        List.cons_append]

/-- Indenting code in which a literal stands makes the indent of the literal wider. -/
lemma leadAfterBreaks_escapeLed (hlead : '\n' ∈ cs → '\n' ∉ lead) (indent rest : List Char) :
    leadAfterBreaks indent (escapeLed lead cs ++ mark :: rest) =
      escapeLed (indent ++ lead) cs ++ mark :: leadAfterBreaks indent rest := by
  induction cs with
  | nil =>
      exact leadAfterBreaks_append_of_not_mem (a := [mark]) (by decide) indent rest
  | cons c cs ih =>
      have hcs := ih fun hmem => hlead (List.mem_cons_of_mem c hmem)
      have hne : escapeLed lead cs ++ mark :: rest ≠ [] := List.append_ne_nil_of_right_ne_nil _ nofun
      rw [escapeLed, escapeLed, List.flatMap_cons, List.flatMap_cons, ← escapeLed, ← escapeLed,
        List.append_assoc, List.append_assoc, ← hcs, ledChar, ledChar]
      by_cases hbreak : c = '\n'
      · have hin := hlead (hbreak ▸ List.mem_cons_self)
        rw [if_pos hbreak, if_pos hbreak, List.cons_append, List.cons_append, leadAfterBreaks,
          if_neg fun h => absurd h.1 (by decide), leadAfterBreaks,
          if_pos ⟨rfl, List.append_ne_nil_of_right_ne_nil _ hne⟩,
          leadAfterBreaks_append_of_not_mem hin, List.cons_append, List.cons_append,
          List.append_assoc]
      · rw [if_neg hbreak, if_neg hbreak]
        refine leadAfterBreaks_append_of_not_mem ?_ indent _
        split
        · simp only [List.mem_cons, List.not_mem_nil, or_false, not_or]
          exact ⟨by decide, Ne.symm hbreak⟩
        · exact fun hmem => hbreak (List.mem_singleton.mp hmem).symm

end Quoted

end Blockscribe.Text
