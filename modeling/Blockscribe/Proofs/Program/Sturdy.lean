/-
Parts of a text that the layout leaves as they are.

* `Text.Sturdy`: a text that begins and ends with a visible character and in which a backslash
  stands in front of each line feed and no other line feed behind it.
* `Sturdy.squeeze`, `Sturdy.dropLeadingLines`, `Sturdy.dropTrailingLines`, `Sturdy.dropLineEnds`:
  where a sturdy text stands in another, it does so after each step of the layout.
* `Sturdy.tidy`, `Sturdy.preamble`: so it stands in the program if it stands in a definition or in
  the entry point.
* `sturdy_literal`: the literals of a program are sturdy.
-/
import Mathlib.Data.List.Infix
import Blockscribe.Proofs.Program.SolidLines
import Blockscribe.Proofs.Text.Literal

namespace Blockscribe

namespace Text

variable {cs word a b : List Char} {c : Char}

/-- The rest of a text in which a backslash stands in front of each line feed, and which ends with a
visible character. -/
inductive SturdyRest : List Char → Prop
  | last {c : Char} : isBlank c = false → SturdyRest [c]
  | char {c : Char} {cs : List Char} : c ≠ '\n' → SturdyRest cs → SturdyRest (c :: cs)
  | escaped {cs : List Char} : SturdyRest cs → SturdyRest ('\\' :: '\n' :: cs)

/-- A text in which a backslash stands in front of each line feed and no other line feed behind it,
and which begins and ends with a visible character. -/
structure Sturdy (word : List Char) : Prop where
  rest : SturdyRest word
  first : ∀ c ∈ word.head?, isBlank c = false

namespace SturdyRest

lemma exists_eq_cons (h : SturdyRest word) : ∃ c rest, word = c :: rest ∧ c ≠ '\n' := by
  cases h with
  | @last c hc =>
      refine ⟨c, [], rfl, ?_⟩
      rintro rfl
      exact absurd hc (by decide)
  | char hc => exact ⟨_, _, rfl, hc⟩
  | escaped => exact ⟨_, _, rfl, by decide⟩

lemma exists_eq_append_last (h : SturdyRest word) :
    ∃ front c, word = front ++ [c] ∧ isBlank c = false := by
  induction h with
  | last hc => exact ⟨[], _, rfl, hc⟩
  | @char c _ _ _ ih =>
      obtain ⟨front, d, rfl, hd⟩ := ih
      exact ⟨c :: front, d, rfl, hd⟩
  | escaped _ ih =>
      obtain ⟨front, d, rfl, hd⟩ := ih
      exact ⟨'\\' :: '\n' :: front, d, rfl, hd⟩

lemma append (hb : SturdyRest b) (ha : '\n' ∉ a) : SturdyRest (a ++ b) := by
  induction a with
  | nil => exact hb
  | cons c a ih =>
      rw [List.mem_cons, not_or] at ha
      exact .char (Ne.symm ha.1) (ih ha.2)

end SturdyRest

/-! ### Literals -/

namespace Quoted

/-- In an escaped text a backslash stands in front of each line feed. -/
lemma sturdyRest_escapeLed {lead : List Char} (hlead : '\n' ∈ cs → '\n' ∉ lead) :
    SturdyRest (escapeLed lead cs ++ [mark]) := by
  induction cs with
  | nil => exact .last (by decide)
  | cons c cs ih =>
      have hcs := ih fun hmem => hlead (List.mem_cons_of_mem c hmem)
      rw [escapeLed, List.flatMap_cons, ← escapeLed, List.append_assoc, ledChar]
      by_cases hbreak : c = '\n'
      · rw [if_pos hbreak]
        exact .escaped (hcs.append (hlead (hbreak ▸ List.mem_cons_self)))
      · rw [if_neg hbreak]
        split
        · exact .char (by decide) (.char hbreak hcs)
        · exact .char hbreak hcs

/-- The literals of a program are sturdy. -/
lemma sturdy_literal {lead : List Char} (hlead : '\n' ∈ cs → '\n' ∉ lead) :
    Sturdy (literal lead cs) where
  rest := .char (by decide) (sturdyRest_escapeLed hlead)
  first c hc := by
    obtain rfl := Option.some.inj hc
    decide

end Quoted

/-! ### Dropped ends -/

/-- A text that begins with a character that is not dropped does not begin in front of it. -/
lemma infix_of_infix_append (hword : c :: word <:+: a ++ b) (hc : c ∉ a) : c :: word <:+: b := by
  obtain ⟨front, back, hsplit⟩ := hword
  rw [List.append_assoc] at hsplit
  rcases List.append_eq_append_iff.mp hsplit with ⟨more, hmore, hrest⟩ | ⟨more, -, rfl⟩
  · -- the text would begin within what is dropped
    cases more with
    | nil => exact ⟨[], back, hrest⟩
    | cons d more =>
        obtain ⟨rfl, -⟩ := List.cons.inj hrest
        exact absurd (hmore ▸ List.mem_append_right _ List.mem_cons_self) hc
  · exact ⟨more, back, List.append_assoc ..⟩

/-- A text that ends with a character that is not dropped does not end behind it. -/
lemma infix_of_append_infix (hword : word ++ [c] <:+: a ++ b) (hc : c ∉ b) : word ++ [c] <:+: a := by
  rw [← List.reverse_infix] at hword ⊢
  rw [List.reverse_append] at hword ⊢
  rw [List.reverse_append] at hword
  exact infix_of_infix_append hword fun hmem => hc (List.mem_reverse.mp hmem)

/-! ### Texts put together -/

lemma mem_intersperse {α : Type} {x : α} {l : List α} (h : x ∈ l) (sep : α) :
    x ∈ l.intersperse sep := by
  fun_induction List.intersperse sep l with
  | case1 => exact h
  | case2 => exact h
  | case3 head rest _ ih =>
      rcases List.mem_cons.mp h with rfl | hrest
      · exact List.mem_cons_self
      · exact List.mem_cons_of_mem _ (List.mem_cons_of_mem _ (ih hrest))

/-- Each of the texts that are put together stands in the whole. -/
lemma infix_intercalate {text : String} {texts : List String} (h : text ∈ texts) (sep : String) :
    text.toList <:+: (sep.intercalate texts).toList := by
  rw [String.toList_intercalate, List.intercalate]
  exact List.infix_of_mem_flatten (mem_intersperse (List.mem_map_of_mem h) _)

end Text

namespace Program

open Text

variable {word : List Char}

lemma squeeze_sturdy (h : SturdyRest word) (run : ℕ) (rest : List Char) :
    squeeze run (word ++ rest) = word ++ squeeze 0 rest := by
  induction h generalizing run with
  | @last c hc =>
      refine squeeze_line (fun hmem => ?_) (List.cons_ne_nil _ _) run rest
      rw [← List.mem_singleton.mp hmem] at hc
      exact absurd hc (by decide)
  | char hc _ ih => rw [List.cons_append, squeeze, if_neg hc, ih, List.cons_append]
  | escaped _ ih =>
      rw [List.cons_append, List.cons_append, squeeze, if_neg (by decide), squeeze, if_pos rfl,
        if_neg (by decide), ih, List.cons_append, List.cons_append]

lemma dropLineEnds_sturdy (h : SturdyRest word) (rest : List Char) :
    dropLineEnds (word ++ rest) = word ++ dropLineEnds rest := by
  induction h with
  | @last c hc =>
      rw [List.singleton_append, dropLineEnds, if_neg]
      · rfl
      · rintro ⟨rfl | rfl, -⟩
        · exact absurd hc (by decide)
        · exact absurd hc (by decide)
  | @char c cs _ hcs ih =>
      rw [List.cons_append, dropLineEnds, ih, if_neg]
      · rfl
      · obtain ⟨e, more, rfl, he⟩ := hcs.exists_eq_cons
        exact fun hdrop => he (Option.some.inj hdrop.2)
  | escaped _ ih =>
      rw [List.cons_append, List.cons_append, dropLineEnds, dropLineEnds, ih,
        if_neg fun hdrop => hdrop.1.elim (by decide) (by decide),
        if_neg fun hdrop => hdrop.1.elim (by decide) (by decide)]
      rfl

end Program

namespace Text.Sturdy

variable {cs word : List Char} {text : String} {d : Definitions} (hword : Sturdy word)

include hword

lemma squeeze (h : word <:+: cs) (run : ℕ) : word <:+: Program.squeeze run cs := by
  obtain ⟨front, back, rfl⟩ := h
  rw [List.append_assoc]
  induction front generalizing run with
  | nil =>
      rw [List.nil_append, Program.squeeze_sturdy hword.rest]
      exact List.infix_append [] word _
  | cons c front ih =>
      rw [List.cons_append, Program.squeeze]
      split
      · split
        · exact ih run
        · exact List.infix_cons (ih _)
      · exact List.infix_cons (ih 0)

lemma dropLineEnds (h : word <:+: cs) : word <:+: Program.dropLineEnds cs := by
  obtain ⟨front, back, rfl⟩ := h
  rw [List.append_assoc]
  induction front with
  | nil =>
      rw [List.nil_append, Program.dropLineEnds_sturdy hword.rest]
      exact List.infix_append [] word _
  | cons c front ih =>
      rw [List.cons_append, Program.dropLineEnds]
      split
      · exact ih
      · exact List.infix_cons ih

/-- Blanks in front of a sturdy text are no part of it. -/
lemma of_blank_append {blanks rest : List Char} (hblank : allBlank blanks = true)
    (h : word <:+: blanks ++ rest) : word <:+: rest := by
  obtain ⟨c, more, rfl, -⟩ := hword.rest.exists_eq_cons
  refine infix_of_infix_append h fun hmem => ?_
  have hc := hword.first c rfl
  rw [List.all_eq_true.mp hblank c hmem] at hc
  exact absurd hc (by decide)

/-- Blanks behind a sturdy text are no part of it. -/
lemma of_append_blank {blanks front : List Char} (hblank : allBlank blanks = true)
    (h : word <:+: front ++ blanks) : word <:+: front := by
  obtain ⟨more, c, rfl, hc⟩ := hword.rest.exists_eq_append_last
  refine infix_of_append_infix h fun hmem => ?_
  rw [List.all_eq_true.mp hblank c hmem] at hc
  exact absurd hc (by decide)

lemma dropLastBreaks (h : word <:+: cs) : word <:+: Program.dropLastBreaks cs := by
  obtain ⟨breaks, hcs, hbreaks⟩ := Program.exists_eq_dropLastBreaks_append cs
  rw [hcs] at h
  refine hword.of_append_blank (List.all_eq_true.mpr fun c hc => ?_) h
  rw [hbreaks c hc]
  decide

lemma dropLeadingLines (h : word <:+: cs) : word <:+: Program.dropLeadingLines cs := by
  obtain hsame | ⟨blanks, hblank, hcs⟩ := Program.dropLeadingLines_eq_or cs
  · rwa [hsame]
  · have hlines : allBlank (blanks ++ ['\n']) = true := by
      rw [allBlank_append, hblank]
      rfl
    rw [hcs, ← List.singleton_append, ← List.append_assoc] at h
    exact hword.of_blank_append hlines h

lemma dropTrailingLines (h : word <:+: cs) : word <:+: Program.dropTrailingLines cs := by
  obtain hsame | ⟨kept, blanks, hblank, hdropped, hcs⟩ := Program.dropTrailingLines_eq_or cs
  · rwa [hsame]
  · have hlines : allBlank ('\n' :: blanks) = true := by
      rw [allBlank, List.all_cons, ← allBlank, hblank]
      rfl
    rw [hcs] at h
    rw [hdropped]
    exact (hword.of_append_blank hlines h).trans (List.prefix_append _ _).isInfix

/-- A sturdy text is still there when a program has been tidied. -/
lemma tidy (h : word <:+: text.toList) : word <:+: (Program.tidy text).toList := by
  rw [Program.tidy, String.toList_ofList, Program.tidyChars]
  exact hword.dropLineEnds (hword.dropTrailingLines (hword.dropLeadingLines h))

/-- A sturdy text in a definition stands in front of the entry point. -/
lemma preamble (hmem : text ∈ d.entries.map Prod.snd) (h : word <:+: text.toList) :
    word <:+: (Program.preamble d).toList := by
  have hparts : word <:+: ("\n".intercalate (Program.imports d) ++ "\n\n" ++
      "\n\n".intercalate (Program.routines d)).toList := by
    rw [String.toList_append, String.toList_append]
    rcases Program.mem_imports_or_routines hmem with ⟨himport, -⟩ | ⟨-, hroutine⟩
    · exact h.trans ((infix_intercalate himport _).trans
        ((List.prefix_append _ _).trans (List.prefix_append _ _)).isInfix)
    · exact h.trans ((infix_intercalate hroutine _).trans (List.suffix_append _ _).isInfix)
  rw [Program.preamble, Program.collapse, String.toList_ofList, Program.collapseChars]
  exact (hword.dropLastBreaks (hword.squeeze hparts 0)).trans (List.prefix_append _ _).isInfix

end Text.Sturdy

end Blockscribe
