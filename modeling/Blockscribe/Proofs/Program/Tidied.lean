/-
The normal form of tidied texts.

* `Text.Gap`: blanks within one line. `exists_lead` and `exists_tail` find them in front of the
  first visible character of a text and behind the last one; `dropLeadingLines_lead` and
  `dropTrailingLines_tail` say what is dropped around them.
* `Program.Headed`, `Program.Settled`, `Program.Trimmed`: texts that are as the three steps of
  tidying leave them. Each step keeps what those before it have reached.
* `Program.Tidied`: the normal form, all three together. Every tidied text has it
  (`tidied_tidyChars`), and no text that has it is changed by tidying (`Tidied.tidyChars_eq`), so
  that tidying twice is tidying once (`tidy_tidy`).
* `tidy_lines`: what tidying leaves of the lines of a text that is not blank.
-/
import Mathlib.Data.List.Infix
import Blockscribe.Proofs.Program.SolidLines

namespace Blockscribe

namespace Text

variable {blanks cs : List Char}

/-! ### Blanks at the ends of a text -/

/-- Blanks within one line. -/
structure Gap (cs : List Char) : Prop where
  blank : allBlank cs = true
  flat : '\n' ∉ cs

/-- Of some blanks, those behind the last line feed. -/
lemma exists_gap_last (h : allBlank blanks = true) : ∃ gap, Gap gap ∧
    (blanks = gap ∨ ∃ front, allBlank front = true ∧ blanks = front ++ '\n' :: gap) := by
  obtain ⟨front, hblanks, hfront⟩ := Program.exists_eq_append_lastLine blanks
  have hblank := h
  rw [hblanks, allBlank_append, Bool.and_eq_true] at hblank
  refine ⟨_, ⟨hblank.2, fun hmem => ?_⟩, ?_⟩
  · simpa using List.mem_takeWhile_imp (List.mem_reverse.mp hmem)
  · by_cases hnil : front = []
    · exact .inl (by rwa [hnil] at hblanks)
    · obtain ⟨before, rfl⟩ := hfront hnil
      rw [allBlank_append, Bool.and_eq_true] at hblank
      refine .inr ⟨before, hblank.1.1, ?_⟩
      rwa [List.append_assoc] at hblanks

/-- Of some blanks, those in front of the first line feed. -/
lemma exists_gap_first (h : allBlank blanks = true) : ∃ gap, Gap gap ∧
    (blanks = gap ∨ ∃ back, allBlank back = true ∧ blanks = gap ++ '\n' :: back) := by
  have hblanks := (List.takeWhile_append_dropWhile (p := (· ≠ '\n')) (l := blanks)).symm
  have hblank := h
  rw [hblanks, allBlank_append, Bool.and_eq_true] at hblank
  refine ⟨_, ⟨hblank.1, fun hmem => by simpa using List.mem_takeWhile_imp hmem⟩, ?_⟩
  by_cases hnil : blanks.dropWhile (· ≠ '\n') = []
  · exact .inl (by rwa [hnil, List.append_nil] at hblanks)
  · obtain ⟨back, hback⟩ := Program.exists_eq_break_cons hnil
    rw [hback] at hblanks hblank
    rw [allBlank, allBlank, List.all_cons, Bool.and_eq_true] at hblank
    exact .inr ⟨back, hblank.2.2, hblanks⟩

/-- A text begins with a gap in front of something visible or of nothing, or it has a line feed and
other blanks in front of such a gap. -/
lemma exists_lead (cs : List Char) : ∃ gap rest, Gap gap ∧ (∀ c ∈ rest.head?, isBlank c = false) ∧
    (cs = gap ++ rest ∨ ∃ front, allBlank front = true ∧ cs = front ++ '\n' :: (gap ++ rest)) := by
  have hrest : ∀ c ∈ (cs.dropWhile isBlank).head?, isBlank c = false := fun c hc => by
    have hhead := List.head?_dropWhile_not isBlank cs
    rw [Option.mem_def.mp hc] at hhead
    simpa using hhead
  have hcs := (List.takeWhile_append_dropWhile (p := isBlank) (l := cs)).symm
  have hblanks : allBlank (cs.takeWhile isBlank) = true :=
    List.all_eq_true.mpr fun _ => List.mem_takeWhile_imp
  obtain ⟨gap, hgap, hlead⟩ := exists_gap_last hblanks
  refine ⟨gap, cs.dropWhile isBlank, hgap, hrest, ?_⟩
  rcases hlead with hlead | ⟨front, hfront, hlead⟩
  · exact .inl (by rwa [hlead] at hcs)
  · refine .inr ⟨front, hfront, ?_⟩
    rwa [hlead, List.append_assoc] at hcs

/-- A text ends with a gap behind something visible or nothing, or it has a line feed and other
blanks behind such a gap. -/
lemma exists_tail (cs : List Char) : ∃ body gap, (∀ c ∈ body.getLast?, isBlank c = false) ∧
    Gap gap ∧
    (cs = body ++ gap ∨ ∃ back, allBlank back = true ∧ cs = body ++ (gap ++ '\n' :: back)) := by
  have hbody : ∀ c ∈ (trimRight cs).getLast?, isBlank c = false := fun c hc => by
    have hhead := List.head?_dropWhile_not isBlank cs.reverse
    rw [trimRight, List.getLast?_reverse, Option.mem_def] at hc
    rw [hc] at hhead
    simpa using hhead
  obtain ⟨blanks, hcs, hblanks⟩ := Program.exists_eq_trimRight_append cs
  obtain ⟨gap, hgap, htail⟩ := exists_gap_first hblanks
  refine ⟨trimRight cs, gap, hbody, hgap, ?_⟩
  rcases htail with rfl | ⟨back, hback, rfl⟩
  · exact .inl hcs
  · exact .inr ⟨back, hback, hcs⟩

end Text

namespace Program

open Text

variable {back body cs front gap line rest : List Char} {c : Char}

/-! ### The steps of tidying -/

lemma takeWhile_line (h : '\n' ∉ line) (rest : List Char) :
    (line ++ '\n' :: rest).takeWhile (· ≠ '\n') = line := by
  rw [List.takeWhile_append_of_pos fun c hc => by simpa using ne_of_mem_of_not_mem hc h,
    List.takeWhile_cons_of_neg (by decide), List.append_nil]

lemma takeWhile_of_not_mem (h : '\n' ∉ line) : line.takeWhile (· ≠ '\n') = line :=
  List.takeWhile_eq_self_iff.mpr fun c hc => by simpa using ne_of_mem_of_not_mem hc h

lemma takeWhile_isBlank (hfront : allBlank front = true)
    (hrest : ∀ c ∈ rest.head?, isBlank c = false) : (front ++ rest).takeWhile isBlank = front := by
  rw [List.takeWhile_append_of_pos (List.all_eq_true.mp hfront)]
  cases rest with
  | nil => exact List.append_nil _
  | cons c rest =>
      rw [List.takeWhile_cons_of_neg (by rw [hrest c rfl]; decide), List.append_nil]

/-- What stands in front of a line feed before the first visible character is dropped with it, if
there is anything. -/
lemma dropLeadingLines_lead (hfront : allBlank front = true) (hgap : Gap gap)
    (hrest : ∀ c ∈ rest.head?, isBlank c = false) :
    dropLeadingLines (front ++ '\n' :: (gap ++ rest)) =
      if front = [] then '\n' :: (gap ++ rest) else gap ++ rest := by
  have hblank : allBlank (front ++ '\n' :: gap) = true := by
    rw [allBlank_append, hfront, allBlank, List.all_cons, ← allBlank, hgap.blank]
    rfl
  have hlead : (front ++ '\n' :: (gap ++ rest)).takeWhile isBlank = front ++ '\n' :: gap := by
    rw [← takeWhile_isBlank hblank hrest, List.append_assoc, List.cons_append]
  have hlast : (front ++ '\n' :: gap).reverse.takeWhile (· ≠ '\n') = gap.reverse := by
    rw [List.reverse_append, List.reverse_cons, List.append_assoc, List.singleton_append,
      takeWhile_line (mt List.mem_reverse.mp hgap.flat)]
  have hthrough :
      (front ++ '\n' :: gap).length - gap.reverse.length = (front ++ ['\n']).length := by
    simp only [List.length_append, List.length_cons, List.length_reverse, List.length_nil]
    omega
  have hsplit : front ++ '\n' :: (gap ++ rest) = front ++ ['\n'] ++ (gap ++ rest) := by simp
  rw [dropLeadingLines, hlead, hlast, hthrough, hsplit, List.drop_left]
  by_cases hnil : front = []
  · subst hnil
    rfl
  · have hlong : (front ++ ['\n']).length ≥ 2 := by
      have := List.length_pos_of_ne_nil hnil
      rw [List.length_append, List.length_singleton]
      omega
    rw [if_pos hlong, if_neg hnil]

/-- Without a line feed in front of the first visible character nothing is dropped there. -/
lemma dropLeadingLines_gap (hgap : Gap gap) (hrest : ∀ c ∈ rest.head?, isBlank c = false) :
    dropLeadingLines (gap ++ rest) = gap ++ rest := by
  have hlast : gap.reverse.takeWhile (· ≠ '\n') = gap.reverse :=
    takeWhile_of_not_mem (mt List.mem_reverse.mp hgap.flat)
  rw [dropLeadingLines, takeWhile_isBlank hgap.blank hrest, hlast, List.length_reverse,
    Nat.sub_self]
  rfl

lemma trimRight_append_blank (hbody : ∀ c ∈ body.getLast?, isBlank c = false)
    (hback : allBlank back = true) : trimRight (body ++ back) = body := by
  have hblank : ∀ c ∈ back.reverse, isBlank c = true := fun c hc =>
    List.all_eq_true.mp hback c (List.mem_reverse.mp hc)
  rw [trimRight, List.reverse_append, List.dropWhile_append_of_pos hblank]
  rcases List.eq_nil_or_concat body with rfl | ⟨front, c, rfl⟩
  · rfl
  · rw [List.concat_eq_append, List.reverse_append, List.reverse_singleton, List.singleton_append,
      List.dropWhile_cons_of_neg (by rw [hbody c (by simp)]; decide), List.reverse_cons,
      List.reverse_reverse]

/-- What stands behind the first line feed after the last visible character is dropped. -/
lemma dropTrailingLines_tail (hbody : ∀ c ∈ body.getLast?, isBlank c = false) (hgap : Gap gap)
    (hback : allBlank back = true) :
    dropTrailingLines (body ++ (gap ++ '\n' :: back)) = body ++ (gap ++ ['\n']) := by
  have hblank : allBlank (gap ++ '\n' :: back) = true := by
    rw [allBlank_append, hgap.blank, allBlank, List.all_cons, ← allBlank, hback]
    rfl
  rw [dropTrailingLines, trimRight_append_blank hbody hblank, List.drop_left,
    takeWhile_line hgap.flat]
  split
  · rw [List.append_assoc]
  · rename_i hshort
    have hnil : back = [] := by
      rw [← List.length_eq_zero_iff]
      simp only [List.length_append, List.length_cons] at hshort
      omega
    rw [hnil]

/-- Without a line feed after the last visible character nothing is dropped there. -/
lemma dropTrailingLines_gap (hbody : ∀ c ∈ body.getLast?, isBlank c = false) (hgap : Gap gap) :
    dropTrailingLines (body ++ gap) = body ++ gap := by
  rw [dropTrailingLines, trimRight_append_blank hbody hgap.blank, List.drop_left,
    takeWhile_of_not_mem hgap.flat, if_neg (by omega)]

/-- Nothing is dropped around a visible character but on its own side. -/
lemma dropLineEnds_append_cons (hc : isBlank c = false) (front rest : List Char) :
    dropLineEnds (front ++ c :: rest) = dropLineEnds front ++ c :: dropLineEnds rest := by
  have hne : c ≠ ' ' ∧ c ≠ '\t' ∧ c ≠ '\n' := by
    refine ⟨?_, ?_, ?_⟩ <;> rintro rfl <;> exact absurd hc (by decide)
  induction front with
  | nil =>
      rw [List.nil_append, dropLineEnds, dropLineEnds,
        if_neg fun hend => hend.1.elim hne.1 hne.2.1]
      rfl
  | cons d front ih =>
      have hhead : (dropLineEnds front ++ c :: dropLineEnds rest).head? = some '\n' ↔
          (dropLineEnds front).head? = some '\n' := by
        cases dropLineEnds front with
        | nil => simpa using hne.2.2
        | cons => rfl
      rw [List.cons_append, dropLineEnds, ih, dropLineEnds]
      simp only [hhead]
      split <;> rfl

/-! ### The normal form -/

/-- No line feed stands in front of the first visible character, unless it comes first of all. -/
def Headed (cs : List Char) : Prop := '\n' ∉ (cs.takeWhile isBlank).tail

/-- Behind the last visible character there are a gap and no more than one line feed. -/
def Settled (cs : List Char) : Prop :=
  ∃ body gap ending, cs = body ++ (gap ++ ending) ∧ (∀ c ∈ body.getLast?, isBlank c = false) ∧
    Gap gap ∧ (ending = [] ∨ ending = ['\n'])

/-- No space or tab stands in front of a line feed. -/
def Trimmed (cs : List Char) : Prop := ∀ c ∈ [' ', '\t'], ¬ [c, '\n'] <:+: cs

lemma headed_dropLeadingLines (cs : List Char) : Headed (dropLeadingLines cs) := by
  obtain ⟨gap, rest, hgap, hrest, rfl | ⟨front, hfront, rfl⟩⟩ := exists_lead cs
  · rw [dropLeadingLines_gap hgap hrest, Headed, takeWhile_isBlank hgap.blank hrest]
    exact fun hmem => hgap.flat (List.mem_of_mem_tail hmem)
  · rw [dropLeadingLines_lead hfront hgap hrest]
    split
    · rw [Headed, List.takeWhile_cons_of_pos (by decide), List.tail_cons,
        takeWhile_isBlank hgap.blank hrest]
      exact hgap.flat
    · rw [Headed, takeWhile_isBlank hgap.blank hrest]
      exact fun hmem => hgap.flat (List.mem_of_mem_tail hmem)

lemma Headed.dropLeadingLines_eq (h : Headed cs) : dropLeadingLines cs = cs := by
  obtain ⟨gap, rest, hgap, hrest, rfl | ⟨front, hfront, rfl⟩⟩ := exists_lead cs
  · exact dropLeadingLines_gap hgap hrest
  · rw [dropLeadingLines_lead hfront hgap hrest]
    by_cases hnil : front = []
    · rw [if_pos hnil, hnil, List.nil_append]
    · refine absurd ?_ h
      obtain ⟨c, front, rfl⟩ := List.exists_cons_of_ne_nil hnil
      rw [List.takeWhile_append_of_pos (List.all_eq_true.mp hfront),
        List.takeWhile_cons_of_pos (by decide)]
      exact List.mem_append_right _ List.mem_cons_self

lemma Headed.of_front {cs' : List Char} (h : Headed cs) (hkeeps : cs' <+: cs) : Headed cs' := by
  obtain ⟨more, rfl⟩ := hkeeps
  rw [Headed, List.takeWhile_append] at h
  split at h
  · rename_i hall
    rw [Headed, (List.takeWhile_prefix isBlank).eq_of_length hall]
    cases cs' with
    | nil => exact List.not_mem_nil
    | cons c rest => exact fun hmem => h (List.mem_append_left _ hmem)
  · exact h

lemma dropTrailingLines_front (cs : List Char) : dropTrailingLines cs <+: cs := by
  obtain ⟨body, gap, hbody, hgap, rfl | ⟨back, hback, rfl⟩⟩ := exists_tail cs
  · rw [dropTrailingLines_gap hbody hgap]
  · rw [dropTrailingLines_tail hbody hgap hback]
    exact ⟨back, by simp⟩

lemma dropLineEnds_cons (h : '\n' ∉ (dropLineEnds cs).takeWhile isBlank) (c : Char) :
    dropLineEnds (c :: cs) = c :: dropLineEnds cs := by
  rw [dropLineEnds, if_neg]
  rintro ⟨-, hhead⟩
  obtain ⟨more, hmore⟩ := List.head?_eq_some_iff.mp hhead
  rw [hmore, List.takeWhile_cons_of_pos (by decide)] at h
  exact h List.mem_cons_self

/-- Dropping the ends of lines does not touch the blanks at the start of a text, if they are all
within the first line. -/
lemma takeWhile_dropLineEnds (h : '\n' ∉ cs.takeWhile isBlank) :
    (dropLineEnds cs).takeWhile isBlank = cs.takeWhile isBlank := by
  induction cs with
  | nil => rfl
  | cons c rest ih =>
      by_cases hc : isBlank c = true
      · rw [List.takeWhile_cons_of_pos hc, List.mem_cons, not_or] at h
        have hrest := ih h.2
        rw [dropLineEnds_cons (hrest ▸ h.2), List.takeWhile_cons_of_pos hc,
          List.takeWhile_cons_of_pos hc, hrest]
      · have hkept := dropLineEnds_append_cons (Bool.not_eq_true _ ▸ hc) [] rest
        rw [List.nil_append, dropLineEnds, List.nil_append] at hkept
        rw [hkept, List.takeWhile_cons_of_neg hc, List.takeWhile_cons_of_neg hc]

lemma Headed.dropLineEnds (h : Headed cs) : Headed (dropLineEnds cs) := by
  cases cs with
  | nil => exact h
  | cons c rest =>
      by_cases hc : isBlank c = true
      · rw [Headed, List.takeWhile_cons_of_pos hc, List.tail_cons] at h
        have hrest := takeWhile_dropLineEnds h
        rw [dropLineEnds_cons (hrest ▸ h), Headed, List.takeWhile_cons_of_pos hc, List.tail_cons,
          hrest]
        exact h
      · have hkept := dropLineEnds_append_cons (Bool.not_eq_true _ ▸ hc) [] rest
        rw [List.nil_append, Program.dropLineEnds, List.nil_append] at hkept
        rw [hkept, Headed, List.takeWhile_cons_of_neg hc]
        exact List.not_mem_nil

lemma settled_dropTrailingLines (cs : List Char) : Settled (dropTrailingLines cs) := by
  obtain ⟨body, gap, hbody, hgap, rfl | ⟨back, hback, rfl⟩⟩ := exists_tail cs
  · exact ⟨body, gap, [], by rw [dropTrailingLines_gap hbody hgap, List.append_nil], hbody, hgap,
      .inl rfl⟩
  · exact ⟨body, gap, ['\n'], dropTrailingLines_tail hbody hgap hback, hbody, hgap, .inr rfl⟩

lemma Settled.dropTrailingLines_eq (h : Settled cs) : dropTrailingLines cs = cs := by
  obtain ⟨body, gap, ending, rfl, hbody, hgap, rfl | rfl⟩ := h
  · rw [List.append_nil, dropTrailingLines_gap hbody hgap]
  · exact dropTrailingLines_tail hbody hgap rfl

lemma Settled.dropLineEnds (h : Settled cs) : Settled (dropLineEnds cs) := by
  obtain ⟨body, gap, ending, rfl, hbody, hgap, hending⟩ := h
  have htail : ∃ gap', Gap gap' ∧ Program.dropLineEnds (gap ++ ending) = gap' ++ ending := by
    rcases hending with rfl | rfl
    · exact ⟨gap, hgap, by rw [List.append_nil, dropLineEnds_of_not_mem hgap.flat]⟩
    · refine ⟨withoutEnd gap, ⟨?_, fun hmem => hgap.flat (mem_of_mem_withoutEnd hmem)⟩,
        dropLineEnds_line hgap.flat⟩
      rw [allBlank_withoutEnd, hgap.blank]
  obtain ⟨gap', hgap', htail⟩ := htail
  rcases List.eq_nil_or_concat body with rfl | ⟨front, c, rfl⟩
  · exact ⟨[], gap', ending, htail, nofun, hgap', hending⟩
  · have hc : isBlank c = false := hbody c (by simp)
    refine ⟨Program.dropLineEnds front ++ [c], gap', ending, ?_, fun d hd => ?_, hgap', hending⟩
    · rw [List.concat_eq_append, List.append_assoc, List.singleton_append,
        dropLineEnds_append_cons hc, htail, List.append_assoc, List.singleton_append]
    · rw [List.getLast?_concat] at hd
      exact Option.some.inj hd ▸ hc

lemma trimmed_dropLineEnds (cs : List Char) : Trimmed (dropLineEnds cs) := by
  intro x hx
  induction cs with
  | nil => rw [dropLineEnds, List.infix_nil]; exact List.cons_ne_nil _ _
  | cons c rest ih =>
      rw [dropLineEnds]
      split
      · exact ih
      · rename_i hkept
        rw [List.infix_cons_iff, not_or, List.cons_prefix_cons]
        refine ⟨?_, ih⟩
        rintro ⟨rfl, more, hmore⟩
        exact hkept ⟨by simpa using hx, by rw [← hmore]; rfl⟩

lemma Trimmed.dropLineEnds_eq (h : Trimmed cs) : dropLineEnds cs = cs := by
  induction cs with
  | nil => rfl
  | cons c rest ih =>
      rw [dropLineEnds, ih fun x hx hpair => h x hx (List.infix_cons hpair), if_neg]
      rintro ⟨hc, hhead⟩
      obtain ⟨more, rfl⟩ := List.head?_eq_some_iff.mp hhead
      exact h c (by simpa using hc) (List.prefix_append [c, '\n'] more).isInfix

/-- A text as tidying leaves it. -/
structure Tidied (cs : List Char) : Prop where
  headed : Headed cs
  settled : Settled cs
  trimmed : Trimmed cs

lemma tidied_tidyChars (cs : List Char) : Tidied (tidyChars cs) where
  headed := ((headed_dropLeadingLines cs).of_front (dropTrailingLines_front _)).dropLineEnds
  settled := (settled_dropTrailingLines _).dropLineEnds
  trimmed := trimmed_dropLineEnds _

/-- Tidying leaves the normal form as it is. -/
lemma Tidied.tidyChars_eq (h : Tidied cs) : tidyChars cs = cs := by
  rw [tidyChars, h.headed.dropLeadingLines_eq, h.settled.dropTrailingLines_eq,
    h.trimmed.dropLineEnds_eq]

/-- **Tidying twice is tidying once**, whatever the text is made of. -/
theorem tidy_tidy (text : String) : tidy (tidy text) = tidy text := by
  rw [tidy, tidy, String.toList_ofList, (tidied_tidyChars text.toList).tidyChars_eq]

/-! ### The lines of a tidied text -/

/-- The first line of a text that has something visible behind a gap. -/
lemma exists_splitLines_gap (hgap : Gap gap) (hc : isBlank c = false) (rest : List Char) :
    ∃ line more, splitLines (gap ++ c :: rest) = line :: more ∧ allBlank line = false := by
  have hne : c ≠ '\n' := by
    rintro rfl
    exact absurd hc (by decide)
  have hflat : ∀ line, '\n' ∉ line → '\n' ∉ gap ++ c :: line := fun line hline hmem => by
    rcases List.mem_append.mp hmem with hmem | hmem
    · exact hgap.flat hmem
    · exact (List.mem_cons.mp hmem).elim hne.symm hline
  have hsolid : ∀ line, allBlank (gap ++ c :: line) = false := fun line => by
    rw [allBlank_append, allBlank, allBlank, List.all_cons, hc, Bool.false_and, Bool.and_false]
  induction rest using lines_induction with
  | last line hl => exact ⟨_, [], splitLines_of_not_mem (hflat line hl), hsolid line⟩
  | line line rest hl _ =>
      refine ⟨_, splitLines rest, ?_, hsolid line⟩
      rw [← splitLines_line (hflat line hl), List.append_assoc, List.cons_append]

/-- The lines of a blank text are blank. -/
lemma allBlank_of_mem_splitLines (h : allBlank cs = true) :
    ∀ line ∈ splitLines cs, allBlank line = true := by
  induction cs using lines_induction with
  | last line hl =>
      rw [splitLines_of_not_mem hl]
      exact List.forall_mem_singleton.mpr h
  | line line rest hl ih =>
      rw [allBlank_append, allBlank, allBlank, List.all_cons, Bool.and_eq_true,
        Bool.and_eq_true] at h
      rw [splitLines_line hl]
      exact List.forall_mem_cons.mpr ⟨h.1, ih h.2.2⟩

/-- A text without solid lines is blank. -/
lemma solidLines_eq_nil_iff : solidLines cs = [] ↔ allBlank cs = true := by
  have hone : ∀ line, '\n' ∉ line → (solidLines line = [] ↔ allBlank line = true) := by
    intro line hl
    simp [solidLines, splitLines_of_not_mem hl]
  induction cs using lines_induction with
  | last line hl => exact hone line hl
  | line line rest hl ih =>
      have hrest : solidLines rest = [] ↔ allBlank rest = true := ih
      rw [solidLines_append_break, List.append_eq_nil_iff, hone line hl, hrest, ← Bool.and_eq_true,
        allBlank_append, allBlank, allBlank, allBlank, List.all_cons]
      rfl

lemma allBlank_tidyChars (cs : List Char) : allBlank (tidyChars cs) = allBlank cs := by
  rw [Bool.eq_iff_iff, ← solidLines_eq_nil_iff, solidLines_tidyChars, solidLines_eq_nil_iff]

/-- With the lines of blanks at its end, a text does not lose its first character. -/
lemma exists_dropTrailingLines_cons (c : Char) (rest : List Char) :
    ∃ rest', dropTrailingLines (c :: rest) = c :: rest' := by
  have hkeeps := dropTrailingLines_front (c :: rest)
  cases hkept : dropTrailingLines (c :: rest) with
  | nil =>
      obtain hsame | ⟨kept, -, -, hdropped, -⟩ := dropTrailingLines_eq_or (c :: rest)
      · exact absurd (hsame.symm.trans hkept) (List.cons_ne_nil _ _)
      · exact absurd (hdropped.symm.trans hkept)
          (List.append_ne_nil_of_right_ne_nil _ (List.cons_ne_nil _ _))
  | cons d more =>
      rw [hkept, List.cons_prefix_cons] at hkeeps
      exact ⟨more, by rw [hkeeps.1]⟩

/-- What the first step leaves in front of the first visible character stays there. -/
lemma exists_tidyChars_eq (h : dropLeadingLines cs = front ++ c :: rest)
    (hfront : '\n' ∉ front.tail) (hc : isBlank c = false) :
    ∃ rest', tidyChars cs = front ++ c :: rest' := by
  have hsolid : allBlank (c :: rest) = false := by rw [allBlank, List.all_cons, hc, Bool.false_and]
  obtain ⟨rest', hrest'⟩ := exists_dropTrailingLines_cons c rest
  have hkept : dropLineEnds front = front := by
    cases front with
    | nil => rfl
    | cons d flat =>
        have hflat : dropLineEnds flat = flat := dropLineEnds_of_not_mem hfront
        rw [dropLineEnds_cons, hflat]
        rw [hflat]
        exact fun hmem => hfront ((List.takeWhile_prefix isBlank).subset hmem)
  refine ⟨dropLineEnds rest', ?_⟩
  rw [tidyChars, h, dropTrailingLines_append hsolid, hrest', dropLineEnds_append_cons hc, hkept]

/-- A text that is not blank has something visible behind the blanks at its start. -/
lemma exists_lead_cons (h : allBlank cs = false) : ∃ gap c rest, Gap gap ∧ isBlank c = false ∧
    (cs = gap ++ c :: rest ∨
      ∃ front, allBlank front = true ∧ cs = front ++ '\n' :: (gap ++ c :: rest)) := by
  obtain ⟨gap, rest, hgap, hrest, hcs⟩ := exists_lead cs
  cases rest with
  | cons c rest => exact ⟨gap, c, rest, hgap, hrest c rfl, hcs⟩
  | nil =>
      refine absurd h ?_
      rcases hcs with rfl | ⟨front, hfront, rfl⟩
      · rw [List.append_nil, hgap.blank]
        decide
      · rw [List.append_nil, allBlank_append, hfront, allBlank, List.all_cons, ← allBlank,
          hgap.blank]
        decide

/-- Behind an empty first line, other blanks in front of a line feed begin with a blank line. -/
lemma allBlank_second {next : List Char} {more : List (List Char)} (hfront : allBlank front = true)
    (hnil : front ≠ [])
    (h : splitLines (front ++ '\n' :: rest) = [] :: next :: more) : allBlank next = true := by
  have hlines := allBlank_of_mem_splitLines hfront
  have hjoin := joinLines_splitLines front
  rw [splitLines_append_break] at h
  match hsplit : splitLines front, splitLines_ne_nil front with
  | [line], _ =>
      rw [hsplit] at h hjoin
      obtain rfl := (List.cons.inj h).1
      exact absurd hjoin.symm hnil
  | line :: second :: others, _ =>
      rw [hsplit] at h hlines
      obtain rfl := (List.cons.inj (List.cons.inj h).2).1
      exact hlines second (List.mem_cons_of_mem _ List.mem_cons_self)

/-- The first line of a tidied text is blank only where a single line feed stands in front of the
first line that is not. -/
lemma firstLine_tidyChars (h : allBlank cs = false) :
    ∃ first more, splitLines (tidyChars cs) = first :: more ∧
      (allBlank first = true ↔
        ∃ next more, splitLines cs = [] :: next :: more ∧ allBlank next = false) := by
  obtain ⟨gap, c, rest, hgap, hc, hcs⟩ := exists_lead_cons h
  have hhead : ∀ d ∈ (c :: rest).head?, isBlank d = false := fun d hd => Option.some.inj hd ▸ hc
  have hflat : '\n' ∉ gap.tail := fun hmem => hgap.flat (List.mem_of_mem_tail hmem)
  rcases hcs with rfl | ⟨front, hfront, rfl⟩
  · -- nothing is dropped, and the first line is not blank
    obtain ⟨rest', htidy⟩ := exists_tidyChars_eq (dropLeadingLines_gap hgap hhead) hflat hc
    obtain ⟨first, more, hlines, hfirst⟩ := exists_splitLines_gap hgap hc rest'
    obtain ⟨line, others, hline, hsolid⟩ := exists_splitLines_gap hgap hc rest
    refine ⟨first, more, by rw [htidy, hlines], ?_⟩
    rw [hfirst, hline]
    refine ⟨nofun, ?_⟩
    rintro ⟨next, more, hempty, -⟩
    obtain rfl := (List.cons.inj hempty).1
    exact nomatch hsolid
  by_cases hnil : front = []
  · -- the line feed at the start is all there is, and it is kept
    subst hnil
    have hdrop : dropLeadingLines ([] ++ '\n' :: (gap ++ c :: rest)) =
      ('\n' :: gap) ++ c :: rest := dropLeadingLines_lead hfront hgap hhead
    obtain ⟨rest', htidy⟩ := exists_tidyChars_eq hdrop hgap.flat hc
    obtain ⟨next, more, hlines, hnext⟩ := exists_splitLines_gap hgap hc rest
    refine ⟨[], splitLines (gap ++ c :: rest'), by rw [htidy]; rfl, ?_⟩
    exact ⟨fun _ => ⟨next, more, congrArg ([] :: ·) hlines, hnext⟩, fun _ => rfl⟩
  · -- whole lines are dropped, and what comes behind them is not blank
    have hdrop := dropLeadingLines_lead hfront hgap hhead
    rw [if_neg hnil] at hdrop
    obtain ⟨rest', htidy⟩ := exists_tidyChars_eq hdrop hflat hc
    obtain ⟨first, more, hlines, hfirst⟩ := exists_splitLines_gap hgap hc rest'
    refine ⟨first, more, by rw [htidy, hlines], ?_⟩
    rw [hfirst]
    refine ⟨nofun, ?_⟩
    rintro ⟨next, others, hempty, hnext⟩
    rw [allBlank_second hfront hnil hempty] at hnext
    exact nomatch hnext

/-- **Tidying cleans the start, the end and the lines of a text** that is not blank. Its first line
is then not blank, unless the text begins with a single line feed and a line that is not blank. At
most one line feed follows the last visible character, and it ends the text. No space or tab stands
in front of a line feed. The lines that are not blank are those of the text, one after the other,
apart from spaces and tabs at their ends. -/
theorem tidy_lines (text : String) (h : allBlank text.toList = false) :
    (∃ first more, splitLines (tidy text).toList = first :: more ∧
      (allBlank first = true ↔
        ∃ next more, splitLines text.toList = [] :: next :: more ∧ allBlank next = false)) ∧
    (∃ front c gap ending, (tidy text).toList = front ++ c :: (gap ++ ending) ∧
      isBlank c = false ∧ allBlank gap = true ∧ '\n' ∉ gap ∧ (ending = [] ∨ ending = ['\n'])) ∧
    (∀ c ∈ [' ', '\t'], ¬ [c, '\n'] <:+: (tidy text).toList) ∧
    solidLines (tidy text).toList = solidLines text.toList := by
  rw [tidy, String.toList_ofList]
  have htidied := tidied_tidyChars text.toList
  refine ⟨firstLine_tidyChars h, ?_, htidied.trimmed, solidLines_tidyChars _⟩
  obtain ⟨body, gap, ending, hbody, hlast, hgap, hending⟩ := htidied.settled
  rcases List.eq_nil_or_concat body with rfl | ⟨front, c, rfl⟩
  · -- without a visible character the text would be blank
    refine absurd (allBlank_tidyChars text.toList) ?_
    rw [h, hbody, List.nil_append, allBlank_append, hgap.blank]
    rcases hending with rfl | rfl <;> decide
  · refine ⟨front, c, gap, ending, ?_, hlast c (by simp), hgap.blank, hgap.flat, hending⟩
    rw [hbody, List.concat_eq_append, List.append_assoc, List.singleton_append]

/-- Blank lines around three lines, one of them within a line of blanks. -/
def raggedText : String := " \x0c\n\n  a \t\n \t\n\x0cb \x0c \n \n"

/-- Form feeds are kept at the ends of lines, and the blanks at the start of the first one. -/
theorem tidy_lines_raggedText :
    tidy raggedText = "  a\n\n\x0cb \x0c\n" ∧ allBlank raggedText.toList = false ∧
    (∃ first more, splitLines (tidy raggedText).toList = first :: more ∧
      (allBlank first = true ↔ ∃ next more, splitLines raggedText.toList = [] :: next :: more ∧
        allBlank next = false)) ∧
    (∃ front c gap ending, (tidy raggedText).toList = front ++ c :: (gap ++ ending) ∧
      isBlank c = false ∧ allBlank gap = true ∧ '\n' ∉ gap ∧ (ending = [] ∨ ending = ['\n'])) ∧
    (∀ c ∈ [' ', '\t'], ¬ [c, '\n'] <:+: (tidy raggedText).toList) ∧
    solidLines (tidy raggedText).toList = solidLines raggedText.toList :=
  ⟨by decide +kernel, by decide +kernel, tidy_lines raggedText (by decide +kernel)⟩

/-- A single line feed at the start is kept, and the first line is empty. -/
example : tidy "\nx" = "\nx" := by decide +kernel

end Program

end Blockscribe
