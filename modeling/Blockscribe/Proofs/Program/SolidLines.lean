/-
Assembling a program keeps every line that is not blank.

* `Text.solidLines`: the lines of a text that are not blank, without the spaces and tabs at their
  ends. A line feed between two texts parts their solid lines (`solidLines_append_break`).
* `solidLines_squeeze`, `solidLines_dropLeadingLines`, `solidLines_dropTrailingLines`,
  `solidLines_dropLineEnds`: no step of the layout loses a solid line or glues two of them together,
  so neither does `collapse` (`solidLines_collapseChars`) nor `tidy` (`solidLines_tidyChars`).
* `Program.ImportLine`: the texts with an import at their start, as a pattern; `isImport_iff` says
  that these are the definitions which the assembly puts first.
* `solidLines_preamble`, `finish_solidLines`: the solid lines of a program are those of its imports,
  of its other definitions and of its entry point, one after the other.
-/
import Blockscribe.Proofs.Program.Tidy

namespace Blockscribe

namespace Text

variable {a b cs line rest : List Char} {c : Char}

/-! ### Lines one by one -/

/-- A property of all texts holds if it holds of a text within one line, and of a text that begins
with a line whenever it holds of what follows that line. -/
@[elab_as_elim]
theorem lines_induction {P : List Char → Prop} (last : ∀ line, '\n' ∉ line → P line)
    (line : ∀ line rest, '\n' ∉ line → P rest → P (line ++ '\n' :: rest)) (cs : List Char) :
    P cs := by
  obtain ⟨a, b, rfl, ha, hb⟩ := exists_ended_append cs
  induction ha with
  | nil => exact last b hb
  | @line l rest hl _ ih =>
      rw [List.append_assoc]
      exact line l (rest ++ b) hl ih

/-- A line feed parts the lines before it from those after it. -/
lemma splitLines_append_break (a b : List Char) :
    splitLines (a ++ '\n' :: b) = splitLines a ++ splitLines b := by
  induction a using lines_induction with
  | last line h => rw [splitLines_line h, splitLines_of_not_mem h, List.singleton_append]
  | line line rest h ih =>
      rw [List.append_assoc, List.cons_append, splitLines_line h, splitLines_line h, ih,
        List.cons_append]

/-! ### Solid lines -/

/-- The lines of a text that are not blank, without the spaces and tabs at their ends. -/
def solidLines (cs : List Char) : List (List Char) :=
  ((splitLines cs).filter fun line => !allBlank line).map withoutEnd

/-- A line feed parts the solid lines before it from those after it. -/
lemma solidLines_append_break (a b : List Char) :
    solidLines (a ++ '\n' :: b) = solidLines a ++ solidLines b := by
  simp only [solidLines, splitLines_append_break, List.filter_append, List.map_append]

lemma allBlank_append (a b : List Char) : allBlank (a ++ b) = (allBlank a && allBlank b) :=
  List.all_append

/-- A blank text has no solid line. -/
lemma solidLines_of_allBlank (h : allBlank cs = true) : solidLines cs = [] := by
  induction cs using lines_induction with
  | last line hl => simp [solidLines, splitLines_of_not_mem hl, h]
  | line line rest hl ih =>
      rw [allBlank_append, Bool.and_eq_true, allBlank, allBlank, List.all_cons,
        Bool.and_eq_true] at h
      rw [solidLines_append_break, ih h.2.2, List.append_nil]
      simp [solidLines, splitLines_of_not_mem hl, allBlank, h.1]

/-- Blank lines behind a text make no difference. -/
lemma solidLines_append_blank (a : List Char) (h : allBlank b = true) :
    solidLines (a ++ '\n' :: b) = solidLines a := by
  rw [solidLines_append_break, solidLines_of_allBlank h, List.append_nil]

/-- Blank lines in front of a text make no difference. -/
lemma solidLines_blank_append (h : allBlank a = true) (b : List Char) :
    solidLines (a ++ '\n' :: b) = solidLines b := by
  rw [solidLines_append_break, solidLines_of_allBlank h, List.nil_append]

/-! ### The ends of lines -/

lemma allBlank_withoutEnd (line : List Char) : allBlank (withoutEnd line) = allBlank line := by
  obtain ⟨blanks, hline, hblank⟩ := exists_eq_withoutEnd_append line
  conv_rhs => rw [hline, allBlank_append, hblank, Bool.and_true]

lemma withoutEnd_withoutEnd (line : List Char) : withoutEnd (withoutEnd line) = withoutEnd line := by
  induction line with
  | nil => rfl
  | cons c rest ih =>
      by_cases hc : (c = ' ' ∨ c = '\t') ∧ withoutEnd rest = []
      · rw [withoutEnd, if_pos hc]
        rfl
      · rw [withoutEnd, if_neg hc, withoutEnd, ih, if_neg hc]

lemma solidLines_withoutEnd (h : '\n' ∉ line) :
    solidLines (withoutEnd line) = solidLines line := by
  have hend : '\n' ∉ withoutEnd line := fun hmem => h (mem_of_mem_withoutEnd hmem)
  rw [solidLines, solidLines, splitLines_of_not_mem h, splitLines_of_not_mem hend,
    List.filter_cons, List.filter_cons, allBlank_withoutEnd]
  split
  · exact congrArg (fun l => [l]) (withoutEnd_withoutEnd line)
  · rfl

end Text

namespace Program

open Text

variable {cs line rest : List Char}

/-! ### The steps of the layout -/

/-- Within a line nothing is shortened. -/
lemma squeeze_line (h : '\n' ∉ line) (hne : line ≠ []) (run : ℕ) (rest : List Char) :
    squeeze run (line ++ rest) = line ++ squeeze 0 rest := by
  induction line generalizing run with
  | nil => exact absurd rfl hne
  | cons c line ih =>
      rw [List.mem_cons, not_or] at h
      rw [List.cons_append, squeeze, if_neg (Ne.symm h.1), List.cons_append]
      by_cases hline : line = []
      · rw [hline, List.nil_append, List.nil_append]
      · rw [ih h.2 hline]

/-- Shortening runs of line feeds drops empty lines only. -/
lemma solidLines_squeeze (run : ℕ) (cs : List Char) :
    solidLines (squeeze run cs) = solidLines cs := by
  induction cs using lines_induction generalizing run with
  | last line h =>
      by_cases hne : line = []
      · rw [hne, squeeze]
      · rw [← List.append_nil line, squeeze_line h hne, squeeze]
  | line line rest h ih =>
      by_cases hne : line = []
      · have hempty : ∀ cs, solidLines ('\n' :: cs) = solidLines cs := solidLines_append_break []
        rw [hne, List.nil_append, squeeze, if_pos rfl, hempty]
        split
        · exact ih run
        · rw [hempty, ih]
      · rw [squeeze_line h hne, squeeze, if_pos rfl, if_neg (by omega), solidLines_append_break,
          solidLines_append_break, ih]

/-- What is dropped at the end of a text are line feeds. -/
lemma exists_eq_dropLastBreaks_append (cs : List Char) :
    ∃ breaks, cs = dropLastBreaks cs ++ breaks ∧ ∀ c ∈ breaks, c = '\n' := by
  refine ⟨(cs.reverse.takeWhile (· = '\n')).reverse, ?_, fun c hc => ?_⟩
  · rw [dropLastBreaks, ← List.reverse_append, List.takeWhile_append_dropWhile,
      List.reverse_reverse]
  · simpa using List.mem_takeWhile_imp (List.mem_reverse.mp hc)

lemma solidLines_dropLastBreaks (cs : List Char) :
    solidLines (dropLastBreaks cs) = solidLines cs := by
  obtain ⟨breaks, hcs, hbreaks⟩ := exists_eq_dropLastBreaks_append cs
  conv_rhs => rw [hcs]
  cases breaks with
  | nil => rw [List.append_nil]
  | cons c more =>
      obtain rfl := hbreaks c List.mem_cons_self
      refine (solidLines_append_blank _ (List.all_eq_true.mpr fun d hd => ?_)).symm
      obtain rfl := hbreaks d (List.mem_cons_of_mem _ hd)
      decide

/-- Collapsing runs of empty lines keeps the solid lines, and parts them from those of any text that
follows. -/
lemma solidLines_collapseChars (cs rest : List Char) :
    solidLines (collapseChars cs ++ rest) = solidLines cs ++ solidLines rest := by
  calc solidLines (collapseChars cs ++ rest)
      = solidLines (dropLastBreaks (squeeze 0 cs) ++ '\n' :: (['\n'] ++ '\n' :: rest)) := by
        rw [collapseChars, List.append_assoc]
        rfl
    _ = solidLines (dropLastBreaks (squeeze 0 cs)) ++ solidLines rest := by
        rw [solidLines_append_break, solidLines_blank_append (by decide)]
    _ = solidLines cs ++ solidLines rest := by
        rw [solidLines_dropLastBreaks, solidLines_squeeze]

/-- What stands behind the first line of a text, if anything, begins with a line feed. -/
lemma exists_eq_break_cons (hne : cs.dropWhile (· ≠ '\n') ≠ []) :
    ∃ more, cs.dropWhile (· ≠ '\n') = '\n' :: more := by
  obtain ⟨c, more, hrest⟩ := List.exists_cons_of_ne_nil hne
  have hhead := List.head?_dropWhile_not (· ≠ '\n') cs
  rw [hrest, List.head?_cons] at hhead
  obtain rfl : c = '\n' := by simpa using hhead
  exact ⟨more, hrest⟩

/-- A text up to its last line feed, and what stands behind it. -/
lemma exists_eq_append_lastLine (cs : List Char) :
    ∃ front, cs = front ++ (cs.reverse.takeWhile (· ≠ '\n')).reverse ∧
      (front ≠ [] → ∃ before, front = before ++ ['\n']) := by
  refine ⟨(cs.reverse.dropWhile (· ≠ '\n')).reverse, ?_, fun hne => ?_⟩
  · rw [← List.reverse_append, List.takeWhile_append_dropWhile, List.reverse_reverse]
  · obtain ⟨more, hmore⟩ := exists_eq_break_cons fun hnil => hne (List.reverse_eq_nil_iff.mpr hnil)
    exact ⟨more.reverse, hmore ▸ List.reverse_cons⟩

/-- What is dropped at the start of a text are whole lines that are blank. -/
lemma dropLeadingLines_eq_or (cs : List Char) :
    dropLeadingLines cs = cs ∨
      ∃ blanks, allBlank blanks = true ∧ cs = blanks ++ '\n' :: dropLeadingLines cs := by
  obtain ⟨front, hlead, hfront⟩ := exists_eq_append_lastLine (cs.takeWhile isBlank)
  have hlength := congrArg List.length hlead
  rw [List.length_append, List.length_reverse] at hlength
  have hthrough : (cs.takeWhile isBlank).length -
      ((cs.takeWhile isBlank).reverse.takeWhile (· ≠ '\n')).length = front.length := by omega
  have hcs : ∃ rest, cs = front ++ rest := by
    have hparts := (List.takeWhile_append_dropWhile (p := isBlank) (l := cs)).symm
    rw [hlead, List.append_assoc] at hparts
    exact ⟨_, hparts⟩
  obtain ⟨rest, hrest⟩ := hcs
  have hdrop : dropLeadingLines cs = if front.length ≥ 2 then rest else cs := by
    rw [dropLeadingLines, hthrough]
    split
    · conv_lhs => rw [hrest, List.drop_left]
    · rfl
  by_cases hlong : front.length ≥ 2
  · obtain ⟨blanks, rfl⟩ := hfront fun hnil => absurd hlong (by rw [hnil]; decide)
    refine .inr ⟨blanks, List.all_eq_true.mpr fun c hc => ?_, ?_⟩
    · refine List.mem_takeWhile_imp (l := cs) ?_
      rw [hlead]
      exact List.mem_append_left _ (List.mem_append_left _ hc)
    · rw [hdrop, if_pos hlong]
      rwa [List.append_assoc] at hrest
  · exact .inl (by rw [hdrop, if_neg hlong])

lemma solidLines_dropLeadingLines (cs : List Char) :
    solidLines (dropLeadingLines cs) = solidLines cs := by
  obtain hsame | ⟨blanks, hblank, hcs⟩ := dropLeadingLines_eq_or cs
  · rw [hsame]
  · conv_rhs => rw [hcs, solidLines_blank_append hblank]

lemma exists_eq_trimRight_append (cs : List Char) :
    ∃ blanks, cs = trimRight cs ++ blanks ∧ allBlank blanks = true := by
  refine ⟨(cs.reverse.takeWhile isBlank).reverse, ?_, List.all_eq_true.mpr fun c hc => ?_⟩
  · rw [trimRight, ← List.reverse_append, List.takeWhile_append_dropWhile, List.reverse_reverse]
  · exact List.mem_takeWhile_imp (List.mem_reverse.mp hc)

/-- What is dropped at the end of a text stands behind a line feed and is blank. -/
lemma dropTrailingLines_eq_or (cs : List Char) :
    dropTrailingLines cs = cs ∨
      ∃ kept blanks, allBlank blanks = true ∧ dropTrailingLines cs = kept ++ ['\n'] ∧
        cs = kept ++ '\n' :: blanks := by
  obtain ⟨blanks, hcs, hblank⟩ := exists_eq_trimRight_append cs
  have htail : cs.drop (trimRight cs).length = blanks := by
    have hdrop : (trimRight cs ++ blanks).drop (trimRight cs).length = blanks := List.drop_left
    rwa [← hcs] at hdrop
  have hline := List.takeWhile_append_dropWhile (p := (· ≠ '\n')) (l := blanks)
  rw [dropTrailingLines, htail]
  by_cases hlong : blanks.length > (blanks.takeWhile (· ≠ '\n')).length + 1
  · have hne : blanks.dropWhile (· ≠ '\n') ≠ [] := fun hnil => by
      rw [hnil, List.append_nil] at hline
      rw [hline] at hlong
      omega
    obtain ⟨more, hmore⟩ := exists_eq_break_cons hne
    rw [hmore] at hline
    refine .inr ⟨trimRight cs ++ blanks.takeWhile (· ≠ '\n'), more, ?_, if_pos hlong, ?_⟩
    · rw [← hline, allBlank_append, Bool.and_eq_true, allBlank, allBlank, List.all_cons,
        Bool.and_eq_true] at hblank
      exact hblank.2.2
    · rw [List.append_assoc, hline, ← hcs]
  · exact .inl (if_neg hlong)

lemma solidLines_dropTrailingLines (cs : List Char) :
    solidLines (dropTrailingLines cs) = solidLines cs := by
  obtain hsame | ⟨kept, blanks, hblank, hdropped, hcs⟩ := dropTrailingLines_eq_or cs
  · rw [hsame]
  · rw [hdropped, solidLines_append_blank kept (by rfl)]
    conv_rhs => rw [hcs, solidLines_append_blank kept hblank]

/-- The last line keeps its end. -/
lemma dropLineEnds_of_not_mem (h : '\n' ∉ line) : dropLineEnds line = line := by
  induction line with
  | nil => rfl
  | cons c line ih =>
      rw [List.mem_cons, not_or] at h
      rw [dropLineEnds, ih h.2]
      refine if_neg fun hc => h.2 ?_
      exact List.mem_of_mem_head? hc.2

lemma solidLines_dropLineEnds (cs : List Char) :
    solidLines (dropLineEnds cs) = solidLines cs := by
  induction cs using lines_induction with
  | last line h => rw [dropLineEnds_of_not_mem h]
  | line line rest h ih =>
      rw [dropLineEnds_line h, solidLines_append_break, solidLines_append_break, ih,
        solidLines_withoutEnd h]

/-- Tidying a text keeps its solid lines. -/
lemma solidLines_tidyChars (cs : List Char) : solidLines (tidyChars cs) = solidLines cs := by
  rw [tidyChars, solidLines_dropLineEnds, solidLines_dropTrailingLines,
    solidLines_dropLeadingLines]

/-! ### Import lines -/

/-- The pattern `import`, blanks, something visible, at the start of a text. -/
def ImportStatement (cs : List Char) : Prop :=
  ∃ gap c rest, cs = "import".toList ++ (gap ++ c :: rest) ∧ gap ≠ [] ∧ allBlank gap = true ∧
    isBlank c = false

/-- The pattern `from`, blanks, a module, blanks and an import, at the start of a text. -/
def FromStatement (cs : List Char) : Prop :=
  ∃ gap name gap' rest, cs = "from".toList ++ (gap ++ (name ++ (gap' ++ rest))) ∧
    gap ≠ [] ∧ allBlank gap = true ∧ name ≠ [] ∧ (∀ c ∈ name, isBlank c = false) ∧
    gap' ≠ [] ∧ allBlank gap' = true ∧ ImportStatement rest

/-- The pattern of an import line, at the start of a text. -/
def ImportLine (cs : List Char) : Prop := ImportStatement cs ∨ FromStatement cs

lemma afterWord?_eq_some_iff {word : List Char} :
    afterWord? word cs = some rest ↔ cs = word ++ rest := by
  rw [afterWord?, Option.ite_none_right_eq_some, List.isPrefixOf_iff_prefix, Option.some.injEq]
  constructor
  · rintro ⟨⟨more, rfl⟩, rfl⟩
    rw [List.drop_left]
  · rintro rfl
    exact ⟨List.prefix_append _ _, List.drop_left⟩

lemma trimLeft_append {gap : List Char} (hgap : allBlank gap = true)
    (hrest : ∀ c ∈ rest.head?, isBlank c = false) : trimLeft (gap ++ rest) = rest := by
  rw [trimLeft, List.dropWhile_append_of_pos (List.all_eq_true.mp hgap)]
  cases rest with
  | nil => rfl
  | cons c more => exact List.dropWhile_cons_of_neg (by rw [hrest c rfl]; decide)

/-- All blanks are taken, and at least one. -/
lemma afterBlanks?_eq_some_iff :
    afterBlanks? cs = some rest ↔
      ∃ gap, cs = gap ++ rest ∧ gap ≠ [] ∧ allBlank gap = true ∧
        ∀ c ∈ rest.head?, isBlank c = false := by
  cases cs with
  | nil => simp [afterBlanks?]
  | cons c more =>
      rw [afterBlanks?, Option.ite_none_right_eq_some, Option.some.injEq]
      constructor
      · rintro ⟨hc, rfl⟩
        refine ⟨c :: more.takeWhile isBlank, ?_, List.cons_ne_nil _ _, ?_, fun d hd => ?_⟩
        · rw [trimLeft, List.cons_append, List.takeWhile_append_dropWhile]
        · rw [allBlank, List.all_cons, hc, Bool.true_and, List.all_eq_true]
          exact fun d hd => List.mem_takeWhile_imp hd
        · have hhead := List.head?_dropWhile_not isBlank more
          rw [trimLeft] at hd
          rwa [Option.mem_def.mp hd] at hhead
      · rintro ⟨gap, hcs, hne, hblank, hrest⟩
        obtain ⟨d, gap, rfl⟩ := List.exists_cons_of_ne_nil hne
        obtain ⟨rfl, rfl⟩ := List.cons.inj hcs
        rw [allBlank, List.all_cons, Bool.and_eq_true] at hblank
        exact ⟨hblank.1, trimLeft_append hblank.2 hrest⟩

lemma startsImport_iff : startsImport cs = true ↔ ImportStatement cs := by
  have hmatch : startsImport cs = true ↔
      ∃ c rest, (afterWord? "import".toList cs).bind afterBlanks? = some (c :: rest) := by
    rw [startsImport]
    split
    · rename_i c rest hfound
      exact ⟨fun _ => ⟨c, rest, hfound⟩, fun _ => rfl⟩
    · rename_i hnone
      exact ⟨nofun, fun ⟨c, rest, hfound⟩ => absurd hfound (hnone c rest)⟩
  simp only [hmatch, Option.bind_eq_some_iff, afterWord?_eq_some_iff, afterBlanks?_eq_some_iff]
  constructor
  · rintro ⟨c, rest, _, rfl, gap, rfl, hne, hblank, hhead⟩
    exact ⟨gap, c, rest, rfl, hne, hblank, hhead c rfl⟩
  · rintro ⟨gap, c, rest, rfl, hne, hblank, hc⟩
    exact ⟨c, rest, _, rfl, gap, rfl, hne, hblank, fun d hd => Option.some.inj hd ▸ hc⟩

lemma ImportStatement.head?_eq (h : ImportStatement cs) : cs.head? = some 'i' := by
  obtain ⟨gap, c, rest, rfl, -⟩ := h
  rfl

/-- A module is read up to the first blank. -/
lemma startsFromImport_iff : startsFromImport cs = true ↔ FromStatement cs := by
  have hmatch : startsFromImport cs = true ↔
      ∃ c rest tail, (afterWord? "from".toList cs).bind afterBlanks? = some (c :: rest) ∧
        afterBlanks? ((c :: rest).dropWhile fun d => !isBlank d) = some tail ∧
        startsImport tail = true := by
    rw [startsFromImport]
    split
    · rename_i c rest hfound
      split
      · rename_i tail htail
        refine ⟨fun hstarts => ⟨c, rest, tail, hfound, htail, hstarts⟩, ?_⟩
        rintro ⟨c', rest', tail', hfound', htail', hstarts⟩
        obtain ⟨rfl, rfl⟩ := List.cons.inj (Option.some.inj (hfound.symm.trans hfound'))
        obtain rfl := Option.some.inj (htail.symm.trans htail')
        exact hstarts
      · rename_i hnone
        refine ⟨nofun, ?_⟩
        rintro ⟨c', rest', tail', hfound', htail', -⟩
        obtain ⟨rfl, rfl⟩ := List.cons.inj (Option.some.inj (hfound.symm.trans hfound'))
        exact nomatch hnone.symm.trans htail'
    · rename_i hnone
      exact ⟨nofun, fun ⟨c, rest, _, hfound, _⟩ => absurd hfound (hnone c rest)⟩
  simp only [hmatch, Option.bind_eq_some_iff, afterWord?_eq_some_iff, startsImport_iff,
    FromStatement]
  constructor
  · rintro ⟨c, rest, tail, ⟨_, rfl, hgap⟩, hgap', htail⟩
    obtain ⟨gap, rfl, hne, hblank, hhead⟩ := afterBlanks?_eq_some_iff.mp hgap
    obtain ⟨gap', hrest, hne', hblank', -⟩ := afterBlanks?_eq_some_iff.mp hgap'
    refine ⟨gap, (c :: rest).takeWhile fun d => !isBlank d, gap', tail, ?_, hne, hblank, ?_,
      fun d hd => ?_, hne', hblank', htail⟩
    · rw [← hrest, List.takeWhile_append_dropWhile]
    · rw [List.takeWhile_cons_of_pos (by rw [hhead c rfl]; rfl)]
      exact List.cons_ne_nil _ _
    · simpa using List.mem_takeWhile_imp hd
  · rintro ⟨gap, name, gap', rest, rfl, hne, hblank, hname, hvisible, hne', hblank', hrest⟩
    obtain ⟨c, name, rfl⟩ := List.exists_cons_of_ne_nil hname
    refine ⟨c, name ++ (gap' ++ rest), rest, ⟨_, rfl, afterBlanks?_eq_some_iff.mpr
      ⟨gap, rfl, hne, hblank, ?_⟩⟩, afterBlanks?_eq_some_iff.mpr ⟨gap', ?_, hne', hblank', ?_⟩,
      hrest⟩
    · exact fun d hd => Option.some.inj hd ▸ hvisible c List.mem_cons_self
    · rw [← List.cons_append, List.dropWhile_append_of_pos fun d hd => by rw [hvisible d hd]; rfl]
      obtain ⟨d, gap', rfl⟩ := List.exists_cons_of_ne_nil hne'
      rw [allBlank, List.all_cons, Bool.and_eq_true] at hblank'
      rw [List.cons_append, List.dropWhile_cons_of_neg (by rw [hblank'.1]; decide)]
    · rw [hrest.head?_eq]
      exact fun d hd => Option.some.inj hd ▸ (by decide)

/-- The definitions that are put first are those with an import at their start. -/
theorem isImport_iff (text : String) : isImport text = true ↔ ImportLine text.toList := by
  rw [isImport, Bool.or_eq_true, startsImport_iff, startsFromImport_iff, ImportLine]

instance (text : String) : Decidable (ImportLine text.toList) :=
  decidable_of_iff _ (isImport_iff text)

/-! ### The program -/

/-- The solid lines of texts that are put together with line feeds. -/
lemma solidLines_intercalate {sep : String}
    (hsep : ∀ a b, solidLines (a ++ (sep.toList ++ b)) = solidLines a ++ solidLines b)
    (texts : List String) :
    solidLines (sep.intercalate texts).toList =
      texts.flatMap fun text => solidLines text.toList := by
  induction texts with
  | nil => rfl
  | cons text more ih =>
      cases more with
      | nil => rw [String.intercalate_singleton, List.flatMap_singleton]
      | cons next more =>
          rw [String.intercalate_cons_cons, String.toList_append, String.toList_append,
            List.append_assoc, hsep, ih, List.flatMap_cons (x := text)]

/-- The solid lines of the definitions: those of the imports, then those of the rest; they are
parted from those of any text that follows. -/
lemma solidLines_preamble (d : Definitions) (rest : List Char) :
    solidLines ((preamble d).toList ++ rest) =
      (imports d).flatMap (fun text => solidLines text.toList) ++
        (routines d).flatMap (fun text => solidLines text.toList) ++ solidLines rest := by
  have hone : ∀ a b, solidLines (a ++ ("\n".toList ++ b)) = solidLines a ++ solidLines b :=
    solidLines_append_break
  have htwo : ∀ a b, solidLines (a ++ ("\n\n".toList ++ b)) = solidLines a ++ solidLines b :=
    fun a b => (hone a _).trans (congrArg (solidLines a ++ ·) (hone [] b))
  rw [preamble, collapse, String.toList_ofList, solidLines_collapseChars, String.toList_append,
    String.toList_append, List.append_assoc, htwo, solidLines_intercalate hone,
    solidLines_intercalate htwo]

/-- **Assembling a program loses, duplicates and reorders nothing.** In every state of a run, and
for every body, the program's lines that are not blank, without the spaces and tabs at their ends,
are those of the definitions with an import at their start, those of the other definitions and those
of the entry point: the definitions in the order in which they were made, all lines of each. -/
theorem finish_solidLines (style : Style) (declared : List String) (body : String) (s : Run) :
    ∃ text entry t,
      (finish style declared body).run s = .ok text t ∧
      (entryPoint style declared body).run s = .ok entry t ∧
      solidLines text.toList =
        ((s.definitions.entries.map Prod.snd).filter fun text => ImportLine text.toList).flatMap
            (fun text => solidLines text.toList) ++
          ((s.definitions.entries.map Prod.snd).filter fun text =>
              ¬ ImportLine text.toList).flatMap (fun text => solidLines text.toList) ++
          solidLines entry.toList := by
  obtain ⟨entry, t, hentry⟩ : ∃ entry t, (entryPoint style declared body).run s = .ok entry t := by
    rw [entryPoint]
    split <;> exact ⟨_, _, rfl⟩
  refine ⟨tidy (preamble s.definitions ++ entry), entry, t, ?_, hentry, ?_⟩
  · have hrun : (finish style declared body).run s =
        ((do
          let entry ← entryPoint style declared body
          return tidy (preamble s.definitions ++ entry)) : Running String).run s := rfl
    rw [hrun, EStateM.run_bind, hentry]
    rfl
  · have hdecide : ∀ text : String, decide (ImportLine text.toList) = isImport text := fun text => by
      rw [Bool.eq_iff_iff, decide_eq_true_eq, isImport_iff]
    simp only [decide_not, hdecide]
    rw [tidy, String.toList_ofList, solidLines_tidyChars, String.toList_append,
      solidLines_preamble, imports, routines]

end Program

end Blockscribe
