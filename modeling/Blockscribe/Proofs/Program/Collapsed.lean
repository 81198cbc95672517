/-
The normal form of collapsed texts.

* `Text.stretches`, `Text.paragraphs`: the lines of a text, parted at its empty lines, and those of
  the parts that have lines in them.
* `paragraphs_squeeze`, `paragraphs_dropLastBreaks`: collapsing keeps the paragraphs
  (`paragraphs_collapseChars`).
* `Program.Collapsed`: the normal form, a text without runs of empty lines and without a line feed
  at its end, and three line feeds behind it. Every collapsed text has it
  (`collapsed_collapseChars`), and no text that has it is changed by collapsing
  (`Collapsed.collapseChars_eq`).
* `collapse_normalForm`: the laws of collapsing, put together.
-/
import Mathlib.Data.List.Infix
import Blockscribe.Proofs.Program.SolidLines

namespace Blockscribe

namespace Text

variable {a b cs line : List Char}

/-! ### Paragraphs -/

/-- The lines of a text, parted at every empty line. -/
def stretches (cs : List Char) : List (List (List Char)) := (splitLines cs).splitOn []

/-- The lines of a text that are not empty, in groups: two of them that follow each other are in one
group unless an empty line stands between them. -/
def paragraphs (cs : List Char) : List (List (List Char)) := (stretches cs).filter (· ≠ [])

/-- All paragraphs together are the lines that are not empty. -/
lemma flatten_paragraphs (cs : List Char) :
    (paragraphs cs).flatten = (splitLines cs).filter (· ≠ []) := by
  rw [paragraphs, List.flatten_filter_ne_nil, stretches]
  induction splitLines cs with
  | nil => rfl
  | cons line more ih =>
      rw [List.splitOn_cons_eq_if_modifyHead]
      by_cases hline : line = []
      · rw [if_pos (beq_iff_eq.mpr hline), List.flatten_cons, ih,
          List.filter_cons_of_neg (by simpa)]
        rfl
      · obtain ⟨g, gs, hgroups⟩ := List.exists_cons_of_ne_nil (List.splitOn_ne_nil [] more)
        rw [if_neg (by simpa using hline), List.filter_cons_of_pos (by simpa using hline), ← ih,
          hgroups]
        rfl

lemma stretches_break (cs : List Char) : stretches ('\n' :: cs) = [] :: stretches cs := rfl

/-- A line that is not empty comes first among those up to the next empty line. -/
lemma stretches_line (h : '\n' ∉ line) (hne : line ≠ []) (cs : List Char) :
    stretches (line ++ '\n' :: cs) = (stretches cs).modifyHead (line :: ·) := by
  rw [stretches, splitLines_line h, List.splitOn_cons_eq_if_modifyHead, if_neg (by simpa using hne)]
  rfl

/-- An empty line at the start makes no difference. -/
lemma paragraphs_break (cs : List Char) : paragraphs ('\n' :: cs) = paragraphs cs := by
  rw [paragraphs, stretches_break, List.filter_cons_of_neg (by decide)]
  rfl

/-- An empty line parts the paragraphs before it from those after it. -/
lemma paragraphs_append_gap (a b : List Char) :
    paragraphs (a ++ '\n' :: '\n' :: b) = paragraphs a ++ paragraphs b := by
  have hlines : splitLines ('\n' :: b) = [] :: splitLines b := rfl
  rw [paragraphs, stretches, splitLines_append_break, hlines, List.splitOn_append_cons_self,
    List.filter_append]
  rfl

/-- An empty line at the end makes no difference. -/
lemma paragraphs_append_break (a : List Char) : paragraphs (a ++ ['\n']) = paragraphs a := by
  have hlines : splitLines (a ++ ['\n']) = splitLines a ++ [[]] := splitLines_append_break a []
  rw [paragraphs, stretches, hlines, List.splitOn_append_cons_self, List.filter_append,
    List.splitOn_nil, List.filter_cons_of_neg (by decide), List.filter_nil, List.append_nil]
  rfl

/-- Behind a line the paragraphs are alike if they are without it and begin alike. -/
lemma paragraphs_line_congr (h : '\n' ∉ line) (hne : line ≠ [])
    (hparagraphs : paragraphs a = paragraphs b)
    (hhead : (stretches a).head? = (stretches b).head?) :
    paragraphs (line ++ '\n' :: a) = paragraphs (line ++ '\n' :: b) := by
  obtain ⟨g, gs, ha⟩ := List.exists_cons_of_ne_nil (List.splitOn_ne_nil [] (splitLines a))
  obtain ⟨g', gs', hb⟩ := List.exists_cons_of_ne_nil (List.splitOn_ne_nil [] (splitLines b))
  rw [stretches, stretches, ha, hb] at hhead
  obtain rfl : g = g' := Option.some.inj hhead
  have htail : gs.filter (· ≠ []) = gs'.filter (· ≠ []) := by
    rw [paragraphs, paragraphs, stretches, stretches, ha, hb, List.filter_cons,
      List.filter_cons] at hparagraphs
    split at hparagraphs
    · exact (List.cons.inj hparagraphs).2
    · exact hparagraphs
  rw [paragraphs, paragraphs, stretches_line h hne, stretches_line h hne, stretches, stretches, ha,
    hb, List.modifyHead_cons, List.modifyHead_cons, List.filter_cons_of_pos (by simp),
    List.filter_cons_of_pos (by simp), htail]

end Text

namespace Program

open Text

variable {body cs line : List Char}

/-! ### What collapsing keeps -/

/-- A text within one line has nothing to shorten. -/
lemma squeeze_of_not_mem (h : '\n' ∉ line) (run : ℕ) : squeeze run line = line := by
  by_cases hne : line = []
  · rw [hne, squeeze]
  · have hsqueeze := squeeze_line h hne run []
    rwa [List.append_nil, squeeze, List.append_nil] at hsqueeze

/-- Shortening runs of line feeds keeps the paragraphs. What stands in front of the first empty line
is kept as well, unless line feeds have been dropped there. -/
lemma paragraphs_squeeze (run : ℕ) (cs : List Char) :
    paragraphs (squeeze run cs) = paragraphs cs ∧
      (run ≤ 1 → (stretches (squeeze run cs)).head? = (stretches cs).head?) := by
  induction cs using lines_induction generalizing run with
  | last line h =>
      rw [squeeze_of_not_mem h]
      exact ⟨rfl, fun _ => rfl⟩
  | line line rest h ih =>
      by_cases hne : line = []
      · subst hne
        rw [List.nil_append, squeeze, if_pos rfl, paragraphs_break]
        by_cases hlong : run ≥ 2
        · rw [if_pos hlong]
          exact ⟨(ih run).1, fun hshort => absurd hshort (by omega)⟩
        · rw [if_neg hlong, paragraphs_break]
          exact ⟨(ih (run + 1)).1, fun _ => rfl⟩
      · obtain ⟨hparagraphs, hhead⟩ := ih 1
        have hsqueeze : squeeze run (line ++ '\n' :: rest) = line ++ '\n' :: squeeze 1 rest := by
          rw [squeeze_line h hne, squeeze, if_pos rfl, if_neg (by omega)]
        rw [hsqueeze]
        refine ⟨paragraphs_line_congr h hne hparagraphs (hhead le_rfl), fun _ => ?_⟩
        rw [stretches_line h hne, stretches_line h hne, List.head?_modifyHead,
          List.head?_modifyHead, hhead le_rfl]

/-- So does dropping the line feeds at the end. -/
lemma paragraphs_dropLastBreaks (cs : List Char) :
    paragraphs (dropLastBreaks cs) = paragraphs cs := by
  obtain ⟨breaks, hcs, hbreaks⟩ := exists_eq_dropLastBreaks_append cs
  conv_rhs => rw [hcs]
  clear hcs
  induction breaks using List.reverseRecOn with
  | nil => rw [List.append_nil]
  | append_singleton more c ih =>
      rw [List.forall_mem_append, List.forall_mem_singleton] at hbreaks
      rw [hbreaks.2, ← List.append_assoc, paragraphs_append_break, ih hbreaks.1]

lemma paragraphs_collapseChars (cs : List Char) :
    paragraphs (collapseChars cs) = paragraphs cs := by
  calc paragraphs (collapseChars cs)
      = paragraphs (dropLastBreaks (squeeze 0 cs)) ++ paragraphs ['\n'] := paragraphs_append_gap _ _
    _ = paragraphs cs := by
        rw [paragraphs_dropLastBreaks, (paragraphs_squeeze 0 cs).1]
        exact List.append_nil _

/-! ### The normal form -/

/-- A text without runs of empty lines and without a line feed at its end, and three line feeds
behind it. -/
def Collapsed (cs : List Char) : Prop :=
  ∃ body, cs = body ++ ['\n', '\n', '\n'] ∧ body.getLast? ≠ some '\n' ∧
    ¬ ['\n', '\n', '\n'] <:+: body

/-- Shortened runs have two line feeds at most; `run` of them stand in front of the text. -/
lemma squeeze_sparse (run : ℕ) (hrun : run ≤ 2) (cs : List Char) :
    ¬ ['\n', '\n', '\n'] <:+: squeeze run cs ∧
      ¬ List.replicate (3 - run) '\n' <+: squeeze run cs := by
  induction cs generalizing run with
  | nil =>
      rw [squeeze, List.infix_nil, List.prefix_nil, List.replicate_eq_nil_iff]
      exact ⟨by decide, by omega⟩
  | cons c rest ih =>
      rw [squeeze]
      split
      · rename_i hc
        subst hc
        split
        · exact ih run hrun
        · rename_i hshort
          obtain ⟨hwithin, hahead⟩ := ih (run + 1) (by omega)
          have hcount : 3 - run = (3 - (run + 1)) + 1 := by omega
          rw [List.infix_cons_iff, List.cons_prefix_cons, not_or, hcount, List.replicate_succ,
            List.cons_prefix_cons]
          refine ⟨⟨fun hthree => hahead ?_, hwithin⟩, fun hfront => hahead hfront.2⟩
          -- two line feeds are as many as may not stand there, or more
          have hfew : List.replicate (3 - (run + 1)) '\n' <+: ['\n', '\n'] :=
            (List.prefix_replicate_iff (n := 2)).mpr ⟨by rw [List.length_replicate]; omega, by simp⟩
          exact hfew.trans hthree.2
      · rename_i hc
        obtain ⟨hwithin, -⟩ := ih 0 (by decide)
        have hcount : 3 - run = (2 - run) + 1 := by omega
        rw [List.infix_cons_iff, not_or, hcount, List.replicate_succ, List.cons_prefix_cons,
          List.cons_prefix_cons]
        exact ⟨⟨fun hthree => hc hthree.1.symm, hwithin⟩, fun hfront => hc hfront.1.symm⟩

/-- Where no run has more than two line feeds, nothing is shortened. -/
lemma squeeze_of_sparse (run : ℕ) (h : ¬ ['\n', '\n', '\n'] <:+: List.replicate run '\n' ++ cs) :
    squeeze run cs = cs := by
  induction cs generalizing run with
  | nil => rw [squeeze]
  | cons c rest ih =>
      rw [squeeze]
      split
      · rename_i hc
        subst hc
        have hshort : ¬ run ≥ 2 := fun hlong => by
          obtain ⟨k, rfl⟩ := Nat.exists_eq_add_of_le' hlong
          exact h ⟨List.replicate k '\n', rest, by simp [List.replicate_add]⟩
        rw [if_neg hshort, ih]
        rwa [List.replicate_succ', List.append_assoc]
      · refine congrArg (c :: ·) (ih 0 fun hrest => h ?_)
        exact (hrest.trans (List.infix_cons List.infix_rfl)).trans (List.suffix_append _ _).isInfix

/-- What stands behind something other than a line feed is shortened by itself. -/
lemma squeeze_append_cons {front : List Char} {c : Char} (hc : c ≠ '\n') (run : ℕ)
    (cs : List Char) :
    squeeze run (front ++ c :: cs) = squeeze run (front ++ [c]) ++ squeeze 0 cs := by
  induction front generalizing run with
  | nil =>
      rw [List.nil_append, List.nil_append, squeeze, if_neg hc, squeeze, if_neg hc, squeeze]
      rfl
  | cons d front ih =>
      rw [List.cons_append, List.cons_append, squeeze, squeeze]
      split
      · split
        · exact ih run
        · rw [ih, List.cons_append]
      · rw [ih, List.cons_append]

lemma squeeze_append (h : body.getLast? ≠ some '\n') (cs : List Char) :
    squeeze 0 (body ++ cs) = squeeze 0 body ++ squeeze 0 cs := by
  rcases List.eq_nil_or_concat body with rfl | ⟨front, c, rfl⟩
  · rfl
  · have hc : c ≠ '\n' := by simpa using h
    rw [List.concat_eq_append, List.append_assoc, List.singleton_append, squeeze_append_cons hc]

lemma getLast?_dropLastBreaks (cs : List Char) : (dropLastBreaks cs).getLast? ≠ some '\n' := by
  intro hlast
  have hhead := List.head?_dropWhile_not (· = '\n') cs.reverse
  rw [dropLastBreaks, List.getLast?_reverse] at hlast
  rw [hlast] at hhead
  exact absurd hhead (by decide)

/-- A text that does not end with a line feed is left when those behind it are dropped. -/
lemma dropLastBreaks_append_breaks (h : body.getLast? ≠ some '\n') (n : ℕ) :
    dropLastBreaks (body ++ List.replicate n '\n') = body := by
  rw [dropLastBreaks, List.reverse_append, List.reverse_replicate,
    List.dropWhile_append_of_pos (by simp)]
  rcases List.eq_nil_or_concat body with rfl | ⟨front, c, rfl⟩
  · rfl
  · have hc : c ≠ '\n' := by simpa using h
    rw [List.concat_eq_append, List.reverse_append, List.reverse_singleton, List.singleton_append,
      List.dropWhile_cons_of_neg (by simpa using hc), List.reverse_cons, List.reverse_reverse]

lemma collapsed_collapseChars (cs : List Char) : Collapsed (collapseChars cs) := by
  refine ⟨dropLastBreaks (squeeze 0 cs), rfl, getLast?_dropLastBreaks _, fun hthree => ?_⟩
  obtain ⟨breaks, hcs, -⟩ := exists_eq_dropLastBreaks_append (squeeze 0 cs)
  refine (squeeze_sparse 0 (by decide) cs).1 ?_
  rw [hcs]
  exact hthree.trans (List.prefix_append _ _).isInfix

/-- Collapsing leaves the normal form as it is. -/
lemma Collapsed.collapseChars_eq (h : Collapsed cs) : collapseChars cs = cs := by
  obtain ⟨body, rfl, hlast, hsparse⟩ := h
  have hbreaks : squeeze 0 ['\n', '\n', '\n'] = List.replicate 2 '\n' := rfl
  rw [collapseChars, squeeze_append hlast, hbreaks, squeeze_of_sparse 0 hsparse,
    dropLastBreaks_append_breaks hlast]

/-- **Collapsing brings a text into its normal form.** Doing it again changes nothing. The result is
a text that does not end with a line feed and has no three of them in a row, with three line feeds
behind it. The lines that are not empty are those of the text, one after the other, and an empty
line stands between two of them if and only if there was one in the text: they are the same
paragraphs. -/
theorem collapse_normalForm (text : String) :
    collapse (collapse text) = collapse text ∧
      (∃ body : String, collapse text = body ++ "\n\n\n" ∧ body.toList.getLast? ≠ some '\n' ∧
        ¬ "\n\n\n".toList <:+: body.toList) ∧
      (splitLines (collapse text).toList).filter (· ≠ []) =
        (splitLines text.toList).filter (· ≠ []) ∧
      paragraphs (collapse text).toList = paragraphs text.toList := by
  have hform := collapsed_collapseChars text.toList
  have hparagraphs : paragraphs (collapse text).toList = paragraphs text.toList := by
    rw [collapse, String.toList_ofList, paragraphs_collapseChars]
  refine ⟨?_, ?_, ?_, hparagraphs⟩
  · rw [collapse, collapse, String.toList_ofList, hform.collapseChars_eq]
  · obtain ⟨body, hbody, hlast, hsparse⟩ := hform
    refine ⟨String.ofList body, ?_, ?_⟩
    · rw [collapse, hbody, String.ofList_append]
    · rw [String.toList_ofList]
      exact ⟨hlast, hsparse⟩
  · rw [← flatten_paragraphs, ← flatten_paragraphs, hparagraphs]

end Program

end Blockscribe
