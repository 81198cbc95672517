/-
Tidying a program keeps its code.

* `dropLeadingLines_append`, `dropTrailingLines_append`: blank lines are dropped before the first
  visible character and after the last one, and nowhere else.
* `Text.withoutEnd`: a line without the spaces and tabs at its end.
* `codeLines_tidyChars`: the code lines of a tidied text are those of its parts, without their ends.
* `Dialect.Framed`: what stands around the body of an entry point, in every dialect.
* `codeLines_tidy_eq`: so two programs around bodies with the same code have the same code.
-/
import Mathlib.Data.List.TakeWhile
import Mathlib.Order.Basic
import Blockscribe.Program.Assembly
import Blockscribe.Proofs.Text.CodeLines

namespace Blockscribe

namespace Text

variable {a b cs line rest : List Char} {c : Char}

lemma Ended.tail (h : Ended (c :: cs)) : Ended cs := by
  generalize hcs : c :: cs = all at h
  cases h with
  | nil => exact nomatch hcs
  | @line l rest hl hrest =>
      cases l with
      | nil => exact (List.cons.inj hcs).2 ▸ hrest
      | cons d l =>
          obtain rfl := (List.cons.inj hcs).2
          exact .line (fun hmem => hl (List.mem_cons_of_mem d hmem)) hrest

lemma Ended.drop (h : Ended cs) (n : ℕ) : Ended (cs.drop n) := by
  induction n generalizing cs with
  | zero => exact h
  | succ n ih =>
      cases cs with
      | nil => exact h
      | cons c rest => exact ih h.tail

/-! ### The ends of lines -/

/-- A line without the spaces and tabs at its end. -/
def withoutEnd : List Char → List Char
  | [] => []
  | c :: rest =>
    if (c = ' ' ∨ c = '\t') ∧ withoutEnd rest = [] then [] else c :: withoutEnd rest

/-- What is cut off is blank. -/
lemma exists_eq_withoutEnd_append (line : List Char) :
    ∃ blanks, line = withoutEnd line ++ blanks ∧ allBlank blanks = true := by
  induction line with
  | nil => exact ⟨[], rfl, rfl⟩
  | cons c rest ih =>
      obtain ⟨blanks, hline, hblank⟩ := ih
      rw [withoutEnd]
      by_cases hc : (c = ' ' ∨ c = '\t') ∧ withoutEnd rest = []
      · refine ⟨c :: rest, by rw [if_pos hc]; rfl, ?_⟩
        rw [hc.2, List.nil_append] at hline
        rw [allBlank, List.all_cons, hline, Bool.and_eq_true]
        refine ⟨?_, hblank⟩
        rcases hc.1 with rfl | rfl <;> decide
      · refine ⟨blanks, ?_, hblank⟩
        rw [if_neg hc, List.cons_append, ← hline]

lemma mem_of_mem_withoutEnd (h : c ∈ withoutEnd line) : c ∈ line := by
  obtain ⟨blanks, hline, -⟩ := exists_eq_withoutEnd_append line
  exact hline ▸ List.mem_append_left blanks h

lemma isCode_append_blank (h : allBlank b = true) : isCode (a ++ b) = isCode a := by
  induction a with
  | nil => exact isCode_of_allBlank h
  | cons c rest ih =>
      by_cases hc : isBlank c = true
      · have hlead : allBlank [c] = true := by rw [allBlank, List.all_cons, hc]; rfl
        rw [← List.singleton_append, List.append_assoc, isCode_append hlead, isCode_append hlead, ih]
      · rw [isCode, isCode, trimLeft, trimLeft, List.cons_append, List.dropWhile_cons_of_neg hc,
          List.dropWhile_cons_of_neg hc]

lemma isCode_withoutEnd (line : List Char) : isCode (withoutEnd line) = isCode line := by
  obtain ⟨blanks, hline, hblank⟩ := exists_eq_withoutEnd_append line
  conv_rhs => rw [hline]
  rw [isCode_append_blank hblank]

end Text

namespace Program

open Text

variable {pre body post line rest : List Char}

/-! ### The parts of tidying -/

/-- Blank lines at the start stand before the first visible character. -/
lemma dropLeadingLines_append (h : allBlank pre = false) :
    dropLeadingLines (pre ++ rest) = dropLeadingLines pre ++ rest := by
  have hlead : (pre ++ rest).takeWhile isBlank = pre.takeWhile isBlank := by
    rw [List.takeWhile_append, if_neg]
    intro hlength
    have hall := List.takeWhile_eq_self_iff.mp
      ((List.takeWhile_prefix isBlank (l := pre)).eq_of_length hlength)
    rw [allBlank, List.all_eq_true.mpr hall] at h
    cases h
  have hle : (pre.takeWhile isBlank).length ≤ pre.length := (List.takeWhile_prefix isBlank).length_le
  rw [dropLeadingLines, dropLeadingLines, hlead]
  split
  · rw [List.drop_append_of_le_length (le_trans (Nat.sub_le _ _) hle)]
  · rfl

/-- Blank lines at the end stand after the last visible character. -/
lemma dropTrailingLines_append (h : allBlank post = false) :
    dropTrailingLines (body ++ post) = body ++ dropTrailingLines post := by
  have htrim : trimRight (body ++ post) = body ++ trimRight post := by
    rw [trimRight, trimRight, List.reverse_append, List.dropWhile_append, if_neg,
      List.reverse_append, List.reverse_reverse]
    intro hempty
    have hall := List.dropWhile_eq_nil_iff.mp (List.isEmpty_iff.mp hempty)
    rw [allBlank, List.all_eq_true.mpr fun c hc => hall c (List.mem_reverse.mpr hc)] at h
    cases h
  have htail : (body ++ post).drop (body ++ trimRight post).length =
      post.drop (trimRight post).length := by
    rw [List.length_append, List.drop_length_add_append]
  rw [dropTrailingLines, dropTrailingLines, htrim, htail]
  split
  · rw [List.append_assoc, List.append_assoc, List.append_assoc]
  · rfl

/-- The end of a line is dropped, whatever follows. -/
lemma dropLineEnds_line (h : '\n' ∉ line) :
    dropLineEnds (line ++ '\n' :: rest) = withoutEnd line ++ '\n' :: dropLineEnds rest := by
  induction line with
  | nil => 
      rw [List.nil_append, dropLineEnds, if_neg fun hc => by simp at hc]
      rfl
  | cons c line ih =>
      rw [List.mem_cons, not_or] at h
      have hhead : (withoutEnd line ++ '\n' :: dropLineEnds rest).head? = some '\n' ↔
          withoutEnd line = [] := by
        cases hline : withoutEnd line with
        | nil => exact ⟨fun _ => rfl, fun _ => rfl⟩
        | cons d more =>
            refine ⟨fun hd => ?_, fun hd => nomatch hd⟩
            obtain rfl := Option.some.inj hd
            exact absurd (mem_of_mem_withoutEnd (hline ▸ List.mem_cons_self)) h.2
      rw [List.cons_append, dropLineEnds, ih h.2, withoutEnd]
      simp only [hhead]
      split
      · rename_i hc
        rw [hc.2]
      · rfl

/-- The code lines of whole lines lose their ends and nothing else. -/
lemma codeLines_dropLineEnds (h : Ended body) :
    codeLines (dropLineEnds (body ++ rest)) =
      (codeLines body).map withoutEnd ++ codeLines (dropLineEnds rest) := by
  induction h with
  | nil => rfl
  | @line l more hl _ ih =>
      have hend : '\n' ∉ withoutEnd l := fun hmem => hl (mem_of_mem_withoutEnd hmem)
      have hfirst : [withoutEnd l].filter isCode = ([l].filter isCode).map withoutEnd := by
        rw [List.filter_cons, List.filter_cons, isCode_withoutEnd]
        split <;> rfl
      rw [List.append_assoc, List.cons_append, dropLineEnds_line hl, codeLines_line hend,
        codeLines_line hl, ih, hfirst, List.map_append, List.append_assoc]

/-- The code lines of a tidied text are those of its parts, without their ends. -/
lemma codeLines_tidyChars (hpre : Ended pre) (hfirst : allBlank pre = false) (hbody : Ended body)
    (hlast : allBlank post = false) :
    codeLines (tidyChars (pre ++ (body ++ post))) =
      (codeLines (dropLeadingLines pre) ++ codeLines body).map withoutEnd ++
        codeLines (dropLineEnds (dropTrailingLines post)) := by
  have hdropped : Ended (dropLeadingLines pre) := by
    rw [dropLeadingLines]
    split
    · exact hpre.drop _
    · exact hpre
  rw [tidyChars, dropLeadingLines_append hfirst, ← List.append_assoc, dropTrailingLines_append hlast,
    codeLines_dropLineEnds (hdropped.append hbody), codeLines_append hdropped]

end Program

/-! ### Around a body -/

namespace Dialect

/-- The entry point of a dialect opens with whole lines, comments have a number sign in front, and
something is visible at both ends. -/
structure Framed (d : Dialect) : Prop where
  lineComment : d.lineComment = "# "
  ended : Text.Ended d.entryOpen.toList
  entryOpen : Text.allBlank d.entryOpen.toList = false
  entryClose : Text.allBlank d.entryClose.toList = false

lemma framed_of_mem_all {d : Dialect} (h : d ∈ all) : d.Framed := by
  simp only [all, List.mem_cons, List.not_mem_nil, or_false] at h
  rcases h with rfl | rfl
  · exact ⟨rfl, Text.ended_of_break "main() \x7b".toList, by decide, by decide⟩
  · exact ⟨rfl, Text.ended_of_break "def main():".toList, by decide, by decide⟩

lemma ended_bindingLine (d : Dialect) (identifiers : List String) :
    Text.Ended (d.bindingLine identifiers).toList := by
  rw [bindingLine]
  split
  · split
    · exact .nil
    · exact ended_break _
  · exact .nil

end Dialect

namespace Program

variable {style : Style} {body body' : String}

/-- The bodies of entry points have the same code if what is put into them has. -/
lemma sameCode_entryBody (h : SameCode body body') (hindent : Text.allBlank style.indent.toList = true)
    (identifiers : List String) :
    SameCode (entryBody style identifiers body) (entryBody style identifiers body') := by
  by_cases hempty : body = ""
  · obtain rfl := hempty
    obtain rfl := h.empty.mp rfl
    refine .refl ?_
    rw [entryBody, if_neg (not_not_intro rfl)]
    split
    · exact ended_break _
    · exact .nil
  · have hempty' : body' ≠ "" := fun he => hempty (h.empty.mpr he)
    rw [entryBody, entryBody, if_pos hempty, if_pos hempty']
    have hlines := (SameCode.refl (style.dialect.ended_bindingLine identifiers)).append h
    refine hlines.leadLines (fun he => ?_) hindent
    exact hempty (String.append_eq_empty_iff.mp he).2

/-- Programs around bodies with the same code have the same code. -/
lemma codeLines_tidy_eq (hframed : style.dialect.Framed)
    (hindent : Text.allBlank style.indent.toList = true) (h : SameCode body body')
    (definitions : String) (identifiers : List String) :
    Text.codeLines (tidy (definitions ++ (style.dialect.entryOpen ++
        entryBody style identifiers body ++ style.dialect.entryClose))).toList =
      Text.codeLines (tidy (definitions ++ (style.dialect.entryOpen ++
        entryBody style identifiers body' ++ style.dialect.entryClose))).toList := by
  have hpre : Text.Ended (definitions ++ style.dialect.entryOpen).toList := by
    rw [String.toList_append]
    refine hframed.ended.append_left (fun hnil => ?_) _
    exact nomatch hnil ▸ hframed.entryOpen
  have hfirst : Text.allBlank (definitions ++ style.dialect.entryOpen).toList = false := by
    rw [String.toList_append, Text.allBlank, List.all_append, Bool.and_eq_false_iff]
    exact Or.inr hframed.entryOpen
  have hparts : ∀ text : String, Text.Ended text.toList →
      Text.codeLines (tidy (definitions ++ (style.dialect.entryOpen ++ text ++
          style.dialect.entryClose))).toList =
        (Text.codeLines (dropLeadingLines (definitions ++ style.dialect.entryOpen).toList) ++
            Text.codeLines text.toList).map Text.withoutEnd ++
          Text.codeLines (dropLineEnds (dropTrailingLines style.dialect.entryClose.toList)) := by
    intro text htext
    rw [← codeLines_tidyChars hpre hfirst htext hframed.entryClose, tidy, String.toList_ofList,
      String.append_assoc, ← String.append_assoc, String.toList_append (t := text ++ _),
      String.toList_append (t := style.dialect.entryClose)]
  have hbody := sameCode_entryBody h hindent identifiers
  rw [hparts _ hbody.ended, hparts _ hbody.ended', hbody.codeLines]

end Program

end Blockscribe
