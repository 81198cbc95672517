/-
The lines of a text that hold code.

* `Text.isCode`, `Text.codeLines`: the lines that are neither blank nor comments.
* `Text.Ended`: texts whose last line is ended by a line feed. The code lines of such a text and of
  what stands after it are found one after the other (`codeLines_append`).
* `codeLines_leadLines`: lines that are led by blanks hold code where they did before;
  `codeLines_remark`: lines that are led by a number sign hold none.
* `Remark`: whole lines without code. `SameCode`: two texts of whole lines with the same code.
-/
import Mathlib.Data.List.Forall2
import Mathlib.Tactic.Lemma
import Blockscribe.Text.Blank
import Blockscribe.Text.Lines

namespace Blockscribe

namespace Text

/-- Whether a line holds code: its first visible character is no number sign. -/
def isCode (line : List Char) : Bool :=
  match trimLeft line with
  | [] => false
  | c :: _ => c != '#'

/-- The lines of a text that are neither blank nor comments. -/
def codeLines (cs : List Char) : List (List Char) := (splitLines cs).filter isCode

/-- A text of whole lines: a line feed ends the last one. -/
inductive Ended : List Char → Prop
  | nil : Ended []
  | line {line rest : List Char} : '\n' ∉ line → Ended rest → Ended (line ++ '\n' :: rest)

variable {a b cs lead line rest : List Char} {c : Char}

/-! ### Texts of whole lines -/

/-- An empty line in front. -/
lemma Ended.break (h : Ended cs) : Ended ('\n' :: cs) :=
  show Ended ([] ++ '\n' :: cs) from .line List.not_mem_nil h

lemma Ended.cons (h : Ended cs) (hne : cs ≠ []) (c : Char) : Ended (c :: cs) := by
  cases h with
  | nil => exact absurd rfl hne
  | @line l rest hl hrest =>
      by_cases hc : c = '\n'
      · exact hc ▸ (Ended.line hl hrest).break
      · rw [← List.cons_append]
        exact .line (List.not_mem_cons_of_ne_of_not_mem (Ne.symm hc) hl) hrest

/-- In front of whole lines anything may stand. -/
lemma Ended.append_left (h : Ended b) (hne : b ≠ []) (a : List Char) : Ended (a ++ b) := by
  induction a with
  | nil => exact h
  | cons c rest ih => exact ih.cons (List.append_ne_nil_of_right_ne_nil _ hne) c

lemma Ended.append (ha : Ended a) (hb : Ended b) : Ended (a ++ b) := by
  induction ha with
  | nil => exact hb
  | @line l rest hl _ ih =>
      rw [List.append_assoc]
      exact .line hl ih

lemma ended_of_break (cs : List Char) : Ended (cs ++ ['\n']) :=
  Ended.nil.break.append_left (List.cons_ne_nil _ _) cs

/-- Every text is made up of whole lines and the beginning of one. -/
lemma exists_ended_append (cs : List Char) : ∃ a b, cs = a ++ b ∧ Ended a ∧ '\n' ∉ b := by
  induction cs with
  | nil => exact ⟨[], [], rfl, .nil, List.not_mem_nil⟩
  | cons c rest ih =>
      obtain ⟨a, b, rfl, ha, hb⟩ := ih
      by_cases hne : a = []
      · subst hne
        by_cases hc : c = '\n'
        · exact ⟨[c], b, rfl, hc ▸ ended_of_break [], hb⟩
        · exact ⟨[], c :: b, rfl, .nil, List.not_mem_cons_of_ne_of_not_mem (Ne.symm hc) hb⟩
      · exact ⟨c :: a, b, rfl, ha.cons hne c, hb⟩

/-! ### Code lines -/

lemma splitLines_of_not_mem (h : '\n' ∉ line) : splitLines line = [line] := by
  induction line with
  | nil => rfl
  | cons c line ih =>
      rw [List.mem_cons, not_or] at h
      rw [splitLines, if_neg (Ne.symm h.1), ih h.2]

lemma splitLines_line (h : '\n' ∉ line) :
    splitLines (line ++ '\n' :: rest) = line :: splitLines rest := by
  induction line with
  | nil => rfl
  | cons c line ih =>
      rw [List.mem_cons, not_or] at h
      rw [List.cons_append, splitLines, if_neg (Ne.symm h.1), ih h.2]

/-- Lines without line feeds are the lines of the text that they make up. -/
lemma splitLines_joinLines {lines : List (List Char)} (hne : lines ≠ [])
    (h : ∀ line ∈ lines, '\n' ∉ line) : splitLines (joinLines lines) = lines := by
  induction lines with
  | nil => exact absurd rfl hne
  | cons line more ih =>
      rw [List.forall_mem_cons] at h
      cases more with
      | nil => rw [joinLines, splitLines_of_not_mem h.1]
      | cons next more =>
          rw [joinLines, splitLines_line h.1, ih (List.cons_ne_nil _ _) h.2]
          exact fun hnil => by cases hnil

lemma codeLines_line (h : '\n' ∉ line) :
    codeLines (line ++ '\n' :: rest) = [line].filter isCode ++ codeLines rest := by
  rw [codeLines, splitLines_line h, ← List.singleton_append, List.filter_append]
  rfl

/-- The code lines of whole lines come before those of the text after them. -/
lemma codeLines_append (h : Ended a) : codeLines (a ++ b) = codeLines a ++ codeLines b := by
  induction h with
  | nil => rfl
  | line hl _ ih =>
      rw [List.append_assoc, List.cons_append, codeLines_line hl, codeLines_line hl, ih,
        List.append_assoc]

lemma isCode_append (h : allBlank a = true) : isCode (a ++ b) = isCode b := by
  rw [allBlank, List.all_eq_true] at h
  rw [isCode, isCode, trimLeft, trimLeft, List.dropWhile_append_of_pos h]

lemma isCode_of_allBlank (h : allBlank line = true) : isCode line = false := by
  rw [← List.append_nil line, isCode_append h]
  rfl

/-- Blank lines hold no code. -/
lemma codeLines_of_allBlank (h : Ended a) (hblank : allBlank a = true) : codeLines a = [] := by
  induction h with
  | nil => rfl
  | @line l rest hl _ ih =>
      rw [allBlank, List.all_append, List.all_cons, Bool.and_eq_true, Bool.and_eq_true] at hblank
      rw [codeLines_line hl, ih hblank.2.2, List.filter_cons_of_neg, List.filter_nil,
        List.append_nil]
      rw [isCode_of_allBlank hblank.1]
      decide

/-! ### Lines with a lead -/

lemma leadAfterBreaks_line (h : '\n' ∉ line) :
    leadAfterBreaks lead (line ++ '\n' :: rest) =
      line ++ '\n' :: (if rest = [] then [] else leadLines lead rest) := by
  induction line with
  | nil =>
      by_cases hrest : rest = []
      · subst hrest
        rfl
      · rw [List.nil_append, leadAfterBreaks, if_pos ⟨rfl, hrest⟩, if_neg hrest, leadLines]
        rfl
  | cons c line ih =>
      rw [List.mem_cons, not_or] at h
      rw [List.cons_append, leadAfterBreaks, if_neg fun hbreak => h.1 hbreak.1.symm, ih h.2]
      rfl

lemma leadAfterBreaks_ne_nil (h : cs ≠ []) : leadAfterBreaks lead cs ≠ [] := by
  cases cs with
  | nil => exact absurd rfl h
  | cons c rest =>
      rw [leadAfterBreaks]
      split <;> exact List.cons_ne_nil _ _

lemma leadLines_line (h : '\n' ∉ line) :
    leadLines lead (line ++ '\n' :: rest) =
      lead ++ (line ++ '\n' :: (if rest = [] then [] else leadLines lead rest)) :=
  congrArg (lead ++ ·) (leadAfterBreaks_line h)

lemma ended_leadLines (h : Ended cs) (hne : cs ≠ []) (lead : List Char) :
    Ended (leadLines lead cs) := by
  induction h with
  | nil => exact absurd rfl hne
  | @line l rest hl _ ih =>
      rw [leadLines_line hl]
      refine Ended.append_left (.line hl ?_) (List.append_ne_nil_of_right_ne_nil _ nofun) lead
      by_cases hrest : rest = []
      · rw [if_pos hrest]
        exact .nil
      · rw [if_neg hrest]
        exact ih hrest

/-- Behind a lead of blanks lines hold code where they did before. What stands in front of them is
what the lead has behind its last line feed. -/
lemma codeLines_leadLines (h : allBlank lead = true) :
    ∃ margin, ∀ cs, Ended cs → cs ≠ [] →
      codeLines (leadLines lead cs) = (codeLines cs).map (margin ++ ·) := by
  obtain ⟨above, margin, rfl, habove, hmargin⟩ := exists_ended_append lead
  rw [allBlank, List.all_append, Bool.and_eq_true] at h
  refine ⟨margin, fun cs hcs => ?_⟩
  induction hcs with
  | nil => exact fun hne => absurd rfl hne
  | @line l rest hl _ ih =>
      intro _
      have hrest : codeLines (if rest = [] then [] else leadLines (above ++ margin) rest) =
          (codeLines rest).map (margin ++ ·) := by
        by_cases hrest : rest = []
        · subst hrest
          rfl
        · rw [if_neg hrest, ih hrest]
      have hline : '\n' ∉ margin ++ l := fun hmem => (List.mem_append.mp hmem).elim hmargin hl
      have hfirst : [margin ++ l].filter isCode = ([l].filter isCode).map (margin ++ ·) := by
        rw [List.filter_cons, List.filter_cons, isCode_append h.2]
        split <;> rfl
      rw [leadLines_line hl, List.append_assoc, codeLines_append habove,
        codeLines_of_allBlank habove h.1, List.nil_append, ← List.append_assoc,
        codeLines_line hline, codeLines_line hl, hrest, hfirst, List.map_append]

lemma isCode_sign (cs : List Char) : isCode ('#' :: cs) = false := by
  rw [isCode, trimLeft, List.dropWhile_cons_of_neg (by decide)]
  rfl

/-- Lines that are led by a number sign hold no code. -/
lemma codeLines_sign (hlead : '\n' ∉ lead) (hcs : Ended cs) (hne : cs ≠ []) :
    codeLines (leadLines ('#' :: lead) cs) = [] := by
  induction hcs with
  | nil => exact absurd rfl hne
  | @line l rest hl _ ih =>
      have hline : '\n' ∉ '#' :: (lead ++ l) := by
        rw [List.mem_cons, List.mem_append, not_or, not_or]
        exact ⟨by decide, hlead, hl⟩
      rw [leadLines_line hl, ← List.append_assoc, List.cons_append, codeLines_line hline,
        List.filter_cons_of_neg (by rw [isCode_sign]; decide), List.filter_nil, List.nil_append]
      by_cases hrest : rest = []
      · rw [if_pos hrest]
        rfl
      · rw [if_neg hrest, ih hrest]

end Text

/-! ### Remarks, and texts with the same code -/

open Text (Ended codeLines)

/-- Whole lines without code. -/
structure Remark (text : String) : Prop where
  ended : Ended text.toList
  codeLines : codeLines text.toList = []

/-- Two texts of whole lines with the same code; none or both are empty. -/
structure SameCode (text text' : String) : Prop where
  ended : Ended text.toList
  ended' : Ended text'.toList
  empty : text = "" ↔ text' = ""
  codeLines : codeLines text'.toList = codeLines text.toList

variable {a a' b b' : String}

lemma toList_ne_nil (h : a ≠ "") : a.toList ≠ [] := fun hnil => h (String.toList_eq_nil_iff.mp hnil)

lemma append_ne_empty_left (h : a ≠ "") : a ++ b ≠ "" :=
  fun he => h (String.append_eq_empty_iff.mp he).1

lemma append_ne_empty_right (h : b ≠ "") : a ++ b ≠ "" :=
  fun he => h (String.append_eq_empty_iff.mp he).2

/-- Text that ends with a line feed. -/
lemma ended_break (a : String) : Ended (a ++ "\n").toList := by
  rw [String.toList_append]
  exact Text.ended_of_break a.toList

lemma break_ne_empty (a : String) : a ++ "\n" ≠ "" := append_ne_empty_right (by decide)

lemma leadLines_ne_empty (lead : String) (h : a ≠ "") : leadLines lead a ≠ "" := by
  intro hempty
  have hnil := congrArg String.toList hempty
  rw [toList_leadLines, Text.leadLines] at hnil
  exact Text.leadAfterBreaks_ne_nil (toList_ne_nil h) (List.append_eq_nil_iff.mp hnil).2

lemma remark_empty : Remark "" := ⟨.nil, rfl⟩

lemma Remark.append (ha : Remark a) (hb : Remark b) : Remark (a ++ b) := by
  refine ⟨?_, ?_⟩ <;> rw [String.toList_append]
  · exact ha.ended.append hb.ended
  · rw [Text.codeLines_append ha.ended, ha.codeLines, hb.codeLines, List.append_nil]

/-- Lines that are led by a number sign are a remark, if the last of them is ended. -/
lemma remark_leadLines (text : String) : Remark (leadLines "# " (text ++ "\n")) := by
  have hended := ended_break text
  have hne := toList_ne_nil (break_ne_empty text)
  refine ⟨?_, ?_⟩ <;> rw [toList_leadLines]
  · exact Text.ended_leadLines hended hne _
  · exact Text.codeLines_sign (by decide) hended hne

namespace SameCode

lemma refl (h : Ended a.toList) : SameCode a a := ⟨h, h, Iff.rfl, rfl⟩

lemma append (h : SameCode a a') (h' : SameCode b b') : SameCode (a ++ b) (a' ++ b') where
  ended := String.toList_append ▸ h.ended.append h'.ended
  ended' := String.toList_append ▸ h.ended'.append h'.ended'
  empty := by rw [String.append_eq_empty_iff, String.append_eq_empty_iff, h.empty, h'.empty]
  codeLines := by
    rw [String.toList_append, String.toList_append, Text.codeLines_append h.ended,
      Text.codeLines_append h.ended', h.codeLines, h'.codeLines]

lemma join {ts ts' : List String} (h : List.Forall₂ SameCode ts ts') :
    SameCode (String.join ts) (String.join ts') := by
  induction h with
  | nil => exact refl .nil
  | cons hfirst _ ih =>
      rw [String.join_cons, String.join_cons]
      exact hfirst.append ih

/-- Remarks in front make no difference to the code. -/
lemma remark_append (ha : Remark a) (ha' : Remark a') (h : SameCode b b') (hne : b ≠ "") :
    SameCode (a ++ b) (a' ++ b') where
  ended := String.toList_append ▸ ha.ended.append h.ended
  ended' := String.toList_append ▸ ha'.ended.append h.ended'
  empty := by
    rw [String.append_eq_empty_iff, String.append_eq_empty_iff]
    exact ⟨fun hempty => absurd hempty.2 hne, fun hempty => absurd (h.empty.mpr hempty.2) hne⟩
  codeLines := by
    rw [String.toList_append, String.toList_append, Text.codeLines_append ha.ended,
      Text.codeLines_append ha'.ended, ha.codeLines, ha'.codeLines, h.codeLines]

/-- Texts with the same code have it behind a lead of blanks as well. -/
lemma leadLines (h : SameCode a b) (hne : a ≠ "") {lead : String}
    (hlead : Text.allBlank lead.toList = true) :
    SameCode (Blockscribe.leadLines lead a) (Blockscribe.leadLines lead b) := by
  have hne' : b ≠ "" := fun hempty => hne (h.empty.mpr hempty)
  obtain ⟨margin, hmargin⟩ := Text.codeLines_leadLines hlead
  refine ⟨?_, ?_, ?_, ?_⟩
  · rw [toList_leadLines]
    exact Text.ended_leadLines h.ended (toList_ne_nil hne) _
  · rw [toList_leadLines]
    exact Text.ended_leadLines h.ended' (toList_ne_nil hne') _
  · exact ⟨fun hempty => absurd hempty (leadLines_ne_empty lead hne),
      fun hempty => absurd hempty (leadLines_ne_empty lead hne')⟩
  · rw [toList_leadLines, toList_leadLines, hmargin _ h.ended' (toList_ne_nil hne'),
      hmargin _ h.ended (toList_ne_nil hne), h.codeLines]

/-- Texts that have the same code one by one have it with empty lines between them. -/
lemma intercalate {ts ts' : List String} (h : List.Forall₂ SameCode ts ts') :
    SameCode ("\n".intercalate ts) ("\n".intercalate ts') := by
  induction h with
  | nil => exact refl .nil
  | @cons t t' rest rest' hfirst hrest ih =>
      cases hrest with
      | nil =>
          rw [String.intercalate_singleton, String.intercalate_singleton]
          exact hfirst
      | cons _ _ =>
          rw [String.intercalate_cons_cons, String.intercalate_cons_cons]
          exact (hfirst.append (refl (ended_break ""))).append ih

end SameCode

end Blockscribe
