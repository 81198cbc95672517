/-
Texts behind a lead, line by line.

* `leadEach`: lines behind a lead; the empty line behind a line feed that ends a text has none. A
  text is led line by line (`leadLines_eq`), and a lead within one line parts none of them
  (`splitLines_leadLines`).
* `unleadEach?`, `unleadLines?`: the same lines without the lead, if all of them begin with it.
* `leadLines_append`: whole lines are led apart from what follows them.
* `leadEach_leadEach`, `length_leadEach`, `unleadEach?_leadEach`: a lead in front of another one,
  the number of the lines, and taking the lead off again.
* `leadLines_compositional`: the laws of leading, put together.
-/
import Mathlib.Data.List.Basic
import Blockscribe.Proofs.Program.SolidLines
import Blockscribe.Proofs.Text.Literal

namespace Blockscribe

namespace Text

variable {a b cs lead : List Char} {lines more : List (List Char)}

/-! ### Lines behind a lead -/

/-- Puts `lead` in front of every line, the empty line behind a line feed that ends the text apart.
-/
def leadEach (lead : List Char) : List (List Char) → List (List Char)
  | [] => []
  | line :: more => (lead ++ line) :: if more = [[]] then more else leadEach lead more

/-- Takes `lead` off the start of every line, the empty line behind a line feed that ends the text
apart; there is no result if one of them does not begin with it. -/
def unleadEach? (lead : List Char) : List (List Char) → Option (List (List Char))
  | [] => some []
  | line :: more =>
    (line.dropPrefix? lead).bind fun first =>
      (if more = [[]] then some more else unleadEach? lead more).map (first :: ·)

lemma splitLines_eq_empty_iff : splitLines cs = [[]] ↔ cs = [] := by
  constructor
  · intro h
    rw [← joinLines_splitLines cs, h]
    rfl
  · rintro rfl
    rfl

lemma joinLines_cons (line : List Char) (h : more ≠ []) :
    joinLines (line :: more) = line ++ '\n' :: joinLines more := by
  cases more with
  | nil => exact absurd rfl h
  | cons next more => rfl

lemma leadEach_ne_nil (h : lines ≠ []) : leadEach lead lines ≠ [] := by
  cases lines with
  | nil => exact absurd rfl h
  | cons line more => exact List.cons_ne_nil _ _

/-- A text is led line by line. -/
lemma leadLines_eq (lead cs : List Char) :
    leadLines lead cs = joinLines (leadEach lead (splitLines cs)) := by
  induction cs using lines_induction with
  | last line h =>
      have hline := Quoted.leadAfterBreaks_append_of_not_mem h lead []
      rw [List.append_nil] at hline
      rw [splitLines_of_not_mem h, leadLines, hline]
      simp [leadEach, leadAfterBreaks, joinLines]
  | line line rest h ih =>
      rw [splitLines_line h, leadLines_line h, leadEach]
      by_cases hrest : rest = []
      · subst hrest
        simp [splitLines, joinLines]
      · have hmore : splitLines rest ≠ [[]] := mt splitLines_eq_empty_iff.mp hrest
        rw [if_neg hrest, if_neg hmore, joinLines_cons _ (leadEach_ne_nil (splitLines_ne_nil rest)),
          ← ih, List.append_assoc]

lemma not_mem_of_mem_splitLines : ∀ line ∈ splitLines cs, '\n' ∉ line := by
  induction cs using lines_induction with
  | last line h =>
      rw [splitLines_of_not_mem h]
      exact List.forall_mem_singleton.mpr h
  | line line rest h ih =>
      rw [splitLines_line h]
      exact List.forall_mem_cons.mpr ⟨h, ih⟩

lemma not_mem_of_mem_leadEach (hlead : '\n' ∉ lead) (h : ∀ line ∈ lines, '\n' ∉ line) :
    ∀ line ∈ leadEach lead lines, '\n' ∉ line := by
  induction lines with
  | nil => exact nofun
  | cons line more ih =>
      rw [List.forall_mem_cons] at h
      rw [leadEach, List.forall_mem_cons]
      refine ⟨fun hmem => (List.mem_append.mp hmem).elim hlead h.1, ?_⟩
      split
      · exact h.2
      · exact ih h.2

/-- Behind a lead within one line, a text has the lines that are led. -/
lemma splitLines_leadLines (hlead : '\n' ∉ lead) (cs : List Char) :
    splitLines (leadLines lead cs) = leadEach lead (splitLines cs) := by
  rw [leadLines_eq]
  exact splitLines_joinLines (leadEach_ne_nil (splitLines_ne_nil cs))
    (not_mem_of_mem_leadEach hlead not_mem_of_mem_splitLines)

/-! ### The laws of leading -/

/-- Whole lines are led apart from what follows them. -/
lemma leadLines_append (ha : Ended a) (hne : a ≠ []) (hb : b ≠ []) (lead : List Char) :
    leadLines lead (a ++ b) = leadLines lead a ++ leadLines lead b := by
  induction ha with
  | nil => exact absurd rfl hne
  | @line l rest hl _ ih =>
      have hfollowed : rest ++ b ≠ [] := List.append_ne_nil_of_right_ne_nil _ hb
      rw [List.append_assoc, List.cons_append, leadLines_line hl, leadLines_line hl,
        if_neg hfollowed]
      by_cases hrest : rest = []
      · subst hrest
        simp
      · rw [if_neg hrest, ih hrest]
        simp

/-- What is a single empty line behind a lead was one without it. -/
lemma eq_of_leadEach_eq (h : leadEach lead lines = [[]]) : lines = [[]] := by
  cases lines with
  | nil => exact h
  | cons line more =>
      obtain ⟨hline, hmore⟩ := List.cons.inj h
      obtain ⟨-, rfl⟩ := List.append_eq_nil_iff.mp hline
      split at hmore
      · exact absurd hmore (by simp_all)
      · cases more with
        | nil => rfl
        | cons next more => exact absurd hmore (List.cons_ne_nil _ _)

/-- A lead in front of a lead is one lead. -/
lemma leadEach_leadEach (outer lead : List Char) (lines : List (List Char)) :
    leadEach outer (leadEach lead lines) = leadEach (outer ++ lead) lines := by
  induction lines with
  | nil => rfl
  | cons line more ih =>
      rw [leadEach, leadEach, leadEach, List.append_assoc]
      by_cases hmore : more = [[]]
      · rw [if_pos hmore, if_pos hmore, if_pos hmore]
      · rw [if_neg hmore, if_neg hmore, if_neg (mt eq_of_leadEach_eq hmore), ih]

lemma leadLines_leadLines (hlead : '\n' ∉ lead) (outer cs : List Char) :
    leadLines outer (leadLines lead cs) = leadLines (outer ++ lead) cs := by
  rw [leadLines_eq, splitLines_leadLines hlead, leadEach_leadEach, ← leadLines_eq]

lemma length_leadEach (lead : List Char) (lines : List (List Char)) :
    (leadEach lead lines).length = lines.length := by
  induction lines with
  | nil => rfl
  | cons line more ih =>
      rw [leadEach, List.length_cons, List.length_cons]
      split
      · rfl
      · rw [ih]

/-- There is one line more than there are line feeds. -/
lemma length_splitLines (cs : List Char) : (splitLines cs).length = cs.count '\n' + 1 := by
  induction cs using lines_induction with
  | last line h => rw [splitLines_of_not_mem h, List.count_eq_zero_of_not_mem h]; rfl
  | line line rest h ih =>
      rw [splitLines_line h, List.length_cons, ih, List.count_append, List.count_cons_self,
        List.count_eq_zero_of_not_mem h, Nat.zero_add]

lemma count_leadLines (hlead : '\n' ∉ lead) (cs : List Char) :
    (leadLines lead cs).count '\n' = cs.count '\n' := by
  have hlines := length_splitLines (leadLines lead cs)
  rw [splitLines_leadLines hlead, length_leadEach, length_splitLines] at hlines
  exact (Nat.add_right_cancel hlines).symm

/-- A lead that has been put in front of lines can be taken off them. -/
lemma unleadEach?_leadEach (lead : List Char) (lines : List (List Char)) :
    unleadEach? lead (leadEach lead lines) = some lines := by
  induction lines with
  | nil => rfl
  | cons line more ih =>
      have hfirst : (lead ++ line).dropPrefix? lead = some line :=
        List.dropPrefix?_eq_some_iff.mpr ⟨lead, rfl, beq_self_eq_true lead⟩
      rw [leadEach, unleadEach?, hfirst, Option.bind_some]
      by_cases hmore : more = [[]]
      · rw [if_pos hmore, if_pos hmore]
        rfl
      · rw [if_neg hmore, if_neg (mt eq_of_leadEach_eq hmore), ih]
        rfl

end Text

open Text (Ended)

/-- Takes `lead` off the start of every line of `text`, the empty line behind a line feed that ends
the text apart; there is no result if one of them does not begin with it. -/
def unleadLines? (lead text : String) : Option String :=
  (Text.unleadEach? lead.toList (Text.splitLines text.toList)).map fun lines =>
    String.ofList (Text.joinLines lines)

lemma unleadLines?_leadLines {lead : String} (hlead : '\n' ∉ lead.toList) (text : String) :
    unleadLines? lead (leadLines lead text) = some text := by
  rw [unleadLines?, toList_leadLines, Text.splitLines_leadLines hlead, Text.unleadEach?_leadEach,
    Option.map_some, Text.joinLines_splitLines, String.ofList_toList]

/-- **Leading is compositional.** Whole lines and what follows them are led one after the other. A
lead within one line is one lead together with another in front of it, it leaves the number of line
feeds as it was, and taking it off every line gives the text back. -/
theorem leadLines_compositional (lead : String) :
    (∀ a b, a.toList.getLast? = some '\n' → b ≠ "" →
      leadLines lead (a ++ b) = leadLines lead a ++ leadLines lead b) ∧
    ('\n' ∉ lead.toList → ∀ text,
      (∀ outer, leadLines outer (leadLines lead text) = leadLines (outer ++ lead) text) ∧
      (leadLines lead text).toList.count '\n' = text.toList.count '\n' ∧
      unleadLines? lead (leadLines lead text) = some text) := by
  refine ⟨fun a b ha hb => ?_, fun hlead text => ⟨fun outer => ?_, ?_, ?_⟩⟩
  · obtain ⟨front, hfront⟩ := List.getLast?_eq_some_iff.mp ha
    have hended : Ended a.toList := hfront ▸ Text.ended_of_break front
    have hne : a.toList ≠ [] := hfront ▸ List.append_ne_nil_of_right_ne_nil _ (List.cons_ne_nil _ _)
    refine String.toList_injective ?_
    simp only [toList_leadLines, String.toList_append]
    exact Text.leadLines_append hended hne (toList_ne_nil hb) _
  · refine String.toList_injective ?_
    simp only [toList_leadLines, String.toList_append]
    exact Text.leadLines_leadLines hlead _ _
  · rw [toList_leadLines]
    exact Text.count_leadLines hlead _
  · exact unleadLines?_leadLines hlead text

/-- A statement with a body and an empty line behind it. -/
def branchText : String := "if a:\n  b\n\n"

/-- The empty line has a lead, but nothing stands behind the last line feed. -/
theorem leadLines_compositional_branchText :
    leadLines "  " branchText = "  if a:\n    b\n  \n" ∧
    branchText.toList.getLast? = some '\n' ∧ branchText ≠ "" ∧
    leadLines "  " (branchText ++ branchText) =
      leadLines "  " branchText ++ leadLines "  " branchText ∧
    '\n' ∉ "  ".toList ∧
    leadLines "\t" (leadLines "  " branchText) = leadLines ("\t" ++ "  ") branchText ∧
    (leadLines "  " branchText).toList.count '\n' = branchText.toList.count '\n' ∧
    unleadLines? "  " (leadLines "  " branchText) = some branchText := by
  have hend : branchText.toList.getLast? = some '\n' := by decide
  have hne : branchText ≠ "" := by decide
  have hlead : '\n' ∉ "  ".toList := by decide
  obtain ⟨happend, hlaws⟩ := leadLines_compositional "  "
  obtain ⟨hnested, hcount, hoff⟩ := hlaws hlead branchText
  exact ⟨by decide, hend, hne, happend _ _ hend hne, hlead, hnested _, hcount, hoff⟩

/-- A lead with a line feed begins a line of its own, which another lead reaches. -/
example : leadLines "\t" (leadLines "\n" "a") ≠ leadLines ("\t" ++ "\n") "a" := by decide

end Blockscribe
