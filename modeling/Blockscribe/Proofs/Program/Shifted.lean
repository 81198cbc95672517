/-
Texts that differ in what leads their lines.

* `Text.IsLead`: blanks within a line, at least one. `Text.Shifted`: two texts that are the same but
  for such leads, which stand at the start of the same lines.
* `Shifted.append`, `Shifted.append_break`, `Shifted.leadBreaks`: the relation lasts when texts are
  put together and when lines are led; `shifted_reindent` says that it comes about when a text is
  written with two units of indentation.
* `Shifted.squeeze`, `Shifted.dropLastBreaks`, `Shifted.dropLeadingLines`: it lasts when a text is
  laid out, and `isImport_eq` says that the same texts are imports.
* `Text.strippedLines`, `Shifted.strippedLines_eq`: behind their leads, the lines are the same, also
  after spaces and tabs at line ends are dropped.
-/
import Blockscribe.Proofs.Program.SolidLines

namespace Blockscribe

namespace Text

/-- Blanks within a line, at least one. -/
structure IsLead (m : List Char) : Prop where
  ne_nil : m ≠ []
  blank : allBlank m = true
  flat : '\n' ∉ m

/-- Two texts that are the same but for the blanks that lead their lines; the flag says whether the
first line may be led, too. -/
inductive Shifted : Bool → List Char → List Char → Prop
  | nil {start : Bool} : Shifted start [] []
  | cons {start : Bool} {c : Char} {a b : List Char} : Shifted (c == '\n') a b →
      Shifted start (c :: a) (c :: b)
  | lead {m m' a b : List Char} : IsLead m → IsLead m' → Shifted false a b →
      Shifted true (m ++ a) (m' ++ b)

variable {start : Bool} {a b c d m m' lead lead' : List Char} {x y : Char}

lemma IsLead.append (h : IsLead m) (h' : IsLead m') : IsLead (m ++ m') where
  ne_nil := List.append_ne_nil_of_left_ne_nil h.ne_nil m'
  blank := by rw [allBlank_append, h.blank, h'.blank]; rfl
  flat hmem := (List.mem_append.mp hmem).elim h.flat h'.flat

/-- What is not blank is no lead. -/
lemma IsLead.isBlank_head (h : IsLead (x :: m)) : isBlank x = true :=
  List.all_eq_true.mp h.blank x List.mem_cons_self

namespace Shifted

lemma refl (start : Bool) (cs : List Char) : Shifted start cs cs := by
  induction cs generalizing start with
  | nil => exact .nil
  | cons c rest ih => exact .cons (ih _)

/-- Leads at the start of the first line are allowed, but not asked for. -/
lemma weaken (h : Shifted false a b) (start : Bool) : Shifted start a b := by
  cases h with
  | nil => exact .nil
  | cons h => exact .cons h

lemma nil_iff (h : Shifted start a b) : a = [] ↔ b = [] := by
  cases h with
  | nil => exact Iff.rfl
  | cons h => exact iff_of_false (List.cons_ne_nil _ _) (List.cons_ne_nil _ _)
  | lead hm hm' _ =>
      exact iff_of_false (List.append_ne_nil_of_left_ne_nil hm.ne_nil _)
        (List.append_ne_nil_of_left_ne_nil hm'.ne_nil _)

/-- A lead in front of lines that may be led. -/
lemma lead_true (hm : IsLead m) (hm' : IsLead m') (h : Shifted start a b) :
    Shifted true (m ++ a) (m' ++ b) := by
  cases h with
  | nil => exact .lead hm hm' .nil
  | cons h => exact .lead hm hm' (.cons h)
  | @lead k k' a b hk hk' h =>
      rw [← List.append_assoc, ← List.append_assoc]
      exact .lead (hm.append hk) (hm'.append hk') h

/-- What is visible at the start of a line is led by nothing, and neither is a line feed. -/
lemma of_visible (h : Shifted start (x :: a) b) (hx : isBlank x = true → x = '\n') :
    ∃ b', b = x :: b' ∧ Shifted (x == '\n') a b' := by
  generalize hcs : x :: a = cs at h
  cases h with
  | nil => exact nomatch hcs
  | cons h =>
      obtain ⟨rfl, rfl⟩ := List.cons.inj hcs
      exact ⟨_, rfl, h⟩
  | @lead m m' a' b' hm hm' h =>
      obtain ⟨y, m, rfl⟩ := List.exists_cons_of_ne_nil hm.ne_nil
      obtain ⟨rfl, -⟩ := List.cons.inj hcs
      exact absurd List.mem_cons_self (hx hm.isBlank_head ▸ hm.flat)

/-! ### Putting texts together -/

lemma append (h : Shifted start a b) (h' : Shifted false c d) :
    Shifted start (a ++ c) (b ++ d) := by
  induction h with
  | nil => exact h'.weaken _
  | cons _ ih => exact .cons ih
  | lead hm hm' _ ih =>
      rw [List.append_assoc, List.append_assoc]
      exact .lead hm hm' ih

/-- Behind a line feed lines may be led. -/
lemma append_break (h : Shifted start a b) (h' : Shifted true c d) :
    Shifted start (a ++ '\n' :: c) (b ++ '\n' :: d) := by
  refine h.append ?_
  exact .cons h'

end Shifted

/-- Puts `lead` after every line feed. -/
def leadBreaks (lead : List Char) : List Char → List Char
  | [] => []
  | c :: rest => if c = '\n' then c :: (lead ++ leadBreaks lead rest) else c :: leadBreaks lead rest

lemma leadBreaks_append_of_not_mem (h : '\n' ∉ a) (b : List Char) :
    leadBreaks lead (a ++ b) = a ++ leadBreaks lead b := by
  induction a with
  | nil => rfl
  | cons c rest ih =>
      rw [List.mem_cons, not_or] at h
      rw [List.cons_append, leadBreaks, if_neg (Ne.symm h.1), ih h.2, List.cons_append]

/-- A line feed that ends a text starts no line. -/
lemma leadAfterBreaks_break (lead cs : List Char) :
    leadAfterBreaks lead (cs ++ ['\n']) = leadBreaks lead cs ++ ['\n'] := by
  induction cs with
  | nil => rfl
  | cons c rest ih =>
      have hne : rest ++ ['\n'] ≠ [] := List.append_ne_nil_of_right_ne_nil _ (List.cons_ne_nil _ _)
      rw [List.cons_append, leadAfterBreaks, leadBreaks, ih]
      by_cases hc : c = '\n'
      · rw [if_pos ⟨hc, hne⟩, if_pos hc, List.cons_append, List.append_assoc]
      · rw [if_neg fun h => hc h.1, if_neg hc, List.cons_append]

lemma Shifted.leadBreaks (h : Shifted start a b) (hlead : IsLead lead) (hlead' : IsLead lead') :
    Shifted start (leadBreaks lead a) (leadBreaks lead' b) := by
  induction h with
  | nil => exact .nil
  | @cons _ c a b _ ih =>
      rw [Text.leadBreaks, Text.leadBreaks]
      by_cases hc : c = '\n'
      · rw [if_pos hc, if_pos hc]
        rw [hc] at ih ⊢
        exact .cons (ih.lead_true hlead hlead')
      · rw [if_neg hc, if_neg hc]
        exact .cons ih
  | lead hm hm' _ ih =>
      rw [leadBreaks_append_of_not_mem hm.flat, leadBreaks_append_of_not_mem hm'.flat]
      exact .lead hm hm' ih

/-! ### Units of indentation -/

lemma shifted_reindentLine (hlead : IsLead lead) (hlead' : IsLead lead') (line : List Char) :
    Shifted true (reindentLine lead line) (reindentLine lead' line) := by
  fun_induction reindentLine lead line with
  | case1 rest ih =>
      rw [reindentLine]
      exact ih.lead_true hlead hlead'
  | case2 cs hcs =>
      rw [reindentLine.eq_2 _ _ hcs]
      exact .refl _ _

lemma reindent_line (unit : List Char) {line : List Char} (h : '\n' ∉ line) (rest : List Char) :
    reindent unit (line ++ '\n' :: rest) = reindentLine unit line ++ '\n' :: reindent unit rest := by
  obtain ⟨next, more, hmore⟩ := List.exists_cons_of_ne_nil (splitLines_ne_nil rest)
  rw [reindent, reindent, splitLines_line h, hmore]
  rfl

/-- Texts that are written with two units of indentation. -/
lemma shifted_reindent (hlead : IsLead lead) (hlead' : IsLead lead') (cs : List Char) :
    Shifted true (reindent lead cs) (reindent lead' cs) := by
  induction cs using lines_induction with
  | last line h =>
      rw [reindent, reindent, splitLines_of_not_mem h]
      exact shifted_reindentLine hlead hlead' line
  | line line rest h ih =>
      rw [reindent_line _ h, reindent_line _ h]
      exact (shifted_reindentLine hlead hlead' line).append_break ih

end Text

lemma toList_break (a b : String) : (a ++ "\n" ++ b).toList = a.toList ++ '\n' :: b.toList := by
  simp

/-- Lines that are led, if the last of them is ended. -/
lemma leadLines_break (lead f : String) :
    leadLines lead (f ++ "\n") =
      String.ofList (lead.toList ++ Text.leadBreaks lead.toList f.toList) ++ "\n" := by
  rw [← String.toList_inj, toList_leadLines, Text.leadLines]
  simp only [String.toList_append, String.toList_ofList, List.append_assoc]
  exact congrArg _ (Text.leadAfterBreaks_break _ _)

/-! ### The layout -/

namespace Program

variable {a : List Char}

open Text

lemma dropLastBreaks_cons (x : Char) (cs : List Char) :
    dropLastBreaks (x :: cs) =
      if x = '\n' ∧ dropLastBreaks cs = [] then [] else x :: dropLastBreaks cs := by
  rw [dropLastBreaks, dropLastBreaks, List.reverse_cons, List.dropWhile_append]
  by_cases hempty : cs.reverse.dropWhile (· = '\n') = []
  · rw [hempty]
    by_cases hx : x = '\n'
    · simp [hx]
    · simp [hx]
  · rw [if_neg (by simpa using hempty), if_neg (by simp [hempty]), List.reverse_append]
    rfl

lemma dropLastBreaks_append_of_not_mem (h : '\n' ∉ a) (b : List Char) :
    dropLastBreaks (a ++ b) = a ++ dropLastBreaks b := by
  induction a with
  | nil => rfl
  | cons c rest ih =>
      rw [List.mem_cons, not_or] at h
      rw [List.cons_append, dropLastBreaks_cons, if_neg fun hc => h.1 hc.1.symm, ih h.2,
        List.cons_append]

lemma afterWord?_cons (w : Char) (word : List Char) (x : Char) (cs : List Char) :
    afterWord? (w :: word) (x :: cs) = if w = x then afterWord? word cs else none := by
  by_cases hw : w = x
  · rw [if_pos hw, afterWord?, afterWord?, List.isPrefixOf, beq_iff_eq.mpr hw, Bool.true_and]
    rfl
  · rw [if_neg hw, afterWord?, List.isPrefixOf, beq_eq_false_iff_ne.mpr hw, Bool.false_and]
    exact if_neg Bool.false_ne_true

end Program

namespace Text

open Program (afterWord? afterBlanks? startsImport startsFromImport isImport dropLineEnds)

/-- The lines of a text without the blanks that lead them. -/
def strippedLines (cs : List Char) : List (List Char) := (splitLines cs).map trimLeft

lemma strippedLines_line {line : List Char} (h : '\n' ∉ line) (rest : List Char) :
    strippedLines (line ++ '\n' :: rest) = trimLeft line :: strippedLines rest := by
  rw [strippedLines, strippedLines, splitLines_line h, List.map_cons]

lemma trimLeft_blank_append (hm : allBlank m = true) (cs : List Char) :
    trimLeft (m ++ cs) = trimLeft cs :=
  List.dropWhile_append_of_pos (List.all_eq_true.mp hm)

/-- A lead makes no difference to what a line is without its ends. -/
lemma trimLeft_withoutEnd_append (hm : allBlank m = true) (cs : List Char) :
    trimLeft (withoutEnd (m ++ cs)) = trimLeft (withoutEnd cs) := by
  induction m with
  | nil => rfl
  | cons c rest ih =>
      rw [allBlank, List.all_cons, Bool.and_eq_true] at hm
      rw [List.cons_append, withoutEnd, ← ih hm.2]
      split
      · rename_i hend
        rw [hend.2]
      · exact List.dropWhile_cons_of_pos hm.1

namespace Shifted

variable (h : Shifted start a b)

include h

/-- Runs of line feeds are shortened alike; where some have been dropped, a line begins. -/
lemma squeeze {run : ℕ} (hrun : run ≠ 0 → start = true) :
    Shifted start (Program.squeeze run a) (Program.squeeze run b) := by
  induction h generalizing run with
  | nil => exact .nil
  | @cons start c a b _ ih =>
      rw [Program.squeeze, Program.squeeze]
      by_cases hc : c = '\n'
      · subst hc
        rw [if_pos rfl, if_pos rfl]
        by_cases hlong : run ≥ 2
        · rw [if_pos hlong, if_pos hlong, hrun (by omega)]
          exact ih fun _ => rfl
        · rw [if_neg hlong, if_neg hlong]
          exact .cons (ih fun _ => rfl)
      · rw [if_neg hc, if_neg hc]
        exact .cons (ih fun hne => absurd rfl hne)
  | lead hm hm' _ ih =>
      rw [Program.squeeze_line hm.flat hm.ne_nil, Program.squeeze_line hm'.flat hm'.ne_nil]
      exact .lead hm hm' (ih fun hne => absurd rfl hne)

lemma dropLastBreaks : Shifted start (Program.dropLastBreaks a) (Program.dropLastBreaks b) := by
  induction h with
  | nil => exact .nil
  | @cons start c a b _ ih =>
      rw [Program.dropLastBreaks_cons, Program.dropLastBreaks_cons]
      by_cases hc : c = '\n' ∧ Program.dropLastBreaks a = []
      · rw [if_pos hc, if_pos ⟨hc.1, ih.nil_iff.mp hc.2⟩]
        exact .nil
      · rw [if_neg hc, if_neg fun hc' => hc ⟨hc'.1, ih.nil_iff.mpr hc'.2⟩]
        exact .cons ih
  | lead hm hm' _ ih =>
      rw [Program.dropLastBreaks_append_of_not_mem hm.flat,
        Program.dropLastBreaks_append_of_not_mem hm'.flat]
      exact .lead hm hm' ih

/-- Without the blanks at their start the texts begin with the same line. -/
lemma trimLeft : Shifted false (trimLeft a) (trimLeft b) := by
  induction h with
  | nil => exact .nil
  | @cons start c a b h ih =>
      by_cases hc : isBlank c = true
      · rw [Text.trimLeft, Text.trimLeft, List.dropWhile_cons_of_pos hc,
          List.dropWhile_cons_of_pos hc]
        exact ih
      · rw [Text.trimLeft, Text.trimLeft, List.dropWhile_cons_of_neg hc,
          List.dropWhile_cons_of_neg hc]
        exact .cons h
  | lead hm hm' _ ih =>
      rw [trimLeft_blank_append hm.blank, trimLeft_blank_append hm'.blank]
      exact ih

/-- **The lines are the same behind their leads**, also after the ends of lines are dropped. -/
lemma strippedLines_dropLineEnds (m m' c : List Char) (hm : allBlank m = true) (hm' : allBlank m' = true)
    (hflat : '\n' ∉ m ++ c) (hflat' : '\n' ∉ m' ++ c) (hstart : start = true → c = []) :
    strippedLines (dropLineEnds (m ++ c ++ a)) = strippedLines (dropLineEnds (m' ++ c ++ b)) := by
  -- `m ++ c` and `m' ++ c` are what has been read of the current line
  induction h generalizing m m' c with
  | nil =>
      rw [List.append_nil, List.append_nil, Program.dropLineEnds_of_not_mem hflat,
        Program.dropLineEnds_of_not_mem hflat', strippedLines, strippedLines,
        splitLines_of_not_mem hflat, splitLines_of_not_mem hflat', List.map_singleton,
        List.map_singleton, trimLeft_blank_append hm, trimLeft_blank_append hm']
  | @cons start x a b _ ih =>
      by_cases hx : x = '\n'
      · subst hx
        have hrest := ih [] [] [] rfl rfl List.not_mem_nil List.not_mem_nil fun _ => rfl
        have hline : '\n' ∉ withoutEnd (m ++ c) := fun hmem => hflat (mem_of_mem_withoutEnd hmem)
        have hline' : '\n' ∉ withoutEnd (m' ++ c) := fun hmem => hflat' (mem_of_mem_withoutEnd hmem)
        rw [Program.dropLineEnds_line hflat, Program.dropLineEnds_line hflat',
          strippedLines_line hline, strippedLines_line hline', trimLeft_withoutEnd_append hm,
          trimLeft_withoutEnd_append hm']
        exact congrArg _ hrest
      · have hshort : ∀ m : List Char, m ++ c ++ x :: a = m ++ (c ++ [x]) ++ a := fun m => by simp
        have hshort' : ∀ m : List Char, m ++ c ++ x :: b = m ++ (c ++ [x]) ++ b := fun m => by simp
        have hmore : ∀ {line : List Char}, '\n' ∉ line ++ c → '\n' ∉ line ++ (c ++ [x]) := by
          intro line hline
          rw [← List.append_assoc, List.mem_append, List.mem_singleton, not_or]
          exact ⟨hline, Ne.symm hx⟩
        rw [hshort, hshort']
        exact ih _ _ _ hm hm' (hmore hflat) (hmore hflat') fun heq => absurd (beq_iff_eq.mp heq) hx
  | @lead k k' a b hk hk' _ ih =>
      obtain rfl := hstart rfl
      rw [List.append_nil] at hflat hflat' ⊢
      rw [List.append_nil, ← List.append_assoc, ← List.append_assoc, ← List.append_nil (m ++ k),
        ← List.append_nil (m' ++ k')]
      refine ih _ _ _ ?_ ?_ ?_ ?_ fun _ => rfl
      · rw [allBlank_append, hm, hk.blank]
        rfl
      · rw [allBlank_append, hm', hk'.blank]
        rfl
      · rw [List.append_nil, List.mem_append, not_or]
        exact ⟨hflat, hk.flat⟩
      · rw [List.append_nil, List.mem_append, not_or]
        exact ⟨hflat', hk'.flat⟩

end Shifted

/-! ### Import lines -/

namespace Shifted

variable (h : Shifted false a b)

include h

lemma collapseChars : Shifted false (Program.collapseChars a) (Program.collapseChars b) :=
  (h.squeeze fun hne => absurd rfl hne).dropLastBreaks.append (.refl _ _)

lemma afterWord? {word : List Char} (hword : '\n' ∉ word) :
    Option.Rel (Shifted false) (afterWord? word a) (afterWord? word b) := by
  induction word generalizing a b with
  | nil => exact .some h
  | cons w word ih =>
      rw [List.mem_cons, not_or] at hword
      cases h with
      | nil => exact .none
      | @cons _ x a b h =>
          rw [Program.afterWord?_cons, Program.afterWord?_cons]
          by_cases hx : w = x
          · subst hx
            rw [if_pos rfl, if_pos rfl]
            rw [beq_eq_false_iff_ne.mpr (Ne.symm hword.1)] at h
            exact ih h hword.2
          · rw [if_neg hx, if_neg hx]
            exact .none

lemma afterBlanks? : Option.Rel (Shifted false) (afterBlanks? a) (afterBlanks? b) := by
  cases h with
  | nil => exact .none
  | cons h =>
      rw [Program.afterBlanks?, Program.afterBlanks?]
      split
      · exact .some h.trimLeft
      · exact .none

/-- What follows a word and blanks. -/
lemma afterKeyword (word : List Char) (hword : '\n' ∉ word) :
    Option.Rel (Shifted false) ((Program.afterWord? word a).bind Program.afterBlanks?)
      ((Program.afterWord? word b).bind Program.afterBlanks?) := by
  have hafter := h.afterWord? hword
  generalize Program.afterWord? word a = after at hafter ⊢
  generalize Program.afterWord? word b = after' at hafter ⊢
  cases hafter with
  | none => exact .none
  | some hrest => exact hrest.afterBlanks?

lemma dropWord : Shifted false (a.dropWhile fun c => !isBlank c)
    (b.dropWhile fun c => !isBlank c) := by
  induction a generalizing b with
  | nil =>
      cases h
      exact .nil
  | cons c a ih =>
      cases h with
      | cons h =>
          by_cases hc : isBlank c = true
          · rw [List.dropWhile_cons_of_neg (by simp [hc]), List.dropWhile_cons_of_neg (by simp [hc])]
            exact .cons h
          · rw [List.dropWhile_cons_of_pos (by simp [hc]), List.dropWhile_cons_of_pos (by simp [hc])]
            have hne : c ≠ '\n' := by
              rintro rfl
              exact hc (by decide)
            rw [beq_eq_false_iff_ne.mpr hne] at h
            exact ih h

lemma startsImport_eq : startsImport a = startsImport b := by
  have hafter := h.afterKeyword "import".toList (by decide)
  rw [startsImport, startsImport]
  generalize Option.bind _ _ = after at hafter ⊢
  generalize Option.bind _ _ = after' at hafter ⊢
  cases hafter with
  | none => rfl
  | some hrest => cases hrest <;> rfl

lemma startsFromImport_eq : startsFromImport a = startsFromImport b := by
  have hafter := h.afterKeyword "from".toList (by decide)
  rw [startsFromImport, startsFromImport]
  generalize Option.bind _ _ = after at hafter ⊢
  generalize Option.bind _ _ = after' at hafter ⊢
  cases hafter with
  | none => rfl
  | some hrest =>
      cases hrest with
      | nil => rfl
      | @cons _ c name name' hname =>
          have hrest : Shifted false (c :: name) (c :: name') := .cons hname
          have htail := hrest.dropWord.afterBlanks?
          simp only
          generalize Program.afterBlanks? _ = tail at htail ⊢
          generalize Program.afterBlanks? _ = tail' at htail ⊢
          cases htail with
          | none => rfl
          | some htail => exact htail.startsImport_eq

end Shifted

/-- The same texts are imports. -/
lemma Shifted.isImport_eq {text text' : String} (h : Shifted false text.toList text'.toList) :
    isImport text = isImport text' := by
  rw [isImport, isImport, h.startsImport_eq, h.startsFromImport_eq]

end Text

end Blockscribe
