/-
Lines that have something in them.

* `IsFirm.withoutEnd_ne_nil`: something is left of a line without its end, if something other than
  spaces and tabs is in it.
* `Text.Firm`: texts of such lines. They can be put together, also with line feeds between them.
* `firm_quote`: quoted texts are such texts, as a backslash stands in front of every line feed.
* `firm_helperText`: so are helper routines, whatever their identifier and the indent are.
-/
import Blockscribe.Proofs.Plan.Akin
import Blockscribe.Proofs.Program.Shifted
import Blockscribe.Proofs.Program.Names
import Blockscribe.Proofs.Text.Literal

namespace Blockscribe

/-- Something is left of a firm line without its end. -/
lemma IsFirm.withoutEnd_ne_nil {line : List Char} (h : IsFirm line) : Text.withoutEnd line ≠ [] := by
  obtain ⟨c, hc, hfirm⟩ := h
  induction line with
  | nil => exact nomatch hc
  | cons d rest ih =>
      rw [Text.withoutEnd]
      split
      · rename_i hend
        rcases List.mem_cons.mp hc with rfl | hrest
        · exact absurd hend.1 (not_or.mpr hfirm)
        · exact absurd hend.2 (ih hrest)
      · exact List.cons_ne_nil _ _

namespace Text

variable {a b line rest pattern replacement unit : List Char}

lemma not_mem_append (ha : '\n' ∉ a) (hb : '\n' ∉ b) : '\n' ∉ a ++ b :=
  fun hmem => (List.mem_append.mp hmem).elim ha hb

/-! ### Texts of firm lines -/

/-- A text every line of which has something other than spaces and tabs in it. -/
inductive Firm : List Char → Prop
  | line {line : List Char} : '\n' ∉ line → IsFirm line → Firm line
  | next {line rest : List Char} : '\n' ∉ line → IsFirm line → Firm rest →
      Firm (line ++ '\n' :: rest)

namespace Firm

lemma isFirm_of_mem (h : Firm a) : ∀ line ∈ splitLines a, IsFirm line := by
  induction h with
  | line hl hfirm =>
      rw [splitLines_of_not_mem hl]
      exact List.forall_mem_singleton.mpr hfirm
  | next hl hfirm _ ih =>
      rw [splitLines_line hl]
      exact List.forall_mem_cons.mpr ⟨hfirm, ih⟩

lemma append_flat (h : Firm a) (hb : '\n' ∉ b) : Firm (a ++ b) := by
  induction h with
  | line hl hfirm => exact .line (not_mem_append hl hb) (hfirm.append_left b)
  | next hl hfirm _ ih =>
      rw [List.append_assoc]
      exact .next hl hfirm ih

lemma flat_append (ha : '\n' ∉ a) (h : Firm b) : Firm (a ++ b) := by
  cases h with
  | line hl hfirm => exact .line (not_mem_append ha hl) (hfirm.append_right a)
  | next hl hfirm hrest =>
      rw [← List.append_assoc]
      exact .next (not_mem_append ha hl) (hfirm.append_right a) hrest

lemma append (ha : Firm a) (hb : Firm b) : Firm (a ++ b) := by
  induction ha with
  | line hl _ => exact hb.flat_append hl
  | next hl hfirm _ ih =>
      rw [List.append_assoc]
      exact .next hl hfirm ih

lemma append_break (ha : Firm a) (hb : Firm b) : Firm (a ++ '\n' :: b) := by
  induction ha with
  | line hl hfirm => exact .next hl hfirm hb
  | next hl hfirm _ ih =>
      rw [List.append_assoc]
      exact .next hl hfirm ih

end Firm

/-! ### Quoted texts -/

/-- What is quoted, with the beginning of its first line in front. -/
lemma firm_escape (cs : List Char) {front : List Char} (hfront : '\n' ∉ front) :
    Firm (front ++ (Quoted.escape cs ++ [Quoted.mark])) := by
  induction cs generalizing front with
  | nil =>
      exact .line (not_mem_append hfront (by decide)) (IsFirm.append_right (by decide) front)
  | cons c rest ih =>
      rw [Quoted.escape]
      by_cases hc : c = '\n'
      · subst hc
        have hrest := ih List.not_mem_nil
        rw [if_pos (by decide), List.cons_append, List.cons_append]
        have hline : front ++ '\\' :: '\n' :: (Quoted.escape rest ++ [Quoted.mark]) =
            (front ++ ['\\']) ++ '\n' :: (Quoted.escape rest ++ [Quoted.mark]) := by simp
        rw [hline]
        exact .next (not_mem_append hfront (by decide)) (IsFirm.append_right (by decide) front) hrest
      · have hflat : '\n' ∉ [c] := by simpa using Ne.symm hc
        have hflat' : '\n' ∉ ['\\', c] := by simpa using Ne.symm hc
        split
        · have hline := ih (not_mem_append hfront hflat')
          simpa using hline
        · have hline := ih (not_mem_append hfront hflat)
          simpa using hline

lemma firm_quote (text : String) : Firm (quote text).toList := by
  have hmark : '\n' ∉ "'".toList := by decide
  simp only [quote, String.toList_append, String.toList_ofList, List.append_assoc]
  exact firm_escape text.toList hmark

/-! ### Helper routines -/

lemma firm_joinLines {lines : List (List Char)} (hne : lines ≠ [])
    (h : ∀ line ∈ lines, '\n' ∉ line ∧ IsFirm line) : Firm (joinLines lines) := by
  induction lines with
  | nil => exact absurd rfl hne
  | cons line more ih =>
      rw [List.forall_mem_cons] at h
      cases more with
      | nil => exact .line h.1.1 h.1.2
      | cons next more => exact .next h.1.1 h.1.2 (ih (List.cons_ne_nil _ _) h.2)

lemma mem_replaceFrom {c : Char} {skip : ℕ} {cs : List Char}
    (h : c ∈ replaceFrom pattern replacement skip cs) : c ∈ replacement ∨ c ∈ cs := by
  induction cs generalizing skip with
  | nil =>
      rw [replaceFrom] at h
      cases h
  | cons d rest ih =>
      cases skip with
      | succ n => exact (ih h).imp_right (List.mem_cons_of_mem d)
      | zero =>
          rw [replaceFrom] at h
          split at h
          · rcases List.mem_append.mp h with h | h
            · exact .inl h
            · exact (ih h).imp_right (List.mem_cons_of_mem d)
          · rcases List.mem_cons.mp h with rfl | h
            · exact .inr List.mem_cons_self
            · exact (ih h).imp_right (List.mem_cons_of_mem d)

/-- What is put in for parts of a line keeps it firm. -/
lemma isFirm_replaceAll {cs : List Char} (hr : IsFirm replacement) (h : IsFirm cs) :
    IsFirm (replaceAll pattern replacement cs) := by
  rw [replaceAll]
  induction cs with
  | nil => exact h
  | cons c rest ih =>
      rw [replaceFrom]
      split
      · exact hr.append_left _
      · obtain ⟨d, hd, hfirm⟩ := h
        rcases List.mem_cons.mp hd with rfl | hrest
        · exact ⟨d, List.mem_cons_self, hfirm⟩
        · exact (ih ⟨d, hrest, hfirm⟩).append_right [c]

/-- A pattern within a line does not go on behind the line feed. -/
lemma isPrefixOf_break (hp : '\n' ∉ pattern) (line rest : List Char) :
    pattern.isPrefixOf (line ++ '\n' :: rest) = pattern.isPrefixOf line := by
  induction pattern generalizing line with
  | nil => rw [List.isPrefixOf, List.isPrefixOf]
  | cons p more ih =>
      rw [List.mem_cons, not_or] at hp
      cases line with
      | nil =>
          have hne : (p == '\n') = false := beq_eq_false_iff_ne.mpr (Ne.symm hp.1)
          show (p == '\n' && more.isPrefixOf rest) = false
          rw [hne, Bool.false_and]
      | cons c line => rw [List.cons_append, List.isPrefixOf, List.isPrefixOf, ih hp.2]

lemma replaceFrom_break (hp : '\n' ∉ pattern) (hne : pattern ≠ []) {skip : ℕ}
    (hskip : skip ≤ line.length) (rest : List Char) :
    replaceFrom pattern replacement skip (line ++ '\n' :: rest) =
      replaceFrom pattern replacement skip line ++
        '\n' :: replaceFrom pattern replacement 0 rest := by
  induction line generalizing skip with
  | nil =>
      obtain rfl : skip = 0 := Nat.le_zero.mp hskip
      obtain ⟨p, more, rfl⟩ := List.exists_cons_of_ne_nil hne
      have hstarts := isPrefixOf_break hp [] rest
      show (if (p :: more).isPrefixOf ('\n' :: rest) then _ else _) = _
      rw [List.nil_append] at hstarts
      rw [hstarts]
      rfl
  | cons c line ih =>
      rw [List.length_cons] at hskip
      cases skip with
      | succ n => exact ih (Nat.le_of_succ_le_succ hskip)
      | zero =>
          have hstarts := isPrefixOf_break hp (c :: line) rest
          rw [List.cons_append] at hstarts
          rw [List.cons_append, replaceFrom, replaceFrom, hstarts]
          split
          · rename_i hfound
            have hle := (List.isPrefixOf_iff_prefix.mp hfound).length_le
            rw [List.length_cons] at hle
            rw [ih (by omega), List.append_assoc]
          · rw [ih (Nat.zero_le _)]
            rfl

lemma Firm.replaceAll (h : Firm a) (hp : '\n' ∉ pattern) (hne : pattern ≠ [])
    (hflat : '\n' ∉ replacement) (hr : IsFirm replacement) :
    Firm (replaceAll pattern replacement a) := by
  have hline : ∀ {line : List Char}, '\n' ∉ line → '\n' ∉ Text.replaceAll pattern replacement line :=
    fun hl hmem => (mem_replaceFrom hmem).elim hflat hl
  induction h with
  | line hl hfirm => exact .line (hline hl) (isFirm_replaceAll hr hfirm)
  | next hl hfirm _ ih =>
      rw [Text.replaceAll, replaceFrom_break hp hne (Nat.zero_le _)]
      exact .next (hline hl) (isFirm_replaceAll hr hfirm) ih

lemma isFirm_reindentLine (unit : List Char) {line : List Char} (h : IsFirm line) :
    IsFirm (reindentLine unit line) := by
  fun_induction reindentLine unit line with
  | case1 rest ih =>
      obtain ⟨c, hc, hfirm⟩ := h
      refine (ih ⟨c, ?_, hfirm⟩).append_right unit
      rcases List.mem_cons.mp hc with rfl | hc
      · exact absurd rfl hfirm.1
      · rcases List.mem_cons.mp hc with rfl | hc
        · exact absurd rfl hfirm.1
        · exact hc
  | case2 => exact h

lemma not_mem_reindentLine (hunit : '\n' ∉ unit) (h : '\n' ∉ line) :
    '\n' ∉ reindentLine unit line := by
  fun_induction reindentLine unit line with
  | case1 rest ih =>
      exact not_mem_append hunit (ih fun hmem =>
        h (List.mem_cons_of_mem _ (List.mem_cons_of_mem _ hmem)))
  | case2 => exact h

lemma Firm.reindent (h : Firm a) (hunit : '\n' ∉ unit) : Firm (reindent unit a) := by
  induction h with
  | line hl hfirm =>
      rw [Text.reindent, splitLines_of_not_mem hl]
      exact .line (not_mem_reindentLine hunit hl) (isFirm_reindentLine unit hfirm)
  | next hl hfirm _ ih =>
      rw [reindent_line unit hl]
      exact .next (not_mem_reindentLine hunit hl) (isFirm_reindentLine unit hfirm) ih

end Text

open Text (Firm isBlank)

/-- An identifier is a firm line. -/
lemma firm_of_isIdentifier {id : String} (h : isIdentifier id = true) :
    '\n' ∉ id.toList ∧ IsFirm id.toList := by
  have hvisible : ∀ c ∈ id.toList, isBlank c = false := fun c hc =>
    Program.isBlank_of_isWordChar (isWordChar_of_isIdentifier h hc)
  refine ⟨fun hmem => absurd (hvisible _ hmem) (by decide), ?_⟩
  obtain ⟨c, rest, hchars, -, -, -⟩ := exists_of_isIdentifier h
  have hmem : c ∈ id.toList := hchars ▸ List.mem_cons_self
  have hc : isBlank c = false := hvisible c hmem
  refine ⟨c, hmem, ?_, ?_⟩ <;> rintro rfl <;> exact absurd hc (by decide)

/-- Every line of a helper routine is firm. -/
lemma firm_helperText {indent id : String} {lines : List String} (hindent : '\n' ∉ indent.toList)
    (hid : isIdentifier id = true) (h : IsRoutine lines) :
    Firm (Definitions.helperText indent id lines).toList := by
  obtain ⟨signature, more, rfl, -, hlines⟩ := h
  rw [List.forall_mem_cons] at hlines
  obtain ⟨hflat, hfirm⟩ := firm_of_isIdentifier hid
  rw [Definitions.helperText_eq, String.toList_ofList]
  refine Firm.reindent (Firm.replaceAll ?_ (by decide) (by decide) hflat hfirm) hindent
  refine Text.firm_joinLines (List.cons_ne_nil _ _) (List.forall_mem_cons.mpr ⟨?_, fun line hline => ?_⟩)
  · rw [String.toList_append]
    exact ⟨Text.not_mem_append (by decide) hlines.1.1, hlines.1.2.append_right _⟩
  · obtain ⟨text, htext, rfl⟩ := List.mem_map.mp hline
    exact hlines.2 text htext

end Blockscribe
