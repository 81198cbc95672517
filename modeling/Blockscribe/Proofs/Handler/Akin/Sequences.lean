/-
The handlers of lists and texts put texts together in one way only.

* `Outcome.Akin`: outcomes with akin code.
* `flat_toString`, `flat_plainText`: numbers are written on one line.
* `akin_indexAt`, `akin_slice`: places and parts with akin indexes.
* `akin_of_mem_lists`, `akin_of_mem_texts`: given akin answers, the handlers of lists and texts give
  akin outcomes.
-/
import Blockscribe.Proofs.Handler.Tells
import Blockscribe.Proofs.Number.Numeral
import Blockscribe.Proofs.Plan.Akin

namespace Blockscribe

/-- Outcomes with akin code. -/
inductive Outcome.Akin (k : Kin) : Outcome → Outcome → Prop
  | value {code code' : String} {grade : Grade} : k.expr code code' →
      Akin k (.value code grade) (.value code' grade)
  | statement {code code' : String} : k.lines code code' →
      Akin k (.statement code) (.statement code')
  | nothing : Akin k .nothing .nothing

/-! ### Numbers -/

namespace Grammar

/-- A piece that begins with a digit stops at the end of a line. -/
lemma not_mem_of_runsOn {first : Char} {piece cs : List Char} (hfirst : first.isDigit = true)
    (h : runsOn (first :: piece) cs = true) : '\n' ∉ cs := by
  induction cs generalizing piece with
  | nil => exact List.not_mem_nil
  | cons c rest ih =>
      rw [runsOn, Bool.and_eq_true] at h
      have hbreak : goesOn (first :: piece) '\n' = false := by
        rw [goesOn, if_pos hfirst]
        rfl
      rw [List.mem_cons, not_or]
      refine ⟨?_, ih h.2⟩
      rintro rfl
      cases hbreak.symm.trans h.1

/-- A numeral begins with a digit and stands on one line. -/
lemma flat_of_isNumeral {cs : List Char} (h : isNumeral cs = true) : '\n' ∉ cs ∧ IsFirm cs := by
  cases cs with
  | nil => exact nomatch h
  | cons c rest =>
      obtain ⟨hdigit, hruns⟩ := runsOn_of_isNumeral h
      have hne : ∀ d : Char, d.isDigit = false → c ≠ d := by
        rintro d hd rfl
        exact nomatch hd.symm.trans hdigit
      rw [List.mem_cons, not_or]
      exact ⟨⟨(hne _ rfl).symm, not_mem_of_runsOn hdigit hruns⟩, c, List.mem_cons_self, hne _ rfl,
        hne _ rfl⟩

end Grammar

/-- A sign may stand in front of a numeral. -/
lemma flat_signed {text : String} (sign : String) (hsign : '\n' ∉ sign.toList)
    (h : Grammar.isNumeral text.toList = true) :
    '\n' ∉ (sign ++ text).toList ∧ IsFirm (sign ++ text).toList := by
  obtain ⟨hflat, hfirm⟩ := Grammar.flat_of_isNumeral h
  rw [String.toList_append, List.mem_append, not_or]
  exact ⟨⟨hsign, hflat⟩, hfirm.append_right _⟩

/-- An integer is written on one line. -/
lemma flat_toString (i : Int) : '\n' ∉ (toString i).toList ∧ IsFirm (toString i).toList := by
  cases i with
  | ofNat n => exact Grammar.flat_of_isNumeral (Double.isNumeral_repr n)
  | negSucc n => exact flat_signed "-" (by decide) (Double.isNumeral_repr (n + 1))

/-- So is a finite number. -/
lemma flat_plainText (negative : Bool) (m : ℕ) (e : Int) :
    '\n' ∉ (Double.finite negative m e).plainText.toList ∧
      IsFirm (Double.finite negative m e).plainText.toList := by
  rw [Double.plainText_eq]
  refine flat_signed _ ?_ (Double.isNumeral_magnitude negative m e)
  split <;> decide

lemma Kin.Lawful.part_toString {k : Kin} {indent indent' : String} (hk : k.Lawful indent indent')
    (i : Int) : k.part (toString i) (toString i) :=
  hk.part_const (flat_toString i).1

namespace Handler

open Plan

variable {k : Kin} {site : Site} {indent' : String}

/-- The site of the other run, which has another indent. -/
abbrev Site.other (site : Site) (indent' : String) : Site := { site with indent := indent' }

section Lawful

variable (hk : k.Lawful site.indent indent') (face : Face)

include hk

/-! ### Outcomes -/

lemma akin_const {code : String} {rank : Rank} (hflat : '\n' ∉ code.toList)
    (hfirm : IsFirm code.toList) :
    Akin k (Outcome.Akin k) (pure (.expr code rank)) (pure (.expr code rank)) :=
  akin_pure (.value (hk.expr_const hflat hfirm))

lemma akin_line {code code' : String} (h : k.expr code code') :
    Akin k (Outcome.Akin k) (pure (.statement (code ++ "\n"))) (pure (.statement (code' ++ "\n"))) :=
  akin_pure (.statement (hk.lines_break h))

lemma akin_closed {code code' : String} (h : k.part code code') :
    Akin k (Outcome.Akin k) (pure (.statement (code ++ ")\n")))
      (pure (.statement (code' ++ ")\n"))) :=
  akin_pure (.statement (hk.lines_close h ")" (by decide) (by decide)))

/-! ### Indexes -/

lemma akin_computedIndex {index index' : String} (h : k.part index index') (shift : Int)
    (negate : Bool) :
    k.part (computedIndex index shift negate) (computedIndex index' shift negate) := by
  have hshift := hk.part_toString
  rw [computedIndex, computedIndex]
  grind [Kin.Lawful.part_append, Kin.Lawful.part_const]

omit hk in
lemma flat_foldedIndex {numeral folded : String} {shift : Int} {negate : Bool}
    (h : foldedIndex numeral shift negate = .ok folded) : '\n' ∉ folded.toList := by
  rw [foldedIndex] at h
  split at h
  · cases h
  · split at h
    · cases h
    · exact Except.ok.inj h ▸ (flat_toString _).1

lemma akin_indexAt (socket : String) (offset : Int) (negate : Bool) :
    Akin k k.part (indexAt site socket offset negate)
      (indexAt (Site.other site indent') socket offset negate) := by
  refine (akin_expr (hk.part_const ?_)).bind fun index index' hindex => ?_
  · rw [firstIndex]
    split <;> decide
  · rcases hk.eq_or_compound hindex with rfl | ⟨⟨-, hnumeral, -⟩, -, hnumeral', -⟩
    · rw [show shiftFor (Site.other site indent') offset = shiftFor site offset from rfl]
      split
      · cases hfolded : foldedIndex index (shiftFor site offset) negate with
        | ok folded => exact akin_pure (hk.part_const (flat_foldedIndex hfolded))
        | error fault => exact .fail
      · exact akin_pure (akin_computedIndex hk hindex _ _)
    · rw [if_neg (by simp [hnumeral]), if_neg (by simp [hnumeral'])]
      exact akin_pure (akin_computedIndex hk hindex _ _)

/-- A zero is left out. -/
lemma part_ite_zero {index index' : String} (h : k.part index index') :
    k.part (if index = "0" then "" else index) (if index' = "0" then "" else index') := by
  rcases hk.eq_or_compound h with rfl | ⟨⟨-, hnumeral, -⟩, -, hnumeral', -⟩
  · split
    · exact hk.part_const (by decide)
    · exact h
  · have hzero : Number.isNumeral "0" = true := by decide
    rw [if_neg, if_neg]
    · exact h
    · rintro rfl
      exact nomatch hnumeral'.symm.trans hzero
    · rintro rfl
      exact nomatch hnumeral.symm.trans hzero

lemma akin_sliceStart (operation : String) :
    Akin k k.part (sliceStart site face operation)
      (sliceStart (Site.other site indent') face operation) := by
  rw [sliceStart, sliceStart]
  split
  · exact (akin_indexAt hk _ _ _).bind fun _ _ h => akin_pure (part_ite_zero hk h)
  split
  · exact akin_indexAt hk _ _ _
  split
  · exact akin_pure (hk.part_const (by decide))
  · exact akin_refuse

section Imports

variable (himports : ∀ e ∈ moduleLines, k.definition e.1 e.2 e.2)

include himports

lemma akin_sliceEnd (operation : String) :
    Akin k k.part (sliceEnd site face operation)
      (sliceEnd (Site.other site indent') face operation) := by
  have hsys : Akin k (fun _ _ => True) (writeDefinition "import_sys" "import sys")
      (writeDefinition "import_sys" "import sys") :=
    akin_writeDefinition (himports ("import_sys", "import sys") (by decide))
  rw [sliceEnd, sliceEnd]
  split
  · exact akin_indexAt hk _ _ _
  split
  · refine (akin_indexAt hk _ _ _).bind fun stop stop' hstop => ?_
    rcases hk.eq_or_compound hstop with rfl | ⟨⟨-, hnumeral, -⟩, -, hnumeral', -⟩
    · split
      · exact hsys.bind fun _ _ _ => akin_pure (hk.part_append hstop (hk.part_const (by decide)))
      · exact akin_pure (part_ite_zero hk hstop)
    · rw [if_pos (by simp [hnumeral]), if_pos (by simp [hnumeral'])]
      exact hsys.bind fun _ _ _ => akin_pure (hk.part_append hstop (hk.part_const (by decide)))
  split
  · exact akin_pure (hk.part_const (by decide))
  · exact akin_refuse

lemma akin_slice (operation : String) {sequence sequence' : String}
    (h : k.part sequence sequence') :
    Akin k (Outcome.Akin k) (slice site face operation sequence)
      (slice (Site.other site indent') face operation sequence') := by
  refine (akin_sliceStart hk _ _).bind fun start start' hstart => ?_
  refine (akin_sliceEnd hk _ himports _).bind fun stop stop' hstop => akin_pure (.value ?_)
  have hopen := hk.expr_add h "[" (by decide) (by decide)
  apply_rules [hk.expr_append_left, hk.part_const] <;> decide

/-! ### Lists -/

omit himports in
lemma akin_operands (word : String) {default : String} (hdefault : '\n' ∉ default.toList)
    (count : Nat) :
    Akin k (List.Forall₂ k.part) (Lists.operands word default count)
      (Lists.operands word default count) :=
  akin_mapM fun _ _ => akin_expr (hk.part_const hdefault)

omit hk in
lemma akin_importRandom : Akin k (fun _ _ => True) Lists.importRandom Lists.importRandom :=
  akin_writeDefinition (himports ("import_random", "import random") (by decide))

omit himports in
lemma akin_listsIndexOf :
    Akin k (Outcome.Akin k) (Lists.indexOf site face)
      (Lists.indexOf (Site.other site indent') face) := by
  refine (akin_expr (hk.part_const (by decide))).bind fun item item' hitem => ?_
  refine (akin_expr (hk.part_const (by decide))).bind fun items items' hitems => ?_
  dsimp only
  split
  · refine (akin_routine ?_).bind fun routine _ h => ?_
    · refine ⟨_, _, rfl, rfl, ?_⟩
      cases site.oneBased <;> decide
    obtain ⟨rfl, hid⟩ := h
    have hname := hk.expr_name hid
    refine akin_pure (.value ?_)
    apply_rules [hk.expr_append_left, hk.part_const] <;> decide
  split
  · refine (akin_routine ?_).bind fun routine _ h => ?_
    · refine ⟨_, _, rfl, rfl, ?_⟩
      cases site.oneBased <;> decide
    obtain ⟨rfl, hid⟩ := h
    have hname := hk.expr_name hid
    refine akin_pure (.value ?_)
    apply_rules [hk.expr_append_left, hk.part_const] <;> decide
  · exact akin_refuse

lemma akin_getIndex :
    Akin k (Outcome.Akin k) (Lists.getIndex site face)
      (Lists.getIndex (Site.other site indent') face) := by
  refine (akin_expr (hk.part_const (by decide))).bind fun items items' hitems => ?_
  -- what is done at a place once it has been found
  extract_lets finish finish'
  have hfinish : ∀ place place' : String × String, k.part place.1 place'.1 ∧
      k.part place.2 place'.2 → Akin k (Outcome.Akin k) (finish place) (finish' place') := by
    rintro place place' ⟨hindex, hpop⟩
    dsimp only [finish, finish']
    split
    · have hopen := hk.expr_add hitems "[" (by decide) (by decide)
      exact akin_pure (.value
        (hk.expr_append_left (hk.expr_append_left hopen hindex) (hk.part_const (by decide))))
    split
    · have hopen := hk.expr_add hitems ".pop(" (by decide) (by decide)
      exact akin_pure (.value
        (hk.expr_append_left (hk.expr_append_left hopen hpop) (hk.part_const (by decide))))
    split
    · have hopen := hk.part_append hitems (hk.part_const (c := ".pop(") (by decide))
      exact akin_closed hk (hk.part_append hopen hpop)
    · exact akin_refuse
  have hzero := hk.part_const (c := "0") (by decide)
  split
  · split
    · exact (akin_pure ⟨hzero, hzero⟩).bind hfinish
    split
    · exact (akin_pure ⟨hk.part_const (by decide), hk.part_const (by decide)⟩).bind hfinish
    split
    · exact (akin_indexAt hk _ _ _).bind fun _ _ h => (akin_pure ⟨h, h⟩).bind hfinish
    · exact (akin_indexAt hk _ _ _).bind fun _ _ h => (akin_pure ⟨h, h⟩).bind hfinish
  split
  · refine (akin_importRandom himports).bind fun _ _ _ => ?_
    split
    · refine akin_pure (.value ?_)
      apply_rules [hk.expr_append_left, hk.expr_const, hk.part_const] <;> decide
    split
    · refine (akin_routine ⟨_, _, rfl, rfl, by decide⟩).bind fun routine _ h => ?_
      obtain ⟨rfl, hid⟩ := h
      have hname := hk.expr_name hid
      have hcall : k.expr (routine ++ "(" ++ items ++ ")") (routine ++ "(" ++ items' ++ ")") := by
        apply_rules [hk.expr_append_left, hk.part_const] <;> decide
      dsimp only
      split
      · exact akin_pure (.value hcall)
      · exact akin_line hk hcall
    · exact akin_refuse
  · exact akin_refuse

lemma akin_setRandom {items items' value value' : String} (hitems : k.part items items')
    (hvalue : k.part value value') (insert : Bool) :
    Akin k (Outcome.Akin k) (Lists.setRandom items value insert)
      (Lists.setRandom items' value' insert) := by
  refine (akin_importRandom himports).bind fun _ _ _ => ?_
  extract_lets finish finish'
  have hfinish : ∀ list list' : String × String, k.lines list.1 list'.1 ∧ k.part list.2 list'.2 →
      Akin k (Outcome.Akin k) (finish list) (finish' list') := by
    rintro list list' ⟨hassignment, hlist⟩
    refine (akin_temporary _).bind fun index _ h => ?_
    obtain ⟨rfl, hid⟩ := h
    have hindex := hk.part_name hid
    have hchoice : k.lines (index ++ " = int(random.random() * len(" ++ list.2 ++ "))\n")
        (index ++ " = int(random.random() * len(" ++ list'.2 ++ "))\n") := by
      refine hk.lines_close ?_ "))" (by decide) (by decide)
      exact hk.part_append (hk.part_append hindex (hk.part_const (by decide))) hlist
    have hboth := hk.lines_append hassignment hchoice
    dsimp only
    split
    · have hlast : k.lines (list.2 ++ ".insert(" ++ index ++ ", " ++ value ++ ")\n")
          (list'.2 ++ ".insert(" ++ index ++ ", " ++ value' ++ ")\n") := by
        refine hk.lines_close ?_ ")" (by decide) (by decide)
        apply_rules [hk.part_append, hk.part_const] <;> decide
      have hall := hk.lines_append hboth hlast
      simp only [String.append_assoc] at hall ⊢
      exact akin_pure (.statement hall)
    · have hopen := hk.expr_add hlist "[" (by decide) (by decide)
      have hlast : k.lines (list.2 ++ "[" ++ index ++ "] = " ++ value ++ "\n")
          (list'.2 ++ "[" ++ index ++ "] = " ++ value' ++ "\n") :=
        hk.lines_break (hk.expr_append_left (hk.expr_append_left (hk.expr_append_left hopen hindex)
          (hk.part_const (by decide))) hvalue)
      have hall := hk.lines_append hboth hlast
      simp only [String.append_assoc] at hall ⊢
      exact akin_pure (.statement hall)
  rcases hk.eq_or_compound hitems with rfl | ⟨⟨-, -, hword⟩, -, -, hword'⟩
  · split
    · exact (akin_pure ⟨hk.lines_empty, hitems⟩).bind hfinish
    · refine (akin_temporary _).bind fun list _ h => ?_
      obtain ⟨rfl, hid⟩ := h
      have hopen := hk.expr_append_left (hk.expr_name hid) (hk.part_const (c := " = ") (by decide))
      exact (akin_pure ⟨hk.lines_break (hk.expr_append_left hopen hitems), hk.part_name hid⟩).bind
        hfinish
  · rw [if_neg (by simp [hword]), if_neg (by simp [hword'])]
    refine (akin_temporary _).bind fun list _ h => ?_
    obtain ⟨rfl, hid⟩ := h
    have hopen := hk.expr_append_left (hk.expr_name hid) (hk.part_const (c := " = ") (by decide))
    exact (akin_pure ⟨hk.lines_break (hk.expr_append_left hopen hitems), hk.part_name hid⟩).bind
      hfinish

lemma akin_setIndex :
    Akin k (Outcome.Akin k) (Lists.setIndex site face)
      (Lists.setIndex (Site.other site indent') face) := by
  refine (akin_expr (hk.part_const (by decide))).bind fun items items' hitems => ?_
  refine (akin_expr (hk.part_const (by decide))).bind fun value value' hvalue => ?_
  extract_lets finish finish'
  have hfinish : ∀ index index' : String, k.part index index' →
      Akin k (Outcome.Akin k) (finish index) (finish' index') := by
    intro index index' hindex
    dsimp only [finish, finish']
    split
    · have hopen := hk.expr_add hitems "[" (by decide) (by decide)
      refine akin_line hk ?_
      exact hk.expr_append_left (hk.expr_append_left (hk.expr_append_left hopen hindex)
        (hk.part_const (by decide))) hvalue
    split
    · split
      · refine akin_closed hk ?_
        exact hk.part_append (hk.part_append hitems (hk.part_const (by decide))) hvalue
      · refine akin_closed hk ?_
        apply_rules [hk.part_append, hk.part_const] <;> decide
    · exact akin_refuse
  split
  · split
    · exact (akin_pure (hk.part_const (by decide))).bind hfinish
    split
    · exact (akin_pure (hk.part_const (by decide))).bind hfinish
    split
    · exact (akin_indexAt hk _ _ _).bind hfinish
    · exact (akin_indexAt hk _ _ _).bind hfinish
  split
  · exact akin_setRandom hk himports hitems hvalue _
  · exact akin_refuse

omit himports in
lemma akin_sort :
    Akin k (Outcome.Akin k) (Lists.sort site face) (Lists.sort (Site.other site indent') face) := by
  refine (akin_expr (hk.part_const (by decide))).bind fun items items' hitems => ?_
  cases face.field "TYPE" with
  | text order =>
      dsimp only
      split
      · rename_i horder
        have hflat : '\n' ∉ order.toList :=
          (by decide : ∀ order ∈ ["NUMERIC", "TEXT", "IGNORE_CASE"], '\n' ∉ order.toList) order
            (List.contains_iff_mem.mp horder)
        refine (akin_routine ⟨_, _, rfl, rfl, by decide⟩).bind fun routine _ h => ?_
        obtain ⟨rfl, hid⟩ := h
        have hname := hk.expr_name hid
        have horder := hk.part_const hflat
        have hreverse : k.part (if (face.field "DIRECTION").display = "1" then "False" else "True")
            (if (face.field "DIRECTION").display = "1" then "False" else "True") := by
          split <;> exact hk.part_const (by decide)
        refine akin_pure (.value ?_)
        apply_rules [hk.expr_append_left, hk.part_const] <;> decide
      · exact akin_refuse
  | null | bool | int | real | list | record => exact akin_refuse

omit himports in
lemma akin_split :
    Akin k (Outcome.Akin k) (Lists.split site face) (Lists.split (Site.other site indent') face) := by
  rw [Lists.split, Lists.split]
  split
  · refine (akin_expr (hk.part_const (by decide))).bind fun text text' htext => ?_
    refine (akin_expr (hk.part_const (by decide))).bind fun delimiter delimiter' hdelimiter => ?_
    have hopen := hk.expr_add htext ".split(" (by decide) (by decide)
    exact akin_pure (.value
      (hk.expr_append_left (hk.expr_append_left hopen hdelimiter) (hk.part_const (by decide))))
  split
  · refine (akin_expr (hk.part_const (by decide))).bind fun items items' hitems => ?_
    refine (akin_expr (hk.part_const (by decide))).bind fun delimiter delimiter' hdelimiter => ?_
    have hopen := hk.expr_add hdelimiter ".join(" (by decide) (by decide)
    exact akin_pure (.value
      (hk.expr_append_left (hk.expr_append_left hopen hitems) (hk.part_const (by decide))))
  · exact akin_refuse

lemma akin_of_mem_lists : ∀ entry ∈ Lists.table, ∀ face,
    Akin k (Outcome.Akin k) (entry.2 site face) (entry.2 (Site.other site indent') face) := by
  simp only [Lists.table, List.forall_mem_cons, List.not_mem_nil, false_implies, implies_true,
    and_true]
  refine ⟨fun _ => akin_const hk (by decide) (by decide), fun _ => ?_, fun _ => ?_, fun _ => ?_,
    fun _ => ?_, akin_listsIndexOf hk, fun _ => akin_getIndex hk _ himports,
    fun _ => akin_setIndex hk _ himports, fun _ => ?_, akin_sort hk, akin_split hk⟩
  · refine (akin_operands hk _ (by decide) _).bind fun elements elements' helements => ?_
    have hall := hk.part_intercalate ", " (by decide) helements
    refine akin_pure (.value ?_)
    apply_rules [hk.expr_append_left, hk.expr_const, hk.part_const] <;> decide
  · refine (akin_expr (hk.part_const (by decide))).bind fun item item' hitem => ?_
    refine (akin_expr (hk.part_const (by decide))).bind fun times times' htimes => ?_
    refine akin_pure (.value ?_)
    apply_rules [hk.expr_append_left, hk.expr_const, hk.part_const] <;> decide
  · refine (akin_expr (hk.part_const (by decide))).bind fun items items' hitems => ?_
    refine akin_pure (.value ?_)
    apply_rules [hk.expr_append_left, hk.expr_const, hk.part_const] <;> decide
  · refine (akin_expr (hk.part_const (by decide))).bind fun items items' hitems => ?_
    refine akin_pure (.value ?_)
    apply_rules [hk.expr_append_left, hk.expr_const, hk.part_const] <;> decide
  · refine (akin_expr (hk.part_const (by decide))).bind fun items items' hitems => ?_
    exact akin_slice hk _ himports _ hitems

end Imports

/-! ### Texts -/

lemma akin_join :
    Akin k (Outcome.Akin k) (Texts.join site face) (Texts.join (Site.other site indent') face) := by
  rw [Texts.join, Texts.join]
  split
  · exact akin_const hk (by decide) (by decide)
  · refine (akin_expr (hk.part_const (by decide))).bind fun part part' hpart => ?_
    refine akin_pure (.value ?_)
    apply_rules [hk.expr_append_left, hk.expr_const, hk.part_const] <;> decide
  · refine (akin_expr (hk.part_const (by decide))).bind fun first first' hfirst => ?_
    refine (akin_expr (hk.part_const (by decide))).bind fun second second' hsecond => ?_
    refine akin_pure (.value ?_)
    apply_rules [hk.expr_append_left, hk.expr_const, hk.part_const] <;> decide
  · refine (akin_operands hk _ (by decide) _).bind fun parts parts' hparts => ?_
    refine (akin_temporary _).bind fun name _ h => ?_
    obtain ⟨rfl, hid⟩ := h
    have hname := hk.part_name hid
    have hall := hk.part_intercalate ", " (by decide) hparts
    refine akin_pure (.value ?_)
    apply_rules [hk.expr_append_left, hk.expr_const, hk.part_const] <;> decide

omit hk in
/-- A name is read off the block. -/
lemma akin_nameField (field operation : String) :
    Akin k (fun name name' => name = name' ∧ face.field field = .text name)
      (Texts.nameField face field operation) (Texts.nameField face field operation) := by
  rw [Texts.nameField]
  cases hfield : face.field field with
  | text name =>
      dsimp only
      split
      · exact akin_refuse
      · exact akin_pure ⟨rfl, rfl⟩
  | null | bool | int | real | list | record => exact akin_refuse

lemma akin_append :
    Akin k (Outcome.Akin k) (Texts.append site face)
      (Texts.append (Site.other site indent') face) := by
  refine (akin_nameField _ _ _).bind fun name _ h => ?_
  obtain ⟨rfl, -⟩ := h
  refine (akin_variableNamed _).bind fun id _ h => ?_
  obtain ⟨rfl, hid⟩ := h
  refine (akin_expr (hk.part_const (by decide))).bind fun value value' hvalue => ?_
  have hname := hk.part_name hid
  refine akin_closed hk ?_
  apply_rules [hk.part_append, hk.part_const] <;> decide

lemma akin_textsIndexOf :
    Akin k (Outcome.Akin k) (Texts.indexOf site face)
      (Texts.indexOf (Site.other site indent') face) := by
  rw [Texts.indexOf, Texts.indexOf]
  split
  · exact akin_refuse
  · refine (akin_expr (hk.part_const (by decide))).bind fun part part' hpart => ?_
    refine (akin_expr (hk.part_const (by decide))).bind fun value value' hvalue => ?_
    have hmethod : k.part (if (face.field "END").isText "FIRST" then "find" else "rfind")
        (if (face.field "END").isText "FIRST" then "find" else "rfind") := by
      split <;> exact hk.part_const (by decide)
    have hopen := hk.expr_add hvalue "." (by decide) (by decide)
    have hcode := hk.expr_append_left (hk.expr_append_left (hk.expr_append_left
      (hk.expr_append_left hopen hmethod) (hk.part_const (c := "(") (by decide))) hpart)
      (hk.part_const (c := ")") (by decide))
    extract_lets code code'
    split
    · exact akin_pure (.value (hk.expr_append_left hcode (hk.part_const (by decide))))
    · exact akin_pure (.value hcode)

lemma akin_methodCall {calls : List (String × String)}
    (hcalls : ∀ entry ∈ calls, '\n' ∉ entry.2.toList ∧ IsFirm entry.2.toList)
    (field operation : String) :
    Akin k (Outcome.Akin k) (Texts.methodCall calls field operation site face)
      (Texts.methodCall calls field operation (Site.other site indent') face) := by
  rw [Texts.methodCall, Texts.methodCall]
  cases face.field field with
  | text key =>
      dsimp only
      cases hlookup : calls.lookup key with
      | none => exact akin_refuse
      | some call =>
          obtain ⟨hflat, hfirm⟩ := hcalls _ (mem_of_lookup hlookup)
          refine (akin_expr (hk.part_const (by decide))).bind fun value value' hvalue => ?_
          exact akin_pure (.value (hk.expr_add hvalue _ hflat hfirm))
  | null | bool | int | real | list | record =>
      dsimp only
      split
      · exact akin_refuse
      · exact .fail

lemma akin_prompt :
    Akin k (Outcome.Akin k) (Texts.prompt site face)
      (Texts.prompt (Site.other site indent') face) := by
  refine (akin_routine ⟨_, _, rfl, rfl, by decide⟩).bind fun routine _ h => ?_
  obtain ⟨rfl, hid⟩ := h
  have hname := hk.expr_name hid
  extract_lets finish
  have hfinish : ∀ message message' : String, k.part message message' →
      Akin k (Outcome.Akin k) (finish message) (finish message') := by
    intro message message' hmessage
    have hcall := hk.expr_append_left (hk.expr_append_left (hk.expr_append_left hname
      (hk.part_const (c := "(") (by decide))) hmessage) (hk.part_const (c := ")") (by decide))
    have hnumber := hk.expr_append_left (hk.expr_append_right
      (hk.part_const (c := "float(") (by decide)) hcall) (hk.part_const (c := ")") (by decide))
    dsimp only [finish]
    split
    · exact akin_pure (.value hcall)
    · exact akin_pure (.value hcall)
    · exact akin_pure (.value hnumber)
    · exact akin_refuse
  split
  · exact (akin_pure (hk.part_of_expr (hk.expr_quote _))).bind hfinish
  · exact (akin_expr (hk.part_const (by decide))).bind hfinish

section Imports

variable (himports : ∀ e ∈ moduleLines, k.definition e.1 e.2 e.2)

include himports

lemma akin_charAt :
    Akin k (Outcome.Akin k) (Texts.charAt site face)
      (Texts.charAt (Site.other site indent') face) := by
  refine (akin_expr (hk.part_const (by decide))).bind fun value value' hvalue => ?_
  have hopen := hk.expr_add hvalue "[" (by decide) (by decide)
  have hat : ∀ index index' : String, k.part index index' → Akin k (Outcome.Akin k)
      (pure (.expr (value ++ "[" ++ index ++ "]") .member))
      (pure (.expr (value' ++ "[" ++ index' ++ "]") .member)) := fun index index' hindex =>
    akin_pure (.value (hk.expr_append_left (hk.expr_append_left hopen hindex)
      (hk.part_const (by decide))))
  split
  · exact akin_pure (.value (hk.expr_add hvalue "[0]" (by decide) (by decide)))
  split
  · exact akin_pure (.value (hk.expr_add hvalue "[-1]" (by decide) (by decide)))
  split
  · exact (akin_indexAt hk _ _ _).bind hat
  split
  · exact (akin_indexAt hk _ _ _).bind hat
  split
  · refine (akin_importRandom himports).bind fun _ _ _ => ?_
    refine (akin_routine ⟨_, _, rfl, rfl, by decide⟩).bind fun routine _ h => ?_
    obtain ⟨rfl, hid⟩ := h
    have hname := hk.expr_name hid
    refine akin_pure (.value ?_)
    apply_rules [hk.expr_append_left, hk.part_const] <;> decide
  · exact akin_refuse

end Imports

section Dialects

variable (hdialect : site.dialect ∈ Dialect.all)

include hdialect

lemma akin_output :
    Akin k (Outcome.Akin k) (Texts.output site face)
      (Texts.output (Site.other site indent') face) := by
  have hbefore : '\n' ∉ site.dialect.output.before.toList ∧
      IsFirm site.dialect.output.before.toList :=
    (by decide : ∀ d ∈ Dialect.all, '\n' ∉ d.output.before.toList ∧ IsFirm d.output.before.toList)
      _ hdialect
  have hafter : '\n' ∉ site.dialect.output.after.toList :=
    (by decide : ∀ d ∈ Dialect.all, '\n' ∉ d.output.after.toList) _ hdialect
  refine (akin_expr (hk.part_const (by decide))).bind fun message message' hmessage => ?_
  exact akin_line hk (hk.expr_append_left (hk.expr_append_left
    (hk.expr_const hbefore.1 hbefore.2) hmessage) (hk.part_const hafter))

section Imports

variable (himports : ∀ e ∈ moduleLines, k.definition e.1 e.2 e.2)

include himports

lemma akin_of_mem_texts : ∀ entry ∈ Texts.table, ∀ face,
    Akin k (Outcome.Akin k) (entry.2 site face) (entry.2 (Site.other site indent') face) := by
  simp only [Texts.table, List.forall_mem_cons, List.not_mem_nil, false_implies, implies_true,
    and_true]
  refine ⟨fun _ => akin_pure (.value (hk.expr_quote _)), akin_join hk, akin_append hk, fun _ => ?_,
    fun _ => ?_, akin_textsIndexOf hk, fun _ => akin_charAt hk _ himports, fun _ => ?_,
    fun _ => akin_methodCall hk _ (by decide) _ _, fun _ => akin_methodCall hk _ (by decide) _ _,
    fun _ => akin_output hk _ hdialect, akin_prompt hk, akin_prompt hk⟩
  · refine (akin_expr (hk.part_const (by decide))).bind fun value value' hvalue => ?_
    refine akin_pure (.value ?_)
    apply_rules [hk.expr_append_left, hk.expr_const, hk.part_const] <;> decide
  · refine (akin_expr (hk.part_const (by decide))).bind fun value value' hvalue => ?_
    refine akin_pure (.value ?_)
    apply_rules [hk.expr_append_left, hk.expr_const, hk.part_const] <;> decide
  · refine (akin_expr (hk.part_const (by decide))).bind fun value value' hvalue => ?_
    exact akin_slice hk _ himports _ hvalue

end Imports

end Dialects

end Lawful

end Handler

end Blockscribe
