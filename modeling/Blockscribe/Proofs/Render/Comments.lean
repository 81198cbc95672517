/-
Comments in front of code are left out when it is read.

* `Skipped`: a text that is left out in front of every other.
* `skipped_leadLines`: lines that are led by a number sign, the last of them ended.
* `OfLines`: a property of lines with a lead and of all that is put together from them.
* `ofLines_commentsFor`, `skipped_commentsFor`: the comments in front of a block that defines no
  procedure have such properties, and so are left out.
-/
import Blockscribe.Comment
import Blockscribe.Proofs.Grammar.Lex
import Blockscribe.Proofs.Plan.Faults
import Blockscribe.Proofs.Text.CodeLines

namespace Blockscribe

open Grammar (skipComments)

/-! ### Comments -/

/-- A text that is left out in front of every other. -/
def Skipped (comments : String) : Prop :=
  ∀ rest, skipComments false (comments.toList ++ rest) = skipComments false rest

lemma skipped_empty : Skipped "" := fun _ => rfl

lemma Skipped.append {a b : String} (ha : Skipped a) (hb : Skipped b) : Skipped (a ++ b) := by
  intro rest
  rw [String.toList_append, List.append_assoc, ha, hb]

/-- Lines that are led by a number sign are left out, if the last of them is ended. -/
lemma skipped_leadLines (text : String) : Skipped (leadLines "# " (text ++ "\n")) := by
  intro rest
  rw [toList_leadLines, String.toList_append]
  exact Grammar.skipComments_leadLines text.toList rest

/-! ### Properties of comments -/

/-- A property that holds of lines with a lead, if the last of them is ended, and of everything that
is put together from such lines. -/
structure OfLines (lead : String) (P : String → Prop) : Prop where
  empty : P ""
  append {a b : String} : P a → P b → P (a ++ b)
  leadLines (text : String) : P (leadLines lead (text ++ "\n"))

lemma skipped_ofLines : OfLines "# " Skipped := ⟨skipped_empty, Skipped.append, skipped_leadLines⟩

lemma OfLines.join {lead : String} {P : String → Prop} (h : OfLines lead P) {parts : List String}
    (hparts : ∀ part ∈ parts, P part) : P (String.join parts) := by
  induction parts with
  | nil => exact h.empty
  | cons part rest ih =>
      rw [String.join_cons]
      rw [List.forall_mem_cons] at hparts
      exact h.append hparts.1 (ih hparts.2)

namespace Workspace

variable {w : Workspace} {b : Block} {comments : String} {dialect : Dialect} {width : Extent}
  {P : String → Prop}

/-- Comments that are put together end their last line, if there are any. -/
lemma joinComments_eq_ok {values : List Value} (h : joinComments values = .ok comments) :
    comments = "" ∨ ∃ text, comments = text ++ "\n" := by
  rw [joinComments] at h
  split at h
  · exact Or.inl (Except.ok.inj h).symm
  · exact Or.inr ⟨_, (Except.ok.inj h).symm⟩
  · exact nomatch h

lemma ofLines_ownComment (hP : OfLines dialect.lineComment P)
    (h : ownComment dialect width false b = .ok comments) : P comments := by
  obtain ⟨comment, -, hrest⟩ := bind_eq_ok h
  by_cases hempty : comment = ""
  · rw [if_pos hempty] at hrest
    exact Except.ok.inj hrest ▸ hP.empty
  · rw [if_neg hempty, if_neg Bool.false_ne_true] at hrest
    exact Except.ok.inj hrest ▸ hP.leadLines comment

lemma ofLines_pluggedComments (hP : OfLines dialect.lineComment P)
    (h : w.pluggedComments dialect b = .ok comments) : P comments := by
  obtain ⟨parts, hparts, hjoin⟩ := bind_eq_ok h
  refine Except.ok.inj hjoin ▸ hP.join (forall_mem_of_mapM (fun s _ part hpart => ?_) hparts)
  obtain ⟨target, -, htarget⟩ := bind_eq_ok hpart
  cases target with
  | none => exact Except.ok.inj htarget ▸ hP.empty
  | some c =>
      obtain ⟨nested, hnested, hlines⟩ := bind_eq_ok htarget
      obtain ⟨values, -, hvalues⟩ := bind_eq_ok hnested
      rcases joinComments_eq_ok hvalues with rfl | ⟨text, rfl⟩
      · exact Except.ok.inj hlines ▸ hP.empty
      · rw [if_neg (break_ne_empty text)] at hlines
        exact Except.ok.inj hlines ▸ hP.leadLines text

/-- The comments in front of a block that defines no procedure are put together from lines with a
lead. -/
lemma ofLines_commentsFor (hP : OfLines dialect.lineComment P)
    (h : w.commentsFor dialect width false b = .ok comments) : P comments := by
  rw [commentsFor] at h
  split at h
  · exact Except.ok.inj h ▸ hP.empty
  · obtain ⟨own, hown, hrest⟩ := bind_eq_ok h
    obtain ⟨plugged, hplugged, hboth⟩ := bind_eq_ok hrest
    exact Except.ok.inj hboth ▸
      hP.append (ofLines_ownComment hP hown) (ofLines_pluggedComments hP hplugged)

/-- The comments in front of a block that defines no procedure are left out when code is read. -/
lemma skipped_commentsFor (h : w.commentsFor .python width false b = .ok comments) :
    Skipped comments :=
  ofLines_commentsFor skipped_ofLines h

end Workspace

end Blockscribe
