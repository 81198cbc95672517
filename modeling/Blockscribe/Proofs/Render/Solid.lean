/-
Code every line of which has something in it.

* `FirmLines`: whole lines, every one of which is firm; comments with a number sign are.
* `Kin.solid`: code that is made of such lines, and definitions that are laid out. The relation is
  about one run, and so its texts are equal.
* `composed_solid`, `stored_solid`: it lasts when code is put together and when blocks are, and it
  holds of helper routines.
* `Workspace.NeatComments`: the comments of procedures, filled, have no line that is made of spaces
  and tabs. `neatComments_of_plain` says that plain comments have none.
* `Renderer.apt_solid`: so every workspace lasts in the relation if nothing follows an expression.
-/
import Blockscribe.Proofs.Program.Loose
import Blockscribe.Proofs.Render.Akin
import Blockscribe.Proofs.Render.Comments
import Blockscribe.Proofs.Text.Filled

namespace Blockscribe

open Handler.Procedures (definers)
open Text (Firm Laid)

variable {neat : Prop} {a b indent : String}

/-- Whole lines, every one of which is firm. -/
def FirmLines (text : String) : Prop := text = "" ∨ ∃ f : String, text = f ++ "\n" ∧ Firm f.toList

namespace FirmLines

lemma append (ha : FirmLines a) (hb : FirmLines b) : FirmLines (a ++ b) := by
  rcases ha with rfl | ⟨f, rfl, hf⟩
  · rw [String.empty_append]
    exact hb
  rcases hb with rfl | ⟨g, rfl, hg⟩
  · rw [String.append_empty]
    exact .inr ⟨f, rfl, hf⟩
  · refine .inr ⟨f ++ "\n" ++ g, String.append_assoc.symm, ?_⟩
    rw [String.toList_append, String.toList_append, List.append_assoc]
    exact hf.append_break hg

lemma laid (h : FirmLines a) : Laid neat a.toList := by
  rcases h with rfl | ⟨f, rfl, hf⟩
  · exact Text.laid_breaks 0
  · rw [String.toList_append]
    exact hf.laid.append_break (Text.laid_breaks 0)

/-- Lines with a number sign in front are firm. -/
lemma ofLines : OfLines "# " FirmLines where
  empty := .inl rfl
  append := append
  leadLines text := by
    refine .inr ⟨_, leadLines_break "# " text, ?_⟩
    rw [String.toList_ofList]
    exact Text.firm_leadBreaks (by decide) (by decide) text.toList

end FirmLines

namespace Kin

/-- Code every line of which is firm, and definitions that are laid out, in one run. -/
def solid (neat : Prop) : Kin where
  name id := isIdentifier id = true
  part a a' := a = a' ∧ ('\n' ∉ a.toList ∨ Firm a.toList)
  expr a a' := a = a' ∧ Firm a.toList
  lines a a' := a = a' ∧ FirmLines a
  body a a' := a = a' ∧ FirmLines a
  framed a a' := a = a' ∧ Laid neat a.toList
  definition _ a a' := a = a' ∧ Laid neat a.toList

variable (hindent : '\n' ∉ indent.toList)

include hindent

lemma lawful_solid : (solid neat).Lawful indent indent where
  expr_name h := ⟨rfl, .line (firm_of_isIdentifier h).1 (firm_of_isIdentifier h).2⟩
  expr_quote text := ⟨rfl, Text.firm_quote text⟩
  expr_const hflat hfirm := ⟨rfl, .line hflat hfirm⟩
  part_const hflat := ⟨rfl, .inl hflat⟩
  part_of_expr h := ⟨h.1, .inr h.2⟩
  part_append := by
    rintro a _ b _ ⟨rfl, ha⟩ ⟨rfl, hb⟩
    refine ⟨rfl, ?_⟩
    rw [String.toList_append]
    rcases ha with ha | ha <;> rcases hb with hb | hb
    · exact .inl (Text.not_mem_append ha hb)
    · exact .inr (hb.flat_append ha)
    · exact .inr (ha.append_flat hb)
    · exact .inr (ha.append hb)
  expr_append_left := by
    rintro a _ b _ ⟨rfl, ha⟩ ⟨rfl, hb⟩
    refine ⟨rfl, ?_⟩
    rw [String.toList_append]
    exact hb.elim ha.append_flat ha.append
  expr_append_right := by
    rintro a _ b _ ⟨rfl, ha⟩ ⟨rfl, hb⟩
    refine ⟨rfl, ?_⟩
    rw [String.toList_append]
    exact ha.elim (fun hflat => hb.flat_append hflat) fun hfirm => hfirm.append hb
  eq_or_compound h := .inl h.1
  lines_break := by
    rintro a _ ⟨rfl, ha⟩
    exact ⟨rfl, .inr ⟨a, rfl, ha⟩⟩
  lines_empty := ⟨rfl, .inl rfl⟩
  lines_append := by
    rintro a _ b _ ⟨rfl, ha⟩ ⟨rfl, hb⟩
    exact ⟨rfl, ha.append hb⟩
  lines_head := by
    rintro a _ b _ ⟨rfl, ha⟩ ⟨rfl, hb⟩
    have hhead : FirmLines (a ++ ":\n") := by
      have hcolon : a ++ ":" ++ "\n" = a ++ ":\n" := String.append_assoc
      refine .inr ⟨a ++ ":", hcolon.symm, ?_⟩
      rw [String.toList_append]
      exact ha.append_flat (by decide)
    exact ⟨rfl, hhead.append hb⟩
  body_none := ⟨rfl, .inl rfl⟩
  body_empty h := by rw [h.1]
  body_line := by
    rintro a _ ⟨rfl, ha⟩
    refine ⟨rfl, .inr ⟨indent ++ a, rfl, ?_⟩⟩
    rw [String.toList_append]
    exact ha.flat_append hindent
  body_append := by
    rintro a _ b _ ⟨rfl, ha⟩ ⟨rfl, hb⟩
    exact ⟨rfl, ha.append hb⟩

lemma composed_solid : (solid neat).Composed indent indent where
  toLawful := lawful_solid hindent
  lines_nonempty h := by rw [h.1]
  lines_expr := by
    rintro a _ b _ ⟨rfl, ha⟩ ⟨rfl, hb⟩
    refine ⟨rfl, ?_⟩
    rcases ha with rfl | ⟨f, rfl, hf⟩
    · rw [String.empty_append]
      exact hb
    · rw [String.toList_append, String.toList_append, List.append_assoc]
      exact hf.append_break hb
  body_lead := by
    rintro a _ ⟨rfl, ha⟩ hne
    refine ⟨rfl, ?_⟩
    rcases ha with rfl | ⟨f, rfl, hf⟩
    · exact absurd rfl hne
    · refine .inr ⟨_, leadLines_break indent f, ?_⟩
      rw [String.toList_ofList]
      exact hf.leadBreaks hindent

lemma stored_solid : (solid neat).Stored indent indent where
  name h := h
  helper _ _ _ hlines hid := ⟨rfl, (firm_helperText hindent hid hlines).laid⟩

end Kin

/-! ### Comments -/

namespace Text

variable {cs rest : List Char} {front : List Char}

/-- Behind a firm line there may be lines of any kind, if another firm line ends them. -/
lemma laid_between (hfront : '\n' ∉ front) (hfirm : IsFirm front)
    (hcs : neat → ∀ line ∈ splitLines cs, line ≠ [] → IsFirm line) (hrest : Firm rest) :
    Laid neat (front ++ cs ++ '\n' :: rest) where
  last line hlast := by
    have hne : (splitLines rest).filter (· ≠ []) ≠ [] := by
      obtain ⟨last, more, hlines⟩ := List.exists_cons_of_ne_nil (splitLines_ne_nil rest)
      have hmem : last ∈ splitLines rest := hlines ▸ List.mem_cons_self
      obtain ⟨c, hc, -⟩ := hrest.isFirm_of_mem last hmem
      exact List.ne_nil_of_mem (List.mem_filter.mpr ⟨hmem, by simpa using List.ne_nil_of_mem hc⟩)
    rw [splitLines_append_break, List.filter_append, List.getLast?_append_of_ne_nil _ hne] at hlast
    exact hrest.isFirm_of_mem line (List.mem_filter.mp (List.mem_of_getLast? hlast)).1
  neat hneat line hline hne := by
    rw [splitLines_append_break, List.mem_append] at hline
    rcases hline with hline | hline
    · obtain ⟨head, tail, hlines, hboth⟩ := exists_splitLines_append hfront cs
      rw [hboth, List.mem_cons] at hline
      rcases hline with rfl | htail
      · exact hfirm.append_left head
      · exact hcs hneat line (hlines ▸ List.mem_cons_of_mem _ htail) hne
    · exact hrest.isFirm_of_mem line hline

end Text

/-- A comment that documents a procedure is laid out, whatever follows it. -/
lemma Dialect.laid_docComment {d : Dialect} (hd : d ∈ all) {comment code : String}
    (hneat : neat → ∀ line ∈ Text.splitLines comment.toList, line ≠ [] → IsFirm line)
    (hcode : FirmLines code) : Laid neat (d.docComment comment ++ code).toList := by
  have hquotes : d.docOpen = "\"\"\"" ∧ d.docClose = "\"\"\"" := by
    simp only [all, List.mem_cons, List.not_mem_nil, or_false] at hd
    rcases hd with rfl | rfl <;> exact ⟨rfl, rfl⟩
  have hlines : (d.docComment comment ++ code).toList =
      ("\"\"\"".toList ++ comment.toList ++ '\n' :: "\"\"\"".toList) ++ '\n' :: code.toList := by
    rw [docComment, hquotes.1, hquotes.2]
    simp
  rw [hlines]
  refine Laid.append_break ?_ hcode.laid
  exact Text.laid_between (by decide) (by decide) hneat (.line (by decide) (by decide))

namespace Workspace

/-- The comments of procedures, filled, have no line that is made of spaces and tabs. -/
def NeatComments (w : Workspace) (width : Extent) : Prop :=
  ∀ b ∈ w.blocks, b.type ∈ definers → ∀ comment, fillComment width b.comment = .ok comment →
    ∀ line ∈ Text.splitLines comment.toList, line ≠ [] → IsFirm line

variable {w : Workspace} {b : Block} {dialect : Dialect} {width : Extent} {isProcedure : Bool}
  {comments code : String}

/-- Comments without blanks other than those of ASCII are neat, whatever they are filled to. -/
lemma neatComments_of_plain (h : ∀ b ∈ w.blocks, b.type ∈ definers → b.HasPlainComment)
    (width : Extent) : w.NeatComments width :=
  fun b hb htype _ hfilled => (h b hb htype).isFirm hfilled

/-- Firm lines with comments in front of them are laid out. -/
lemma laid_commentsFor (hdialect : dialect ∈ Dialect.all)
    (hneat : isProcedure = true → neat → ∀ comment, fillComment width b.comment = .ok comment →
      ∀ line ∈ Text.splitLines comment.toList, line ≠ [] → IsFirm line)
    (h : w.commentsFor dialect width isProcedure b = .ok comments) (hcode : FirmLines code) :
    Laid neat (comments ++ code).toList := by
  have hof : OfLines dialect.lineComment FirmLines :=
    (Dialect.framed_of_mem_all hdialect).lineComment ▸ FirmLines.ofLines
  cases isProcedure with
  | false => exact ((ofLines_commentsFor hof h).append hcode).laid
  | true =>
      rw [commentsFor] at h
      split at h
      · obtain rfl := Except.ok.inj h
        rw [String.empty_append]
        exact hcode.laid
      obtain ⟨own, hown, hrest⟩ := bind_eq_ok h
      obtain ⟨plugged, hplugged, hboth⟩ := bind_eq_ok hrest
      obtain rfl := Except.ok.inj hboth
      have hfollowing := (ofLines_pluggedComments hof hplugged).append hcode
      rw [String.append_assoc]
      obtain ⟨comment, hcomment, hdoc⟩ := bind_eq_ok hown
      by_cases hempty : comment = ""
      · rw [if_pos hempty] at hdoc
        obtain rfl := Except.ok.inj hdoc
        rw [String.empty_append]
        exact hfollowing.laid
      · rw [if_neg hempty, if_pos rfl] at hdoc
        obtain rfl := Except.ok.inj hdoc
        exact Dialect.laid_docComment hdialect (fun hall => hneat rfl hall comment hcomment) hfollowing

end Workspace

/-- Every workspace lasts in the relation, if nothing follows an expression. -/
lemma Renderer.apt_solid {w : Workspace} {style : Style} (hvalid : w.validate = .ok ())
    (hdialect : style.dialect ∈ Dialect.all) (hflat : '\n' ∉ style.indent.toList)
    (hlast : ∀ b ∈ w.blocks, b.disabled = false → (standard w style).RendersValue b →
      b.next = none) :
    (standard w style).Apt (Kin.solid (w.NeatComments style.commentWidth)) style.indent where
  valid := hvalid
  handlers := rfl
  dialect := hdialect
  composed := Kin.composed_solid hflat
  stored := Kin.stored_solid hflat
  imports := by
    refine List.forall_mem_cons.mpr ⟨⟨rfl, ?_⟩, List.forall_mem_singleton.mpr ⟨rfl, ?_⟩⟩
    · exact Firm.laid (.line (by decide) (by decide))
    · exact Firm.laid (.line (by decide) (by decide))
  written _ h := h
  comments {b _} hb htype h := by
    have hof : OfLines style.dialect.lineComment FirmLines :=
      (Dialect.framed_of_mem_all hdialect).lineComment ▸ FirmLines.ofLines
    have hprocedure : (standard w style).handlers.isProcedure b.type = false :=
      Handler.isProcedure_standard htype
    rw [commentsFor, hprocedure] at h
    exact ⟨rfl, Workspace.ofLines_commentsFor hof h⟩
  framed {b _ _ _} hb hcomments hcode := by
    obtain ⟨rfl, hcode⟩ := hcode
    refine ⟨rfl, Workspace.laid_commentsFor hdialect (fun hprocedure hneat => ?_) hcomments hcode⟩
    refine hneat b hb ?_
    by_contra htype
    cases hprocedure.symm.trans (Handler.isProcedure_standard htype)
  followed := .inr hlast

end Blockscribe
