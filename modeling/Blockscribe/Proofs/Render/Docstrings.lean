/-
The comments of procedures as docstrings.

* `fillComment_text`: a text can be filled to any width that has room.
* `Workspace.docstring_ends`: the comment of a procedure stands inside its docstring exactly if no
  delimiter in it ends a docstring; otherwise what is behind that delimiter is read as code.
-/
import Blockscribe.Handler.Standard
import Blockscribe.Proofs.Settings.Style
import Blockscribe.Proofs.Text.Docstring

namespace Blockscribe

open Text (words)
open Text.Doc (delimiter followed scan)

/-- A text can be filled to any width that has room. -/
lemma fillText_of_isUsable {width : Extent} (h : width.isUsable = true) (text : String) :
    fillText width text = .ok (String.ofList (Text.wrapText width.fits text.toList)) := by
  simp [fillText, h]

/-- A comment that is a text is filled like any text. -/
lemma fillComment_text {width : Extent} (h : width.isUsable = true) (text : String) :
    fillComment width (.text text) = fillText width text := by
  rw [fillComment]
  by_cases hempty : text = ""
  · subst hempty
    rw [fillText_of_isUsable h]
    rfl
  · have htruthy : (Value.text text).isTruthy = true := bne_iff_ne.mpr hempty
    simp [htruthy]

/-- Both dialects write the comments of procedures as docstrings. -/
lemma Dialect.docComment_of_mem_all {d : Dialect} (h : d ∈ all) (comment : String) :
    (d.docComment comment).toList = delimiter ++ followed comment.toList [] := by
  rw [all, List.mem_cons, List.mem_singleton] at h
  rcases h with rfl | rfl <;>
    simp [docComment, cplus, python, followed, delimiter]

namespace Workspace

/-- **Where the comment of a procedure ends.** Let settings pass their check, with a fractional width
only if double precision has it, and let a block that defines a procedure have a text for its comment.
The comment is filled, which keeps its words, and if anything is left of it, it is written between two
delimiters. If no delimiter in the comment ends a docstring, then the docstring ends at the closing
delimiter, whatever code follows. If one does, then the docstring ends within the comment, and the rest
of the comment is read as code. -/
theorem docstring_ends {s : CodegenSettings} {style : Style} (hcheck : s.check = .ok s)
    (hstyle : s.style = .ok style) (hrange : style.commentWrap.InRange) {η : Type}
    {handlers : HandlerSet η} {b : Block} (hprocedure : handlers.isProcedure b.type = true)
    {text : String} (hcomment : b.comment = .text text) :
    ∃ filled emitted, fillText style.commentWidth text = .ok filled ∧
      words filled.toList = words text.toList ∧
      ownComment style.dialect style.commentWidth (handlers.isProcedure b.type) b = .ok emitted ∧
      emitted.toList = (if filled = "" then [] else delimiter ++ followed filled.toList []) ∧
      (scan text.toList = none → ∀ code,
        scan (followed filled.toList code) = some (filled.toList ++ ['\n'], '\n' :: code)) ∧
      (scan text.toList ≠ none → ∃ inside beyond,
        filled.toList = inside ++ (delimiter ++ beyond) ∧
        ∀ code, scan (followed filled.toList code) = some (inside, followed beyond code)) := by
  have hwritable := CodegenSettings.writable_style hcheck hstyle hrange
  have hfilled := fillText_of_isUsable hwritable.width text
  have hwords := Text.words_wrapText style.commentWidth.fits text.toList
  have hscan := Text.Doc.scan_wrapText_eq_none_iff style.commentWidth.fits text.toList
  rw [ownComment, hcomment, fillComment_text hwritable.width, hprocedure, hfilled]
  generalize Text.wrapText style.commentWidth.fits text.toList = filled at hwords hscan
  refine ⟨String.ofList filled, _, rfl, ?_, (apply_ite Except.ok _ _ _).symm, ?_, ?_, ?_⟩
  · rw [String.toList_ofList, hwords]
  · split
    · rfl
    · exact Dialect.docComment_of_mem_all hwritable.dialect _
  · intro hnone code
    rw [String.toList_ofList]
    exact Text.Doc.scan_followed_of_none (hscan.mpr hnone) code
  · intro hsome
    rw [String.toList_ofList]
    obtain ⟨⟨inside, beyond⟩, hends⟩ := Option.ne_none_iff_exists'.mp (mt hscan.mp hsome)
    refine ⟨inside, beyond, Text.Doc.eq_of_scan_eq_some hends, fun code => ?_⟩
    exact Text.Doc.scan_followed_of_some hends code

/-- A procedure with a comment. -/
def describedSample (comment : String) : Block where
  type := "procedures_defnoreturn"
  fields := [("NAME", .text "f")]
  sockets := []
  next := none
  comment := .text comment
  disabled := false
  mutation := []
  id := 1

/-- A delimiter that a backslash escapes does not end a docstring, but another one does. -/
theorem docstring_ends_describedSample :
    ownComment .python (.whole 57) true (describedSample "Says \\\"\"\".") =
      .ok "\"\"\"Says \\\"\"\".\n\"\"\"\n" ∧
    (∀ code, scan (followed "Says \\\"\"\".".toList code) =
      some ("Says \\\"\"\".\n".toList, '\n' :: code)) ∧
    ownComment .python (.whole 57) true (describedSample "Ends \"\"\" here.") =
      .ok "\"\"\"Ends \"\"\" here.\n\"\"\"\n" ∧
    ∃ inside beyond, "Ends \"\"\" here.".toList = inside ++ (delimiter ++ beyond) ∧
      ∀ code, scan (followed "Ends \"\"\" here.".toList code) =
        some (inside, followed beyond code) := by
  have hfill : fillText (.whole 57) "Says \\\"\"\"." = .ok "Says \\\"\"\"." := rfl
  have hfill' : fillText (.whole 57) "Ends \"\"\" here." = .ok "Ends \"\"\" here." := rfl
  have hends := fun comment : String =>
    @docstring_ends ⟨.text "python", .bool false, .text "  ", .int 60⟩
      ⟨.python, false, "  ", .whole 60⟩ rfl rfl trivial _ Handler.standard
      (describedSample comment) rfl comment rfl
  refine ⟨rfl, ?_, rfl, ?_⟩
  · obtain ⟨filled, -, hfilled, -, -, -, hinside, -⟩ := hends "Says \\\"\"\"."
    obtain rfl := Except.ok.inj (hfill.symm.trans hfilled)
    exact hinside rfl
  · obtain ⟨filled, -, hfilled, -, -, -, -, hbeyond⟩ := hends "Ends \"\"\" here."
    obtain rfl := Except.ok.inj (hfill'.symm.trans hfilled)
    exact hbeyond nofun

end Workspace

end Blockscribe
