/-
What checked settings say about the style of a program.

* `Style.Writable`: one of the dialects, an indent of blanks, and room for comments.
* `CodegenSettings.writable_style`: checked settings describe such a style.
-/
import Blockscribe.Proofs.Number.Width
import Blockscribe.Proofs.Plan.Faults
import Blockscribe.Settings.Basic

namespace Blockscribe

/-- A style in which programs with comments can be written. -/
structure Style.Writable (style : Style) : Prop where
  dialect : style.dialect ∈ Dialect.all
  indent : Text.allBlank style.indent.toList = true
  width : style.commentWidth.isUsable = true

/-- A dialect that a setting names is one of the dialects. -/
lemma Dialect.mem_all_of_ofValue {v : Value} {d : Dialect} (h : ofValue v = .ok d) : d ∈ all := by
  cases v with
  | text name =>
      rw [ofValue, byName] at h
      split at h
      · rename_i hfind
        exact Except.ok.inj h ▸ List.mem_of_find?_eq_some hfind
      · exact nomatch h
  | null | bool | int | real | list | record => exact nomatch h

namespace CodegenSettings

variable {s : CodegenSettings} {style : Style}

/-- The width that passes the check leaves room beside the lead of comments. -/
lemma atMost_of_checkWrap {w : Extent} (h : s.checkWrap = .ok w) :
    w.atMost commentAllowance = false := by
  rw [checkWrap] at h
  split at h
  · exact nomatch h
  · split at h
    · exact nomatch h
    · rename_i hwide
      rw [Bool.not_eq_true] at hwide
      exact Except.ok.inj h ▸ hwide

/-- The indent that passes the check is made of blanks. -/
lemma allBlank_of_checkIndent {t : String} (h : s.checkIndent = .ok t) :
    Text.allBlank t.toList = true := by
  rw [checkIndent] at h
  split at h
  · exact nomatch h
  · split at h
    · split at h
      · rename_i hblank
        exact Except.ok.inj h ▸ hblank
      · exact nomatch h
    · exact nomatch h

/-- Checked settings describe a style in which programs with comments can be written. -/
lemma writable_style (hcheck : s.check = .ok s) (hstyle : s.style = .ok style)
    (hrange : style.commentWrap.InRange) : style.Writable := by
  obtain ⟨w, hwrap, hrest⟩ := bind_eq_ok hcheck
  obtain ⟨t, hindent, -⟩ := bind_eq_ok hrest
  obtain ⟨d, hdialect, hstyle⟩ := bind_eq_ok hstyle
  obtain ⟨t', ht', hstyle⟩ := bind_eq_ok hstyle
  obtain ⟨w', hw', hstyle⟩ := bind_eq_ok hstyle
  rw [indentText, eq_text_of_checkIndent hindent] at ht'
  rw [wrapExtent, ofValue?_of_checkWrap hwrap] at hw'
  obtain rfl := Except.ok.inj ht'
  obtain rfl := Except.ok.inj hw'
  obtain rfl := Except.ok.inj hstyle
  exact ⟨Dialect.mem_all_of_ofValue hdialect, allBlank_of_checkIndent hindent,
    Extent.isUsable_minus hrange (atMost_of_checkWrap hwrap)⟩

end CodegenSettings

end Blockscribe
