/-
What the literals of a program denote.

* `Face.typed?`: the text that is typed into a block: that of a text block, or the message of a
  prompt.
* `Quoted.Occurs`: a literal of a value stands in a text, at some level of indentation. This lasts
  when something is put around the text and when it is indented (`bearing_occurs`,
  `Occurs.leadLines`), and when a program is laid out (`Occurs.tidy`, `Occurs.preamble`).
* `Step.keeps_procedure`: a procedure that is written stays, or gives way to another one with the
  same identifier.
* `Generator.typed_denotes`: the text that is typed into a block stands in the program as a literal,
  unless it stood in a procedure that gave way to another, and what that literal denotes.
-/
import Blockscribe.Proofs.Program.Course
import Blockscribe.Proofs.Program.Sturdy
import Blockscribe.Proofs.Render.Bears
import Blockscribe.Proofs.Run.Definitions

namespace Blockscribe

open Text.Quoted (mark escapeLed literal altered denote isOutside)

/-- The text that is typed into a block: that of a text block, or the message of a prompt. -/
def Face.typed? (f : Face) : Option String :=
  if f.type = "text" then some (f.fieldOr "TEXT" (.text "")).display
  else if f.type ∈ ["text_prompt_ext", "text_prompt"] ∧ f.hasField "TEXT" = true then
    some (f.field "TEXT").display
  else none

/-! ### Texts in which a literal stands -/

namespace Text.Quoted

variable {lead cs text : List Char}

/-- So many levels of an indent. -/
def indentation (indent : String) (levels : ℕ) : List Char :=
  (List.replicate levels indent.toList).flatten

lemma mem_of_mem_indentation {indent : String} {levels : ℕ} {c : Char}
    (h : c ∈ indentation indent levels) : c ∈ indent.toList := by
  obtain ⟨l, hl, hc⟩ := List.mem_flatten.mp h
  exact List.eq_of_mem_replicate hl ▸ hc

/-- Where code is indented, the literals in it get a wider indent. -/
lemma infix_leadAfterBreaks (hlead : '\n' ∈ cs → '\n' ∉ lead) (indent : List Char)
    (h : literal lead cs <:+: text) :
    literal (indent ++ lead) cs <:+: leadAfterBreaks indent text := by
  obtain ⟨front, back, rfl⟩ := h
  rw [List.append_assoc]
  induction front with
  | nil =>
      have hmark : '\n' ∉ [mark] := by decide
      refine ⟨[], leadAfterBreaks indent back, ?_⟩
      have hled := leadAfterBreaks_escapeLed hlead indent back
      have hfirst := leadAfterBreaks_append_of_not_mem hmark indent
        (escapeLed lead cs ++ mark :: back)
      rw [hled] at hfirst
      simpa [literal] using hfirst.symm
  | cons c front ih =>
      rw [List.cons_append, leadAfterBreaks]
      split
      · exact List.infix_cons (ih.trans (List.suffix_append _ _).isInfix)
      · exact List.infix_cons ih

/-- A literal of a value stands in a text, at some level of indentation. -/
def Occurs (indent value text : String) : Prop :=
  ∃ levels, literal (indentation indent levels) value.toList <:+: text.toList

variable {indent value code : String}

lemma occurs_quote (indent value : String) : Occurs indent value (quote value) :=
  ⟨0, toList_quote value ▸ List.infix_rfl⟩

lemma Occurs.mem_mark (h : Occurs indent value code) : mark ∈ code.toList := by
  obtain ⟨levels, h⟩ := h
  exact h.subset List.mem_cons_self

/-- A literal has a quote in it, and so it lasts, and stands in no numeral. -/
lemma bearing_occurs (indent value : String) : Bearing (Occurs indent value) where
  append {a b} h := by
    rw [Occurs, String.toList_append]
    rcases h with ⟨levels, h⟩ | ⟨levels, h⟩
    · exact ⟨levels, h.trans (List.prefix_append _ _).isInfix⟩
    · exact ⟨levels, h.trans (List.suffix_append _ _).isInfix⟩
  ne_empty := by
    rintro a h rfl
    exact nomatch h.mem_mark
  not_numeral {a} h := by
    refine Bool.eq_false_iff.mpr fun hnumeral => ?_
    exact absurd (Number.mem_of_isNumeral hnumeral h.mem_mark) (by decide)

section Layout

variable (hindent : '\n' ∈ value.toList → '\n' ∉ indent.toList)

include hindent

lemma Occurs.leadLines (h : Occurs indent value code) :
    Occurs indent value (Blockscribe.leadLines indent code) := by
  obtain ⟨levels, h⟩ := h
  refine ⟨levels + 1, ?_⟩
  rw [toList_leadLines, Text.leadLines]
  refine (infix_leadAfterBreaks (fun hbreak hmem => ?_) indent.toList h).trans
    (List.suffix_append _ _).isInfix
  exact hindent hbreak (mem_of_mem_indentation hmem)

lemma sturdy_literal_indentation (levels : ℕ) :
    Sturdy (literal (indentation indent levels) value.toList) :=
  sturdy_literal fun hbreak hmem => hindent hbreak (mem_of_mem_indentation hmem)

lemma Occurs.tidy (h : Occurs indent value code) : Occurs indent value (Program.tidy code) := by
  obtain ⟨levels, h⟩ := h
  exact ⟨levels, (sturdy_literal_indentation hindent levels).tidy h⟩

lemma Occurs.preamble {d : Definitions} (h : Occurs indent value code)
    (hmem : code ∈ d.entries.map Prod.snd) : Occurs indent value (Program.preamble d) := by
  obtain ⟨levels, h⟩ := h
  exact ⟨levels, (sturdy_literal_indentation hindent levels).preamble hmem h⟩

end Layout

end Text.Quoted

open Text.Quoted (Occurs bearing_occurs indentation)

/-! ### Typed texts -/

namespace Renderer

variable {r : Renderer} {b : Block} {s v : Run} {value : String} {outcome : Outcome}

/-- A message that is typed into a prompt is passed to its helper routine as a literal. -/
lemma occurs_of_run_prompt {services : Services} {site : Site} {face : Face} {indent : String}
    (hfield : face.hasField "TEXT" = true)
    (h : ((Handler.Texts.prompt site face).run indent services).run s = .ok outcome v) :
    Occurs indent (face.field "TEXT").display outcome.code := by
  obtain ⟨routine, u, -, hrest⟩ := Plan.exists_of_run_plan h
  rw [if_pos hfield] at hrest
  obtain ⟨message, u', hmessage, hcode⟩ := Plan.exists_of_run_plan hrest
  obtain ⟨rfl, rfl⟩ := EStateM.Result.ok.inj hmessage
  have hB := bearing_occurs indent (face.field "TEXT").display
  have hcall : Occurs indent (face.field "TEXT").display
      (routine ++ "(" ++ quote (face.field "TEXT").display ++ ")") :=
    hB.around (Text.Quoted.occurs_quote _ _) _ _
  dsimp only at hcode
  split at hcode
  · exact (EStateM.Result.ok.inj hcode).1 ▸ hcall
  · exact (EStateM.Result.ok.inj hcode).1 ▸ hcall
  · exact (EStateM.Result.ok.inj hcode).1 ▸ hB.around hcall _ _
  · cases hcode

/-- The text that is typed into a block stands in its code as a literal. -/
lemma occurs_of_typed (hr : r.handlers = Handler.standard) (htyped : b.face.typed? = some value)
    (h : (r.outcome b).run s = .ok outcome v) : Occurs r.style.indent value outcome.code := by
  rw [Face.typed?] at htyped
  split at htyped
  · rename_i htype
    rw [outcome_eq hr htype rfl] at h
    obtain ⟨rfl, rfl⟩ := EStateM.Result.ok.inj h
    exact Option.some.inj htyped ▸ Text.Quoted.occurs_quote _ _
  · obtain ⟨⟨htype, hfield⟩, hvalue⟩ := Option.ite_none_right_eq_some.mp htyped
    obtain rfl := Option.some.inj hvalue
    simp only [List.mem_cons, List.not_mem_nil, or_false] at htype
    rcases htype with htype | htype
    · rw [outcome_eq hr htype rfl] at h
      exact occurs_of_run_prompt hfield h
    · rw [outcome_eq hr htype rfl] at h
      exact occurs_of_run_prompt hfield h

end Renderer

/-! ### Procedures that give way -/

namespace Run

variable {s t : Run} {names : List String} {indent identifier : String}

/-- A procedure that is written stays, or gives way to another one with the same identifier. -/
lemma Step.keeps_procedure (h : Step (Question.Allowed names) indent s t)
    (hs : ∃ text, s.definitions.get? ("%" ++ identifier) = some text ∧
      IsProcedure identifier text) :
    ∃ text, t.definitions.get? ("%" ++ identifier) = some text ∧ IsProcedure identifier text := by
  have hhead : ("%" ++ identifier).toList.head? = some '%' := by
    rw [String.toList_append]
    rfl
  rcases h.get?_cases ("%" ++ identifier) with hsame | ⟨lines, hallowed, -⟩ |
    ⟨value, hallowed, hvalue⟩
  · rw [hsame]
    exact hs
  · have hroutines : ∀ key ∈ Handler.routineKeys, key.toList.head? ≠ some '%' := by decide
    exact absurd hhead (hroutines _ hallowed.1)
  · rcases hallowed with hmodule | ⟨id, hkey, hprocedure⟩
    · have hmodules : ∀ entry ∈ Handler.moduleLines, entry.1.toList.head? ≠ some '%' := by decide
      exact absurd hhead (hmodules _ hmodule)
    · obtain rfl := (String.append_right_inj "%").mp hkey
      exact ⟨value, hvalue, hprocedure⟩

end Run

namespace Generator

variable {style : Style} {w : Workspace} {text body value key definition : String} {t s : Run}
  {b : Block}

section Makes

variable (h : (standard style).Makes w body t text)
  (hindent : '\n' ∈ value.toList → '\n' ∉ style.indent.toList)

include h hindent

/-- A literal in the body stands in the program. -/
lemma Makes.occurs_of_body (hbody : Occurs style.indent value body) :
    Occurs style.indent value text := by
  have hB := bearing_occurs style.indent value
  rw [h.text_eq, Program.entryBody, if_pos (hB.ne_empty hbody)]
  refine Occurs.tidy hindent (hB.append (.inr (hB.around ?_ _ _)))
  exact Occurs.leadLines hindent (hB.append (.inr hbody))

/-- A literal in a definition that is there at the end stands in the program. -/
lemma Makes.occurs_of_definition (hget : t.definitions.get? key = some definition)
    (hdefinition : Occurs style.indent value definition) : Occurs style.indent value text := by
  rw [h.text_eq]
  refine Occurs.tidy hindent ((bearing_occurs style.indent value).append (.inl ?_))
  exact hdefinition.preamble hindent (List.mem_map_of_mem (Handler.mem_of_lookup hget))

omit hindent in
/-- A definition with a literal in it that is not there at the end is a procedure, and has given way
to another one. -/
lemma Makes.exists_other (hdialect : style.dialect ∈ Dialect.all)
    (hwrites : (Renderer.standard w style).Writes ((standard style).start w) key definition)
    (hdefinition : Occurs style.indent value definition)
    (hget : t.definitions.get? key ≠ some definition) :
    ∃ identifier procedure other,
      (Renderer.standard w style).Writes ((standard style).start w) ("%" ++ identifier) procedure ∧
      Occurs style.indent value procedure ∧ IsProcedure identifier other ∧ other ≠ procedure ∧
      t.definitions.get? ("%" ++ identifier) = some other := by
  obtain ⟨b, s, hreaches, henabled, e, he, hquestion⟩ := hwrites
  obtain ⟨handler, outcome, v, hcarries⟩ := h.carries hdialect hreaches henabled
  have hallowed := hcarries.allowed (r := Renderer.standard w style) rfl hdialect he
    (by rw [hquestion]; exact trivial)
  rw [hquestion] at hallowed
  rcases hallowed with hmodule | ⟨identifier, rfl, hprocedure⟩
  · have hmark : ∀ entry ∈ Handler.moduleLines, mark ∉ entry.2.toList := by decide
    exact absurd hdefinition.mem_mark (hmark _ hmodule)
  · obtain ⟨other, hother, hother'⟩ := (hcarries.leads he).2.2.keeps
      (fun _ _ hstep => hstep.keeps_procedure)
      ⟨definition, hcarries.get?_of_define he hquestion, hprocedure⟩
    refine ⟨identifier, definition, other, ⟨b, s, hreaches, henabled, e, he, hquestion⟩,
      hdefinition, hother', ?_, hother⟩
    rintro rfl
    exact hget hother

/-- The text that is typed into a block stands in the program as a literal, or it stood in a
procedure that has given way to another one with the same identifier. -/
lemma Makes.occurs_or_gives_way (hdialect : style.dialect ∈ Dialect.all)
    (hreaches : (Renderer.standard w style).Reaches ((standard style).start w) b s)
    (henabled : b.disabled = false) (htyped : b.face.typed? = some value) :
    Occurs style.indent value text ∨ ∃ identifier procedure other,
      (Renderer.standard w style).Writes ((standard style).start w) ("%" ++ identifier) procedure ∧
      Occurs style.indent value procedure ∧ IsProcedure identifier other ∧ other ≠ procedure ∧
      t.definitions.get? ("%" ++ identifier) = some other := by
  have hB := bearing_occurs style.indent value
  obtain ⟨hb, hbefore, piece, u, hpiece, hafter⟩ := hreaches.finishes
    (r := Renderer.standard w style) h.valid rfl hdialect h.run_body
  obtain ⟨handler, outcome, v, hcarries, hcomplete⟩ := Renderer.carries_of_run_render
    (r := Renderer.standard w style) h.valid rfl hdialect hb henabled hbefore hpiece hafter
  have hcode := Renderer.bears_complete hB
    (Renderer.occurs_of_typed (r := Renderer.standard w style) rfl htyped hcarries.outcome) hcomplete
  rcases hreaches.bears hB (r := Renderer.standard w style) rfl hdialect
    (fun _ => Occurs.leadLines hindent) h.valid h.run_body hpiece hcode with
    hbody | ⟨key, procedure, hwrites, hprocedure⟩
  · exact .inl (h.occurs_of_body hindent hbody)
  · by_cases hget : t.definitions.get? key = some procedure
    · exact .inl (h.occurs_of_definition hindent hget hprocedure)
    · exact .inr (h.exists_other hdialect hwrites hprocedure hget)

end Makes

/-- A text with a percent sign that is printed, and the message of a prompt with a quote in it. -/
def literalsSample : Workspace :=
  Workspace.edited []
    [.add ⟨"text", [("TEXT", .text "50%")], [], none, .null, false, []⟩,
      .add ⟨"text_print", [], [⟨"TEXT", .value, some 1⟩], none, .null, false, []⟩,
      .add ⟨"text_prompt_ext", [("TYPE", .text "TEXT"), ("TEXT", .text "it's")], [], none, .null,
        false, []⟩]

end Generator

end Blockscribe
