/-
The indent of a program makes a difference in front of its lines and nowhere else.

* `Kin.shifting`: texts that differ in what leads their lines. The texts of expressions are equal, or
  both have a colon in them, so that a handler cannot tell them apart.
* `Kin.composed_shifting`, `stored_shifting`: the relation lasts when code is put together and when
  blocks are, and it holds of helper routines.
* `Generator.generate_other`: so a program that is made with one indent is made with another one,
  too, and behind their leads the lines are the same.
* `CodegenSettings.generate_indent`: the same for settings that have passed their check, if no line
  feed is in their indents.
-/
import Blockscribe.Proofs.Number.Foreign
import Blockscribe.Proofs.Program.Endings
import Blockscribe.Proofs.Program.Openings
import Blockscribe.Proofs.Program.Shifted
import Blockscribe.Proofs.Render.Akin
import Blockscribe.Proofs.Render.Whole
import Blockscribe.Proofs.Settings.Style

namespace Blockscribe

open Text (IsLead Shifted)

variable {a a' b b' : String} {indent indent' : String}

/-- Texts that differ in what leads their lines, the first line apart. Both are equal, or they have a
colon in them. -/
def Reindented (a a' : String) : Prop :=
  Shifted false a.toList a'.toList ∧ (a = a' ∨ ':' ∈ a.toList ∧ ':' ∈ a'.toList)

/-- Whole lines: none, or related ones with a line feed behind them. -/
def WholeLines (R : String → String → Prop) (a a' : String) : Prop :=
  a = "" ∧ a' = "" ∨ ∃ f f', a = f ++ "\n" ∧ a' = f' ++ "\n" ∧ R f f'

lemma reindented_refl (a : String) : Reindented a a := ⟨.refl _ _, .inl rfl⟩

lemma Reindented.append (h : Reindented a a') (h' : Reindented b b') :
    Reindented (a ++ b) (a' ++ b') := by
  refine ⟨?_, ?_⟩
  · rw [String.toList_append, String.toList_append]
    exact h.1.append h'.1
  · rw [String.toList_append, String.toList_append, List.mem_append, List.mem_append]
    obtain ⟨-, rfl | ⟨hcolon, hcolon'⟩⟩ := h
    · obtain ⟨-, rfl | ⟨hcolon, hcolon'⟩⟩ := h'
      · exact .inl rfl
      · exact .inr ⟨.inr hcolon, .inr hcolon'⟩
    · exact .inr ⟨.inl hcolon, .inl hcolon'⟩

/-- A simple word has word characters only, its last line feed apart. -/
lemma Text.isWordChar_of_isSimpleWord {cs : List Char} (h : isSimpleWord cs = true) {c : Char}
    (hc : c ∈ cs) : isWordChar c = true ∨ c = '\n' := by
  rw [isSimpleWord, Bool.and_eq_true] at h
  have hall := List.all_eq_true.mp h.2
  split at hall
  · rename_i hlast
    rw [← List.dropLast_append_getLast? '\n' hlast, List.mem_append, List.mem_singleton] at hc
    exact hc.imp_left (hall c)
  · exact .inl (hall c hc)

lemma Reindented.append_break (h : Reindented a a') (h' : Reindented b b') :
    Reindented (a ++ "\n" ++ b) (a' ++ "\n" ++ b') :=
  (h.append (reindented_refl "\n")).append h'

/-- With a colon a text is neither a numeral nor a word. -/
lemma isCompound_of_colon (h : ':' ∈ a.toList) : IsCompound a := by
  refine ⟨?_, ?_, ?_⟩
  · rintro rfl
    exact nomatch h
  · exact Number.Foreign.not_isNumeral ⟨':', h, by decide⟩
  · rw [Bool.eq_false_iff]
    intro hword
    rcases Text.isWordChar_of_isSimpleWord hword h with hcolon | hcolon
    · exact absurd hcolon (by decide)
    · exact absurd hcolon (by decide)

namespace WholeLines

variable {R : String → String → Prop}

lemma empty_iff (h : WholeLines R a a') : a = "" ↔ a' = "" := by
  rcases h with ⟨rfl, rfl⟩ | ⟨f, f', rfl, rfl, -⟩
  · exact Iff.rfl
  · exact iff_of_false (break_ne_empty f) (break_ne_empty f')

lemma append (hR : ∀ {f f' g g'}, R f f' → R g g' → R (f ++ "\n" ++ g) (f' ++ "\n" ++ g'))
    (h : WholeLines R a a') (h' : WholeLines R b b') : WholeLines R (a ++ b) (a' ++ b') := by
  rcases h with ⟨rfl, rfl⟩ | ⟨f, f', rfl, rfl, hf⟩
  · rw [String.empty_append, String.empty_append]
    exact h'
  rcases h' with ⟨rfl, rfl⟩ | ⟨g, g', rfl, rfl, hg⟩
  · rw [String.append_empty, String.append_empty]
    exact .inr ⟨f, f', rfl, rfl, hf⟩
  · exact .inr ⟨f ++ "\n" ++ g, f' ++ "\n" ++ g', String.append_assoc.symm,
      String.append_assoc.symm, hR hf hg⟩

lemma refl (hR : ∀ f, R f f) (h : Text.Ended a.toList) : WholeLines R a a := by
  rcases eq_empty_or_of_ended h with rfl | ⟨f, rfl⟩
  · exact .inl ⟨rfl, rfl⟩
  · exact .inr ⟨f, f, rfl, rfl, hR f⟩

end WholeLines

/-- Lines with empty lines between them. -/
lemma WholeLines.intercalate {texts texts' : List String}
    (h : List.Forall₂ (WholeLines Reindented) texts texts') :
    WholeLines Reindented ("\n".intercalate texts) ("\n".intercalate texts') := by
  induction h with
  | nil => exact .inl ⟨rfl, rfl⟩
  | cons htext hrest ih =>
      cases hrest with
      | nil => exact htext
      | cons _ _ =>
          rw [String.intercalate_cons_cons, String.intercalate_cons_cons]
          have hbreak : WholeLines Reindented "\n" "\n" := .refl reindented_refl (ended_break "")
          exact (htext.append Reindented.append_break hbreak).append Reindented.append_break ih

/-- Texts that differ in what leads their lines, the first line included. -/
def Led (a a' : String) : Prop := Shifted true a.toList a'.toList

lemma Led.append_break (h : Led a a') (h' : Led b b') : Led (a ++ "\n" ++ b) (a' ++ "\n" ++ b') := by
  rw [Led, toList_break, toList_break]
  exact Shifted.append_break h h'

namespace Kin

/-- Texts that differ in what leads their lines. -/
def shifting : Kin where
  name _ := True
  part := Reindented
  expr := Reindented
  lines := WholeLines Reindented
  body := WholeLines Led
  framed a a' := Shifted false a.toList a'.toList
  definition _ a a' := Shifted false a.toList a'.toList

variable (hlead : IsLead indent.toList) (hlead' : IsLead indent'.toList)

include hlead hlead'

lemma lawful_shifting : shifting.Lawful indent indent' where
  expr_name _ := reindented_refl _
  expr_quote _ := reindented_refl _
  expr_const _ _ := reindented_refl _
  part_const _ := reindented_refl _
  part_of_expr h := h
  part_append := Reindented.append
  expr_append_left := Reindented.append
  expr_append_right := Reindented.append
  eq_or_compound h := h.2.imp_right fun hcolons =>
    ⟨isCompound_of_colon hcolons.1, isCompound_of_colon hcolons.2⟩
  lines_break h := .inr ⟨_, _, rfl, rfl, h⟩
  lines_empty := .inl ⟨rfl, rfl⟩
  lines_append := WholeLines.append Reindented.append_break
  lines_head {a a' b b'} h h' := by
    have hhead := h.append (reindented_refl ":")
    have hbreak : ∀ a b : String, a ++ ":\n" ++ b = a ++ ":" ++ "\n" ++ b := by
      intro a b
      have hcolon : a ++ ":" ++ "\n" = a ++ ":\n" := String.append_assoc
      rw [hcolon]
    rw [hbreak, hbreak]
    rcases h' with ⟨rfl, rfl⟩ | ⟨f, f', rfl, rfl, hf⟩
    · rw [String.append_empty, String.append_empty]
      exact .inr ⟨_, _, rfl, rfl, hhead⟩
    · refine .inr ⟨a ++ ":" ++ "\n" ++ f, a' ++ ":" ++ "\n" ++ f', String.append_assoc.symm,
        String.append_assoc.symm, ?_, .inr ⟨?_, ?_⟩⟩
      · rw [toList_break, toList_break]
        exact hhead.1.append_break hf
      · simp
      · simp
  body_none := .inl ⟨rfl, rfl⟩
  body_empty := WholeLines.empty_iff
  body_line {a a'} h := by
    refine .inr ⟨indent ++ a, indent' ++ a', rfl, rfl, ?_⟩
    rw [Led, String.toList_append, String.toList_append]
    exact h.1.lead_true hlead hlead'
  body_append := WholeLines.append Led.append_break

lemma composed_shifting : shifting.Composed indent indent' where
  toLawful := lawful_shifting hlead hlead'
  lines_nonempty := WholeLines.empty_iff
  lines_expr h h' := by
    rcases h with ⟨rfl, rfl⟩ | ⟨f, f', rfl, rfl, hf⟩
    · rw [String.empty_append, String.empty_append]
      exact h'
    · exact hf.append_break h'
  body_lead h hne := by
    rcases h with ⟨rfl, rfl⟩ | ⟨f, f', rfl, rfl, hf⟩
    · exact absurd rfl hne
    refine .inr ⟨_, _, leadLines_break indent f, leadLines_break indent' f', ?_⟩
    rw [Led, String.toList_ofList, String.toList_ofList]
    exact (hf.1.leadBreaks hlead hlead').lead_true hlead hlead'

lemma stored_shifting : shifting.Stored indent indent' where
  name _ := trivial
  helper key {id lines} hlines hid := by
    obtain ⟨signature, more, rfl, hsignature, -⟩ := hlines
    have hled : ∀ lines, Led (Definitions.helperText indent id lines)
        (Definitions.helperText indent' id lines) := by
      intro lines
      rw [Led, Definitions.helperText_eq, Definitions.helperText_eq, String.toList_ofList,
        String.toList_ofList]
      exact Text.shifted_reindent hlead hlead' _
    -- the head of the routine stands at the start of its first line
    obtain ⟨rest, hrest⟩ := Definitions.exists_helperText_eq indent more hid hsignature
    have hhead : ∃ tail, ("def " ++ id ++ "(" ++ rest).toList = 'd' :: tail := ⟨_, by
      simp only [String.toList_append, List.append_assoc]
      rfl⟩
    obtain ⟨tail, htail⟩ := hhead
    have hboth := hled (("def " ++ Definitions.ownName ++ signature) :: more)
    rw [Led, hrest, htail] at hboth
    obtain ⟨tail', htail', hshifted⟩ := hboth.of_visible (by decide)
    show Shifted false _ _
    rw [hrest, htail, htail']
    exact .cons hshifted

end Kin

/-! ### The layout -/

namespace Text.Shifted

variable {start : Bool} {a b : List Char}

/-- The same number of line feeds stands in front of a visible character. -/
lemma of_breaks {n : ℕ} {c : Char} (hc : isBlank c = false)
    (h : Shifted start (List.replicate n '\n' ++ c :: a) b) :
    ∃ b', b = List.replicate n '\n' ++ c :: b' ∧ Shifted (c == '\n') a b' := by
  induction n generalizing start b with
  | zero => exact h.of_visible (fun hblank => absurd hblank (by rw [hc]; decide))
  | succ n ih =>
      rw [List.replicate_succ, List.cons_append] at h
      obtain ⟨b', rfl, hrest⟩ := h.of_visible fun _ => rfl
      obtain ⟨b'', rfl, hlast⟩ := ih hrest
      exact ⟨b'', rfl, hlast⟩

/-- The line feeds at the start of two texts are dropped alike. -/
lemma dropLeadingLines (h : Shifted false a b) (hopen : Opening a) (ha : allBlank a = false) :
    Shifted false (Program.dropLeadingLines a) (Program.dropLeadingLines b) := by
  rcases hopen.breaks_or with ⟨n, rfl⟩ | ⟨n, c, rest, rfl, hc⟩
  · have hblank : allBlank (List.replicate n '\n') = true := List.all_eq_true.mpr fun c hc => by
      rw [(List.mem_replicate.mp hc).2]
      decide
    rw [hblank] at ha
    exact nomatch ha
  · obtain ⟨rest', rfl, hrest⟩ := h.of_breaks hc
    rw [Program.dropLeadingLines_breaks n hc, Program.dropLeadingLines_breaks n hc]
    split
    · exact .cons hrest
    · exact h

/-- Tidying two texts leaves the same lines behind their leads. -/
lemma strippedLines_tidyChars (h : Shifted false a b) (hopen : Opening a) (ha : allBlank a = false)
    (hb : allBlank b = false) {last : List Char} (hlast : allBlank last = false) :
    strippedLines (Program.tidyChars (a ++ last)) =
      strippedLines (Program.tidyChars (b ++ last)) := by
  have hdropped := (h.dropLeadingLines hopen ha).append (.refl _ (Program.dropTrailingLines last))
  rw [Program.tidyChars, Program.tidyChars, Program.dropLeadingLines_append ha,
    Program.dropLeadingLines_append hb, Program.dropTrailingLines_append hlast,
    Program.dropTrailingLines_append hlast]
  exact hdropped.strippedLines_dropLineEnds [] [] [] rfl rfl List.not_mem_nil
    List.not_mem_nil fun hfalse => absurd hfalse Bool.false_ne_true

end Text.Shifted

/-! ### The program -/

namespace Program

variable {d d' : Definitions} {style : Style}

/-- The definitions, put together. -/
lemma shifted_preamble (h : List.Forall₂ Kin.shifting.Entry d.entries d'.entries) :
    Shifted false (preamble d).toList (preamble d').toList := by
  have htexts : ∀ p : Bool → Bool, List.Forall₂ (fun a a' => Shifted false a.toList a'.toList)
      ((d.entries.map Prod.snd).filter fun text => p (isImport text))
      ((d'.entries.map Prod.snd).filter fun text => p (isImport text)) := by
    intro p
    generalize d.entries = entries, d'.entries = entries' at h
    induction h with
    | nil => exact .nil
    | @cons e e' rest rest' he _ ih =>
        have htext : Shifted false e.2.toList e'.2.toList := he.2
        rw [List.map_cons, List.map_cons, List.filter_cons, List.filter_cons, htext.isImport_eq]
        split
        · exact .cons htext ih
        · exact ih
  have hall : ∀ (sep : String) {texts texts' : List String},
      List.Forall₂ (fun a a' => Shifted false a.toList a'.toList) texts texts' →
      Shifted false (sep.intercalate texts).toList (sep.intercalate texts').toList := by
    intro sep texts texts' h
    induction h with
    | nil => exact .nil
    | cons htext hrest ih =>
        cases hrest with
        | nil => exact htext
        | cons _ _ =>
            rw [String.intercalate_cons_cons, String.intercalate_cons_cons]
            simp only [String.toList_append]
            exact (htext.append (.refl _ _)).append ih
  rw [preamble, preamble, collapse, collapse, String.toList_ofList, String.toList_ofList]
  simp only [String.toList_append]
  exact (((hall _ (htexts id)).append (.refl _ _)).append (hall _ (htexts not))).collapseChars

/-- The body of the entry point. -/
lemma led_entryBody (hlead : IsLead style.indent.toList) (hlead' : IsLead indent'.toList)
    (identifiers : List String) {body body' : String} (h : WholeLines Reindented body body') :
    WholeLines Led (entryBody style identifiers body)
      (entryBody { style with indent := indent' } identifiers body') := by
  have hk := Kin.composed_shifting hlead hlead'
  rw [entryBody, entryBody]
  by_cases hempty : body = ""
  · rw [if_neg (not_not_intro hempty), if_neg (not_not_intro (h.empty_iff.mp hempty))]
    split
    · exact hk.body_line (reindented_refl style.dialect.passKeyword)
    · rw [hempty, h.empty_iff.mp hempty]
      exact hk.body_none
  · rw [if_pos hempty, if_pos fun hempty' => hempty (h.empty_iff.mpr hempty')]
    refine hk.body_lead (hk.lines_append ?_ h) (append_ne_empty_right hempty)
    exact WholeLines.refl reindented_refl (style.dialect.ended_bindingLine identifiers)

/-- The whole program. -/
lemma strippedLines_tidy {dialect : Dialect} (hdialect : dialect ∈ Dialect.all)
    {definitions definitions' : String} (hopen : Text.Opening definitions.toList)
    (hdefinitions : Shifted false definitions.toList definitions'.toList) {entry entry' : String}
    (hentry : WholeLines Led entry entry') :
    Text.strippedLines (tidy (definitions ++ (dialect.entryOpen ++ entry ++
        dialect.entryClose))).toList =
      Text.strippedLines (tidy (definitions' ++ (dialect.entryOpen ++ entry' ++
        dialect.entryClose))).toList := by
  have hframed := Dialect.framed_of_mem_all hdialect
  obtain ⟨c, line, hopening, hc, -⟩ := Dialect.exists_entryOpen_eq hdialect
  have hvisible : ∀ definitions entry : String, Text.allBlank (definitions.toList ++
      (dialect.entryOpen.toList ++ entry.toList)) = false := by
    intro definitions entry
    rw [Text.allBlank_append, Text.allBlank_append, hframed.entryOpen, Bool.false_and,
      Bool.and_false]
  have hparts : ∀ definitions entry : String, (tidy (definitions ++ (dialect.entryOpen ++ entry ++
      dialect.entryClose))).toList = tidyChars (definitions.toList ++ (dialect.entryOpen.toList ++
        entry.toList) ++ dialect.entryClose.toList) := by
    intro definitions entry
    rw [tidy, String.toList_ofList]
    simp only [String.toList_append, List.append_assoc]
  rw [hparts, hparts]
  refine Text.Shifted.strippedLines_tidyChars (hdefinitions.append ?_) ?_ (hvisible _ _)
    (hvisible _ _) hframed.entryClose
  · rcases hentry with ⟨rfl, rfl⟩ | ⟨f, f', rfl, rfl, hf⟩
    · exact .refl _ _
    · have hline : ∀ f : String, dialect.entryOpen.toList ++ (f ++ "\n").toList =
          c :: line ++ '\n' :: (f.toList ++ ['\n']) := by
        intro f
        rw [hopening, String.toList_append, List.append_assoc]
        rfl
      rw [hline, hline]
      exact (Shifted.refl _ _).append_break (hf.append (.refl _ _))
  · refine hopen.append (Text.opening_of_head ?_)
    rw [hopening]
    rintro _ ⟨⟩
    exact hc

end Program

namespace Renderer

/-- Every workspace lasts in the relation. -/
lemma apt_shifting {w : Workspace} {style : Style} (hvalid : w.validate = .ok ())
    (hdialect : style.dialect ∈ Dialect.all) (hlead : IsLead style.indent.toList)
    (hlead' : IsLead indent'.toList) : (standard w style).Apt Kin.shifting indent' where
  valid := hvalid
  handlers := rfl
  dialect := hdialect
  composed := Kin.composed_shifting hlead hlead'
  stored := Kin.stored_shifting hlead hlead'
  imports _ _ := .refl _ _
  written _ h := h
  comments _ _ h := WholeLines.refl reindented_refl (Workspace.ended_commentsFor h)
  framed _ _ h := by
    show Shifted false _ _
    rw [String.toList_append, String.toList_append]
    refine (Shifted.refl _ _).append ?_
    rcases h with ⟨rfl, rfl⟩ | ⟨f, f', rfl, rfl, hf⟩
    · exact .nil
    · exact (hf.append (reindented_refl "\n")).1
  followed := .inl fun {a a' b b'} h h' => by
    rcases h' with ⟨rfl, rfl⟩ | ⟨f, f', rfl, rfl, hf⟩
    · rw [String.append_empty, String.append_empty]
      exact h
    · exact h.append (hf.append (reindented_refl "\n"))

end Renderer

namespace Generator

variable {g : Generator} {w : Workspace} {text body : String} {t : Run}

/-- A program is made whenever its blocks can be rendered. -/
lemma exists_generate_of_renderTops (hvalid : w.validate = .ok ())
    (hrun : (g.renderer w).renderTops.run (g.start w) = .ok body t) :
    ∃ text, (g.generate w).1 = .ok text := by
  have hprogram : (g.program w).run (g.start w) =
      (Program.finish g.style w.declared body).run t := by
    rw [program, EStateM.run_bind, hrun]
  rw [generate, hvalid]
  cases hfinish : (g.program w).run (g.start w) with
  | ok text u => exact ⟨text, rfl⟩
  | error fault u =>
      exact (only_finish g.style w.declared body (fun _ => False) t fault u
        (hprogram ▸ hfinish)).elim

/-- What is made with one indent is made with another one as well. -/
lemma generate_other (style : Style) (indent' : String) (hdialect : style.dialect ∈ Dialect.all) (hlead : IsLead style.indent.toList)
    (hlead' : IsLead indent'.toList) (h : ((standard style).generate w).1 = .ok text) :
    ∃ text', ((standard { style with indent := indent' }).generate w).1 = .ok text' ∧
      Text.strippedLines text.toList = Text.strippedLines text'.toList := by
  obtain ⟨body, t, hmakes⟩ := exists_makes h
  have hapt := Renderer.apt_shifting hmakes.valid hdialect hlead hlead'
  have hstart : ((standard style).start w).Akin Kin.shifting ((standard style).start w) := by
    refine ⟨rfl, rfl, ?_, ?_⟩
    · rw [definitions_start]
      exact nofun
    · rw [definitions_start]
      exact .cons ⟨rfl, .refl _ _⟩ .nil
  obtain ⟨body', t', hrun', ⟨texts, texts', htexts, hne, rfl, rfl⟩, -, hstates⟩ :=
    hapt.shadows_renderTops _ _ (namesFrom_start (standard style) w) hstart _ _ hmakes.run_body
  obtain ⟨text', htext'⟩ := exists_generate_of_renderTops
    (g := standard { style with indent := indent' }) hmakes.valid hrun'
  obtain ⟨body', t'', hmakes'⟩ := exists_makes htext'
  obtain ⟨rfl, rfl⟩ := EStateM.Result.ok.inj (hrun'.symm.trans hmakes'.run_body)
  refine ⟨text', htext', ?_⟩
  rw [hmakes.text_eq, hmakes'.text_eq]
  refine Program.strippedLines_tidy hdialect
    (Program.opening_preamble (hmakes.opens hdialect)) (Program.shifted_preamble hstates.entries)
    (Program.led_entryBody hlead hlead' _ (WholeLines.intercalate htexts))

/-- The lines of the program for a workspace without the blanks that lead them, if there is one. -/
def strippedLines (g : Generator) (w : Workspace) : Option (List (List Char)) :=
  (g.generate w).1.toOption.map fun text => Text.strippedLines text.toList

/-- A program is made with both indents or with neither, and behind their leads the lines are the
same. -/
lemma strippedLines_other (style : Style) (indent' : String) (hdialect : style.dialect ∈ Dialect.all)
    (hlead : IsLead style.indent.toList) (hlead' : IsLead indent'.toList) (w : Workspace) :
    (standard { style with indent := indent' }).strippedLines w =
      (standard style).strippedLines w := by
  rw [strippedLines, strippedLines]
  cases hresult : ((standard style).generate w).1 with
  | ok text =>
      obtain ⟨text', htext', hlines⟩ := generate_other style indent' hdialect hlead hlead' hresult
      rw [htext']
      exact congrArg some hlines.symm
  | error fault =>
      cases hresult' : ((standard { style with indent := indent' }).generate w).1 with
      | error fault' => rfl
      | ok text' =>
          -- with the first indent again
          obtain ⟨text, htext, -⟩ := generate_other { style with indent := indent' }
            style.indent hdialect hlead' hlead hresult'
          exact nomatch hresult.symm.trans htext

end Generator

/-! ### Settings -/

namespace CodegenSettings

variable {s : CodegenSettings} {t : String} {v : Value}

/-- The program for a workspace in the style that settings describe. -/
def generate (s : CodegenSettings) (w : Workspace) : Except Fault String := do
  let style ← s.style
  ((Generator.standard style).generate w).1

/-- The lines of this program without the blanks that lead them, if there is one. -/
def strippedLines (s : CodegenSettings) (w : Workspace) : Option (List (List Char)) :=
  (s.generate w).toOption.map fun text => Text.strippedLines text.toList

/-- An indent that passes the check leads a line, if there is no line feed in it. -/
lemma isLead_of_checkIndent (h : s.checkIndent = .ok t) (hflat : '\n' ∉ t.toList) :
    IsLead t.toList := by
  refine ⟨fun hnil => ?_, allBlank_of_checkIndent h, hflat⟩
  have htext := eq_text_of_checkIndent h
  rw [String.toList_eq_nil_iff.mp hnil] at htext
  rw [checkIndent, htext] at h
  cases h

/-- Checked settings describe a style that indents with their indent, if their dialect exists. -/
lemma exists_style_eq (h : s.check = .ok s) :
    ∃ t width, s.checkIndent = .ok t ∧ Extent.ofValue? s.commentWrap = some width ∧
      s.style = (Dialect.ofValue s.dialect).map
        fun dialect => ⟨dialect, s.oneBased.isTruthy, t, width⟩ := by
  obtain ⟨width, hwrap, hrest⟩ := bind_eq_ok h
  obtain ⟨t, hindent, -⟩ := bind_eq_ok hrest
  have hwidth := ofValue?_of_checkWrap hwrap
  refine ⟨t, width, hindent, hwidth, ?_⟩
  rw [style, indentText, eq_text_of_checkIndent hindent, wrapExtent, hwidth]
  cases Dialect.ofValue s.dialect <;> rfl

/-- **The indent makes a difference in front of lines and nowhere else.** For settings that have
passed their check and differ in their indents only, neither of which has a line feed in it, and for
every workspace: a program is made with both of them or with neither, and without the blanks that
lead their lines both programs have the same lines. -/
theorem generate_indent (hcheck : s.check = .ok s)
    (hcheck' : { s with indent := v }.check = .ok { s with indent := v })
    (hflat : ∀ t, s.indent = .text t → '\n' ∉ t.toList)
    (hflat' : ∀ t, v = .text t → '\n' ∉ t.toList) (w : Workspace) :
    { s with indent := v }.strippedLines w = s.strippedLines w := by
  obtain ⟨t, width, hindent, hwidth, hstyle⟩ := exists_style_eq hcheck
  obtain ⟨t', width', hindent', hwidth', hstyle'⟩ := exists_style_eq hcheck'
  obtain rfl := Option.some.inj (hwidth.symm.trans hwidth')
  rw [strippedLines, strippedLines, generate, generate, hstyle, hstyle']
  cases hdialect : Dialect.ofValue s.dialect with
  | error fault => rfl
  | ok dialect =>
      exact Generator.strippedLines_other ⟨dialect, s.oneBased.isTruthy, t, width⟩ t' (Dialect.mem_all_of_ofValue hdialect)
        (isLead_of_checkIndent hindent (hflat t (eq_text_of_checkIndent hindent)))
        (isLead_of_checkIndent hindent' (hflat' t' (eq_text_of_checkIndent hindent'))) w

/-- A conditional statement that prints something, and a list from which an item is removed. -/
def indentSample : Workspace :=
  Workspace.edited []
    [.add ⟨"logic_boolean", [("BOOL", .text "TRUE")], [], none, .null, false, []⟩,
      .add ⟨"text_print", [], [], none, .null, false, []⟩,
      .add ⟨"controls_if", [], [⟨"IF0", .value, some 1⟩, ⟨"DO0", .statement, some 2⟩], none, .null,
        false, []⟩,
      .add ⟨"lists_getIndex", [("MODE", .text "REMOVE"), ("WHERE", .text "RANDOM")], [], none, .null,
        false, []⟩]

/-- Two spaces for a level, and one tab. -/
theorem generate_indent_indentSample :
    (default.generate indentSample).toOption = some ("import random\n\n" ++
      "def lists_remove_random_item(myList):\n  x = int(random.random() * len(myList))\n" ++
      "  return myList.pop(x)\n\n\nmain() \x7b\n  if True:\n    cout << '';\n\n" ++
      "  lists_remove_random_item([])\n\x7d") ∧
    ({ default with indent := .text "\t" }.generate indentSample).toOption = some (
      "import random\n\n" ++
      "def lists_remove_random_item(myList):\n\tx = int(random.random() * len(myList))\n" ++
      "\treturn myList.pop(x)\n\n\nmain() \x7b\n\tif True:\n\t\tcout << '';\n\n" ++
      "\tlists_remove_random_item([])\n\x7d") ∧
    { default with indent := .text "\t" }.strippedLines indentSample =
      default.strippedLines indentSample := by
  refine ⟨by decide +kernel, by decide +kernel, ?_⟩
  refine generate_indent rfl rfl (fun t ht => ?_) (fun t ht => ?_) indentSample
  · obtain rfl := Value.text.inj ht
    decide
  · obtain rfl := Value.text.inj ht
    decide

end CodegenSettings

end Blockscribe
