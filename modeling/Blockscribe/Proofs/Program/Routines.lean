/-
Helper routines and imports are written once and stay.

* `Run.RoutinesWritten`: every key of the definitions stands once; a helper routine that has been
  requested is defined by a text that begins with its head, and no two have the same identifier.
  Every change keeps this (`Step.routinesWritten`).
* `Step.keeps_routine`, `keeps_import`: no change takes a helper routine or an import away, or
  writes over it.
* `Renderer.Requests`: a request for a helper routine in the course of a run.
* `Generator.routines_written`: with the standard handlers every helper routine that is requested is
  defined once, under the name that all its requests get, and imports that are needed are there.
-/
import Blockscribe.Proofs.Handler.Imports
import Blockscribe.Proofs.Program.Course
import Blockscribe.Proofs.Run.Definitions

namespace Blockscribe

variable {s t : Run} {names lines : List String} {indent key key' text id : String}

/-! ### What every change keeps -/

/-- The keys of imports and procedures are no keys of helper routines. -/
lemma not_mem_routineKeys_of_allowed (h : (Question.define key text).Allowed names) :
    key ∉ Handler.routineKeys := by
  intro hroutine
  have hheads : ∀ key ∈ Handler.routineKeys, key.toList.head? ≠ some '%' := by decide
  have hkeys : ∀ e ∈ Handler.moduleLines, e.1 ∉ Handler.routineKeys := by decide
  exact hkeys _ (h.mem_moduleLines (hheads key hroutine)) hroutine

namespace Run

/-- Every key stands once. A helper routine that has been requested is defined by a text that begins
with its head, and no two have the same identifier. -/
structure RoutinesWritten (s : Run) : Prop where
  keys : (s.definitions.entries.map Prod.fst).Nodup
  written : ∀ key id, s.definitions.helper? key = some id → key ∈ Handler.routineKeys ∧
    id ∈ s.names.issued ∧ ∃ rest, s.definitions.get? key = some ("def " ++ id ++ "(" ++ rest)
  injective : ∀ key key' id, s.definitions.helper? key = some id →
    s.definitions.helper? key' = some id → key = key'

/-- Issued identifiers stay issued. -/
lemma subset_issued_named (t : NameTable) (name : String) (kind : NameKind) :
    t.issued ⊆ (t.named name kind).2.issued := by
  rw [NameTable.named]
  split
  · exact List.Subset.refl _
  · exact List.subset_cons_self _ _

namespace RoutinesWritten

variable (hs : s.RoutinesWritten)

include hs

/-- Identifiers that are issued to others make no difference. -/
lemma of_issued (hsame : t.definitions = s.definitions) (hissued : s.names.issued ⊆ t.names.issued) :
    t.RoutinesWritten := by
  refine ⟨hsame ▸ hs.keys, fun key id hid => ?_, fun key key' id hid hid' => ?_⟩
  · rw [hsame] at hid ⊢
    obtain ⟨hroutine, hmem, htext⟩ := hs.written key id hid
    exact ⟨hroutine, hissued hmem, htext⟩
  · rw [hsame] at hid hid'
    exact hs.injective key key' id hid hid'

/-- A helper routine is written with an identifier that has not been issued before. -/
lemma provide {signature : String} (hkey : key ∈ Handler.routineKeys)
    (hsignature : signature.toList.head? = some '(') (hnames : t.names = (s.names.fresh key).2)
    (hput : t.definitions = Definitions.put
      ⟨s.definitions.entries, (key, s.names.choose key) :: s.definitions.helpers⟩ key
      (Definitions.helperText indent (s.names.choose key)
        (("def " ++ Handler.self ++ signature) :: lines))) : t.RoutinesWritten := by
  have hhelper : ∀ name, t.definitions.helper? name =
      if name = key then some (s.names.choose key) else s.definitions.helper? name := by
    rw [hput]
    exact fun name => Definitions.helper?_cons key name _
  have hissued : t.names.issued = s.names.choose key :: s.names.issued := by
    rw [hnames]
    rfl
  refine ⟨?_, fun name id hid => ?_, fun name name' id hid hid' => ?_⟩
  · rw [hput]
    exact Assoc.nodup_keys_put hs.keys _ _
  · rw [hhelper] at hid
    rw [hput, Definitions.get?_put, hissued]
    split at hid
    · rename_i hname
      obtain rfl := Option.some.inj hid
      rw [if_pos hname]
      obtain ⟨rest, hrest⟩ := Definitions.exists_helperText_eq indent lines
        (NameTable.isIdentifier_choose s.names key) hsignature
      exact ⟨hname ▸ hkey, List.mem_cons_self, rest, congrArg some hrest⟩
    · rename_i hname
      obtain ⟨hroutine, hmem, htext⟩ := hs.written name id hid
      rw [if_neg hname]
      exact ⟨hroutine, List.mem_cons_of_mem _ hmem, htext⟩
  · have hfresh : ∀ name id, s.definitions.helper? name = some id → id ≠ s.names.choose key := by
      rintro name id hid rfl
      exact NameTable.choose_notMem_issued s.names key (hs.written name _ hid).2.1
    rw [hhelper] at hid hid'
    split at hid <;> split at hid'
    · rename_i hname hname'
      exact hname.trans hname'.symm
    · exact absurd (Option.some.inj hid).symm (hfresh _ _ hid')
    · exact absurd (Option.some.inj hid').symm (hfresh _ _ hid)
    · exact hs.injective name name' id hid hid'

/-- Definitions under other keys make no difference. -/
lemma define (hkey : key ∉ Handler.routineKeys) (hnames : t.names = s.names)
    (hput : t.definitions = s.definitions.put key text) : t.RoutinesWritten := by
  refine ⟨?_, fun name id hid => ?_, fun name name' id hid hid' => ?_⟩
  · rw [hput]
    exact Assoc.nodup_keys_put hs.keys _ _
  · rw [hput] at hid ⊢
    obtain ⟨hroutine, hmem, htext⟩ := hs.written name id hid
    rw [hnames, Definitions.get?_put, if_neg]
    · exact ⟨hroutine, hmem, htext⟩
    · rintro rfl
      exact hkey hroutine
  · rw [hput] at hid hid'
    exact hs.injective name name' id hid hid'

end RoutinesWritten

lemma Step.routinesWritten (h : Step (Question.Allowed names) indent s t)
    (hs : s.RoutinesWritten) : t.RoutinesWritten := by
  rcases h.kinds with ⟨hsame, hnames⟩ | ⟨key, lines, ⟨hkey, signature, more, rfl, hsignature⟩, -,
    hnames, hput⟩ | ⟨key, value, hallowed, hnames, hput⟩
  · refine hs.of_issued hsame ?_
    rcases hnames with hnames | ⟨name, kind, -, hnames⟩ | ⟨hint, kind, -, hnames⟩
    · rw [hnames]
      exact List.Subset.refl _
    · rw [hnames]
      exact subset_issued_named _ _ _
    · rw [hnames]
      exact List.subset_cons_self _ _
  · exact hs.provide hkey hsignature hnames hput
  · exact hs.define (not_mem_routineKeys_of_allowed hallowed) hnames hput

/-- No change takes a helper routine away, or writes over it. -/
lemma Step.keeps_routine (h : Step (Question.Allowed names) indent s t)
    (hkey : key ∈ Handler.routineKeys)
    (hs : s.definitions.helper? key = some id ∧ s.definitions.get? key = some text) :
    t.definitions.helper? key = some id ∧ t.definitions.get? key = some text := by
  rcases h.kinds with ⟨hsame, -⟩ | ⟨key', lines, -, hnew, -, hput⟩ | ⟨key', value, hallowed, -, hput⟩
  · rw [hsame]
    exact hs
  · have hne : key ≠ key' := by
      rintro rfl
      exact nomatch hs.1.symm.trans hnew
    rw [hput]
    refine ⟨(Definitions.helper?_cons key' key _).trans ?_, ?_⟩
    · rw [if_neg hne]
      exact hs.1
    · rw [Definitions.get?_put, if_neg hne]
      exact hs.2
  · rw [hput]
    refine ⟨hs.1, ?_⟩
    rw [Definitions.get?_put, if_neg]
    · exact hs.2
    · rintro rfl
      exact not_mem_routineKeys_of_allowed hallowed hkey

/-- No change writes over an import. -/
lemma Step.keeps_import (h : Step (Question.Allowed names) indent s t)
    (hmodule : (key, text) ∈ Handler.moduleLines)
    (hs : s.definitions.get? key = some text) : t.definitions.get? key = some text := by
  have hkeys : ∀ e ∈ Handler.moduleLines, e.1 ∉ Handler.routineKeys ∧
      e.1.toList.head? ≠ some '%' ∧ ∀ e' ∈ Handler.moduleLines, e'.1 = e.1 → e'.2 = e.2 := by decide
  obtain ⟨hroutine, hhead, hunique⟩ := hkeys _ hmodule
  rcases h.get?_cases key with hsame | ⟨lines, hallowed, -⟩ | ⟨value, hallowed, hvalue⟩
  · rw [hsame, hs]
  · exact absurd hallowed.1 hroutine
  · rw [hvalue]
    exact congrArg some (hunique _ (hallowed.mem_moduleLines hhead) rfl)

/-- After a request the helper routine is known by the name that the request gets. -/
lemma helper?_provide (s : Run) (indent key : String) (lines : List String) :
    (s.provide indent key lines).2.definitions.helper? key =
      some (s.provide indent key lines).1 := by
  cases hhelper : s.definitions.helper? key with
  | some id => rw [provide_of_known hhelper, hhelper]
  | none =>
      obtain ⟨hname, -, hdefinitions⟩ := provide_of_new hhelper indent lines
      rw [hname, hdefinitions]
      exact (Definitions.helper?_cons key key _).trans (if_pos rfl)

/-- The first request writes the definition. -/
lemma get?_provide (hnew : s.definitions.helper? key = none) (indent : String)
    (lines : List String) :
    (s.provide indent key lines).2.definitions.get? key =
      some (Definitions.helperText indent (s.provide indent key lines).1 lines) := by
  obtain ⟨hname, -, hdefinitions⟩ := provide_of_new hnew indent lines
  rw [hname, hdefinitions, Definitions.get?_put, if_pos rfl]

end Run

/-! ### Whole runs -/

/-- A request for a helper routine that a block makes which is rendered. -/
def Renderer.Requests (r : Renderer) (s₀ : Run) (e : Exchange) (key : String)
    (lines : List String) : Prop :=
  ∃ b s, r.Reaches s₀ b s ∧ b.disabled = false ∧ e ∈ r.exchanges b s ∧
    e.question = .helper key lines

namespace Generator

open Handler (AboutSocket)

variable {style : Style} {w : Workspace} {body line : String} {b : Block} {e : Exchange}

/-- A run starts with one definition and no helper routines. -/
lemma routinesWritten_start (g : Generator) (w : Workspace) : (g.start w).RoutinesWritten := by
  have hhelper : ∀ key, (g.start w).definitions.helper? key = none := by
    rw [definitions_start]
    exact fun _ => rfl
  refine ⟨?_, fun key id hid => ?_, fun key key' id hid _ => ?_⟩
  · rw [definitions_start]
    exact List.nodup_singleton _
  · exact nomatch (hhelper key).symm.trans hid
  · exact nomatch (hhelper key).symm.trans hid

section Makes

variable (h : (standard style).Makes w body t text) (hdialect : style.dialect ∈ Dialect.all)

include h hdialect

lemma Makes.routinesWritten : t.RoutinesWritten :=
  (h.leads hdialect).keeps (fun _ _ hstep => hstep.routinesWritten) (routinesWritten_start _ w)

/-- What a request finds, and what it leaves behind for the rest of the run. -/
lemma Makes.request (hrequest : (Renderer.standard w style).Requests ((standard style).start w) e
      key lines) :
    t.definitions.helper? key = some e.answer ∧ ∃ text rest,
      text = "def " ++ e.answer ++ "(" ++ rest ∧ key ∈ Handler.routineKeys ∧
      t.definitions.get? key = some text ∧
      (e.before.definitions.helper? key = none →
        text = Definitions.helperText style.indent e.answer lines) ∧
      ∀ u, (Renderer.standard w style).Leads e.after u → u.definitions.get? key = some text := by
  obtain ⟨b, s, hreaches, henabled, he, hquestion⟩ := hrequest
  obtain ⟨handler, outcome, v, hcarries⟩ := h.carries hdialect hreaches henabled
  obtain ⟨hbefore, hbetween, hafter⟩ := hcarries.leads he
  have hanswer := hcarries.answers he
  rw [hquestion] at hanswer
  obtain ⟨hname, hstate⟩ := EStateM.Result.ok.inj hanswer
  have hhelper : e.after.definitions.helper? key = some e.answer := by
    rw [← hname, ← hstate]
    exact Run.helper?_provide e.before style.indent key lines
  obtain ⟨hkey, -, rest, htext⟩ := ((hbefore.trans hbetween).keeps
    (fun _ _ hstep => hstep.routinesWritten) (routinesWritten_start _ w)).written key _ hhelper
  have hstays : ∀ u, (Renderer.standard w style).Leads e.after u →
      u.definitions.helper? key = some e.answer ∧
        u.definitions.get? key = some ("def " ++ e.answer ++ "(" ++ rest) := fun u hu =>
    hu.keeps (fun _ _ hstep => hstep.keeps_routine hkey) ⟨hhelper, htext⟩
  refine ⟨(hstays t hafter).1, _, rest, rfl, hkey, (hstays t hafter).2, fun hnew => ?_,
    fun u hu => (hstays u hu).2⟩
  have hfirst := Run.get?_provide hnew style.indent lines
  rw [show e.before.provide style.indent key lines = (e.answer, e.after) from
    Prod.ext hname hstate] at hfirst
  exact Option.some.inj (htext.symm.trans hfirst)

/-- An import that a block writes is there at the end. -/
lemma Makes.import_mem (hreaches : (Renderer.standard w style).Reaches ((standard style).start w) b s)
    (henabled : b.disabled = false) (hmodule : (key, line) ∈ Handler.moduleLines)
    (hwrites : ∀ handler outcome v, (Renderer.standard w style).Carries
      ((standard style).start w) t b s handler outcome v →
      ∃ e ∈ (Renderer.standard w style).exchanges b s, e.question = .define key line) :
    (key, line) ∈ t.definitions.entries := by
  obtain ⟨handler, outcome, v, hcarries⟩ := h.carries hdialect hreaches henabled
  obtain ⟨e, he, hquestion⟩ := hwrites handler outcome v hcarries
  have hend := (hcarries.leads he).2.2.keeps (fun _ _ hstep => hstep.keeps_import hmodule)
    (hcarries.get?_of_define he hquestion)
  exact Handler.mem_of_lookup hend

end Makes

/-- **Helper routines are defined once, and nothing that is used is missing.** With the standard
handlers, in every style, whenever a program is generated: each request for a helper routine during
the run gets the one name of that routine; the definitions from which the program is put together
have exactly one entry under its key, which begins with the head of a function of that name. The
first request writes it, and it stays as it is from then on. Different routines have different
names. A block about a random place that is rendered has imported the random numbers, and a part of
a list or text whose end is counted from the end and is no numeral has imported the system module.
-/
theorem routines_written (hdialect : style.dialect ∈ Dialect.all)
    (hgenerate : ((standard style).generate w).1 = .ok text) :
    ∃ body t, (standard style).Makes w body t text ∧
      (∀ e key lines,
        (Renderer.standard w style).Requests ((standard style).start w) e key lines →
        key ∈ Handler.routineKeys ∧ t.definitions.helper? key = some e.answer ∧
        ∃ definition rest, definition = "def " ++ e.answer ++ "(" ++ rest ∧
          t.definitions.entries.filter (fun entry => entry.1 = key) = [(key, definition)] ∧
          (e.before.definitions.helper? key = none →
            definition = Definitions.helperText style.indent e.answer lines) ∧
          ∀ u, (Renderer.standard w style).Leads e.after u →
            u.definitions.get? key = some definition) ∧
      (∀ e key lines e' key' lines',
        (Renderer.standard w style).Requests ((standard style).start w) e key lines →
        (Renderer.standard w style).Requests ((standard style).start w) e' key' lines' →
        (e.answer = e'.answer ↔ key = key')) ∧
      ∀ b s, (Renderer.standard w style).Reaches ((standard style).start w) b s →
        b.disabled = false →
        (b.type ∈ Handler.randomTypes → b.face.field "WHERE" = .text "RANDOM" →
          ("import_random", "import random") ∈ t.definitions.entries) ∧
        (b.type ∈ Handler.partTypes → b.face.field "WHERE2" = .text "FROM_END" →
          ∀ e ∈ (Renderer.standard w style).exchanges b s, AboutSocket "AT2" e.question →
            Number.isNumeral e.answer = false →
            ("import_sys", "import sys") ∈ t.definitions.entries) := by
  obtain ⟨body, t, hmakes⟩ := exists_makes hgenerate
  have hwritten := hmakes.routinesWritten hdialect
  refine ⟨body, t, hmakes, fun e key lines hrequest => ?_,
    fun e key lines e' key' lines' hrequest hrequest' => ?_, fun b s hreaches henabled => ?_⟩
  · obtain ⟨hhelper, definition, rest, hbegins, hkey, hget, hfirst, hstays⟩ :=
      hmakes.request hdialect hrequest
    exact ⟨hkey, hhelper, definition, rest, hbegins,
      Assoc.filter_eq_of_lookup hwritten.keys hget, hfirst, hstays⟩
  · have hhelper := (hmakes.request hdialect hrequest).1
    have hhelper' := (hmakes.request hdialect hrequest').1
    constructor
    · intro hsame
      exact hwritten.injective _ _ _ hhelper (hsame ▸ hhelper')
    · rintro rfl
      exact Option.some.inj (hhelper.symm.trans hhelper')
  · constructor
    · intro htype hwhere
      refine hmakes.import_mem hdialect hreaches henabled (by decide) fun handler _ _ hcarries => ?_
      rw [hcarries.exchanges]
      exact Handler.writes_of_random hwhere htype (Handler.lookup_of_resolve hcarries.resolve) _ _ _
        _ _ _ hcarries.run
    · intro htype hwhere e he hsocket hanswer
      refine hmakes.import_mem hdialect hreaches henabled (by decide) fun handler _ _ hcarries => ?_
      rw [hcarries.exchanges] at he ⊢
      exact Handler.exists_define_of_part htype (Handler.lookup_of_resolve hcarries.resolve) hwhere
        hcarries.run he hsocket hanswer

/-- A random element is removed from a list, and a part of a text has a computed end. -/
def routinesSample : Workspace :=
  Workspace.edited []
    [.add ⟨"lists_getIndex", [("MODE", .text "REMOVE"), ("WHERE", .text "RANDOM")], [], none, .null,
        false, []⟩,
      .add ⟨"variables_get", [("VAR", .text "n")], [], none, .null, false, []⟩,
      .add ⟨"text_getSubstring", [("WHERE1", .text "FIRST"), ("WHERE2", .text "FROM_END")],
        [⟨"AT2", .value, some 2⟩], none, .null, false, []⟩]

theorem routines_written_routinesSample :
    ∃ (body text : String) (t : Run), (standard .cplus).Makes routinesSample body t text ∧
      (∃ e lines definition, (Renderer.standard routinesSample .cplus).Requests
          ((standard .cplus).start routinesSample) e "lists_remove_random_item" lines ∧
        e.answer = "lists_remove_random_item" ∧
        t.definitions.helper? "lists_remove_random_item" = some e.answer ∧
        t.definitions.entries.filter (fun entry => entry.1 = "lists_remove_random_item") =
          [("lists_remove_random_item", definition)]) ∧
      ("import_random", "import random") ∈ t.definitions.entries ∧
      ("import_sys", "import sys") ∈ t.definitions.entries := by
  obtain ⟨text, hgenerate⟩ := exists_generate (g := standard .cplus) (w := routinesSample)
    (by decide +kernel)
  have hdialect : Style.cplus.dialect ∈ Dialect.all := List.mem_cons_self
  obtain ⟨body, t, hmakes, hrequests, -, hblocks⟩ := routines_written hdialect hgenerate
  have hremove : (Renderer.standard routinesSample .cplus).Reaches
      ((standard .cplus).start routinesSample) routinesSample.blocks[0] _ :=
    .top (show _ = [] ++ _ :: _ from rfl) rfl
  have hpart : (Renderer.standard routinesSample .cplus).Reaches
      ((standard .cplus).start routinesSample) routinesSample.blocks[2] _ :=
    .top (show _ = [routinesSample.blocks[0]] ++ _ :: _ from rfl) rfl
  obtain ⟨-, hhelper, definition, -, -, hentry, -⟩ :=
    hrequests _ _ _ ⟨_, _, hremove, rfl, List.getElem_mem (n := 2) (by decide), rfl⟩
  refine ⟨body, text, t, hmakes, ⟨_, _, definition,
    ⟨_, _, hremove, rfl, List.getElem_mem (n := 2) (by decide), rfl⟩, rfl, hhelper, hentry⟩,
    (hblocks _ _ hremove rfl).1 (by decide) rfl, ?_⟩
  exact (hblocks _ _ hpart rfl).2 (by decide) rfl _ (List.getElem_mem (n := 1) (by decide))
    ⟨_, _, rfl⟩ rfl

end Generator

end Blockscribe
