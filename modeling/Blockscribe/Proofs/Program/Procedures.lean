/-
Which procedures a program has.

* `Renderer.WritesProcedure`: what a block writes that defines a procedure and is rendered.
* `exists_of_run_definition_exchanges`: the handler of such a block asks for the identifier of the
  name in its field, and writes one definition, under that identifier.
* `Makes.provenance`: every procedure that is there at the end has been written by such a block.
* `Generator.procedures_written`: so a program has as many procedures as there are different names,
  up to letter case, in the blocks that define one.
-/
import Mathlib.Data.Set.Card
import Blockscribe.Proofs.Handler.Akin.Standard
import Blockscribe.Proofs.Program.Literals
import Blockscribe.Proofs.Program.Names
import Blockscribe.Proofs.Program.Routines
import Blockscribe.Proofs.Program.Variables
import Blockscribe.Proofs.Render.Asked

namespace Blockscribe

open Handler.Procedures (definers folded)

/-- Whether a definition is asked for. -/
def Question.IsDefinition : Question → Prop
  | define .. => True
  | _ => False

/-- The name of the procedure that a block defines, without regard to letter case. -/
def Block.procedureName (b : Block) : List Char :=
  folded ((b.face.field "NAME").asText?.getD "")

/-- The definitions of procedures. -/
def Program.procedures (d : Definitions) : List (String × String) :=
  d.entries.filter fun e => e.1.toList.head? = some '%'

lemma head?_procedureKey (identifier : String) : ("%" ++ identifier).toList.head? = some '%' := by
  rw [String.toList_append]
  rfl

namespace Plan

variable {P : Question → Prop} {α β : Type} {indent : String} {services : Services} {s t : Run}

/-- A plan that puts one question and gives its answer. -/
lemma asks_ask {q : Question} (h : P q) : (ask q .done).Asks P := by
  intro indent services s answer t hrun e he
  obtain ⟨answer', u, hanswer, -⟩ := exists_of_run_ask hrun
  rw [exchanges_ask_of_ok hanswer] at he
  rw [List.mem_singleton.mp he]
  exact h

lemma asks_mapM {f : α → Plan β} {l : List α} (hf : ∀ a ∈ l, (f a).Asks P) :
    (l.mapM f).Asks P := by
  induction l with
  | nil => exact asks_pure _
  | cons a rest ih =>
      rw [List.mapM_cons]
      refine (hf a List.mem_cons_self).bind fun b => ?_
      exact (ih fun x hx => hf x (List.mem_cons_of_mem a hx)).bind fun bs => asks_pure _

end Plan

/-! ### One procedure -/

namespace Renderer

open Plan

variable {r : Renderer} {b : Block} {s s₀ v : Run} {outcome : Outcome}

lemma asks_require {P : Question → Prop} {α : Type} (e : Except Fault α) :
    (Handler.Procedures.require e).Asks P := by
  cases e with
  | ok a => exact asks_pure a
  | error fault => exact asks_fail fault

lemma asks_nameField {P : Question → Prop} (face : Face) (field operation : String) :
    (Handler.Texts.nameField face field operation).Asks P := by
  rw [Handler.Texts.nameField]
  split
  · split
    · exact asks_refuse
    · exact asks_pure _
  · exact asks_refuse

/-- The handler of a procedure asks for the identifier of the name in the field of its block, and
writes one definition, under that identifier. -/
lemma exists_of_run_definition_exchanges
    (h : ((Handler.Procedures.definition r.site b.face).run r.style.indent
      (r.services r.render b)).run s = .ok outcome v) :
    ∃ name identifier text, b.face.field "NAME" = .text name ∧
      (∃ e ∈ (Handler.Procedures.definition r.site b.face).exchanges r.style.indent
          (r.services r.render b) s,
        e.question = .identifier name .procedure ∧ e.answer = identifier) ∧
      (∃ e ∈ (Handler.Procedures.definition r.site b.face).exchanges r.style.indent
          (r.services r.render b) s,
        e.question = .define ("%" ++ identifier) text) ∧
      ∀ e ∈ (Handler.Procedures.definition r.site b.face).exchanges r.style.indent
          (r.services r.render b) s,
        e.question.IsDefinition → e.question = .define ("%" ++ identifier) text := by
  obtain ⟨names, s₁, r₁, h₁, e₁⟩ := exists_exchanges_bind h
  obtain ⟨shared, s₂, r₂, h₂, e₂⟩ := exists_exchanges_bind h₁
  obtain ⟨name, s₃, r₃, h₃, e₃⟩ := exists_exchanges_bind h₂
  obtain ⟨identifier, s₄, r₄, h₄, e₄⟩ := exists_exchanges_bind h₃
  obtain ⟨branch, s₅, r₅, h₅, e₅⟩ := exists_exchanges_bind h₄
  obtain ⟨result, s₆, r₆, h₆, e₆⟩ := exists_exchanges_bind h₅
  obtain ⟨arguments, s₇, r₇, h₇, e₇⟩ := exists_exchanges_bind h₆
  obtain ⟨text, s₈, r₈, h₈, e₈⟩ := exists_exchanges_bind h₇
  obtain ⟨hname, rfl⟩ := field_of_run_nameField r₃
  obtain ⟨hid, rfl⟩ := EStateM.Result.ok.inj r₄
  rw [Handler.Procedures.definition, e₁, e₂, e₃, e₄, e₅, e₆, e₇, e₈]
  -- the parts that come before the last one write nothing
  have hquiet : ∀ {q : Question}, ¬ q.IsDefinition → (ask q .done).Asks fun q => ¬ q.IsDefinition :=
    fun h => asks_ask h
  have q₁ := asks_require (P := fun q => ¬ q.IsDefinition) _ _ _ _ _ _ r₁
  have q₂ := asks_mapM (fun name _ => hquiet (q := .identifier name .variable) id) _ _ _ _ _ r₂
  have q₃ := asks_nameField (P := fun q => ¬ q.IsDefinition) _ _ _ _ _ _ _ _ r₃
  have q₄ := hquiet (q := .identifier name .procedure) id _ _ _ _ _ r₄
  have q₅ := hquiet (q := .statements "STACK") id _ _ _ _ _ r₅
  have q₆ := asks_expr (P := fun q => ¬ q.IsDefinition) id _ _ _ _ _ r₆
  have q₇ := asks_mapM (fun name _ => hquiet (q := .identifier name .variable) id) _ _ _ _ _ r₇
  have q₈ := hquiet (q := .surround _) id _ _ _ _ _ r₈
  simp only [List.mem_append]
  refine ⟨name, identifier, text, hname, ?_, ?_, fun e he hdefinition => ?_⟩
  · exact ⟨⟨.identifier name .procedure, _, _, _⟩,
      .inr (.inr (.inr (.inl List.mem_cons_self))), rfl, hid⟩
  · exact ⟨⟨.define ("%" ++ identifier) text, _, _, _⟩, .inr (.inr (.inr (.inr (.inr (.inr (.inr
      (.inr List.mem_cons_self))))))), rfl⟩
  · rcases he with he | he | he | he | he | he | he | he | he
    · exact absurd hdefinition (q₁ e he)
    · exact absurd hdefinition (q₂ e he)
    · exact absurd hdefinition (q₃ e he)
    · exact absurd hdefinition (q₄ e he)
    · exact absurd hdefinition (q₅ e he)
    · exact absurd hdefinition (q₆ e he)
    · exact absurd hdefinition (q₇ e he)
    · exact absurd hdefinition (q₈ e he)
    · rw [List.mem_singleton.mp he]

/-- A procedure that a rendered block defines: the block asks for the identifier of its name, and
writes a text under it. -/
def WritesProcedure (r : Renderer) (s₀ : Run) (b : Block) (identifier text : String) : Prop :=
  b.type ∈ definers ∧ ∃ s name, r.Reaches s₀ b s ∧ b.disabled = false ∧
    b.face.field "NAME" = .text name ∧
    (∃ e ∈ r.exchanges b s, e.question = .identifier name .procedure ∧ e.answer = identifier) ∧
    ∃ e ∈ r.exchanges b s, e.question = .define ("%" ++ identifier) text

variable {t : Run} {handler : Handler} {key text : String}

/-- A block that defines a procedure and is rendered writes one text. -/
lemma Carries.exists_writesProcedure (hr : r.handlers = Handler.standard)
    (hcarries : r.Carries s₀ t b s handler outcome v) (hreaches : r.Reaches s₀ b s)
    (henabled : b.disabled = false) (htype : b.type ∈ definers) :
    ∃ identifier text, r.WritesProcedure s₀ b identifier text ∧
      ∀ e ∈ r.exchanges b s, e.question.IsDefinition →
        e.question = .define ("%" ++ identifier) text := by
  have hresolve := hcarries.resolve
  rw [hr, Handler.resolve_standard (Handler.lookup_of_mem_definers htype)] at hresolve
  obtain rfl := Except.ok.inj hresolve
  obtain ⟨name, identifier, text, hname, hidentifier, hwrites, hunique⟩ :=
    exists_of_run_definition_exchanges hcarries.run
  rw [← hcarries.exchanges] at hidentifier hwrites hunique
  exact ⟨identifier, text, ⟨htype, s, name, hreaches, henabled, hname, hidentifier, hwrites⟩,
    hunique⟩

end Renderer

/-! ### Where definitions come from -/

/-- Every text is related to itself only, and only imports are written. -/
def Kin.importing : Kin where
  name _ := True
  part := Eq
  expr := Eq
  lines := Eq
  body := Eq
  framed := Eq
  definition key text text' := text = text' ∧ (key, text) ∈ Handler.moduleLines

lemma lawful_importing (indent : String) : Kin.importing.Lawful indent indent where
  expr_name _ := rfl
  expr_quote _ := rfl
  expr_const _ _ := rfl
  part_const _ := rfl
  part_of_expr h := h
  part_append := congrArg₂ (· ++ ·)
  expr_append_left := congrArg₂ (· ++ ·)
  expr_append_right := congrArg₂ (· ++ ·)
  eq_or_compound := .inl
  lines_break h := congrArg (· ++ "\n") h
  lines_empty := rfl
  lines_append := congrArg₂ (· ++ ·)
  lines_head := congrArg₂ fun a b => a ++ ":\n" ++ b
  body_none := rfl
  body_empty h := by rw [show _ = _ from h]
  body_line h := congrArg (indent ++ · ++ "\n") h
  body_append := congrArg₂ (· ++ ·)

namespace Renderer

variable {r : Renderer} {s₀ t : Run} {body key text : String}

/-- Procedures are written by the blocks that define them. -/
lemma Asked.exists_writesProcedure (hvalid : r.workspace.validate = .ok ())
    (hr : r.handlers = Handler.standard) (hdialect : r.style.dialect ∈ Dialect.all)
    (hrun : r.renderTops.run s₀ = .ok body t) (h : r.Asked s₀ (.define key text))
    (hkey : key.toList.head? = some '%') :
    ∃ b identifier, key = "%" ++ identifier ∧ r.WritesProcedure s₀ b identifier text := by
  obtain ⟨b, s, hreaches, henabled, e, he, hquestion⟩ := h
  obtain ⟨handler, outcome, v, hcarries⟩ := hreaches.carries hvalid hr hdialect hrun henabled
  by_cases htype : b.type ∈ definers
  · obtain ⟨identifier, text', hwrites, hunique⟩ :=
      hcarries.exists_writesProcedure hr hreaches henabled htype
    obtain ⟨rfl, rfl⟩ := Question.define.inj
      (hquestion.symm.trans (hunique e he (hquestion ▸ trivial)))
    exact ⟨b, identifier, rfl, hwrites⟩
  · have hakin := Handler.akin_of_resolve (lawful_importing r.site.indent) b.face hdialect
      (fun _ hmodule => ⟨rfl, hmodule⟩) (hr ▸ hcarries.resolve) htype
    rw [hcarries.exchanges] at he
    obtain ⟨text', -, hmodule⟩ := hakin.exists_definition (fun _ => trivial) (fun _ => rfl)
      (fun _ => rfl) (fun _ => rfl) he hquestion
    have hmodules : ∀ entry ∈ Handler.moduleLines, entry.1.toList.head? ≠ some '%' := by decide
    exact absurd hkey (hmodules _ hmodule)

end Renderer

/-! ### Whole runs -/

namespace Run

variable {s t : Run} {indent key text : String} {P : String → Prop}

/-- A name is known by the identifier that it gets. -/
lemma lookup_of_named {name id : String} {kind : NameKind} (h : s.named name kind = (id, t)) :
    t.names.known.lookup (NameTable.keyOf name kind) = some id := by
  have hlookup := NameTable.lookup_named s.names name kind
  rw [← names_named, h] at hlookup
  exact hlookup.trans (congrArg (fun answer => some answer.1) h)

/-- What is written under a key is what is there. -/
lemma Step.keeps_written {Q : Question → Prop} (h : Step Q indent s t)
    (hhelper : ∀ lines, ¬ Q (.helper key lines)) (hdefine : ∀ text, Q (.define key text) → P text)
    (hs : ∀ text, s.definitions.get? key = some text → P text) :
    ∀ text, t.definitions.get? key = some text → P text := by
  intro text ht
  rcases h.get?_cases key with hsame | ⟨lines, hasked, -⟩ | ⟨value, hasked, hvalue⟩
  · exact hs text (hsame ▸ ht)
  · exact absurd hasked (hhelper lines)
  · obtain rfl := Option.some.inj (hvalue.symm.trans ht)
    exact hdefine _ hasked

end Run

namespace Generator

variable {style : Style} {w : Workspace} {text body key identifier identifier' definition definition' : String}
  {t s : Run} {b b' : Block}

section Makes

variable (h : (standard style).Makes w body t text) (hdialect : style.dialect ∈ Dialect.all)

include h hdialect

/-- Every procedure that is there at the end has been written by a block that defines it. -/
lemma Makes.provenance (hkey : key.toList.head? = some '%')
    (hget : t.definitions.get? key = some definition) :
    ∃ b identifier, key = "%" ++ identifier ∧
      (Renderer.standard w style).WritesProcedure ((standard style).start w) b identifier
        definition := by
  have hlater := Renderer.later_asked (r := Renderer.standard w style) h.valid rfl hdialect
    h.run_body
  refine hlater.keeps (fun _ _ hstep => hstep.keeps_written
    (P := fun definition => ∃ b identifier, key = "%" ++ identifier ∧
      (Renderer.standard w style).WritesProcedure ((standard style).start w) b identifier
        definition) (fun lines hasked => ?_) fun definition hasked =>
    hasked.exists_writesProcedure (r := Renderer.standard w style) h.valid rfl hdialect h.run_body
      hkey) (fun definition hstart => ?_) definition hget
  · have hroutines : ∀ key ∈ Handler.routineKeys, key.toList.head? ≠ some '%' := by decide
    have hallowed := hasked.allowed (r := Renderer.standard w style) rfl hdialect h.valid h.run_body
      trivial
    exact absurd hkey (hroutines _ hallowed.1)
  · rw [definitions_start, Definitions.get?_put] at hstart
    split at hstart
    · rename_i hvariables
      rw [hvariables] at hkey
      exact absurd hkey (by decide)
    · exact nomatch hstart

/-- The name of a block that has written a procedure is known by its identifier. -/
lemma Makes.known_procedure (hwrites : (Renderer.standard w style).WritesProcedure
      ((standard style).start w) b identifier definition) :
    t.names.known.lookup (String.ofList b.procedureName, .procedure) = some identifier := by
  obtain ⟨-, s, name, hreaches, henabled, hname, ⟨e, he, hquestion, rfl⟩, -⟩ := hwrites
  obtain ⟨handler, outcome, v, hcarries⟩ := h.carries hdialect hreaches henabled
  obtain ⟨hbefore, hbetween, hafter⟩ := hcarries.leads he
  have hanswer := hcarries.answers he
  rw [hquestion] at hanswer
  obtain ⟨hid, hstate⟩ := EStateM.Result.ok.inj hanswer
  have hfrom := ((hbefore.trans hbetween).grows (namesFrom_start (standard style) w)).namesFrom
  rw [Block.procedureName, hname]
  exact (hafter.grows hfrom).known _ _ (Run.lookup_of_named (Prod.ext hid hstate))

/-- A procedure that has been written is there at the end, or another one with its identifier. -/
lemma Makes.exists_procedure (hwrites : (Renderer.standard w style).WritesProcedure
      ((standard style).start w) b identifier definition) :
    ∃ present, t.definitions.get? ("%" ++ identifier) = some present ∧
      IsProcedure identifier present := by
  obtain ⟨-, s, name, hreaches, henabled, -, -, e, he, hquestion⟩ := hwrites
  obtain ⟨handler, outcome, v, hcarries⟩ := h.carries hdialect hreaches henabled
  have hallowed := hcarries.allowed (r := Renderer.standard w style) rfl hdialect he
    (hquestion ▸ trivial)
  rw [hquestion] at hallowed
  have hprocedure : IsProcedure identifier definition := by
    rcases hallowed with hmodule | ⟨id, hkey, hprocedure⟩
    · have hmodules : ∀ entry ∈ Handler.moduleLines, entry.1.toList.head? ≠ some '%' := by decide
      exact absurd (head?_procedureKey identifier) (hmodules _ hmodule)
    · rwa [(String.append_right_inj "%").mp hkey]
  exact (hcarries.leads he).2.2.keeps (fun _ _ hstep => hstep.keeps_procedure)
    ⟨definition, hcarries.get?_of_define he hquestion, hprocedure⟩

/-- Procedures have the same identifier exactly if their names agree up to letter case. -/
lemma Makes.identifier_eq_iff (hwrites : (Renderer.standard w style).WritesProcedure
      ((standard style).start w) b identifier definition)
    (hwrites' : (Renderer.standard w style).WritesProcedure
      ((standard style).start w) b' identifier' definition') :
    identifier = identifier' ↔ b.procedureName = b'.procedureName := by
  have hknown := h.known_procedure hdialect hwrites
  have hknown' := h.known_procedure hdialect hwrites'
  constructor
  · rintro rfl
    obtain ⟨requests, hnames⟩ := h.grows.namesFrom
    rw [hnames] at hknown hknown'
    have hkeys := (NameTable.sound_history _ requests).injective _ _ _ hknown hknown'
    exact String.ofList_injective (Prod.mk.inj hkeys).1
  · intro hsame
    exact Option.some.inj (hknown.symm.trans (hsame ▸ hknown'))

end Makes

/-- The blocks that define procedures and are rendered. -/
def defining (w : Workspace) (style : Style) : Set Block :=
  {b | b.type ∈ definers ∧ b.disabled = false ∧
    ∃ s, (Renderer.standard w style).Reaches ((standard style).start w) b s}

section Makes

variable (h : (standard style).Makes w body t text) (hdialect : style.dialect ∈ Dialect.all)

include h hdialect

lemma Makes.exists_writesProcedure (hb : b ∈ defining w style) :
    ∃ identifier definition, (Renderer.standard w style).WritesProcedure ((standard style).start w)
      b identifier definition := by
  obtain ⟨htype, henabled, s, hreaches⟩ := hb
  obtain ⟨handler, outcome, v, hcarries⟩ := h.carries hdialect hreaches henabled
  obtain ⟨identifier, definition, hwrites, -⟩ :=
    hcarries.exists_writesProcedure (r := Renderer.standard w style) rfl hreaches henabled htype
  exact ⟨identifier, definition, hwrites⟩

/-- A program has as many procedures as there are names, up to letter case. -/
lemma Makes.length_procedures : (Program.procedures t.definitions).length =
    (Block.procedureName '' defining w style).ncard := by
  -- a name is counted by the key of its identifier
  let key (name : List Char) : String :=
    "%" ++ (t.names.known.lookup (String.ofList name, .procedure)).getD ""
  have hkey : ∀ {b identifier definition}, (Renderer.standard w style).WritesProcedure
      ((standard style).start w) b identifier definition →
      key b.procedureName = "%" ++ identifier := by
    intro b identifier definition hwrites
    show "%" ++ Option.getD _ "" = _
    rw [h.known_procedure hdialect hwrites]
    rfl
  have hinj : Set.InjOn key (Block.procedureName '' defining w style) := by
    rintro _ ⟨b, hb, rfl⟩ _ ⟨b', hb', rfl⟩ hsame
    obtain ⟨identifier, definition, hwrites⟩ := h.exists_writesProcedure hdialect hb
    obtain ⟨identifier', definition', hwrites'⟩ := h.exists_writesProcedure hdialect hb'
    rw [hkey hwrites, hkey hwrites', String.append_right_inj] at hsame
    exact (h.identifier_eq_iff hdialect hwrites hwrites').mp hsame
  have hkeys := (h.routinesWritten hdialect).keys
  have hnodup : ((Program.procedures t.definitions).map Prod.fst).Nodup :=
    hkeys.sublist (List.filter_sublist.map Prod.fst)
  have himage : key '' (Block.procedureName '' defining w style) =
      {k | k ∈ (Program.procedures t.definitions).map Prod.fst} := by
    refine Set.Subset.antisymm ?_ ?_
    · rintro _ ⟨_, ⟨b, hb, rfl⟩, rfl⟩
      obtain ⟨identifier, definition, hwrites⟩ := h.exists_writesProcedure hdialect hb
      obtain ⟨present, hget, -⟩ := h.exists_procedure hdialect hwrites
      rw [hkey hwrites]
      refine List.mem_map_of_mem (f := Prod.fst) (List.mem_filter.mpr
        ⟨Handler.mem_of_lookup hget, ?_⟩)
      exact decide_eq_true (head?_procedureKey identifier)
    · rintro k hk
      obtain ⟨⟨_, definition⟩, he, rfl⟩ := List.mem_map.mp hk
      obtain ⟨hmem, hhead⟩ := List.mem_filter.mp he
      have hget := Assoc.lookup_of_mem hkeys hmem
      obtain ⟨b, identifier, heq, hwrites⟩ :=
        h.provenance hdialect (of_decide_eq_true hhead) hget
      obtain ⟨htype, s, name, hreaches, henabled, -⟩ := id hwrites
      exact ⟨_, ⟨b, ⟨htype, henabled, s, hreaches⟩, rfl⟩, (hkey hwrites).trans heq.symm⟩
  rw [← hinj.ncard_image, himage, ← List.length_map (f := Prod.fst),
    ← List.toFinset_card_of_nodup hnodup, ← Set.ncard_coe_finset, List.coe_toFinset]

end Makes

/-- A procedure `f` that prints something, a procedure `F` that does nothing, and a procedure `g`. -/
def proceduresSample : Workspace :=
  Workspace.edited []
    [.add ⟨"text", [("TEXT", .text "a")], [], none, .null, false, []⟩,
      .add ⟨"text_print", [], [⟨"TEXT", .value, some 1⟩], none, .null, false, []⟩,
      .add ⟨"procedures_defnoreturn", [("NAME", .text "f")], [⟨"STACK", .statement, some 2⟩], none,
        .null, false, []⟩,
      .add ⟨"procedures_defnoreturn", [("NAME", .text "F")], [], none, .null, false, []⟩,
      .add ⟨"procedures_defreturn", [("NAME", .text "g")], [], none, .null, false, []⟩]

end Generator

end Blockscribe
