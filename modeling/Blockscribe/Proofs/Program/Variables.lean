/-
The program's variables have the same identifiers everywhere.

* `Run.naming_eq_of_folded`: a name that agrees with a known one up to letter case has its
  identifier.
* `Renderer.naming_of_run`: what a plan is told about a variable is what every later state says.
* `Renderer.Uses`, `Defines`: what a block that names a variable is rendered to, and a procedure
  with its parameters and the variables that it shares with the rest of the program.
* `Generator.variables_agree`: the declaration, the entry point, every procedure and every block
  that names a variable agree on the identifiers of the program's variables, which depend on nothing
  else.
-/
import Blockscribe.Proofs.Program.Course
import Blockscribe.Proofs.Run.Definitions

namespace Blockscribe

open Handler.Procedures (folded)

/-! ### Names up to letter case -/

lemma keyOf_eq_iff {name name' : String} {kind : NameKind} :
    NameTable.keyOf name kind = NameTable.keyOf name' kind ↔ folded name = folded name' := by
  rw [NameTable.keyOf, NameTable.keyOf, Prod.mk.injEq, and_iff_left rfl, ← String.toList_inj,
    String.toList_ofList, String.toList_ofList]
  rfl

namespace Run

variable {s t : Run} {reserved : List String} {name name' id : String}

/-- A name that agrees with a known one up to letter case has its identifier. -/
lemma naming_eq_of_folded (h : s.names.known.lookup (NameTable.keyOf name .variable) = some id)
    (hfolded : folded name' = folded name) : s.naming name' = id := by
  rw [← keyOf_eq_iff.mpr hfolded] at h
  rw [naming, NameTable.named_of_lookup h]

/-- Known names have the same identifier only if they agree up to letter case. -/
lemma NamesFrom.folded_eq {id : String} (hs : s.NamesFrom reserved)
    (h : s.names.known.lookup (NameTable.keyOf name .variable) = some id)
    (h' : s.names.known.lookup (NameTable.keyOf name' .variable) = some id) :
    folded name = folded name' := by
  obtain ⟨requests, hnames⟩ := hs
  rw [hnames] at h h'
  exact keyOf_eq_iff.mp ((NameTable.sound_history reserved requests).injective _ _ _ h h')

/-- After its identifier has been asked for, a name is known by it. -/
lemma known_of_named (h : (s.named name .variable).2.Grows reserved t) :
    t.names.known.lookup (NameTable.keyOf name .variable) = some (t.naming name) := by
  rw [naming_named h]
  refine h.known _ _ ?_
  rw [names_named]
  exact NameTable.lookup_named s.names name .variable

end Run

/-! ### Plans that ask for variables -/

namespace Renderer

variable {r : Renderer} {b : Block} {reserved : List String} {s t u v : Run} {α β : Type}

/-- What a plan is told about a variable is what every later state says. -/
lemma naming_of_run {name id : String}
    (h : ((Plan.variableNamed name).run r.style.indent (r.services r.render b)).run s = .ok id u)
    (hu : u.Grows reserved t) : id = t.naming name ∧
      t.names.known.lookup (NameTable.keyOf name .variable) = some (t.naming name) := by
  obtain ⟨rfl, rfl⟩ := EStateM.Result.ok.inj h
  exact ⟨(Run.naming_named hu).symm, Run.known_of_named hu⟩

lemma naming_of_run_mapM {names ids : List String} (hs : s.NamesFrom reserved)
    (h : ((names.mapM Plan.variableNamed).run r.style.indent (r.services r.render b)).run s =
      .ok ids u) (hu : u.Grows reserved t) : ids = names.map t.naming ∧
      ∀ name ∈ names, t.names.known.lookup (NameTable.keyOf name .variable) =
        some (t.naming name) := by
  induction names generalizing s ids with
  | nil =>
      obtain ⟨rfl, -⟩ := EStateM.Result.ok.inj h
      exact ⟨rfl, nofun⟩
  | cons name rest ih =>
      rw [List.mapM_cons] at h
      obtain ⟨id, s₁, hfirst, hs₁, hlater, hrest⟩ := exists_grows_of_run_plan_bind hs h
      obtain ⟨more, s₂, hmore, -, -, hall⟩ := exists_grows_of_run_plan_bind hs₁.namesFrom hrest
      obtain ⟨rfl, rfl⟩ := EStateM.Result.ok.inj hall
      obtain ⟨rfl, hknown⟩ := naming_of_run hfirst (hlater.trans hu)
      obtain ⟨rfl, hothers⟩ := ih hs₁.namesFrom hmore
      exact ⟨rfl, List.forall_mem_cons.mpr ⟨hknown, hothers⟩⟩

/-- A name that a plan goes on with stands in the field. -/
lemma field_of_run_nameField {face : Face} {field operation name : String}
    (h : ((Handler.Texts.nameField face field operation).run r.style.indent
      (r.services r.render b)).run s = .ok name u) : face.field field = .text name ∧ u = s := by
  rw [Handler.Texts.nameField] at h
  split at h
  · rename_i key hkey
    split at h
    · cases h
    · obtain ⟨rfl, rfl⟩ := EStateM.Result.ok.inj h
      exact ⟨hkey, rfl⟩
  · cases h

/-! ### Blocks -/

/-- What a block that names a variable is rendered to, with the identifier of the variable. -/
def Uses (r : Renderer) (b : Block) (s : Run) (id : String) : Prop :=
  (b.type = "variables_get" → ∃ u, (r.outcome b).run s = .ok (.expr id .atomic) u) ∧
  (b.type = "variables_set" → ∃ value u,
    (r.outcome b).run s = .ok (.statement (id ++ " = " ++ value ++ "\n")) u) ∧
  (b.type = "text_append" → ∃ value u, (r.outcome b).run s =
    .ok (.statement (id ++ " = str(" ++ id ++ ") + str(" ++ value ++ ")\n")) u)

/-- A procedure that is written, with the identifiers of its parameters and of the program's
variables that it shares. -/
def Defines (r : Renderer) (b : Block) (s : Run) (arguments shared : List String) : Prop :=
  ∃ identifier branch result text u v,
    (r.surround r.render b ("def " ++ identifier ++ "(" ++ ", ".intercalate arguments ++ "):\n" ++
      Handler.Procedures.bindingLine r.site shared ++
      Handler.Procedures.tail r.site branch result)).run u = .ok text v ∧
    (r.outcome b).run s = .ok .nothing (v.define ("%" ++ identifier) text)

section Handlers

variable (hr : r.handlers = Handler.standard) (hs : s.NamesFrom reserved)

include hr hs

/-- A block that names a variable uses the identifier that every later state says. -/
lemma uses_of_run {outcome : Outcome} (houtcome : (r.outcome b).run s = .ok outcome v)
    (hv : v.Grows reserved t) {name : String} (hname : b.face.field "VAR" = .text name) :
    r.Uses b s (t.naming name) := by
  refine ⟨fun htype => ?_, fun htype => ?_, fun htype => ?_⟩
  · have hrun := houtcome
    rw [outcome_eq hr htype rfl] at hrun
    obtain ⟨field, s₁, hfield, -, -, h₁⟩ := exists_grows_of_run_plan_bind hs hrun
    obtain ⟨hsame, rfl⟩ := field_of_run_nameField hfield
    obtain rfl := Value.text.inj (hname.symm.trans hsame)
    obtain ⟨id, s₂, hid, -, hlater, h₂⟩ := exists_grows_of_run_plan_bind hs h₁
    obtain ⟨rfl, rfl⟩ := EStateM.Result.ok.inj h₂
    obtain ⟨rfl, -⟩ := naming_of_run hid (hlater.trans hv)
    exact ⟨_, houtcome⟩
  · have hrun := houtcome
    rw [outcome_eq hr htype rfl] at hrun
    obtain ⟨value, s₀, hvalue, hs₀, -, h₀⟩ := exists_grows_of_run_plan_bind hs hrun
    obtain ⟨field, s₁, hfield, hs₁, -, h₁⟩ := exists_grows_of_run_plan_bind hs₀.namesFrom h₀
    obtain ⟨hsame, rfl⟩ := field_of_run_nameField hfield
    obtain rfl := Value.text.inj (hname.symm.trans hsame)
    obtain ⟨id, s₂, hid, -, hlater, h₂⟩ := exists_grows_of_run_plan_bind hs₁.namesFrom h₁
    obtain ⟨rfl, rfl⟩ := EStateM.Result.ok.inj h₂
    obtain ⟨rfl, -⟩ := naming_of_run hid (hlater.trans hv)
    exact ⟨value, _, houtcome⟩
  · have hrun := houtcome
    rw [outcome_eq hr htype rfl] at hrun
    obtain ⟨field, s₁, hfield, -, -, h₁⟩ := exists_grows_of_run_plan_bind hs hrun
    obtain ⟨hsame, rfl⟩ := field_of_run_nameField hfield
    obtain rfl := Value.text.inj (hname.symm.trans hsame)
    obtain ⟨id, s₂, hid, hs₂, hlater, h₂⟩ := exists_grows_of_run_plan_bind hs h₁
    obtain ⟨value, s₃, hvalue, -, -, h₃⟩ := exists_grows_of_run_plan_bind hs₂.namesFrom h₂
    obtain ⟨rfl, rfl⟩ := EStateM.Result.ok.inj h₃
    obtain ⟨rfl, -⟩ := naming_of_run hid (hlater.trans hv)
    exact ⟨value, _, houtcome⟩

/-- A procedure that is written has the parameters of its block, and it shares the program's
variables that are no parameters. -/
lemma defines_of_run {outcome : Outcome} (htype : b.type ∈ Handler.Procedures.definers)
    (houtcome : (r.outcome b).run s = .ok outcome v) (hv : v.Grows reserved t) :
    ∃ names, (Handler.Procedures.parameters b.face).bind Handler.Procedures.asNames = .ok names ∧
      r.Defines b s (names.map t.naming)
        ((r.workspace.declared.filter fun v => !(names.map folded).contains (folded v)).map
          t.naming) ∧
      ∀ name ∈ names, t.names.known.lookup (NameTable.keyOf name .variable) =
        some (t.naming name) := by
  have hrun := houtcome
  rw [outcome_eq hr rfl (Handler.lookup_of_mem_definers htype)] at hrun
  obtain ⟨names, s₁, hnames, hs₁, -, h₁⟩ := exists_grows_of_run_plan_bind hs hrun
  obtain ⟨shared, s₂, hshared, hs₂, hlater₂, h₂⟩ := exists_grows_of_run_plan_bind hs₁.namesFrom h₁
  obtain ⟨name, s₃, -, hs₃, -, h₃⟩ := exists_grows_of_run_plan_bind hs₂.namesFrom h₂
  obtain ⟨identifier, s₄, -, hs₄, -, h₄⟩ := exists_grows_of_run_plan_bind hs₃.namesFrom h₃
  obtain ⟨branch, s₅, -, hs₅, -, h₅⟩ := exists_grows_of_run_plan_bind hs₄.namesFrom h₄
  obtain ⟨result, s₆, -, hs₆, -, h₆⟩ := exists_grows_of_run_plan_bind hs₅.namesFrom h₅
  obtain ⟨arguments, s₇, harguments, hs₇, hlater₇, h₇⟩ := exists_grows_of_run_plan_bind hs₆.namesFrom h₆
  obtain ⟨text, s₈, hsurround, hs₈, -, h₈⟩ := exists_grows_of_run_plan_bind hs₇.namesFrom h₇
  obtain ⟨_, s₉, hdefine, -, -, h₉⟩ := exists_grows_of_run_plan_bind hs₈.namesFrom h₈
  obtain ⟨-, rfl⟩ := EStateM.Result.ok.inj hdefine
  obtain ⟨rfl, rfl⟩ := EStateM.Result.ok.inj h₉
  rw [Plan.run_withSurroundings] at hsurround
  obtain ⟨rfl, -⟩ := naming_of_run_mapM hs₁.namesFrom hshared (hlater₂.trans hv)
  obtain ⟨rfl, hknown⟩ := naming_of_run_mapM hs₆.namesFrom harguments (hlater₇.trans hv)
  have hparameters : (Handler.Procedures.parameters b.face).bind Handler.Procedures.asNames =
      .ok names := by
    cases hvalues : (Handler.Procedures.parameters b.face).bind Handler.Procedures.asNames with
    | error fault =>
        rw [hvalues] at hnames
        exact nomatch hnames
    | ok values =>
        rw [hvalues] at hnames
        obtain ⟨rfl, -⟩ := EStateM.Result.ok.inj hnames
        rfl
  exact ⟨names, hparameters, ⟨identifier, branch, result, text, s₇, s₈, hsurround, houtcome⟩, hknown⟩

end Handlers

end Renderer

/-! ### Whole runs -/

namespace Run

variable {s t : Run} {names : List String} {indent text : String}

/-- No change writes over the declaration of the program's variables. -/
lemma Step.keeps_variables (h : Step (Question.Allowed names) indent s t)
    (hs : s.definitions.get? variablesKey = some text) :
    t.definitions.get? variablesKey = some text := by
  rcases h.get?_cases variablesKey with hsame | ⟨lines, hallowed, -⟩ | ⟨value, hallowed, -⟩
  · rw [hsame, hs]
  · exact absurd hallowed.1 (by decide)
  · have hmodules : ∀ entry ∈ Handler.moduleLines, entry.1 ≠ variablesKey := by decide
    exact absurd rfl (hmodules _ (hallowed.mem_moduleLines (by decide)))

end Run

/-- The identifiers of the program's variables that are no parameters, in order. -/
def Program.sharedIdentifiers (declared ids parameters : List String) : List String :=
  ((declared.zip ids).filter fun p => !(parameters.map folded).contains (folded p.1)).map Prod.snd

section Zip

variable {declared parameters : List String} {f : String → String} {v id : String}

lemma zip_map_self : declared.zip (declared.map f) = declared.map fun v => (v, f v) := by
  induction declared with
  | nil => rfl
  | cons v rest ih => rw [List.map_cons, List.zip_cons_cons, ih, List.map_cons]

lemma mem_zip_map (h : (v, id) ∈ declared.zip (declared.map f)) : v ∈ declared ∧ id = f v := by
  rw [zip_map_self] at h
  obtain ⟨v', hv', heq⟩ := List.mem_map.mp h
  obtain ⟨rfl, rfl⟩ := Prod.mk.inj heq
  exact ⟨hv', rfl⟩

lemma sharedIdentifiers_map : Program.sharedIdentifiers declared (declared.map f) parameters =
    (declared.filter fun v => !(parameters.map folded).contains (folded v)).map f := by
  rw [Program.sharedIdentifiers, zip_map_self, List.filter_map, List.map_map]
  rfl

end Zip

namespace Generator

variable {style : Style} {w : Workspace} {text body : String} {s t : Run} {b : Block}

/-- Nothing writes over the declaration of the program's variables. -/
lemma Makes.declaration (h : (standard style).Makes w body t text)
    (hpython : style.dialect = .python) :
    t.definitions.get? variablesKey = some ("\n".intercalate
      ((Run.variableIdentifiers style.dialect.reserved w.declared).map
        fun id => id ++ " = None")) := by
  have hdeclare : (standard style).style.dialect.declare = fun id => id ++ " = None" := by
    rw [show (standard style).style.dialect = Dialect.python from hpython]
    funext id
    show "" ++ id ++ " = None" = _
    rw [String.empty_append]
  refine (h.leads (hpython ▸ Dialect.python_mem_all)).keeps
    (fun _ _ hstep => hstep.keeps_variables) ?_
  rw [definitions_start, Definitions.get?_put, if_pos rfl, hdeclare]
  rfl

/-- An entry point with a body binds the program's variables, if there are any. -/
lemma Makes.text_eq_of_ne (h : (standard style).Makes w body t text)
    (hpython : style.dialect = .python) (hbody : body ≠ "")
    (hne : Run.variableIdentifiers style.dialect.reserved w.declared ≠ []) :
    text = Program.tidy (Program.preamble t.definitions ++ ("def main():\n" ++
      leadLines style.indent ("global " ++ ", ".intercalate
        (Run.variableIdentifiers style.dialect.reserved w.declared) ++ "\n" ++ body) ++
      "\n\nif __name__ == \"__main__\":\n  main()\n")) := by
  have hline : style.dialect.bindingLine
      (Run.variableIdentifiers style.dialect.reserved w.declared) = "global " ++
        ", ".intercalate (Run.variableIdentifiers style.dialect.reserved w.declared) ++ "\n" := by
    rw [hpython] at hne ⊢
    show (if List.isEmpty _ = true then "" else _) = _
    rw [if_neg (by simpa using hne)]
    show "global " ++ _ ++ "" ++ "\n" = _
    rw [String.append_empty]
  rw [h.text_eq]
  show Program.tidy (Program.preamble t.definitions ++ (style.dialect.entryOpen ++
    Program.entryBody style (Run.variableIdentifiers style.dialect.reserved w.declared) body ++
    style.dialect.entryClose)) = _
  rw [Program.entryBody, if_pos hbody, hline]
  rw [hpython]
  rfl

/-- A procedure that is rendered binds the variables that differ from its parameters, and none of
them is a parameter. -/
lemma Makes.defines (h : (standard style).Makes w body t text) (hdialect : style.dialect ∈ Dialect.all)
    (hreaches : (Renderer.standard w style).Reaches ((standard style).start w) b s)
    (henabled : b.disabled = false) (htype : b.type ∈ Handler.Procedures.definers) :
    ∃ parameters,
      (Handler.Procedures.parameters b.face).bind Handler.Procedures.asNames = .ok parameters ∧
      (Renderer.standard w style).Defines b s (parameters.map t.naming)
        (Program.sharedIdentifiers w.declared (w.declared.map t.naming) parameters) ∧
      (Program.sharedIdentifiers w.declared (w.declared.map t.naming) parameters).Disjoint
        (parameters.map t.naming) := by
  obtain ⟨handler, outcome, v, hcarries⟩ := h.carries hdialect hreaches henabled
  have hs := (hcarries.before.grows (namesFrom_start (standard style) w)).namesFrom
  obtain ⟨names, hnames, hdefines, harguments⟩ :=
    Renderer.defines_of_run (r := Renderer.standard w style) rfl hs htype hcarries.outcome
      (hcarries.after.grows (hcarries.between.grows hs).namesFrom)
  rw [← sharedIdentifiers_map] at hdefines
  refine ⟨names, hnames, hdefines, List.disjoint_left.mpr fun id hid hargument => ?_⟩
  rw [sharedIdentifiers_map] at hid
  obtain ⟨v, hv, rfl⟩ := List.mem_map.mp hid
  obtain ⟨name, hname, heq⟩ := List.mem_map.mp hargument
  obtain ⟨hdeclared, hother⟩ := List.mem_filter.mp hv
  have hknown := (variableIdentifiers_eq h.grows).2 v hdeclared
  have hfolded := h.grows.namesFrom.folded_eq hknown (heq ▸ harguments name hname)
  have hmem : folded v ∈ names.map folded := hfolded ▸ List.mem_map_of_mem hname
  simp [hmem] at hother

/-- A block that names a variable uses its identifier. -/
lemma Makes.uses (h : (standard style).Makes w body t text) (hdialect : style.dialect ∈ Dialect.all)
    (hreaches : (Renderer.standard w style).Reaches ((standard style).start w) b s)
    (henabled : b.disabled = false) {name : String} (hname : b.face.field "VAR" = .text name) :
    (Renderer.standard w style).Uses b s (t.naming name) := by
  obtain ⟨handler, outcome, v, hcarries⟩ := h.carries hdialect hreaches henabled
  have hs := (hcarries.before.grows (namesFrom_start (standard style) w)).namesFrom
  exact Renderer.uses_of_run (r := Renderer.standard w style) rfl hs hcarries.outcome
    (hcarries.after.grows (hcarries.between.grows hs).namesFrom) hname

/-- **The identifiers of the program's variables are the same everywhere.** In the `python` dialect,
with the standard handlers, the declared variables have identifiers that depend only on the list of
them and on the reserved words; two of them are equal exactly if the variables agree up to letter
case. The declaration of the program's variables lists them in order, and nothing writes over it; an
entry point with a body binds exactly these, if there are any. Every procedure that is rendered
binds, in order, those whose variables differ from all its parameters up to letter case, and none of
them is the identifier of a parameter. Every block that reads, sets or appends to a variable which
agrees with a declared one up to letter case uses its identifier. -/
theorem variables_agree (hpython : style.dialect = .python)
    (hgenerate : ((standard style).generate w).1 = .ok text) :
    ∃ body t ids, (standard style).Makes w body t text ∧
      ids = Run.variableIdentifiers style.dialect.reserved w.declared ∧
      ids.length = w.declared.length ∧
      (∀ v id v' id', (v, id) ∈ w.declared.zip ids → (v', id') ∈ w.declared.zip ids →
        (id = id' ↔ folded v = folded v')) ∧
      t.definitions.get? variablesKey =
        some ("\n".intercalate (ids.map fun id => id ++ " = None")) ∧
      (body ≠ "" → ids ≠ [] →
        text = Program.tidy (Program.preamble t.definitions ++ ("def main():\n" ++
          leadLines style.indent ("global " ++ ", ".intercalate ids ++ "\n" ++ body) ++
          "\n\nif __name__ == \"__main__\":\n  main()\n"))) ∧
      ∀ b s, (Renderer.standard w style).Reaches ((standard style).start w) b s →
        b.disabled = false →
        (b.type ∈ Handler.Procedures.definers → ∃ parameters,
          (Handler.Procedures.parameters b.face).bind Handler.Procedures.asNames =
            .ok parameters ∧
          (Renderer.standard w style).Defines b s (parameters.map t.naming)
            (Program.sharedIdentifiers w.declared ids parameters) ∧
          (Program.sharedIdentifiers w.declared ids parameters).Disjoint
            (parameters.map t.naming)) ∧
        ∀ v id name, (v, id) ∈ w.declared.zip ids → b.face.field "VAR" = .text name →
          folded name = folded v → (Renderer.standard w style).Uses b s id := by
  obtain ⟨body, t, hmakes⟩ := exists_makes hgenerate
  have hdialect : style.dialect ∈ Dialect.all := hpython ▸ Dialect.python_mem_all
  obtain ⟨hids, hknown⟩ := variableIdentifiers_eq hmakes.grows
  rw [show (standard style).style = style from rfl] at hids
  refine ⟨body, t, _, hmakes, rfl, ?_, ?_, hmakes.declaration hpython,
    fun hbody hne => hmakes.text_eq_of_ne hpython hbody hne, fun b s hreaches henabled => ?_⟩
  · rw [hids, List.length_map]
  · rw [hids]
    intro v id v' id' h h'
    obtain ⟨hv, rfl⟩ := mem_zip_map h
    obtain ⟨hv', rfl⟩ := mem_zip_map h'
    constructor
    · intro heq
      exact hmakes.grows.namesFrom.folded_eq (hknown v hv) (heq ▸ hknown v' hv')
    · intro hfolded
      exact Run.naming_eq_of_folded (hknown v' hv') hfolded
  · rw [hids]
    refine ⟨hmakes.defines hdialect hreaches henabled, fun v id name hv hname hfolded => ?_⟩
    obtain ⟨hdeclared, rfl⟩ := mem_zip_map hv
    rw [← Run.naming_eq_of_folded (hknown v hdeclared) hfolded]
    exact hmakes.uses hdialect hreaches henabled hname

/-- A procedure with a parameter that agrees with a variable up to letter case; its body appends to
another variable. The first variable is set outside of it. -/
def variablesSample : Workspace :=
  Workspace.edited ["A", "b"]
    [.add ⟨"text", [("TEXT", .text "x")], [], none, .null, false, []⟩,
      .add ⟨"text_append", [("VAR", .text "a")], [⟨"TEXT", .value, some 1⟩], none, .null, false,
        []⟩,
      .add ⟨"procedures_defnoreturn", [("NAME", .text "f")], [⟨"STACK", .statement, some 2⟩], none,
        .null, false, [("params", .list [.text "B"])]⟩,
      .add ⟨"variables_set", [("VAR", .text "B")], [⟨"VALUE", .value, none⟩], none, .null, false,
        []⟩]

theorem variables_agree_variablesSample :
    ∃ (body text : String) (t : Run), (standard .python).Makes variablesSample body t text ∧
      t.definitions.get? variablesKey = some "A = None\nb = None" ∧
      (∃ s, (Renderer.standard variablesSample .python).Reaches
          ((standard .python).start variablesSample) variablesSample.blocks[2] s ∧
        (Renderer.standard variablesSample .python).Defines variablesSample.blocks[2] s
          [t.naming "B"] ["A"]) ∧
      ∃ s, (Renderer.standard variablesSample .python).Reaches
          ((standard .python).start variablesSample) variablesSample.blocks[3] s ∧
        (Renderer.standard variablesSample .python).Uses variablesSample.blocks[3] s "b" := by
  obtain ⟨text, hgenerate⟩ := exists_generate (g := standard .python) (w := variablesSample)
    (by decide +kernel)
  have hids : Run.variableIdentifiers Dialect.python.reserved variablesSample.declared =
      ["A", "b"] := by decide +kernel
  obtain ⟨body, t, ids, hmakes, hall, -, -, hdeclaration, -, hblocks⟩ :=
    variables_agree (by rfl) hgenerate
  obtain rfl : ids = ["A", "b"] := hall.trans hids
  obtain ⟨s, hprocedure⟩ := Renderer.exists_reaches_of_mem (b := variablesSample.blocks[2])
    hmakes.run_body (Workspace.mem_topBlocks_iff.mpr ⟨List.getElem_mem _, by decide⟩)
  obtain ⟨u, hset⟩ := Renderer.exists_reaches_of_mem (b := variablesSample.blocks[3])
    hmakes.run_body (Workspace.mem_topBlocks_iff.mpr ⟨List.getElem_mem _, by decide⟩)
  obtain ⟨parameters, hparameters, hdefines, -⟩ := (hblocks _ _ hprocedure rfl).1 (by decide)
  obtain rfl : ["B"] = parameters := Except.ok.inj hparameters
  exact ⟨body, text, t, hmakes, hdeclaration, ⟨s, hprocedure, hdefines⟩, u, hset,
    (hblocks _ _ hset rfl).2 "b" "b" "B" (by decide) rfl (by decide)⟩

end Generator

end Blockscribe
