/-
The course of a run that makes a program.

* `Run.variableIdentifiers`: the identifiers that the program's variables get before anything else
  asks for one.
* `Generator.Makes`: the body that the top-level blocks are rendered to, the state after that, and
  the program around the body. The assembly asks for nothing new, so this state is also the last
  one.
* `exists_makes`: every text that is generated is made in this way.
* `variableIdentifiers_eq`: the program's variables have these identifiers in every state of a run.
-/
import Blockscribe.Proofs.Render.Reaches
import Blockscribe.Proofs.Render.Silent

namespace Blockscribe

/-- The identifiers of variables that are the first to ask for one. -/
def Run.variableIdentifiers (reserved declared : List String) : List String :=
  ((Run.closed reserved).namedAll declared).1

/-- Indexes from zero, and two spaces for a level. -/
def Style.python : Style := ⟨Dialect.python, false, "  ", .whole 60⟩

/-- Indexes from one, and two spaces for a level. -/
def Style.cplus : Style := ⟨Dialect.cplus, true, "  ", .whole 60⟩

lemma Dialect.python_mem_all : Dialect.python ∈ Dialect.all :=
  List.mem_cons_of_mem _ List.mem_cons_self

namespace Run

variable {reserved names : List String} {s t : Run}

/-- The identifiers of variables that are asked for one after the other are theirs from then on. -/
lemma namedAll_eq_map (hs : s.NamesFrom reserved) (h : (s.namedAll names).2.Grows reserved t) :
    (s.namedAll names).1 = names.map t.naming ∧
      ∀ name ∈ names, t.names.known.lookup (NameTable.keyOf name .variable) =
        some (t.naming name) := by
  induction names generalizing s with
  | nil => exact ⟨rfl, nofun⟩
  | cons name rest ih =>
      have hnamed := grows_named hs name .variable
      obtain ⟨hids, hknown⟩ := ih hnamed.namesFrom h
      have hfirst : (s.named name .variable).2.Grows reserved t :=
        (grows_namedAll rest hnamed.namesFrom).trans h
      refine ⟨congrArg₂ List.cons (naming_named hfirst).symm hids,
        List.forall_mem_cons.mpr ⟨?_, hknown⟩⟩
      rw [naming_named hfirst]
      refine hfirst.known _ _ ?_
      rw [names_named]
      exact NameTable.lookup_named s.names name .variable

/-- Known names are looked up, and nothing changes. -/
lemma named_of_lookup {name id : String} {kind : NameKind}
    (h : s.names.known.lookup (NameTable.keyOf name kind) = some id) :
    s.named name kind = (id, s) := by
  rw [named, NameTable.named_of_lookup h]
  exact congrArg (Prod.mk id) (if_pos rfl)

lemma namedAll_of_lookup (h : ∀ name ∈ names,
    s.names.known.lookup (NameTable.keyOf name .variable) = some (s.naming name)) :
    s.namedAll names = (names.map s.naming, s) := by
  induction names with
  | nil => rfl
  | cons name rest ih =>
      rw [List.forall_mem_cons] at h
      simp only [namedAll, named_of_lookup h.1, ih h.2, List.map_cons]

lemma definitions_namedAll (names : List String) (s : Run) :
    (s.namedAll names).2.definitions = s.definitions := by
  induction names generalizing s with
  | nil => rfl
  | cons name rest ih => exact (ih _).trans (definitions_named s name .variable)

end Run

namespace Generator

variable {g : Generator} {w : Workspace} {text body : String} {s t u : Run}

/-- The state in which nothing has been asked for. -/
def blank (g : Generator) (w : Workspace) : Run :=
  ((Run.closed g.style.dialect.reserved).note
    (.runStarted g.style.dialect.name w.topBlocks.length w.declared.length)).reset true

/-- A run starts with the declaration of the program's variables. -/
lemma start_eq (g : Generator) (w : Workspace) :
    g.start w = ((g.blank w).namedAll w.declared).2.define variablesKey
      ("\n".intercalate ((Run.variableIdentifiers g.style.dialect.reserved w.declared).map
        g.style.dialect.declare)) := by
  have hblank : (Run.closed g.style.dialect.reserved).Matches (g.blank w) := ⟨rfl, rfl⟩
  rw [Run.variableIdentifiers, (hblank.namedAll w.declared).1]
  rfl

/-- The declaration is the first definition. -/
lemma definitions_start (g : Generator) (w : Workspace) :
    (g.start w).definitions = Definitions.empty.put variablesKey
      ("\n".intercalate ((Run.variableIdentifiers g.style.dialect.reserved w.declared).map
        g.style.dialect.declare)) := by
  have hblank : ((g.blank w).namedAll w.declared).2.definitions = Definitions.empty :=
    Run.definitions_namedAll w.declared (g.blank w)
  rw [start_eq, Run.define, hblank]

/-- In every state of a run the program's variables are known by their first identifiers. -/
lemma variableIdentifiers_eq (h : (g.start w).Grows g.style.dialect.reserved s) :
    Run.variableIdentifiers g.style.dialect.reserved w.declared = w.declared.map s.naming ∧
      ∀ name ∈ w.declared, s.names.known.lookup (NameTable.keyOf name .variable) =
        some (s.naming name) := by
  have hblank : (Run.closed g.style.dialect.reserved).Matches (g.blank w) := ⟨rfl, rfl⟩
  have hfrom : (g.blank w).NamesFrom g.style.dialect.reserved := ⟨[], rfl⟩
  rw [Run.variableIdentifiers, (hblank.namedAll w.declared).1]
  refine Run.namedAll_eq_map hfrom (Run.Grows.trans ?_ h)
  rw [start_eq]
  exact Run.grows_define (Run.grows_namedAll _ hfrom).namesFrom _ _

/-- The identifiers of the program's variables are identifiers, and none is reserved. -/
lemma legal_variableIdentifiers (g : Generator) (w : Workspace) :
    ∀ id ∈ Run.variableIdentifiers g.style.dialect.reserved w.declared,
      isIdentifier id = true ∧ id ∉ g.style.dialect.reserved := by
  intro id hid
  rw [(variableIdentifiers_eq (namesFrom_start g w).grows).1] at hid
  obtain ⟨name, -, rfl⟩ := List.mem_map.mp hid
  exact (Run.legal_named (namesFrom_start g w) name .variable).symm

/-- A program is made of the definitions and the body that its blocks are rendered to. -/
structure Makes (g : Generator) (w : Workspace) (body : String) (t : Run) (text : String) :
    Prop where
  valid : w.validate = .ok ()
  run_body : (g.renderer w).renderTops.run (g.start w) = .ok body t
  run_program : (g.program w).run (g.start w) = .ok text t
  text_eq : text = Program.tidy (Program.preamble t.definitions ++ (g.style.dialect.entryOpen ++
    Program.entryBody g.style (Run.variableIdentifiers g.style.dialect.reserved w.declared) body ++
    g.style.dialect.entryClose))

/-- The last state of a run is the one after its blocks. -/
lemma Makes.after_eq (h : g.Makes w body t text) :
    (g.renderer w).renderTops.after (g.start w) = t := by
  rw [Running.after, h.run_body]

/-- From the start of a run to its end no name changes its identifier. -/
lemma Makes.grows (h : g.Makes w body t text) :
    (g.start w).Grows g.style.dialect.reserved t :=
  (Renderer.extends_renderTops _).grows_of_ok (namesFrom_start g w) h.run_body

/-- With the standard handlers every change of a run is one of theirs. -/
lemma Makes.leads {style : Style} (h : (standard style).Makes w body t text)
    (hdialect : style.dialect ∈ Dialect.all) :
    (Renderer.standard w style).Leads ((standard style).start w) t :=
  Renderer.advances_renderTops (r := Renderer.standard w style) rfl hdialect _ _ _ h.run_body

/-- The plan of an enabled block that is rendered has been carried out. -/
lemma Makes.carries {style : Style} (h : (standard style).Makes w body t text)
    (hdialect : style.dialect ∈ Dialect.all) {b : Block}
    (hreaches : (Renderer.standard w style).Reaches ((standard style).start w) b s)
    (henabled : b.disabled = false) :
    ∃ handler outcome v, (Renderer.standard w style).Carries ((standard style).start w) t b s
      handler outcome v :=
  hreaches.carries (r := Renderer.standard w style) h.valid rfl hdialect h.run_body henabled

/-- The entry point asks for nothing new. -/
lemma eq_of_run_entryPoint {entry : String} {style : Style} {declared : List String}
    (hknown : ∀ name ∈ declared, s.names.known.lookup (NameTable.keyOf name .variable) =
      some (s.naming name))
    (h : (Program.entryPoint style declared body).run s = .ok entry t) :
    t = s ∧ entry = style.dialect.entryOpen ++
      Program.entryBody style (declared.map s.naming) body ++ style.dialect.entryClose := by
  rw [Program.entryPoint] at h
  split at h
  · have hall : (Running.namedAll declared).run s =
        .ok (s.namedAll declared).1 (s.namedAll declared).2 := rfl
    rw [Run.namedAll_of_lookup hknown] at hall
    obtain ⟨ids, u, hids, hentry⟩ := Running.exists_of_run_bind h
    obtain ⟨rfl, rfl⟩ := EStateM.Result.ok.inj (hall.symm.trans hids)
    obtain ⟨rfl, rfl⟩ := EStateM.Result.ok.inj hentry
    exact ⟨rfl, rfl⟩
  · rename_i hempty
    obtain ⟨rfl, rfl⟩ := EStateM.Result.ok.inj h
    refine ⟨rfl, ?_⟩
    rw [Program.entryBody, if_neg hempty, Program.entryBody, if_neg hempty]

/-- Whether a text is generated, read off its computation. -/
lemma exists_generate (h : (g.generate w).1.toOption.isSome = true) :
    ∃ text, (g.generate w).1 = .ok text := by
  cases hresult : (g.generate w).1 with
  | error fault =>
      rw [hresult] at h
      exact nomatch h
  | ok text => exact ⟨text, rfl⟩

/-- A text that is generated has been made from a body. -/
theorem exists_makes (h : (g.generate w).1 = .ok text) : ∃ body t, g.Makes w body t text := by
  rw [generate] at h
  split at h
  · cases h
  · rename_i hvalid
    cases hrun : (g.program w).run (g.start w) with
    | error fault run =>
        rw [hrun] at h
        cases h
    | ok result t =>
        rw [hrun] at h
        obtain rfl := Except.ok.inj h
        obtain ⟨body, u, hbody, hfinish⟩ := Running.exists_of_run_bind hrun
        obtain ⟨hids, hknown⟩ := variableIdentifiers_eq
          ((Renderer.extends_renderTops _).grows_of_ok (namesFrom_start g w) hbody)
        obtain ⟨_, _, hget, hassembly⟩ := Running.exists_of_run_bind hfinish
        obtain ⟨rfl, rfl⟩ := EStateM.Result.ok.inj hget
        obtain ⟨entry, v, hentry, hlast⟩ := Running.exists_of_run_bind hassembly
        obtain ⟨rfl, rfl⟩ := EStateM.Result.ok.inj hlast
        obtain ⟨rfl, rfl⟩ := eq_of_run_entryPoint hknown hentry
        exact ⟨body, v, hvalid, hbody, hrun, by rw [hids]⟩

end Generator

end Blockscribe
