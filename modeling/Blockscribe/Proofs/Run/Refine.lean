/-
Computations that agree with others.

* `Run.Matches`: states with the same identifiers and definitions. What they logged may differ.
* `Running.Refines`: if the first computation gives a result, then so does the second from a
  matching state, and the results are related. It is kept when one computation follows another.
* `Plan.Alike`: plans that put the same questions, and go on alike after related answers.
* `Plan.Alike.refines`: one refines the other when they are carried out, if the services do.
* `Generator.refines_finish`, `Generator.generate_of_refines`: what is put around a body, and whole
  runs.
-/
import Blockscribe.Proofs.Plan.Faults
import Blockscribe.Proofs.Run.Names

namespace Blockscribe

variable {reserved : List String}

/-! ### Matching states -/

namespace Run

/-- The same identifiers and definitions. -/
structure Matches (s s' : Run) : Prop where
  names : s'.names = s.names
  definitions : s'.definitions = s.definitions

variable {s s' : Run}

lemma definitions_noteRenaming (s : Run) (kind : NameKind) (hint id : String) :
    (s.noteRenaming kind hint id).definitions = s.definitions := by
  rw [noteRenaming]
  split <;> rfl

lemma definitions_named (s : Run) (name : String) (kind : NameKind) :
    (s.named name kind).2.definitions = s.definitions := by
  simp only [Run.named]
  split
  · rfl
  · rw [definitions_noteRenaming]

lemma definitions_fresh (s : Run) (hint : String) (kind : NameKind) :
    (s.fresh hint kind).2.definitions = s.definitions := by
  simp only [Run.fresh]
  rw [definitions_noteRenaming]

lemma Matches.named (h : s.Matches s') (name : String) (kind : NameKind) :
    (s.named name kind).1 = (s'.named name kind).1 ∧
      (s.named name kind).2.Matches (s'.named name kind).2 := by
  refine ⟨?_, ?_, ?_⟩
  · simp only [Run.named, h.names]
  · rw [names_named, names_named, h.names]
  · rw [definitions_named, definitions_named, h.definitions]

lemma Matches.fresh (h : s.Matches s') (hint : String) (kind : NameKind) :
    (s.fresh hint kind).1 = (s'.fresh hint kind).1 ∧
      (s.fresh hint kind).2.Matches (s'.fresh hint kind).2 := by
  refine ⟨?_, ?_, ?_⟩
  · simp only [Run.fresh, h.names]
  · rw [names_fresh, names_fresh, h.names]
  · rw [definitions_fresh, definitions_fresh, h.definitions]

lemma Matches.namedAll (names : List String) : ∀ {s s' : Run}, s.Matches s' →
    (s.namedAll names).1 = (s'.namedAll names).1 ∧
      (s.namedAll names).2.Matches (s'.namedAll names).2 := by
  induction names with
  | nil => exact fun h => ⟨rfl, h⟩
  | cons name rest ih =>
      intro s s' h
      obtain ⟨hid, hnamed⟩ := h.named name .variable
      obtain ⟨hids, hall⟩ := ih hnamed
      refine ⟨?_, hall⟩
      simp only [Run.namedAll, hid, hids]

lemma Matches.define (h : s.Matches s') (key text : String) :
    (s.define key text).Matches (s'.define key text) :=
  ⟨h.names, congrArg (·.put key text) h.definitions⟩

lemma Matches.provide (h : s.Matches s') (indent key : String) (lines : List String) :
    (s.provide indent key lines).1 = (s'.provide indent key lines).1 ∧
      (s.provide indent key lines).2.Matches (s'.provide indent key lines).2 := by
  obtain ⟨names, definitions, isOpen, log⟩ := s
  obtain ⟨names', definitions', isOpen', log'⟩ := s'
  obtain ⟨rfl, rfl⟩ := h
  simp only [Run.provide]
  split
  · refine ⟨trivial, ?_, ?_⟩
    · rw [names_note, names_note, names_noteRenaming, names_noteRenaming]
    · show (noteRenaming _ _ _ _).definitions = (noteRenaming _ _ _ _).definitions
      rw [definitions_noteRenaming, definitions_noteRenaming]
  · exact ⟨trivial, rfl, rfl⟩

end Run

/-! ### Computations in a run -/

namespace Running

variable {α β γ δ : Type} {R : α → β → Prop} {S : γ → δ → Prop} {m : Running α} {m' : Running β}

/-- If the first computation gives a result, then so does the second from every matching state; the
results are related and the states match again. -/
def Refines (reserved : List String) (R : α → β → Prop) (m : Running α) (m' : Running β) : Prop :=
  ∀ s s' : Run, s.NamesFrom reserved → s.Matches s' → ∀ a t, m.run s = .ok a t →
    ∃ a' t', m'.run s' = .ok a' t' ∧ R a a' ∧ t.NamesFrom reserved ∧ t.Matches t'

lemma refines_pure {a : α} {a' : β} (h : R a a') :
    Refines reserved R (pure a) (pure a') := by
  intro s s' hs hmatches b t hrun
  obtain ⟨rfl, rfl⟩ := EStateM.Result.ok.inj hrun
  exact ⟨a', s', rfl, h, hs, hmatches⟩

/-- A computation that gives no result refines every other. -/
lemma refines_throw (fault : Fault) : Refines reserved R (throw fault) m' :=
  fun _ _ _ _ _ _ hrun => nomatch hrun

lemma Refines.bind {f : α → Running γ} {f' : β → Running δ} (hm : Refines reserved R m m')
    (hf : ∀ a a', R a a' → Refines reserved S (f a) (f' a')) :
    Refines reserved S (m >>= f) (m' >>= f') := by
  intro s s' hs hmatches b t hrun
  rw [EStateM.run_bind] at hrun
  cases hfirst : m.run s with
  | error fault s₁ =>
      rw [hfirst] at hrun
      exact nomatch hrun
  | ok a s₁ =>
      rw [hfirst] at hrun
      obtain ⟨a', s₁', hrun', hR, hs₁, hmatches₁⟩ := hm s s' hs hmatches a s₁ hfirst
      obtain ⟨b', t', hrest, hS, ht, hmatches'⟩ := hf a a' hR s₁ s₁' hs₁ hmatches₁ b t hrun
      refine ⟨b', t', ?_, hS, ht, hmatches'⟩
      rw [EStateM.run_bind, hrun']
      exact hrest

lemma Refines.mono {T : α → β → Prop} (h : Refines reserved R m m') (hRT : ∀ a a', R a a' → T a a') :
    Refines reserved T m m' := by
  intro s s' hs hmatches a t hrun
  obtain ⟨a', t', hrun', hR, ht, hmatches'⟩ := h s s' hs hmatches a t hrun
  exact ⟨a', t', hrun', hRT a a' hR, ht, hmatches'⟩

lemma refines_ofExcept {e : Except Fault α} {e' : Except Fault β}
    (h : ∀ a, e = .ok a → ∃ a', e' = .ok a' ∧ R a a') :
    Refines reserved R (ofExcept e) (ofExcept e') := by
  cases e with
  | error fault => exact refines_throw fault
  | ok a =>
      obtain ⟨a', rfl, hR⟩ := h a rfl
      exact refines_pure hR

/-- A change of the state that depends on identifiers and definitions only. -/
lemma refines_change {f : Run → α × Run} {f' : Run → β × Run}
    (h : ∀ s s' : Run, s.NamesFrom reserved → s.Matches s' →
      R (f s).1 (f' s').1 ∧ (f s).2.NamesFrom reserved ∧ (f s).2.Matches (f' s').2) :
    Refines reserved R (change f) (change f') := by
  intro s s' hs hmatches a t hrun
  obtain ⟨rfl, rfl⟩ := EStateM.Result.ok.inj hrun
  exact ⟨(f' s').1, (f' s').2, rfl, h s s' hs hmatches⟩

/-- The identifier of a name is the same, and is an identifier. -/
lemma refines_named (name : String) (kind : NameKind) :
    Refines reserved (fun id id' => id = id' ∧ isIdentifier id = true) (named name kind)
      (named name kind) := by
  refine refines_change fun s s' hs hmatches => ?_
  obtain ⟨hid, hnext⟩ := hmatches.named name kind
  exact ⟨⟨hid, (Run.legal_named hs name kind).2⟩, (Run.grows_named hs name kind).namesFrom, hnext⟩

lemma refines_fresh (hint : String) (kind : NameKind) :
    Refines reserved Eq (fresh hint kind) (fresh hint kind) := by
  refine refines_change fun s s' hs hmatches => ?_
  obtain ⟨hid, hnext⟩ := hmatches.fresh hint kind
  exact ⟨hid, (Run.grows_fresh hs hint kind).namesFrom, hnext⟩

lemma refines_provide (indent key : String) (lines : List String) :
    Refines reserved Eq (change fun s => s.provide indent key lines)
      (change fun s => s.provide indent key lines) := by
  refine refines_change fun s s' hs hmatches => ?_
  obtain ⟨hid, hnext⟩ := hmatches.provide indent key lines
  exact ⟨hid, (Run.grows_provide hs indent key lines).namesFrom, hnext⟩

lemma refines_define (key text : String) :
    Refines reserved (fun _ _ => True) (define key text) (define key text) :=
  refines_change fun _ _ hs hmatches =>
    ⟨trivial, (Run.grows_define hs key text).namesFrom, hmatches.define key text⟩

lemma refines_namedAll (names : List String) :
    Refines reserved Eq (namedAll names) (namedAll names) := by
  refine refines_change fun s s' hs hmatches => ?_
  obtain ⟨hids, hnext⟩ := hmatches.namedAll names
  exact ⟨hids, (Run.grows_namedAll names hs).namesFrom, hnext⟩

lemma refines_definitions :
    Refines reserved (fun s s' : Run => s.definitions = s'.definitions) get get := by
  intro s s' hs hmatches a t hrun
  obtain ⟨rfl, rfl⟩ := EStateM.Result.ok.inj hrun
  exact ⟨s', s', rfl, hmatches.definitions.symm, hs, hmatches⟩

end Running

/-! ### Plans -/

namespace Plan

variable {α β γ δ : Type} {S U : String → String → Prop}

/-- Plans that put the same questions and go on alike: after the same expression, after related
statements, after the same identifier, and after related surroundings. -/
inductive Alike (S U : String → String → Prop) (R : α → β → Prop) : Plan α → Plan β → Prop
  | done {a : α} {a' : β} : R a a' → Alike S U R (done a) (done a')
  | fail {fault : Fault} {p' : Plan β} : Alike S U R (fail fault) p'
  | expression {socket : String} {required : Grade} {default : String} {next : String → Plan α}
      {next' : String → Plan β} : (∀ code, Alike S U R (next code) (next' code)) →
      Alike S U R (expression socket required default next)
        (expression socket required default next')
  | statements {socket : String} {next : String → Plan α} {next' : String → Plan β} :
      (∀ code code', S code code' → Alike S U R (next code) (next' code')) →
      Alike S U R (statements socket next) (statements socket next')
  | identifier {name : String} {kind : NameKind} {next : String → Plan α}
      {next' : String → Plan β} :
      (∀ id, isIdentifier id = true → Alike S U R (next id) (next' id)) →
      Alike S U R (identifier name kind next) (identifier name kind next')
  | fresh {hint : String} {kind : NameKind} {next : String → Plan α} {next' : String → Plan β} :
      (∀ id, Alike S U R (next id) (next' id)) →
      Alike S U R (fresh hint kind next) (fresh hint kind next')
  | helper {key : String} {lines : List String} {next : String → Plan α}
      {next' : String → Plan β} : (∀ id, Alike S U R (next id) (next' id)) →
      Alike S U R (helper key lines next) (helper key lines next')
  | define {key text : String} {next : Plan α} {next' : Plan β} : Alike S U R next next' →
      Alike S U R (define key text next) (define key text next')
  | surround {code : String} {next : String → Plan α} {next' : String → Plan β} :
      (∀ full full', U full full' → Alike S U R (next full) (next' full')) →
      Alike S U R (surround code next) (surround code next')

/-- With the same answers every plan goes on like itself. -/
lemma alike_refl (p : Plan α) : Alike Eq Eq Eq p p := by
  induction p with
  | done a => exact .done rfl
  | fail fault => exact .fail
  | expression socket required default next ih => exact .expression ih
  | statements socket next ih => exact .statements fun code _ h => h ▸ ih code
  | identifier name kind next ih => exact .identifier fun id _ => ih id
  | fresh hint kind next ih => exact .fresh ih
  | helper key lines next ih => exact .helper ih
  | define key text next ih => exact .define ih
  | surround code next ih => exact .surround fun full _ h => h ▸ ih full

lemma Alike.bind {R : α → β → Prop} {T : γ → δ → Prop} {p : Plan α} {p' : Plan β}
    {f : α → Plan γ} {f' : β → Plan δ} (h : Alike S U R p p')
    (hf : ∀ a a', R a a' → Alike S U T (f a) (f' a')) : Alike S U T (p >>= f) (p' >>= f') := by
  induction h with
  | done hR => exact hf _ _ hR
  | fail => exact .fail
  | expression _ ih => exact .expression ih
  | statements _ ih => exact .statements ih
  | identifier _ ih => exact .identifier ih
  | fresh _ ih => exact .fresh ih
  | helper _ ih => exact .helper ih
  | define _ ih => exact .define ih
  | surround _ ih => exact .surround ih

lemma alike_mapM {ι : Type} {R : α → β → Prop} {f : ι → Plan α} {f' : ι → Plan β} {l : List ι}
    (h : ∀ i ∈ l, Alike S U R (f i) (f' i)) :
    Alike S U (List.Forall₂ R) (l.mapM f) (l.mapM f') := by
  induction l with
  | nil => exact .done .nil
  | cons i rest ih =>
      rw [List.mapM_cons, List.mapM_cons]
      refine (h i List.mem_cons_self).bind fun a a' hR => ?_
      refine (ih fun j hj => h j (List.mem_cons_of_mem i hj)).bind fun as as' hRs => ?_
      exact .done (.cons hR hRs)

/-- Plans that are alike refine each other when they are carried out, if the services do. -/
lemma Alike.refines {R : α → β → Prop} {p : Plan α} {p' : Plan β} (h : Alike S U R p p')
    {indent : String} {services services' : Services}
    (hexpression : ∀ socket required default, Running.Refines reserved Eq
      (services.expression socket required default)
      (services'.expression socket required default))
    (hstatements : ∀ socket, Running.Refines reserved S (services.statements socket)
      (services'.statements socket))
    (hsurround : ∀ code, Running.Refines reserved U (services.surround code)
      (services'.surround code)) :
    Running.Refines reserved R (p.run indent services) (p'.run indent services') := by
  induction h with
  | done hR => exact Running.refines_pure hR
  | fail => exact Running.refines_throw _
  | expression _ ih =>
      exact (hexpression _ _ _).bind fun code code' hcode => hcode ▸ ih code
  | statements _ ih => exact (hstatements _).bind fun code code' hcode => ih code code' hcode
  | identifier _ ih =>
      refine (Running.refines_named _ _).bind fun id id' hid => ?_
      obtain ⟨rfl, hidentifier⟩ := hid
      exact ih id hidentifier
  | fresh _ ih => exact (Running.refines_fresh _ _).bind fun id id' hid => hid ▸ ih id
  | helper _ ih => exact (Running.refines_provide _ _ _).bind fun id id' hid => hid ▸ ih id
  | define _ ih => exact (Running.refines_define _ _).bind fun _ _ _ => ih
  | surround _ ih => exact (hsurround _).bind fun full full' hfull => ih full full' hfull

end Plan

/-! ### Whole runs -/

namespace Generator

/-- The same definitions and identifiers are put around two bodies, if both or none are empty. -/
lemma refines_finish {style : Style} {declared : List String} {body body' : String}
    {T : String → String → Prop} (hempty : body' = "" ↔ body = "")
    (h : ∀ definitions identifiers,
      T (Program.tidy (definitions ++ (style.dialect.entryOpen ++
          Program.entryBody style identifiers body ++ style.dialect.entryClose)))
        (Program.tidy (definitions ++ (style.dialect.entryOpen ++
          Program.entryBody style identifiers body' ++ style.dialect.entryClose)))) :
    Running.Refines reserved T (Program.finish style declared body)
      (Program.finish style declared body') := by
  have hentry : Running.Refines reserved (fun entry entry' => ∃ identifiers,
      entry = style.dialect.entryOpen ++ Program.entryBody style identifiers body ++
        style.dialect.entryClose ∧
      entry' = style.dialect.entryOpen ++ Program.entryBody style identifiers body' ++
        style.dialect.entryClose)
      (Program.entryPoint style declared body) (Program.entryPoint style declared body') := by
    rw [Program.entryPoint, Program.entryPoint]
    by_cases hbody : body = ""
    · rw [if_neg (not_not_intro hbody), if_neg (not_not_intro (hempty.mpr hbody))]
      exact Running.refines_pure ⟨[], rfl, rfl⟩
    · rw [if_pos hbody, if_pos fun hbody' => hbody (hempty.mp hbody')]
      refine (Running.refines_namedAll declared).bind fun ids ids' hids => ?_
      exact Running.refines_pure ⟨ids, rfl, hids ▸ rfl⟩
  refine Running.refines_definitions.bind fun s s' hdefinitions => ?_
  refine hentry.bind fun entry entry' hboth => ?_
  obtain ⟨identifiers, rfl, rfl⟩ := hboth
  rw [hdefinitions]
  exact Running.refines_pure (h _ identifiers)

/-- Runs for the same variables start in matching states. -/
lemma matches_start (g : Generator) {w w' : Workspace} (h : w'.declared = w.declared) :
    (g.start w).Matches (g.start w') := by
  simp only [start, Run.opened, h]
  have hreset : (((Run.closed g.style.dialect.reserved).note (.runStarted g.style.dialect.name
      w.topBlocks.length w.declared.length)).reset true).Matches
      (((Run.closed g.style.dialect.reserved).note (.runStarted g.style.dialect.name
        w'.topBlocks.length w.declared.length)).reset true) := ⟨rfl, rfl⟩
  obtain ⟨hids, hmatches⟩ := hreset.namedAll w.declared
  rw [hids]
  exact hmatches.define _ _

/-- A text that is generated for one workspace is related to one for another, if the programs
refine each other. -/
lemma generate_of_refines {g : Generator} {w w' : Workspace} {R : String → String → Prop}
    (hvalid : w'.validate = .ok ()) (hdeclared : w'.declared = w.declared)
    (hprogram : Running.Refines g.style.dialect.reserved R (g.program w) (g.program w'))
    {text : String} (htext : (g.generate w).1 = .ok text) :
    ∃ text', (g.generate w').1 = .ok text' ∧ R text text' := by
  rw [generate] at htext
  split at htext
  · cases htext
  · cases hrun : (g.program w).run (g.start w) with
    | error fault run =>
        rw [hrun] at htext
        cases htext
    | ok result run =>
        rw [hrun] at htext
        obtain rfl := Except.ok.inj htext
        obtain ⟨text', run', hrun', hR, -, -⟩ := hprogram (g.start w) (g.start w')
          (namesFrom_start g w) (matches_start g hdeclared) result run hrun
        refine ⟨text', ?_, hR⟩
        rw [generate, hvalid]
        simp only [hrun']

end Generator

end Blockscribe
