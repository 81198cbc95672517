/-
The identifiers of a run.

* `Run.NamesFrom`: the identifiers come from a sequence of requests. They do when a run starts.
* `Run.Grows`: a later state, in which known names are still known; `naming` is the identifier of a
  variable in a state.
* `Running.Extends`: a computation that leads to later states only, also where it ends with a fault.
  It is kept when one computation follows another.
* `Plan.extends_run`: carrying out a plan asks for identifiers and forgets none.
* `Renderer.extends_render`: so does rendering, whatever the workspace and the handlers are.
* `Generator.grows_program`: from the start of a run to its end no name changes its identifier.
-/
import Blockscribe.Generate
import Blockscribe.Proofs.Name.History

namespace Blockscribe

variable {reserved : List String}

/-! ### The states of a run -/

namespace Run

/-- The identifiers come from a sequence of requests. -/
def NamesFrom (s : Run) (reserved : List String) : Prop :=
  ∃ requests, s.names = (NameTable.history reserved requests).table

/-- The identifier of a variable. -/
def naming (s : Run) (name : String) : String := (s.names.named name .variable).1

/-- A later state, in which known names are still known. -/
structure Grows (reserved : List String) (s s' : Run) : Prop where
  namesFrom : s'.NamesFrom reserved
  known : ∀ key id, s.names.known.lookup key = some id → s'.names.known.lookup key = some id

variable {s s' s'' : Run}

lemma NamesFrom.grows (hs : s.NamesFrom reserved) : s.Grows reserved s := ⟨hs, fun _ _ h => h⟩

lemma Grows.trans (h : s.Grows reserved s') (h' : s'.Grows reserved s'') : s.Grows reserved s'' :=
  ⟨h'.namesFrom, fun key id hid => h'.known key id (h.known key id hid)⟩

/-- A change that leaves the identifiers alone. -/
lemma NamesFrom.grows_of_names_eq (hs : s.NamesFrom reserved) (h : s'.names = s.names) :
    s.Grows reserved s' := by
  obtain ⟨requests, hnames⟩ := hs
  refine ⟨⟨requests, h.trans hnames⟩, fun key id hid => ?_⟩
  rw [h]
  exact hid

/-- A change by which one wish is granted. -/
lemma NamesFrom.grows_of_answer (hs : s.NamesFrom reserved) (wish : NameTable.Wish)
    (h : s'.names = (s.names.answer wish).2) : s.Grows reserved s' := by
  obtain ⟨requests, hnames⟩ := hs
  refine ⟨⟨requests ++ [.want wish], ?_⟩, fun key id hid => ?_⟩
  · rw [h, NameTable.table_want, hnames]
  · rw [h]
    exact NameTable.lookup_answer_of_lookup hid wish

lemma names_noteRenaming (s : Run) (kind : NameKind) (hint id : String) :
    (s.noteRenaming kind hint id).names = s.names := by
  rw [noteRenaming]
  split <;> rfl

lemma names_note (s : Run) (e : Event) : (s.note e).names = s.names := rfl

lemma names_fresh (s : Run) (hint : String) (kind : NameKind) :
    (s.fresh hint kind).2.names = (s.names.fresh hint).2 := by
  simp only [Run.fresh]
  rw [names_noteRenaming]

/-- What the table says about a name is what the run says. -/
lemma names_named (s : Run) (name : String) (kind : NameKind) :
    (s.named name kind).2.names = (s.names.named name kind).2 := by
  simp only [Run.named]
  split
  · rfl
  · rw [names_noteRenaming]

lemma grows_named (hs : s.NamesFrom reserved) (name : String) (kind : NameKind) :
    s.Grows reserved (s.named name kind).2 :=
  hs.grows_of_answer (.named name kind) (names_named s name kind)

lemma grows_fresh (hs : s.NamesFrom reserved) (hint : String) (kind : NameKind) :
    s.Grows reserved (s.fresh hint kind).2 :=
  hs.grows_of_answer (.fresh hint kind) (names_fresh s hint kind)

lemma grows_namedAll (names : List String) :
    ∀ {s : Run}, s.NamesFrom reserved → s.Grows reserved (s.namedAll names).2 := by
  induction names with
  | nil => exact fun hs => hs.grows
  | cons name rest ih =>
      intro s hs
      have hnamed := grows_named hs name .variable
      exact hnamed.trans (ih hnamed.namesFrom)

/-- A helper routine gets an identifier of its own when it is asked for the first time. -/
lemma grows_provide (hs : s.NamesFrom reserved) (indent key : String) (lines : List String) :
    s.Grows reserved (s.provide indent key lines).2 := by
  cases hhelper : s.definitions.helper? key with
  | some id =>
      refine hs.grows_of_names_eq ?_
      rw [provide, Definitions.provide_eq_of_known hhelper]
      rfl
  | none =>
      refine hs.grows_of_answer (.fresh key .procedure) ?_
      simp only [provide, Definitions.provide_eq_of_new hhelper, if_true]
      rw [names_note, names_noteRenaming]
      rfl

lemma grows_define (hs : s.NamesFrom reserved) (key text : String) :
    s.Grows reserved (s.define key text) := hs.grows_of_names_eq rfl

/-- A name keeps its identifier. -/
lemma naming_named {name : String} (h : (s.named name .variable).2.Grows reserved s') :
    s'.naming name = (s.named name .variable).1 := by
  have hknown := NameTable.lookup_named s.names name .variable
  rw [← names_named] at hknown
  rw [naming, NameTable.named_of_lookup (h.known _ _ hknown)]
  rfl

/-- A name gets an identifier that is not reserved. -/
lemma legal_named (hs : s.NamesFrom reserved) (name : String) (kind : NameKind) :
    (s.named name kind).1 ∉ reserved ∧ isIdentifier (s.named name kind).1 = true := by
  obtain ⟨requests, hnames⟩ := hs
  have hlegal := NameTable.legal_named reserved requests name kind
  rw [← hnames] at hlegal
  exact hlegal

end Run

/-! ### Computations in a run -/

namespace Running

variable {α β : Type} {m : Running α}

/-- A computation that gives a result after another one starts where that one ended. -/
lemma exists_of_run_bind {f : α → Running β} {s t : Run} {b : β}
    (h : (m >>= f).run s = .ok b t) : ∃ a s', m.run s = .ok a s' ∧ (f a).run s' = .ok b t := by
  rw [EStateM.run_bind] at h
  cases hm : m.run s with
  | error fault s' =>
      rw [hm] at h
      exact nomatch h
  | ok a s' =>
      rw [hm] at h
      exact ⟨a, s', rfl, h⟩

lemma eq_ok_of_run_ofExcept {e : Except Fault α} {s t : Run} {a : α}
    (h : (ofExcept e).run s = .ok a t) : e = .ok a ∧ t = s := by
  cases e with
  | error fault => exact nomatch h
  | ok b =>
      obtain ⟨rfl, rfl⟩ := EStateM.Result.ok.inj h
      exact ⟨rfl, rfl⟩

/-- The state in which a computation ends, with a result or with a fault. -/
def after (m : Running α) (s : Run) : Run :=
  match m.run s with
  | .ok _ s' => s'
  | .error _ s' => s'

/-- The computation leads to later states. -/
def Extends (reserved : List String) (m : Running α) : Prop :=
  ∀ s : Run, s.NamesFrom reserved → s.Grows reserved (m.after s)

/-- The state that comes with a result is a later one. -/
lemma Extends.grows_of_ok {s s' : Run} {a : α} (hm : Extends reserved m)
    (hs : s.NamesFrom reserved) (h : m.run s = .ok a s') : s.Grows reserved s' := by
  have hgrows := hm s hs
  rw [after, h] at hgrows
  exact hgrows

lemma extends_pure (a : α) : Extends reserved (pure a : Running α) := fun _ hs => hs.grows

lemma extends_throw (fault : Fault) : Extends reserved (throw fault : Running α) :=
  fun _ hs => hs.grows

lemma extends_get : Extends reserved (get : Running Run) := fun _ hs => hs.grows

lemma extends_ofExcept (e : Except Fault α) : Extends reserved (ofExcept e) := by
  cases e with
  | error fault => exact extends_throw fault
  | ok a => exact extends_pure a

lemma Extends.bind {f : α → Running β} (hm : Extends reserved m)
    (hf : ∀ a, Extends reserved (f a)) : Extends reserved (m >>= f) := by
  intro s hs
  have hgrows := hm s hs
  rw [after] at hgrows ⊢
  rw [EStateM.run_bind]
  cases hrun : m.run s with
  | error fault s' =>
      rw [hrun] at hgrows
      exact hgrows
  | ok a s' =>
      rw [hrun] at hgrows
      exact hgrows.trans (hf a s' hgrows.namesFrom)

lemma extends_mapM {f : α → Running β} (hf : ∀ a, Extends reserved (f a)) (l : List α) :
    Extends reserved (l.mapM f) := by
  induction l with
  | nil => exact extends_pure _
  | cons a rest ih =>
      rw [List.mapM_cons]
      exact (hf a).bind fun b => ih.bind fun bs => extends_pure _

end Running

/-- Carrying out a plan leads to later states if the services do. -/
lemma Plan.extends_run {α : Type} (indent : String) {services : Services}
    (hexpression : ∀ socket required default,
      Running.Extends reserved (services.expression socket required default))
    (hstatements : ∀ socket, Running.Extends reserved (services.statements socket))
    (hsurround : ∀ code, Running.Extends reserved (services.surround code)) (p : Plan α) :
    Running.Extends reserved (p.run indent services) := by
  induction p with
  | done a => exact Running.extends_pure a
  | fail fault => exact Running.extends_throw fault
  | expression socket required default next ih =>
      exact (hexpression socket required default).bind ih
  | statements socket next ih => exact (hstatements socket).bind ih
  | identifier name kind next ih =>
      refine Running.Extends.bind (fun s hs => ?_) ih
      exact Run.grows_named hs name kind
  | fresh hint kind next ih =>
      refine Running.Extends.bind (fun s hs => ?_) ih
      exact Run.grows_fresh hs hint kind
  | helper key lines next ih =>
      refine Running.Extends.bind (fun s hs => ?_) ih
      exact Run.grows_provide hs indent key lines
  | define key text next ih =>
      refine Running.Extends.bind (fun s hs => ?_) fun _ => ih
      exact Run.grows_define hs key text
  | surround code next ih => exact (hsurround code).bind ih

/-! ### Rendering -/

namespace Renderer

variable {r : Renderer} {below : Block → Running Piece}

lemma extends_optional (h : ∀ c, Running.Extends reserved (below c)) (target : Option Block) :
    Running.Extends reserved (optional below target) := by
  cases target with
  | none => exact Running.extends_pure _
  | some c => exact h c

lemma extends_surround (h : ∀ c, Running.Extends reserved (below c)) (b : Block) (code : String) :
    Running.Extends reserved (r.surround below b code) := by
  refine (Running.extends_ofExcept _).bind fun comments => ?_
  refine (Running.extends_ofExcept _).bind fun next => ?_
  refine (extends_optional h next).bind fun piece => ?_
  cases piece with
  | value code grade => exact Running.extends_throw _
  | statement code => exact Running.extends_pure _

lemma extends_expression (h : ∀ c, Running.Extends reserved (below c)) (b : Block) (name : String)
    (required : Grade) (default : String) :
    Running.Extends reserved (r.expression below b name required default) := by
  refine (Running.extends_ofExcept _).bind fun target => ?_
  cases target with
  | none => exact Running.extends_pure _
  | some c =>
      refine (h c).bind fun piece => ?_
      split
      · exact Running.extends_pure _
      · exact Running.extends_throw _
      · exact Running.extends_pure _
      · split
        · exact Running.extends_pure _
        · exact Running.extends_throw _

lemma extends_statements (h : ∀ c, Running.Extends reserved (below c)) (b : Block)
    (name : String) : Running.Extends reserved (r.statements below b name) := by
  refine (Running.extends_ofExcept _).bind fun target => ?_
  cases target with
  | none => exact Running.extends_pure _
  | some c =>
      refine (h c).bind fun piece => ?_
      split
      · exact Running.extends_pure _
      · exact Running.extends_pure _
      · exact Running.extends_throw _

/-- A block leads to later states if the blocks below do. -/
lemma extends_step (h : ∀ c, Running.Extends reserved (below c)) (b : Block) :
    Running.Extends reserved (r.step below b) := by
  rw [step]
  split
  · exact (Running.extends_ofExcept _).bind fun next => extends_optional h next
  · refine (Running.extends_ofExcept _).bind fun handler => ?_
    refine Running.Extends.bind ?_ fun outcome => ?_
    · exact Plan.extends_run _ (extends_expression h b) (extends_statements h b)
        (extends_surround h b) _
    · cases outcome with
      | value code grade => exact (extends_surround h b code).bind fun _ => Running.extends_pure _
      | statement code => exact (extends_surround h b code).bind fun _ => Running.extends_pure _
      | nothing => exact Running.extends_pure _
      | other kindName => exact Running.extends_throw _

/-- Rendering a block leads to later states. -/
lemma extends_render (r : Renderer) (b : Block) : Running.Extends reserved (r.render b) := by
  have hdepth : ∀ n b, Running.Extends reserved (r.renderTo n b) := by
    intro n
    induction n with
    | zero => exact fun _ => Running.extends_throw _
    | succ n ih => exact extends_step ih
  exact hdepth _ b

lemma extends_renderTops (r : Renderer) : Running.Extends reserved r.renderTops := by
  refine Running.Extends.bind ?_ fun texts => Running.extends_pure _
  exact Running.extends_mapM (fun b => (extends_render r b).bind fun _ => Running.extends_pure _) _

end Renderer

/-! ### Whole runs -/

namespace Generator

variable (g : Generator) (w : Workspace)

/-- The identifiers with which a run starts come from requests. -/
lemma namesFrom_start : (g.start w).NamesFrom g.style.dialect.reserved := by
  have hempty : (((Run.closed g.style.dialect.reserved).note
      (.runStarted g.style.dialect.name w.topBlocks.length w.declared.length)).reset
        true).NamesFrom g.style.dialect.reserved := ⟨[], rfl⟩
  have hnamed := Run.grows_namedAll w.declared hempty
  exact (Run.grows_define hnamed.namesFrom _ _).namesFrom

lemma extends_program : Running.Extends reserved (g.program w) := by
  refine (Renderer.extends_renderTops _).bind fun body => ?_
  refine Running.extends_get.bind fun run => ?_
  refine Running.Extends.bind ?_ fun entry => Running.extends_pure _
  rw [Program.entryPoint]
  split
  · refine Running.Extends.bind (fun s hs => ?_) fun _ => Running.extends_pure _
    exact Run.grows_namedAll w.declared hs
  · exact (Running.extends_pure _).bind fun _ => Running.extends_pure _

/-- From the start of a run to its end, identifiers come from requests and no name changes its
identifier. -/
theorem grows_program : (g.start w).Grows g.style.dialect.reserved
    ((g.program w).after (g.start w)) :=
  extends_program g w _ (namesFrom_start g w)

end Generator

end Blockscribe
