/-
What the computations of a session are put together from.

* `Running.Built`: results, faults, questions for identifiers and definitions, looks at them,
  opening and closing, and one computation after another. The log can only grow, and is never read.
* `Run.Kept`: a property of states that every change keeps; `Running.Built.kept` says that it is
  kept to the end of a computation.
* `Renderer.built_perform`: every step of a session is built in this way, whatever the workspace,
  the style and the handlers are; `Generator.built_program`: so is a whole program.
-/
import Blockscribe.Proofs.Run.Names
import Blockscribe.Session

namespace Blockscribe

/-- A property of states that every change of a session keeps. -/
structure Run.Kept (I : Run → Prop) : Prop where
  named : ∀ s name kind, I s → I (s.named name kind).2
  fresh : ∀ s hint kind, I s → I (s.fresh hint kind).2
  provide : ∀ s indent key lines, I s → I (s.provide indent key lines).2
  define : ∀ s key text, I s → I (s.define key text)
  opened : ∀ s dialect declared, I s → I (s.opened dialect declared)
  shut : ∀ s, I s → I s.shut

namespace Running

/-- A computation that is put together from what a context offers. -/
inductive Built : {α : Type} → Running α → Prop
  | pure {α : Type} (a : α) : Built (Pure.pure a : Running α)
  | throw {α : Type} (fault : Fault) : Built (throw fault : Running α)
  | bind {α β : Type} {m : Running α} {f : α → Running β} :
      Built m → (∀ a, Built (f a)) → Built (m >>= f)
  | look {α : Type} (view : NameTable → Definitions → Bool → α) :
      Built (change fun s => (view s.names s.definitions s.isOpen, s))
  | named (name : String) (kind : NameKind) : Built (named name kind)
  | fresh (hint : String) (kind : NameKind) : Built (fresh hint kind)
  | provide (indent key : String) (lines : List String) :
      Built (change fun s => s.provide indent key lines)
  | define (key text : String) : Built (define key text)
  | enter {α : Type} (a : α) (dialect : Dialect) (declared : List String) :
      Built (change fun s => (a, s.opened dialect declared))
  | leave {α : Type} (a : α) : Built (change fun s => (a, s.shut))

variable {α β : Type}

/-- Such a property is kept to the end, be it a result or a fault. -/
lemma Built.kept {I : Run → Prop} {m : Running α} (h : Built m) (hI : Run.Kept I) :
    ∀ s, I s → I (m.after s) := by
  induction h with
  | pure | throw | look => exact fun s hs => hs
  | @bind β γ m f hm hf ihm ihf =>
      intro s hs
      have hfirst := ihm s hs
      rw [after] at hfirst ⊢
      rw [EStateM.run_bind]
      cases hrun : m.run s with
      | ok a t =>
          rw [hrun] at hfirst
          exact ihf a t hfirst
      | error fault t =>
          rw [hrun] at hfirst
          exact hfirst
  | named name kind => exact fun s hs => hI.named s name kind hs
  | fresh hint kind => exact fun s hs => hI.fresh s hint kind hs
  | provide indent key lines => exact fun s hs => hI.provide s indent key lines hs
  | define key text => exact fun s hs => hI.define s key text hs
  | enter a dialect declared => exact fun s hs => hI.opened s dialect declared hs
  | leave a => exact fun s hs => hI.shut s hs

lemma built_ofExcept (e : Except Fault α) : Built (ofExcept e) := by
  cases e with
  | ok a => exact .pure a
  | error fault => exact .throw fault

lemma built_mapM {f : α → Running β} (hf : ∀ a, Built (f a)) (l : List α) : Built (l.mapM f) := by
  induction l with
  | nil => exact .pure _
  | cons a rest ih =>
      rw [List.mapM_cons]
      exact (hf a).bind fun b => ih.bind fun bs => .pure _

/-- The identifiers of several variables are asked for one after the other. -/
lemma built_namedAll (names : List String) : Built (namedAll names) := by
  induction names with
  | nil => exact .pure _
  | cons name rest ih =>
      have hsteps : namedAll (name :: rest) = named name .variable >>= fun identifier =>
          namedAll rest >>= fun more => Pure.pure (identifier :: more) := rfl
      rw [hsteps]
      exact (Built.named name .variable).bind fun identifier => ih.bind fun more => .pure _

end Running

open Running (Built)

/-- Carrying out a plan is built from its questions, if its services are. -/
lemma Plan.built_run {α : Type} (indent : String) {services : Services}
    (hexpression : ∀ socket required default,
      Built (services.expression socket required default))
    (hstatements : ∀ socket, Built (services.statements socket))
    (hsurround : ∀ code, Built (services.surround code)) (p : Plan α) :
    Built (p.run indent services) := by
  induction p with
  | done a => exact .pure a
  | fail fault => exact .throw fault
  | expression socket required default next ih =>
      exact (hexpression socket required default).bind ih
  | statements socket next ih => exact (hstatements socket).bind ih
  | identifier name kind next ih => exact (Built.named name kind).bind ih
  | fresh hint kind next ih => exact (Built.fresh hint kind).bind ih
  | helper key lines next ih => exact (Built.provide indent key lines).bind ih
  | define key text next ih => exact (Built.define key text).bind fun _ => ih
  | surround code next ih => exact (hsurround code).bind ih

namespace Program

variable (style : Style) (declared : List String) (body : String)

lemma built_entryPoint : Built (entryPoint style declared body) := by
  rw [entryPoint]
  split
  · exact (Running.built_namedAll declared).bind fun identifiers => .pure _
  · exact (Built.pure _).bind fun identifiers => .pure _

/-- The program is put around its body after a look at the definitions. -/
lemma built_finish : Built (finish style declared body) := by
  have hlook : finish style declared body =
      (Running.change fun s => (preamble s.definitions, s)) >>= fun definitions =>
        entryPoint style declared body >>= fun entry => pure (tidy (definitions ++ entry)) := rfl
  rw [hlook]
  refine (Built.look fun _ definitions _ => preamble definitions).bind fun definitions => ?_
  exact (built_entryPoint style declared body).bind fun entry => .pure _

end Program

/-! ### Rendering -/

namespace Renderer

section Step

variable {r : Renderer} {below : Block → Running Piece} (h : ∀ c, Built (below c))

include h

lemma built_optional (target : Option Block) : Built (optional below target) := by
  cases target with
  | none => exact .pure _
  | some c => exact h c

lemma built_surround (b : Block) (code : String) : Built (r.surround below b code) := by
  refine (Running.built_ofExcept _).bind fun comments => ?_
  refine (Running.built_ofExcept _).bind fun next => ?_
  refine (built_optional h next).bind fun piece => ?_
  cases piece with
  | value code grade => exact .throw _
  | statement code => exact .pure _

lemma built_expression (b : Block) (name : String) (required : Grade) (default : String) :
    Built (r.expression below b name required default) := by
  refine (Running.built_ofExcept _).bind fun target => ?_
  cases target with
  | none => exact .pure _
  | some c =>
      refine (h c).bind fun piece => ?_
      split
      · exact .pure _
      · exact .throw _
      · exact .pure _
      · split
        · exact .pure _
        · exact .throw _

lemma built_statements (b : Block) (name : String) : Built (r.statements below b name) := by
  refine (Running.built_ofExcept _).bind fun target => ?_
  cases target with
  | none => exact .pure _
  | some c =>
      refine (h c).bind fun piece => ?_
      split
      · exact .pure _
      · exact .pure _
      · exact .throw _

/-- What a plan about a block asks for is built, if the blocks below are. -/
lemma built_plan {α : Type} (b : Block) (p : Plan α) :
    Built (p.run r.style.indent (r.services below b)) :=
  Plan.built_run _ (built_expression h b) (built_statements h b) (built_surround h b) p

lemma built_step (b : Block) : Built (r.step below b) := by
  rw [step]
  split
  · exact (Running.built_ofExcept _).bind fun next => built_optional h next
  · refine (Running.built_ofExcept _).bind fun handler => ?_
    refine (built_plan h b _).bind fun outcome => ?_
    cases outcome with
    | value code grade => exact (built_surround h b code).bind fun _ => .pure _
    | statement code => exact (built_surround h b code).bind fun _ => .pure _
    | nothing => exact .pure _
    | other kindName => exact .throw _

end Step

variable (r : Renderer)

lemma built_render (b : Block) : Built (r.render b) := by
  have hdepth : ∀ n b, Built (r.renderTo n b) := by
    intro n
    induction n with
    | zero => exact fun _ => .throw _
    | succ n ih => exact built_step ih
  exact hdepth _ b

lemma built_renderTops : Built r.renderTops := by
  refine Built.bind ?_ fun texts => .pure _
  exact Running.built_mapM (fun b => (built_render r b).bind fun _ => .pure _) _

/-- Every step of a session is put together from what its context offers. -/
lemma built_perform (act : Act) : Built (r.perform act) := by
  cases act with
  | render b => exact (built_render r b).bind fun piece => .pure _
  | renderTops => exact (built_renderTops r).bind fun text => .pure _
  | follow b plan => exact (built_plan (built_render r) b plan).bind fun text => .pure _
  | entryPoint body => exact (Program.built_entryPoint _ _ body).bind fun text => .pure _
  | finish body => exact (Program.built_finish _ _ body).bind fun text => .pure _
  | look view =>
      exact Built.look fun names definitions isOpen => Reply.text (view names definitions isOpen)
  | enter => exact .enter _ _ _
  | leave => exact .leave _

end Renderer

/-- So is the program for a workspace. -/
lemma Generator.built_program (g : Generator) (w : Workspace) : Built (g.program w) :=
  (Renderer.built_renderTops _).bind fun body => Program.built_finish _ _ body

end Blockscribe
