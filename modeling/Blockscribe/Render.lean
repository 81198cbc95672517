/-
Rendering: from blocks to code.

* `Piece`: rendered code, an expression with its rank or statements.
* `Plan.run`: carries out a plan; `Plan.run_bind` says that it does so step by step.
* `Renderer.step`: renders one block, given how to render the blocks below it.
* `Renderer.render`: the recursion over a whole workspace. No block is entered twice along a path
  of a forest, so the number of blocks bounds the depth.
-/
import Blockscribe.Comment
import Blockscribe.HandlerSet
import Blockscribe.Run
import Blockscribe.Style

namespace Blockscribe

/-- Rendered code: an expression with the rank that was reported for it, or statements. -/
inductive Piece
  | value (code : String) (grade : Grade)
  | statement (code : String)

/-- The services that answer the questions of a plan about its block. -/
structure Services where
  expression : String → Grade → String → Running String
  statements : String → Running String
  surround : String → Running String

/-- Carries out a plan. -/
def Plan.run {α : Type} (indent : String) (s : Services) : Plan α → Running α
  | .done a => pure a
  | .fail fault => throw fault
  | .expression socket required default next => do
    (next (← s.expression socket required default)).run indent s
  | .statements socket next => do (next (← s.statements socket)).run indent s
  | .identifier name kind next => do (next (← Running.named name kind)).run indent s
  | .fresh hint kind next => do (next (← Running.fresh hint kind)).run indent s
  | .helper key lines next => do
    (next (← Running.change fun r => r.provide indent key lines)).run indent s
  | .define key text next => do
    Running.define key text
    next.run indent s
  | .surround code next => do (next (← s.surround code)).run indent s

/-- A workspace with the style and the handlers by which it is rendered. -/
structure Renderer where
  workspace : Workspace
  style : Style
  handlers : HandlerSet Handler

namespace Renderer

/-- What handlers may look at. -/
def site (r : Renderer) : Site := r.style.site r.workspace.declared

/-- The comments in front of a block. -/
def commentsFor (r : Renderer) (b : Block) : Except Fault String :=
  r.workspace.commentsFor r.style.dialect r.style.commentWidth (r.handlers.isProcedure b.type) b

section Step

variable (r : Renderer) (below : Block → Running Piece)

/-- Renders a block that may be missing; nothing is rendered to no statements. -/
def optional : Option Block → Running Piece
  | none => pure (.statement "")
  | some b => below b

/-- Code with the comments of a block before it and the statements that follow after it. -/
def surround (b : Block) (code : String) : Running String := do
  let comments ← Running.ofExcept (r.commentsFor b)
  match ← optional below (← Running.ofExcept (r.workspace.nextOf b)) with
  | .statement rest => return comments ++ code ++ rest
  | .value .. =>
    throw (.block b.type "render next statement" "following block produces a value")

/-- The block plugged into a socket, which must be of the kind asked for. -/
def target? (b : Block) (name : String) (kind : SocketKind) : Except Fault (Option Block) :=
  match b.socket? name with
  | none => .ok none
  | some s =>
    match s.target with
    | none => .ok none
    | some id =>
      if s.kind = kind then (r.workspace.get id).map some
      else
        .error (.block b.type ("render input '" ++ name ++ "'")
          ("socket is a " ++ s.kind.word ++ " socket"))

/-- The expression in a value socket, in parentheses if it binds more loosely than required. An
empty socket gives the default, and so does a block without code. -/
def expression (b : Block) (name : String) (required : Grade) (default : String) :
    Running String := do
  match ← Running.ofExcept (r.target? b name .value) with
  | none => return default
  | some target =>
    match ← below target with
    | .statement "" => return default
    | .statement _ =>
      throw (.block target.type ("render value input '" ++ name ++ "'")
        "block does not produce a value")
    | .value "" _ => return default
    | .value code grade =>
      match resolve code grade required with
      | .ok wrapped => return wrapped
      | .error flaw =>
        throw (.block target.type ("render value input '" ++ name ++ "'") flaw.text)

/-- The statements in a statement socket, indented by one level. -/
def statements (b : Block) (name : String) : Running String := do
  match ← Running.ofExcept (r.target? b name .statement) with
  | none => return ""
  | some target =>
    match ← below target with
    | .statement "" => return ""
    | .statement code => return leadLines r.style.indent code
    | .value .. =>
      throw (.block target.type ("render statement input '" ++ name ++ "'")
        "block produces a value")

/-- The services for the plan of a block. -/
def services (b : Block) : Services :=
  ⟨r.expression below b, r.statements below b, r.surround below b⟩

/-- Renders one block together with the statements that follow it. A disabled block is passed
over. -/
def step (b : Block) : Running Piece := do
  if b.disabled then optional below (← Running.ofExcept (r.workspace.nextOf b))
  else
    let handler ← Running.ofExcept (r.handlers.resolve b.type)
    match ← (handler r.site b.face).run r.style.indent (r.services below b) with
    | .value code grade => return .value (← r.surround below b code) grade
    | .statement code => return .statement (← r.surround below b code)
    | .nothing => return .statement ""
    | .other kindName =>
      throw (.block b.type "generate code" ("handler returned " ++ kindName))

end Step

/-- Renders a block, to a depth of `fuel`. -/
def renderTo (r : Renderer) : Nat → Block → Running Piece
  | 0, _ => throw .tooDeep
  | fuel + 1, b => r.step (r.renderTo fuel) b

/-- Renders a block together with the statements that follow it. -/
def render (r : Renderer) (b : Block) : Running Piece := r.renderTo (r.workspace.size + 1) b

/-- The line for an expression that stands on its own. -/
def nakedLine (code : String) : String := code ++ "\n"

/-- The text that a top-level block contributes. -/
def topText : Piece → String
  | .value code _ => if code = "" then "" else nakedLine code
  | .statement code => code

/-- Renders every top-level block, with an empty line after each but the last. -/
def renderTops (r : Renderer) : Running String := do
  let texts ← r.workspace.topBlocks.mapM fun b => do return topText (← r.render b)
  return "\n".intercalate (texts.filter fun t => t ≠ "")

end Renderer

/-- A plan that goes on with another is carried out step by step. -/
theorem Plan.run_bind {α β : Type} (indent : String) (s : Services) (p : Plan α)
    (f : α → Plan β) :
    (p.bind f).run indent s = p.run indent s >>= fun a => (f a).run indent s := by
  induction p with
  | done a => simp [Plan.bind, Plan.run]
  | fail e => rfl
  | expression so rq d k ih => simp [Plan.bind, Plan.run, ih]
  | statements so k ih => simp [Plan.bind, Plan.run, ih]
  | identifier n i k ih => simp [Plan.bind, Plan.run, ih]
  | fresh h i k ih => simp [Plan.bind, Plan.run, ih]
  | helper key ls k ih => simp [Plan.bind, Plan.run, ih]
  | define key t k ih => simp [Plan.bind, Plan.run, ih]
  | surround c k ih => simp [Plan.bind, Plan.run, ih]

end Blockscribe
