/-
Sessions: a context that is used step by step, and generators that are used again.

* `Act`: a step of a session. Whatever a handler may ask for is a plan, so `follow` covers the
  single services too.
* `Renderer.perform`, `Renderer.session`: what a step does, and one step after the other. A step
  that fails leaves what it changed behind, and the session goes on.
* `Generator.runIn`: a run in a context that is there already.
* `Generator.runAll`: the runs for several workspaces, one after the other.
* `generate_eq_runIn`: generating a program is a run in a new context.
-/
import Blockscribe.Generate

namespace Blockscribe

/-- What a step of a session gives back. -/
inductive Reply
  | nothing
  | text (text : String)
  | piece (piece : Piece)

/-- A step of a session. -/
inductive Act
  /-- Renders a block together with the statements that follow it. -/
  | render (b : Block)
  /-- Renders every top-level block. -/
  | renderTops
  /-- Carries out a plan about a block: asks for expressions, statements, identifiers, helper
  routines, definitions or surroundings, or fails. -/
  | follow (b : Block) (plan : Plan String)
  /-- Puts the entry point around a body. -/
  | entryPoint (body : String)
  /-- Puts the whole program around a body. -/
  | finish (body : String)
  /-- Looks at the identifiers, the definitions and whether the context is open. -/
  | look (view : NameTable → Definitions → Bool → String)
  /-- Opens the context. -/
  | enter
  /-- Closes the context. -/
  | leave

namespace Renderer

/-- What a step of a session does. -/
def perform (r : Renderer) : Act → Running Reply
  | .render b => do return .piece (← r.render b)
  | .renderTops => do return .text (← r.renderTops)
  | .follow b plan => do return .text (← plan.run r.style.indent (r.services r.render b))
  | .entryPoint body => do
    return .text (← Program.entryPoint r.style r.workspace.declared body)
  | .finish body => do return .text (← Program.finish r.style r.workspace.declared body)
  | .look view =>
    Running.change fun s => (.text (view s.names s.definitions s.isOpen), s)
  | .enter =>
    Running.change fun s => (.nothing, s.opened r.style.dialect r.workspace.declared)
  | .leave => Running.change fun s => (.nothing, s.shut)

/-- Carries out steps one after the other, whether they fail or not. -/
def session (r : Renderer) : List Act → Run → List (Except Fault Reply) × Run
  | [], s => ([], s)
  | act :: rest, s =>
    match (r.perform act).run s with
    | .ok reply t =>
      let (replies, last) := r.session rest t
      (.ok reply :: replies, last)
    | .error fault t =>
      let (replies, last) := r.session rest t
      (.error fault :: replies, last)

end Renderer

namespace Run

/-- Logs the fault that ended a run, if it is a report of the library. -/
def noteFault (s : Run) : Fault → Run
  | .failure report => s.note (.aborted report.text)
  | _ => s

end Run

namespace Generator

/-- The state of a new context after what has been logged in another. -/
def renewed (g : Generator) (s : Run) : Run :=
  { Run.closed g.style.dialect.reserved with log := s.log }

/-- A run for a workspace in a context that is there already. However it ends, it leaves the context
closed. -/
def runIn (g : Generator) (w : Workspace) (s : Run) : Except Fault String × Run :=
  match w.validate with
  | .error fault => (.error fault, s)
  | .ok () =>
    let started := s.note (.runStarted g.style.dialect.name w.topBlocks.length w.declared.length)
    match (g.program w).run (started.opened g.style.dialect w.declared) with
    | .ok text t =>
      (.ok text, (t.note (.runCompleted t.definitions.size text.length)).shut)
    | .error fault t => (.error fault, (t.noteFault fault).shut)

/-- Runs for several workspaces, one after the other. They share one context, or each has its own.
-/
def runAll (g : Generator) (shared : Bool) :
    List Workspace → Run → List (Except Fault String) × Run
  | [], s => ([], s)
  | w :: rest, s =>
    let (result, t) := g.runIn w (if shared then s else g.renewed s)
    let (results, last) := g.runAll shared rest t
    (result :: results, last)

/-- What is logged of a fault is the same, whether the context goes on or not. -/
theorem logOfFault_eq (s : Run) (fault : Fault) :
    logOfFault s fault = (s.noteFault fault).log := by
  cases fault <;> rfl

/-- Generating a program is a run in a new context. -/
theorem generate_eq_runIn (g : Generator) (w : Workspace) :
    g.generate w = ((g.runIn w (Run.closed g.style.dialect.reserved)).1,
      (g.runIn w (Run.closed g.style.dialect.reserved)).2.log) := by
  rw [generate, runIn]
  cases w.validate with
  | error fault => rfl
  | ok _ =>
    simp only [start]
    generalize (g.program w).run (Run.opened _ _ _) = result
    cases result with
    | ok text t => rfl
    | error fault t => exact congrArg (Prod.mk _) (logOfFault_eq _ _)

end Generator

end Blockscribe
