/-
Generating a program from a workspace.

* `Generator`: a style and handlers, for any number of workspaces.
* `Generator.program`: renders the top-level blocks of an open run and assembles the program.
* `Generator.generate`: one run: checks the workspace, opens the run, makes the program, and logs
  how the run went. A run that fails gives the fault and no text.
* `generate_of_not_valid`: a refused workspace gives its fault and logs nothing.
-/
import Blockscribe.Program.Assembly
import Blockscribe.Render

namespace Blockscribe

/-- A style and the handlers for block types. -/
structure Generator where
  style : Style
  handlers : HandlerSet Handler

namespace Generator

/-- The renderer for a workspace. -/
def renderer (g : Generator) (w : Workspace) : Renderer := ⟨w, g.style, g.handlers⟩

/-- Renders the top-level blocks and assembles the program. -/
def program (g : Generator) (w : Workspace) : Running String := do
  let body ← (g.renderer w).renderTops
  Program.finish g.style w.declared body

/-- The state in which a run starts. -/
def start (g : Generator) (w : Workspace) : Run :=
  let run := (Run.closed g.style.dialect.reserved).note
    (.runStarted g.style.dialect.name w.topBlocks.length w.declared.length)
  run.opened g.style.dialect w.declared

/-- The log of a run that ended with a fault: only a report of the library is logged. -/
def logOfFault (run : Run) : Fault → List Row
  | .failure report => run.log ++ [(Event.aborted report.text).row]
  | _ => run.log

/-- Generates the program for a workspace; the second part is what the run logged. -/
def generate (g : Generator) (w : Workspace) : Except Fault String × List Row :=
  match w.validate with
  | .error fault => (.error fault, [])
  | .ok () =>
    match (g.program w).run (g.start w) with
    | .ok text run =>
      (.ok text, run.log ++ [(Event.runCompleted run.definitions.size text.length).row])
    | .error fault run => (.error fault, logOfFault run fault)

/-- A refused workspace gives its fault and logs nothing. -/
theorem generate_of_not_valid {g : Generator} {w : Workspace} {fault : Fault}
    (h : w.validate = .error fault) : g.generate w = (.error fault, []) := by
  simp [generate, h]

end Generator

end Blockscribe
