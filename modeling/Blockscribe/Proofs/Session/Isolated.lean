/-
Runs do not influence each other.

* `Run.behind`: the same state after more rows. `Running.Built.ok_behind` and `error_behind` say
  that nothing in a session takes notice of the rows that are there already.
* `Running.Built.namesFrom`: the reserved words stay what they were, whatever happens.
* `Run.opened_eq`: so opening a context leads to the state of a new one, apart from what was logged.
* `Renderer.session_behind`: and the rest of a session goes on as it would in a new context.
* `Generator.runs_isolated`: neither the runs of a generator nor the sessions of a context depend on
  what went before.
-/
import Blockscribe.Proofs.Session.Built

namespace Blockscribe

/-! ### Rows that are there already -/

namespace Run

/-- The same state, with rows that were logged before. -/
def behind (rows : List Row) (s : Run) : Run := { s with log := rows ++ s.log }

variable (rows : List Row) (s : Run)

lemma note_behind (e : Event) : (s.behind rows).note e = (s.note e).behind rows :=
  congrArg (Run.mk s.names s.definitions s.isOpen) (List.append_assoc rows s.log [e.row])

lemma noteRenaming_behind (kind : NameKind) (hint id : String) :
    (s.behind rows).noteRenaming kind hint id = (s.noteRenaming kind hint id).behind rows := by
  rw [noteRenaming, noteRenaming]
  split
  · rfl
  · exact note_behind rows s _

lemma named_behind (name : String) (kind : NameKind) :
    (s.behind rows).named name kind =
      ((s.named name kind).1, (s.named name kind).2.behind rows) := by
  have hnames : (s.behind rows).names = s.names := rfl
  simp only [named, hnames]
  by_cases hsize : (s.names.named name kind).2.size = s.names.size
  · simp only [if_pos hsize]
    rfl
  · simp only [if_neg hsize]
    exact congrArg (Prod.mk _)
      (noteRenaming_behind rows { s with names := (s.names.named name kind).2 } kind name _)

lemma fresh_behind (hint : String) (kind : NameKind) :
    (s.behind rows).fresh hint kind =
      ((s.fresh hint kind).1, (s.fresh hint kind).2.behind rows) :=
  congrArg (Prod.mk _)
    (noteRenaming_behind rows { s with names := (s.names.fresh hint).2 } kind hint _)

lemma provide_behind (indent key : String) (lines : List String) :
    (s.behind rows).provide indent key lines =
      ((s.provide indent key lines).1, (s.provide indent key lines).2.behind rows) := by
  have hnames : (s.behind rows).names = s.names := rfl
  have hdefinitions : (s.behind rows).definitions = s.definitions := rfl
  simp only [provide, hnames, hdefinitions]
  by_cases hnew : (s.definitions.provide s.names indent key lines).2.2.2 = true
  · simp only [if_pos hnew]
    refine congrArg (Prod.mk _) ?_
    rw [← note_behind, ← noteRenaming_behind]
    rfl
  · simp only [if_neg hnew]
    rfl

lemma namedAll_behind (names : List String) : (s.behind rows).namedAll names =
    ((s.namedAll names).1, (s.namedAll names).2.behind rows) := by
  induction names generalizing s with
  | nil => rfl
  | cons name rest ih => simp only [namedAll, named_behind, ih]

lemma opened_behind (dialect : Dialect) (declared : List String) :
    (s.behind rows).opened dialect declared = (s.opened dialect declared).behind rows := by
  have hreset : (s.behind rows).reset true = (s.reset true).behind rows := rfl
  simp only [opened, hreset, namedAll_behind]
  rfl

lemma isOpen_named (name : String) (kind : NameKind) :
    (s.named name kind).2.isOpen = s.isOpen := by
  have hrenaming : ∀ (s : Run) (id : String), (s.noteRenaming kind name id).isOpen = s.isOpen := by
    intro s id
    rw [noteRenaming]
    split <;> rfl
  simp only [Run.named]
  split
  · rfl
  · exact hrenaming _ _

/-- An opened context is open. -/
lemma isOpen_opened (dialect : Dialect) (declared : List String) :
    (s.opened dialect declared).isOpen = true := by
  have hnamed : ∀ s : Run, (s.namedAll declared).2.isOpen = s.isOpen := by
    induction declared with
    | nil => exact fun _ => rfl
    | cons name rest ih => exact fun s => (ih _).trans (isOpen_named s name .variable)
  exact hnamed (s.reset true)

lemma noteFault_behind (fault : Fault) :
    (s.behind rows).noteFault fault = (s.noteFault fault).behind rows := by
  cases fault with
  | failure report => exact note_behind rows s _
  | flaw | wrongKind | noMember | tooLarge | noKey | noItem | tooDeep => rfl

variable {reserved : List String} {s}

/-- Forgetting everything is a request too, and keeps the reserved words. -/
lemma NamesFrom.reset (hs : s.NamesFrom reserved) (isOpen : Bool) :
    (s.reset isOpen).NamesFrom reserved := by
  obtain ⟨requests, hnames⟩ := hs
  refine ⟨requests ++ [.reset], ?_⟩
  rw [NameTable.history, List.foldl_append, ← NameTable.history]
  exact congrArg NameTable.reset hnames

lemma NamesFrom.opened (hs : s.NamesFrom reserved) (dialect : Dialect) (declared : List String) :
    (s.opened dialect declared).NamesFrom reserved :=
  (grows_define (grows_namedAll declared (hs.reset true)).namesFrom _ _).namesFrom

lemma kept_namesFrom : Kept (·.NamesFrom reserved) where
  named _ name kind hs := (grows_named hs name kind).namesFrom
  fresh _ hint kind hs := (grows_fresh hs hint kind).namesFrom
  provide _ indent key lines hs := (grows_provide hs indent key lines).namesFrom
  define _ key text hs := (grows_define hs key text).namesFrom
  opened _ dialect declared hs := hs.opened dialect declared
  shut _ hs := hs.reset false

lemma NamesFrom.reserved_eq (hs : s.NamesFrom reserved) : s.names.reserved = reserved := by
  obtain ⟨requests, hnames⟩ := hs
  exact hnames ▸ (NameTable.sound_history reserved requests).reserved_eq

/-- Of what was there before, an opened context keeps the reserved words and the rows. -/
lemma opened_congr {t : Run} (hreserved : s.names.reserved = t.names.reserved)
    (hlog : s.log = t.log) (dialect : Dialect) (declared : List String) :
    s.opened dialect declared = t.opened dialect declared := by
  have hreset : s.reset true = t.reset true := by
    simp only [Run.reset, NameTable.reset, hreserved, hlog]
  rw [Run.opened, Run.opened, hreset]

/-- Opening a context leads to the state of a new one, apart from what was logged before. -/
lemma opened_eq (hs : s.NamesFrom reserved) (dialect : Dialect) (declared : List String) :
    s.opened dialect declared = ((closed reserved).opened dialect declared).behind s.log := by
  rw [← opened_behind]
  exact opened_congr hs.reserved_eq (List.append_nil s.log).symm dialect declared

end Run

/-! ### Computations in a session -/

namespace Running.Built

variable {α : Type} {m : Running α} {reserved : List String}

/-- Nothing takes notice of the rows that are there already: the result is the same, and so are the
later rows. -/
lemma run_behind (h : Built m) (rows : List Row) : ∀ s : Run,
    (∀ a t, m.run s = .ok a t → m.run (s.behind rows) = .ok a (t.behind rows)) ∧
    ∀ fault t, m.run s = .error fault t → m.run (s.behind rows) = .error fault (t.behind rows) := by
  have hchange : ∀ {γ : Type} {f : Run → γ × Run} (s : Run),
      f (s.behind rows) = ((f s).1, (f s).2.behind rows) →
      (∀ a t, (change f).run s = .ok a t → (change f).run (s.behind rows) = .ok a (t.behind rows)) ∧
      ∀ fault t, (change f).run s = .error fault t →
        (change f).run (s.behind rows) = .error fault (t.behind rows) := by
    intro γ f s hf
    refine ⟨fun a t hrun => ?_, fun fault t hrun => nomatch hrun⟩
    obtain ⟨rfl, rfl⟩ := EStateM.Result.ok.inj hrun
    show EStateM.Result.ok (f (s.behind rows)).1 (f (s.behind rows)).2 = _
    rw [hf]
  induction h with
  | pure a =>
      intro s
      refine ⟨fun b t hrun => ?_, fun fault t hrun => nomatch hrun⟩
      obtain ⟨rfl, rfl⟩ := EStateM.Result.ok.inj hrun
      rfl
  | throw fault =>
      intro s
      refine ⟨(fun b t hrun => nomatch hrun), fun fault' t hrun => ?_⟩
      obtain ⟨rfl, rfl⟩ := EStateM.Result.error.inj hrun
      rfl
  | @bind β γ m f hm hf ihm ihf =>
      intro s
      rw [EStateM.run_bind, EStateM.run_bind]
      cases hrun : m.run s with
      | ok a t =>
          rw [(ihm s).1 a t hrun]
          exact ihf a t
      | error fault t =>
          rw [(ihm s).2 fault t hrun]
          refine ⟨(fun b u hend => nomatch hend), fun fault' u hend => ?_⟩
          obtain ⟨rfl, rfl⟩ := EStateM.Result.error.inj hend
          rfl
  | look view => exact fun s => hchange s rfl
  | named name kind => exact fun s => hchange s (Run.named_behind rows s name kind)
  | fresh hint kind => exact fun s => hchange s (Run.fresh_behind rows s hint kind)
  | provide indent key lines =>
      exact fun s => hchange s (Run.provide_behind rows s indent key lines)
  | define key text => exact fun s => hchange s rfl
  | enter a dialect declared =>
      exact fun s => hchange s (congrArg (Prod.mk a) (Run.opened_behind rows s dialect declared))
  | leave a => exact fun s => hchange s rfl

lemma ok_behind (h : Built m) {rows : List Row} {s t : Run} {a : α} (hrun : m.run s = .ok a t) :
    m.run (s.behind rows) = .ok a (t.behind rows) :=
  (h.run_behind rows s).1 a t hrun

lemma error_behind (h : Built m) {rows : List Row} {s t : Run} {fault : Fault}
    (hrun : m.run s = .error fault t) : m.run (s.behind rows) = .error fault (t.behind rows) :=
  (h.run_behind rows s).2 fault t hrun

/-- Identifiers still come from requests, so the reserved words stay what they were. -/
lemma namesFrom (h : Built m) (s : Run) (hs : s.NamesFrom reserved) :
    (m.after s).NamesFrom reserved :=
  h.kept Run.kept_namesFrom s hs

end Running.Built

/-! ### Sessions -/

namespace Renderer

variable (r : Renderer) {reserved : List String}

/-- A session goes on the same way, whatever was logged before it. -/
lemma session_behind (rows : List Row) (acts : List Act) (s : Run) :
    r.session acts (s.behind rows) =
      ((r.session acts s).1, (r.session acts s).2.behind rows) := by
  induction acts generalizing s with
  | nil => rfl
  | cons act rest ih =>
      rw [session, session]
      cases hrun : (r.perform act).run s with
      | ok reply t =>
          rw [(built_perform r act).ok_behind hrun]
          simp only [ih]
      | error fault t =>
          rw [(built_perform r act).error_behind hrun]
          simp only [ih]

lemma namesFrom_session (acts : List Act) {s : Run} (hs : s.NamesFrom reserved) :
    (r.session acts s).2.NamesFrom reserved := by
  induction acts generalizing s with
  | nil => exact hs
  | cons act rest ih =>
      have hstep := (built_perform r act).namesFrom s hs
      rw [Running.after] at hstep
      rw [session]
      cases hrun : (r.perform act).run s with
      | ok reply t =>
          rw [hrun] at hstep
          exact ih hstep
      | error fault t =>
          rw [hrun] at hstep
          exact ih hstep

end Renderer

/-! ### Generators -/

namespace Generator

variable (g : Generator)

/-- A run gives the same result in every context whose reserved words are those of the dialect, and
logs the same rows after those that are there. -/
lemma runIn_eq (w : Workspace) {s : Run} (hs : s.NamesFrom g.style.dialect.reserved) :
    (g.runIn w s).1 = (g.generate w).1 ∧ (g.runIn w s).2.log = s.log ++ (g.generate w).2 ∧
      (g.runIn w s).2.NamesFrom g.style.dialect.reserved := by
  rw [generate_eq_runIn, runIn, runIn]
  cases w.validate with
  | error fault => exact ⟨rfl, (List.append_nil _).symm, hs⟩
  | ok _ =>
      have hstart : (s.note (.runStarted g.style.dialect.name w.topBlocks.length
          w.declared.length)).opened g.style.dialect w.declared = (g.start w).behind s.log := by
        rw [start, ← Run.opened_behind]
        refine Run.opened_congr ?_ ?_ _ _
        · exact hs.reserved_eq
        · rfl
      have hfresh : ((Run.closed g.style.dialect.reserved).note (.runStarted g.style.dialect.name
          w.topBlocks.length w.declared.length)).opened g.style.dialect w.declared =
          g.start w := rfl
      have hstarts : (g.start w).NamesFrom g.style.dialect.reserved := namesFrom_start g w
      have hlast := (built_program g w).namesFrom _ hstarts
      rw [Running.after] at hlast
      simp only [hstart, hfresh]
      cases hrun : (g.program w).run (g.start w) with
      | ok text t =>
          rw [hrun] at hlast
          simp only [(built_program g w).ok_behind hrun, Run.note_behind]
          exact ⟨trivial, rfl, hlast.reset false⟩
      | error fault t =>
          rw [hrun] at hlast
          simp only [(built_program g w).error_behind hrun, Run.noteFault_behind]
          refine ⟨trivial, rfl, ?_⟩
          cases fault <;> exact hlast.reset false

/-- The runs for several workspaces give the results that they give on their own, and log the same
rows, whatever happened in the context before. -/
lemma runAll_eq (shared : Bool) (ws : List Workspace) {s : Run}
    (hs : s.NamesFrom g.style.dialect.reserved) :
    (g.runAll shared ws s).1 = ws.map (fun w => (g.generate w).1) ∧
      (g.runAll shared ws s).2.log = s.log ++ ws.flatMap fun w => (g.generate w).2 := by
  induction ws generalizing s with
  | nil => exact ⟨rfl, (List.append_nil _).symm⟩
  | cons w rest ih =>
      have hcontext : ∃ t : Run, (if shared then s else g.renewed s) = t ∧
          t.NamesFrom g.style.dialect.reserved ∧ t.log = s.log := by
        cases shared with
        | true => exact ⟨s, rfl, hs, rfl⟩
        | false => exact ⟨g.renewed s, rfl, ⟨[], rfl⟩, rfl⟩
      obtain ⟨t, ht, hnames, hlog⟩ := hcontext
      obtain ⟨hresult, hrows, hafter⟩ := runIn_eq g w hnames
      obtain ⟨hresults, hmore⟩ := ih hafter
      rw [runAll, ht]
      refine ⟨congrArg₂ List.cons hresult hresults, ?_⟩
      rw [List.flatMap_cons, ← List.append_assoc, ← hlog, ← hrows]
      exact hmore

/-- **Runs are isolated.** Let a generator be used for any list of workspaces, whose runs may fail
at any point. Each run gives the text or the fault that a generator with the same style and handlers
gives that was never used before, and logs the same rows. This holds if every run has a context of
its own, and also if they all share one that was left in the middle of any session. And in every
context, whatever steps were taken in it and whether they failed, opening leads to the same
identifiers, definitions and helper routines as in a new context, and to an open context; so every
later step gives the same result as it does there, and logs the same rows. -/
theorem runs_isolated (g : Generator) (w : Workspace) (before : List Act) :
    let r := g.renderer w
    let new := Run.closed g.style.dialect.reserved
    let used := (r.session before new).2
    (∀ (shared : Bool) (ws : List Workspace),
      (g.runAll shared ws used).1 = ws.map (fun v => (g.generate v).1) ∧
      (g.runAll shared ws used).2.log = used.log ++ ws.flatMap fun v => (g.generate v).2) ∧
    let opened := (r.session [.enter] new).2
    let reopened := (r.session [.enter] used).2
    reopened.names = opened.names ∧ reopened.definitions = opened.definitions ∧
      reopened.isOpen = true ∧ opened.isOpen = true ∧
    ∀ after : List Act, (r.session after reopened).1 = (r.session after opened).1 ∧
      (r.session after reopened).2 = ((r.session after opened).2).behind used.log := by
  intro r new used
  have hused : used.NamesFrom g.style.dialect.reserved :=
    Renderer.namesFrom_session r before ⟨[], rfl⟩
  refine ⟨fun shared ws => runAll_eq g shared ws hused, ?_⟩
  intro opened reopened
  have hreopened : reopened = opened.behind used.log := Run.opened_eq hused _ _
  have hopen : opened.isOpen = true := Run.isOpen_opened _ _ _
  rw [hreopened]
  refine ⟨rfl, rfl, hopen, hopen, fun after => ?_⟩
  rw [Renderer.session_behind]
  exact ⟨rfl, rfl⟩

end Generator

end Blockscribe
