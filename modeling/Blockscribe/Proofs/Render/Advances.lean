/-
Rendering changes a run by what its handlers may ask for, and by nothing else.

* `Workspace.written`: the declared variables and the names in all blocks.
* `Workspace.commentary_commentsFor`: what stands in front of a block begins with a comment.
* `Renderer.surrounds_of_run`: the surroundings of code are comments and what follows.
* `Renderer.later_of_outcome`: the plan of a block leads to later states, and so does each of its
  exchanges.
* `Renderer.advances_render`, `advances_renderTops`: so does rendering, with the standard handlers.
-/
import Blockscribe.Proofs.Handler.Tells
import Blockscribe.Proofs.Render.Comments
import Blockscribe.Proofs.Render.Outcome
import Blockscribe.Proofs.Run.Later

namespace Blockscribe

/-- The declared variables and the names in the fields and parameters of all blocks. -/
def Workspace.written (w : Workspace) : List String :=
  w.declared ++ w.blocks.flatMap fun b => b.face.written

/-! ### Comments -/

lemma commentary_empty : Commentary "" := nofun

lemma Commentary.append {a b : String} (ha : Commentary a) (hb : Commentary b) :
    Commentary (a ++ b) := by
  intro c hc
  rw [String.toList_append, List.head?_append] at hc
  cases hhead : a.toList.head? with
  | none =>
      rw [hhead] at hc
      exact hb c hc
  | some d =>
      rw [hhead] at hc
      exact ha c (hhead ▸ hc)

lemma commentary_ofLines : OfLines "# " Commentary where
  empty := commentary_empty
  append := Commentary.append
  leadLines text := by
    rw [Commentary, toList_leadLines]
    exact fun c hc => .inr (Option.some.inj hc).symm

namespace Workspace

variable {w : Workspace} {b : Block} {comments : String} {dialect : Dialect} {width : Extent}
  {isProcedure : Bool}

lemma commentary_ownComment (hdialect : dialect ∈ Dialect.all)
    (h : ownComment dialect width isProcedure b = .ok comments) : Commentary comments := by
  simp only [Dialect.all, List.mem_cons, List.not_mem_nil, or_false] at hdialect
  cases isProcedure with
  | false =>
      have hlead : dialect.lineComment = "# " := by rcases hdialect with rfl | rfl <;> rfl
      exact ofLines_ownComment (hlead ▸ commentary_ofLines) h
  | true =>
      have hopen : dialect.docOpen = "\"\"\"" := by rcases hdialect with rfl | rfl <;> rfl
      obtain ⟨comment, -, hrest⟩ := bind_eq_ok h
      split at hrest
      · exact Except.ok.inj hrest ▸ commentary_empty
      · rw [if_pos rfl, Dialect.docComment, hopen] at hrest
        obtain rfl := Except.ok.inj hrest
        intro c hc
        simp only [String.toList_append] at hc
        exact .inl (Option.some.inj hc).symm

/-- What stands in front of a block begins with a comment. -/
lemma commentary_commentsFor (hdialect : dialect ∈ Dialect.all)
    (h : w.commentsFor dialect width isProcedure b = .ok comments) : Commentary comments := by
  have hlead : dialect.lineComment = "# " := by
    simp only [Dialect.all, List.mem_cons, List.not_mem_nil, or_false] at hdialect
    rcases hdialect with rfl | rfl <;> rfl
  rw [commentsFor] at h
  split at h
  · exact Except.ok.inj h ▸ commentary_empty
  · obtain ⟨own, hown, hrest⟩ := bind_eq_ok h
    obtain ⟨plugged, hplugged, hboth⟩ := bind_eq_ok hrest
    obtain rfl := Except.ok.inj hboth
    exact (commentary_ownComment hdialect hown).append
      (ofLines_pluggedComments (hlead ▸ commentary_ofLines) hplugged)

lemma written_face {b : Block} (hb : b ∈ w.blocks) : b.face.written ⊆ w.written :=
  fun _ hname => List.mem_append_right _ (List.mem_flatMap.mpr ⟨b, hb, hname⟩)

lemma written_declared : w.declared ⊆ w.written := List.subset_append_left _ _

end Workspace

/-! ### One block -/

namespace Renderer

open Running (Advances)

variable {r : Renderer} {below : Block → Running Piece} {b : Block} {names : List String}
  {s t : Run}

/-- Around code stand the comments of its block, and what follows the block. -/
lemma exists_of_run_surround {code full : String}
    (h : (r.surround below b code).run s = .ok full t) :
    ∃ comments next rest, r.commentsFor b = .ok comments ∧ r.workspace.nextOf b = .ok next ∧
      (optional below next).run s = .ok (.statement rest) t ∧ full = comments ++ code ++ rest := by
  rw [surround_eq] at h
  obtain ⟨comments, s₁, hown, h₁⟩ := Running.exists_of_run_bind h
  obtain ⟨hcomments, rfl⟩ := Running.eq_ok_of_run_ofExcept hown
  obtain ⟨next, s₂, hfirst, h₂⟩ := Running.exists_of_run_bind h₁
  obtain ⟨hnext, rfl⟩ := Running.eq_ok_of_run_ofExcept hfirst
  obtain ⟨piece, u, hpiece, h₃⟩ := Running.exists_of_run_bind h₂
  obtain ⟨rest, s₃, hlast, h₄⟩ := Running.exists_of_run_bind h₃
  obtain ⟨hrest, rfl⟩ := Running.eq_ok_of_run_ofExcept hlast
  obtain ⟨rfl, rfl⟩ := EStateM.Result.ok.inj h₄
  cases piece with
  | value code grade => cases hrest
  | statement code =>
      obtain rfl := Except.ok.inj hrest
      exact ⟨comments, next, code, hcomments, hnext, hpiece, rfl⟩

lemma surrounds_of_run (hdialect : r.style.dialect ∈ Dialect.all) {code full : String}
    (h : (r.surround below b code).run s = .ok full t) : Surrounds code full := by
  obtain ⟨comments, next, rest, hcomments, -, -, rfl⟩ := exists_of_run_surround h
  exact ⟨comments, rest, Workspace.commentary_commentsFor hdialect hcomments, rfl⟩

section Services

variable {Q : Question → Prop} {indent : String}
  (hbelow : ∀ c, r.workspace.Enters b c → Advances Q indent (below c))

include hbelow

lemma advances_expression (name : String) (required : Grade) (default : String) :
    Advances Q indent (r.expression below b name required default) := by
  rw [expression_eq]
  refine Running.advances_ofExcept_bind fun target htarget => ?_
  cases target with
  | none => exact Running.advances_pure _
  | some c =>
      exact (hbelow c (enters_of_target? htarget)).bind fun _ => Running.advances_ofExcept _

lemma advances_optional {target : Option Block}
    (h : ∀ c, target = some c → r.workspace.Enters b c) :
    Advances Q indent (optional below target) := by
  cases target with
  | none => exact Running.advances_pure _
  | some c => exact hbelow c (h c rfl)

lemma advances_statements (name : String) : Advances Q indent (r.statements below b name) := by
  rw [statements_eq]
  refine Running.advances_ofExcept_bind fun target htarget => ?_
  refine (advances_optional hbelow fun c hc => ?_).bind fun _ => Running.advances_ofExcept _
  exact enters_of_target? (hc ▸ htarget)

lemma advances_surround (code : String) : Advances Q indent (r.surround below b code) := by
  rw [surround_eq]
  refine Running.advances_ofExcept_bind fun comments _ => ?_
  refine Running.advances_ofExcept_bind fun next hnext => ?_
  refine (advances_optional hbelow fun c hc => ?_).bind fun piece => ?_
  · exact Workspace.enters_of_nextOf (hc ▸ hnext)
  · exact (Running.advances_ofExcept _).bind fun _ => Running.advances_pure _

end Services

section Standard

variable (hr : r.handlers = Handler.standard) (hdialect : r.style.dialect ∈ Dialect.all)
  (hdeclared : r.workspace.declared ⊆ names)

include hr hdialect hdeclared

/-- The plan of a block leads to later states, and so does each of its exchanges. -/
lemma later_of_plan (hnames : b.face.written ⊆ names) {handler : Handler}
    (hbelow : ∀ c, r.workspace.Enters b c →
      Advances (Question.Allowed names) r.style.indent (below c))
    (hresolve : r.handlers.resolve b.type = .ok handler) {outcome : Outcome}
    (hrun : ((handler r.site b.face).run r.style.indent (r.services below b)).run s =
      .ok outcome t) :
    s.Later (Question.Allowed names) r.style.indent t ∧
    ∀ e ∈ (handler r.site b.face).exchanges r.style.indent (r.services below b) s,
      s.Later (Question.Allowed names) r.style.indent e.before ∧
      e.before.Later (Question.Allowed names) r.style.indent e.after ∧
      e.after.Later (Question.Allowed names) r.style.indent t :=
  (Handler.conveys_of_resolve bearing_false (hr ▸ hresolve) hdeclared hnames).later
    (advances_expression hbelow) (advances_statements hbelow) (advances_surround hbelow)
    (fun _ _ _ _ h => surrounds_of_run hdialect h) hrun

lemma advances_step (hnames : b.face.written ⊆ names)
    (hbelow : ∀ c, r.workspace.Enters b c →
      Advances (Question.Allowed names) r.style.indent (below c)) :
    Advances (Question.Allowed names) r.style.indent (r.step below b) := by
  rw [step]
  split
  · refine Running.advances_ofExcept_bind fun next hnext => ?_
    exact advances_optional hbelow fun c hc => Workspace.enters_of_nextOf (hc ▸ hnext)
  · refine Running.advances_ofExcept_bind fun handler hresolve => ?_
    refine Advances.bind (fun s outcome t hrun => ?_) fun outcome => ?_
    · exact (later_of_plan hr hdialect hdeclared hnames hbelow hresolve hrun).1
    · cases outcome with
      | value code grade =>
          exact (advances_surround hbelow code).bind fun _ => Running.advances_pure _
      | statement code =>
          exact (advances_surround hbelow code).bind fun _ => Running.advances_pure _
      | nothing => exact Running.advances_pure _
      | other kindName => exact Running.advances_throw _

end Standard

/-! ### The whole recursion -/

section Whole

variable (hr : r.handlers = Handler.standard) (hdialect : r.style.dialect ∈ Dialect.all)

include hr hdialect

/-- Rendering a block leads to later states. -/
lemma advances_render (hb : b ∈ r.workspace.blocks) :
    Advances (Question.Allowed r.workspace.written) r.style.indent (r.render b) := by
  have hdepth : ∀ n, ∀ b ∈ r.workspace.blocks,
      Advances (Question.Allowed r.workspace.written) r.style.indent (r.renderTo n b) := by
    intro n
    induction n with
    | zero => exact fun _ _ => Running.advances_throw _
    | succ n ih =>
        intro b hb
        exact advances_step hr hdialect Workspace.written_declared (Workspace.written_face hb)
          fun c hc => ih c hc.mem
  exact hdepth _ b hb

lemma advances_renderTops :
    Advances (Question.Allowed r.workspace.written) r.style.indent r.renderTops := by
  refine (Running.advances_mapM fun b hb => ?_).bind fun texts => Running.advances_pure _
  have hmem := (Workspace.mem_topBlocks_iff.mp hb).1
  exact (advances_render hr hdialect hmem).bind fun piece => Running.advances_pure _

end Whole

end Renderer

end Blockscribe
