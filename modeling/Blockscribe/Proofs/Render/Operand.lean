/-
Running the handlers of expression blocks.

* `Renderer.render_of_outcome`: rendering an expression block is running its handler and putting the block's
  comments in front.
* `Answers`, `Holds`: a block whose handler gives code that denotes the expression of a tree, and a
  socket with such a block.
* `expression_of_operand`: what a handler gets for an operand.
-/
import Blockscribe.Proofs.Grammar.Regroup
import Blockscribe.Proofs.Render.Outcome
import Blockscribe.Proofs.Render.Tree
import Blockscribe.Proofs.Run.Names

namespace Blockscribe

/-! ### Carrying out a plan -/

lemma Running.run_bind_of_ok {α β : Type} {m : Running α} {f : α → Running β} {s s' : Run} {a : α}
    (h : m.run s = .ok a s') : (m >>= f).run s = (f a).run s' := by
  rw [EStateM.run_bind, h]

lemma Plan.run_expr_bind {α : Type} (indent : String) (services : Services) (socket : String)
    (required : Rank) (default : String) (f : String → Plan α) :
    (Plan.expr socket required default >>= f).run indent services =
      services.expression socket (.rank required) default >>= fun code =>
        (f code).run indent services := rfl

namespace Renderer

variable {r : Renderer} {b c : Block} {s s' : Run}

/-- The handler of a standard block is run. -/
lemma outcome_eq (hr : r.handlers = Handler.standard) {type : String} {h : Handler}
    (htype : b.type = type) (hlookup : Handler.standardTable.lookup type = some h) :
    r.outcome b = (h r.site b.face).run r.style.indent (r.services r.render b) := by
  rw [outcome, hr, htype, Handler.resolve_standard hlookup]
  rfl

/-- An expression block is rendered by its handler, with its comments in front. -/
lemma render_of_outcome (hw : r.workspace.validate = .ok ()) (hb : b ∈ r.workspace.blocks)
    (henabled : b.disabled = false) (hlast : b.next = none) {code : String} {grade : Grade}
    (h : (r.outcome b).run s = .ok (.value code grade) s') :
    (r.render b).run s =
      (Running.ofExcept ((r.commentsFor b).map fun comments =>
        Piece.value (comments ++ code) grade)).run s' := by
  have hnext : r.workspace.nextOf b = .ok none := by
    rw [Workspace.nextOf, hlast]
  rw [render_eq_outcome hw hb henabled, Running.run_bind_of_ok h, complete, surround, hnext]
  cases r.commentsFor b with
  | error fault => rfl
  | ok comments =>
      show EStateM.Result.ok (Piece.value (comments ++ code ++ "") grade) s' = _
      rw [String.append_empty]
      rfl

/-! ### Operands -/

/-- The block that a handler finds in a value socket is its operand. -/
lemma target?_of_operand {name : String} {target : Option Block}
    (h : r.workspace.Operand b name target) : r.target? b name .value = .ok target := by
  rw [target?]
  cases target with
  | none =>
      cases hs : b.socket? name with
      | none => rfl
      | some socket =>
          have hempty : socket.target = none := h socket hs
          simp only [hempty]
  | some c =>
      obtain ⟨socket, hs, hkind, htarget, hfind⟩ := h
      simp only [hs, htarget, hkind, if_true, Workspace.get, hfind]
      rfl

/-- Nothing stands in front of an operand. -/
lemma commentsFor_of_operand (hw : r.workspace.validate = .ok ()) (hb : b ∈ r.workspace.blocks)
    {name : String} (h : r.workspace.Operand b name (some c)) : r.commentsFor c = .ok "" := by
  rw [commentsFor, Workspace.commentsFor, isInline_of_target? hw hb (target?_of_operand h)]
  rfl

/-- A missing operand is a default. -/
lemma expression_of_missing {name default : String} {required : Grade}
    (h : r.workspace.Operand b name none) :
    (r.expression r.render b name required default).run s = .ok default s := by
  rw [expression, target?_of_operand h]
  rfl

/-- The code of an operand is put into parentheses where needed. -/
lemma expression_of_code (hw : r.workspace.validate = .ok ()) (hb : b ∈ r.workspace.blocks)
    {name default code : String} {required g : Rank} (hc : r.workspace.Operand b name (some c))
    (henabled : c.disabled = false) (hlast : c.next = none) (hcode : code ≠ "")
    (h : (r.outcome c).run s = .ok (.value code (.rank g)) s') :
    (r.expression r.render b name (.rank required) default).run s =
      .ok (wrap code g required) s' := by
  have hmem : c ∈ r.workspace.blocks := by
    obtain ⟨_, _, _, _, hfind⟩ := hc
    exact (Workspace.find?_eq_some hfind).1
  have hrender := render_of_outcome hw hmem henabled hlast h
  rw [commentsFor_of_operand hw hb hc] at hrender
  have hpiece : (r.render c).run s = .ok (.value code (.rank g)) s' := by
    rw [hrender]
    show EStateM.Result.ok (Piece.value ("" ++ code) (.rank g)) s' = _
    rw [String.empty_append]
  rw [expression, target?_of_operand hc]
  show ((r.render c) >>= _).run s = _
  rw [Running.run_bind_of_ok hpiece]
  split
  · rename_i heq
    exact nomatch heq
  · rename_i heq
    exact nomatch heq
  · rename_i heq
    exact absurd (Piece.value.inj heq).1 hcode
  · rename_i heq
    obtain ⟨rfl, rfl⟩ := Piece.value.inj heq
    rfl

/-- The handler of a block leads to later states. -/
lemma extends_outcome {reserved : List String} (r : Renderer) (b : Block) :
    Running.Extends reserved (r.outcome b) := by
  refine (Running.extends_ofExcept _).bind fun handler => ?_
  exact Plan.extends_run _ (extends_expression (extends_render r) b)
    (extends_statements (extends_render r) b) (extends_surround (extends_render r) b) _

/-! ### Code that denotes a tree -/

/-- From every state, the handler of a block gives code that denotes the tree, in the state that it
leads to and in every later one. -/
def Answers (r : Renderer) (t : Tree) (b : Block) : Prop :=
  ∀ s : Run, s.NamesFrom Dialect.python.reserved → ∃ code rank s',
    (r.outcome b).run s = .ok (.value code (.rank rank)) s' ∧
    ∀ s'', s'.Grows Dialect.python.reserved s'' → Denotes code rank (t.expr s''.naming)

/-- What is plugged into a socket stands for a tree, and its handler gives code for it. -/
structure Holds (r : Renderer) (b : Block) (name : String) (t : Tree) (target : Option Block) :
    Prop where
  operand : r.workspace.Operand b name target
  stands : r.workspace.Stands t target
  answers : ∀ c, target = some c → r.Answers t c

/-- What a handler gets for an operand: the default for a missing one, else code that denotes it and
is no looser than required. -/
lemma expression_of_operand (hw : r.workspace.validate = .ok ()) (hb : b ∈ r.workspace.blocks)
    {name : String} {t : Tree} {target : Option Block} (h : r.Holds b name t target)
    (required : Rank) (default : String) (hs : s.NamesFrom Dialect.python.reserved) :
    ∃ code s', (r.expression r.render b name (.rank required) default).run s = .ok code s' ∧
      s.Grows Dialect.python.reserved s' ∧ (t.isMissing = true → code = default) ∧
      (t.isMissing = false → ∀ s'', s'.Grows Dialect.python.reserved s'' →
        Denotes code required (t.expr s''.naming)) := by
  cases target with
  | none =>
      have hmissing := h.stands.isMissing_iff.mpr rfl
      refine ⟨default, s, expression_of_missing h.operand, hs.grows, fun _ => rfl, fun ht => ?_⟩
      exact Bool.noConfusion (hmissing.symm.trans ht)
  | some c =>
      obtain ⟨code, g, s', hrun, hdenotes⟩ := h.answers c rfl s hs
      have hgrows := (extends_outcome r c).grows_of_ok hs hrun
      have hcode := (hdenotes s' hgrows.namesFrom.grows).ne_empty
      obtain ⟨henabled, hlast⟩ := h.stands.lone
      refine ⟨wrap code g required, s', ?_, hgrows, fun ht => ?_, fun _ s'' hlater => ?_⟩
      · exact expression_of_code hw hb h.operand henabled hlast hcode hrun
      · exact nomatch h.stands.isMissing_iff.mp ht
      · exact (hdenotes s'' hlater).wrap

/-- The same for a default that denotes an expression. -/
lemma expression_orElse (hw : r.workspace.validate = .ok ()) (hb : b ∈ r.workspace.blocks)
    {name : String} {t : Tree} {target : Option Block} (h : r.Holds b name t target)
    {required : Rank} {default : String} {x : Grammar.Expr} (hdefault : Denotes default required x)
    (hs : s.NamesFrom Dialect.python.reserved) :
    ∃ code s', (r.expression r.render b name (.rank required) default).run s = .ok code s' ∧
      s.Grows Dialect.python.reserved s' ∧ ∀ s'', s'.Grows Dialect.python.reserved s'' →
        Denotes code required (t.orElse x (t.expr s''.naming)) := by
  obtain ⟨code, s', hrun, hgrows, hmissing, hpresent⟩ :=
    expression_of_operand hw hb h required default hs
  refine ⟨code, s', hrun, hgrows, fun s'' hlater => ?_⟩
  rw [Tree.orElse]
  cases ht : t.isMissing with
  | true => exact (if_pos rfl).symm ▸ hmissing ht ▸ hdefault
  | false => exact (if_neg Bool.false_ne_true).symm ▸ hpresent ht s'' hlater

end Renderer

end Blockscribe
