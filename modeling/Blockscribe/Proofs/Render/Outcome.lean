/-
What becomes of pieces of code, and of what a handler makes of its block.

* `Piece.asOperand`, `asBody`, `asRest`: a piece in a socket of either kind, or after a block.
* `Renderer.expression_eq`, `statements_eq`, `surround_eq`: the services in terms of these.
* `isInline_of_target?`: what a handler finds in a value socket is inline.
* `outcome`, `complete`: what the handler of a block makes of it, and what becomes of that.
* `render_eq_outcome`: an enabled block is rendered by its handler.
-/
import Blockscribe.Proofs.Render.Depth

namespace Blockscribe

/-! ### What becomes of a piece -/

/-- Code that is no looser than required is left as it is. -/
lemma wrap_of_le {g r : Rank} (h : g.toNat ≤ r.toNat) (code : String) : wrap code g r = code := by
  rw [wrap, wrapAt, if_neg]
  omega

/-- An expression is left as it is or put in parentheses. -/
lemma eq_or_parenthesized {code wrapped : String} {grade required : Grade}
    (h : resolve code grade required = .ok wrapped) :
    wrapped = code ∨ wrapped = "(" ++ code ++ ")" := by
  cases grade with
  | unknown v => exact nomatch h
  | rank g =>
      cases required with
      | unknown v => exact nomatch h
      | rank r =>
          obtain rfl := Except.ok.inj h
          rw [wrap, wrapAt]
          split
          · exact .inr rfl
          · exact .inl rfl

namespace Piece

/-- A piece as an operand of a block, for a socket of a name. -/
def asOperand (type name : String) (required : Grade) (default : String) :
    Piece → Except Fault String
  | statement code =>
      if code = "" then .ok default
      else
        .error (.block type ("render value input '" ++ name ++ "'")
          "block does not produce a value")
  | value code grade =>
      if code = "" then .ok default
      else
        match resolve code grade required with
        | .ok wrapped => .ok wrapped
        | .error flaw => .error (.block type ("render value input '" ++ name ++ "'") flaw.text)

/-- A piece as the statements inside a block, for a socket of a name. -/
def asBody (type name indent : String) : Piece → Except Fault String
  | statement code => .ok (if code = "" then "" else leadLines indent code)
  | value .. =>
      .error (.block type ("render statement input '" ++ name ++ "'") "block produces a value")

/-- A piece as the statements that follow a block. -/
def asRest (type : String) : Piece → Except Fault String
  | statement code => .ok code
  | value .. => .error (.block type "render next statement" "following block produces a value")

end Piece

namespace Renderer

section Services

variable (r : Renderer) (below : Block → Running Piece) (b : Block)

lemma expression_eq (name : String) (required : Grade) (default : String) :
    r.expression below b name required default =
      (Running.ofExcept (r.target? b name .value) >>= fun
        | none => pure default
        | some c => below c >>= fun piece =>
            Running.ofExcept (piece.asOperand c.type name required default)) := by
  refine congrArg (Running.ofExcept (r.target? b name .value) >>= ·) (funext fun t => ?_)
  cases t with
  | none => rfl
  | some c =>
      refine congrArg (below c >>= ·) (funext fun piece => ?_)
      split
      · rfl
      · rename_i code hcode
        rw [Piece.asOperand, if_neg hcode]
        rfl
      · rfl
      · rename_i code grade hcode
        rw [Piece.asOperand, if_neg hcode]
        cases resolve code grade required <;> rfl

lemma statements_eq (name : String) :
    r.statements below b name =
      (Running.ofExcept (r.target? b name .statement) >>= fun t =>
        optional below t >>= fun piece =>
          Running.ofExcept (piece.asBody (t.elim "" fun c => c.type) name r.style.indent)) := by
  refine congrArg (_ >>= ·) (funext fun t => ?_)
  cases t with
  | none => rfl
  | some c =>
      refine congrArg (below c >>= ·) (funext fun piece => ?_)
      split
      · rfl
      · rename_i code hcode
        rw [Piece.asBody, if_neg hcode]
        rfl
      · rfl

lemma surround_eq (code : String) :
    r.surround below b code =
      (Running.ofExcept (r.commentsFor b) >>= fun comments =>
        Running.ofExcept (r.workspace.nextOf b) >>= fun next => optional below next >>= fun piece =>
          Running.ofExcept (piece.asRest b.type) >>= fun rest =>
            pure (comments ++ code ++ rest)) := by
  refine congrArg (_ >>= ·) (funext fun comments => ?_)
  refine congrArg (_ >>= ·) (funext fun next => ?_)
  refine congrArg (_ >>= ·) (funext fun piece => ?_)
  cases piece <;> rfl

end Services

variable {r : Renderer} {b c : Block}

/-! ### Sockets -/

/-- What a handler finds in a value socket is inline. -/
lemma isInline_of_target? (hw : r.workspace.validate = .ok ()) (hb : b ∈ r.workspace.blocks)
    {name : String} (h : r.target? b name .value = .ok (some c)) :
    r.workspace.isInline c.id = true := by
  obtain ⟨s, hs, hkind, htarget, -⟩ := socket_of_target? h
  refine (Workspace.isInline_iff (Workspace.nodup_of_validate hw)).mpr ?_
  refine ⟨_, Workspace.mem_links_of_socket hb (List.mem_of_find?_eq_some hs) htarget, rfl, ?_⟩
  rw [hkind]

/-! ### What a handler makes of its block -/

/-- What the handler of a block makes of it. -/
def outcome (r : Renderer) (b : Block) : Running Outcome := do
  let handler ← Running.ofExcept (r.handlers.resolve b.type)
  (handler r.site b.face).run r.style.indent (r.services r.render b)

/-- What an outcome becomes: code with the comments of the block and what follows after it. -/
def complete (r : Renderer) (b : Block) : Outcome → Running Piece
  | .value code grade => return .value (← r.surround r.render b code) grade
  | .statement code => return .statement (← r.surround r.render b code)
  | .nothing => return .statement ""
  | .other kindName => throw (.block b.type "generate code" ("handler returned " ++ kindName))

/-- An enabled block is rendered by its handler. -/
lemma render_eq_outcome (hw : r.workspace.validate = .ok ()) (hb : b ∈ r.workspace.blocks)
    (henabled : b.disabled = false) : r.render b = r.outcome b >>= r.complete b := by
  rw [render_eq_step hw hb, step, henabled, if_neg Bool.false_ne_true, outcome]
  refine Eq.trans ?_ (bind_assoc _ _ _).symm
  refine congrArg (_ >>= ·) (funext fun handler => congrArg (_ >>= ·) (funext fun outcome => ?_))
  cases outcome <;> rfl

end Renderer

end Blockscribe
