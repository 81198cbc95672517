/-
Code that is put together without parentheses.

* `Renderer.Spelled`: a block whose handler gives code that spells given tokens and is no looser
  than a limit.
* `expression_of_spelled`: where the limit is all that is required, such code is put into the code
  around it as it is.
* `render_of_spelled`: the text of such a block is read as its tokens are parsed.
-/
import Blockscribe.Proofs.Grammar.Bare
import Blockscribe.Proofs.Render.Grouping

namespace Blockscribe

open Grammar

namespace Renderer

variable {r : Renderer} {b c : Block} {limit : Rank} {tokens : (String → String) → List Token}
  {s : Run}

/-- From every state, the handler of a block gives code that is no looser than a limit and spells
the tokens, under the identifiers of the state that it leads to and of every later one. -/
def Spelled (r : Renderer) (limit : Rank) (tokens : (String → String) → List Token) (b : Block) :
    Prop :=
  ∀ s : Run, s.NamesFrom Dialect.python.reserved → ∃ code g s',
    (r.outcome b).run s = .ok (.value code (.rank g)) s' ∧ g.toNat ≤ limit.toNat ∧
    ∀ s'', s'.Grows Dialect.python.reserved s'' → Spells code.toList (tokens s''.naming)

lemma spelled_number (hr : r.handlers = Handler.standard) {x : Double}
    (hb : b.IsLone "math_number") (hx : (b.face.fieldOr "NUM" (.int 0)).toDouble = .ok x)
    (hfinite : x.IsFinite) (hlimit : 5 ≤ limit.toNat) :
    r.Spelled limit (fun _ => Tree.numberTokens x) b := by
  refine fun s _ => ⟨_, _, s, outcome_number hr hb hx hfinite s, ?_, fun _ _ =>
    spells_number hfinite⟩
  refine Nat.le_trans ?_ hlimit
  cases x.isNegative <;> decide

lemma spelled_named (hr : r.handlers = Handler.standard) {name : String}
    (hb : b.IsLone "variables_get") (hfield : b.face.field "VAR" = .text name)
    (hname : name ≠ "") : r.Spelled limit (fun naming => [.name (naming name)]) b := by
  intro s hs
  refine ⟨_, .atomic, _, outcome_named hr hb hfield hname s, Nat.zero_le _, fun s'' hgrows => ?_⟩
  obtain ⟨hfree, hidentifier⟩ := Run.legal_named hs name .variable
  show Spells _ [.name (s''.naming name)]
  rw [Run.naming_named hgrows]
  exact spells_name hidentifier fun h => hfree (keywords_subset_reserved h)

lemma spelled_boolean (hr : r.handlers = Handler.standard) {value : Bool}
    (hb : b.IsLone "logic_boolean")
    (hvalue : b.face.field "BOOL" = .text (if value then "TRUE" else "FALSE")) :
    r.Spelled limit (fun _ => [.constant (if value then .true else .false)]) b := by
  intro s _
  refine ⟨_, .atomic, s, outcome_boolean hr hb hvalue s, Nat.zero_le _, fun _ _ => ?_⟩
  cases value with
  | false => exact spells_word (c := 'F') (by decide) (by decide) (by decide) (by decide)
  | true => exact spells_word (c := 'T') (by decide) (by decide) (by decide) (by decide)

/-- A block whose code spells tokens, where the limit is required, gives that code to the block
around it. -/
lemma expression_of_spelled (hw : r.workspace.validate = .ok ()) (hb : b ∈ r.workspace.blocks)
    {name : String} (default : String) (hc : r.workspace.Operand b name (some c))
    (henabled : c.disabled = false) (hlast : c.next = none) (h : r.Spelled limit tokens c)
    (htokens : ∀ naming, tokens naming ≠ []) (hs : s.NamesFrom Dialect.python.reserved) :
    ∃ code s', (r.expression r.render b name (.rank limit) default).run s = .ok code s' ∧
      s.Grows Dialect.python.reserved s' ∧
      ∀ s'', s'.Grows Dialect.python.reserved s'' → Spells code.toList (tokens s''.naming) := by
  obtain ⟨code, g, s', hrun, hg, hspells⟩ := h s hs
  have hgrows := (extends_outcome r c).grows_of_ok hs hrun
  have hcode : code ≠ "" := by
    rintro rfl
    have hscan := (hspells s' hgrows.namesFrom.grows).scan_eq
    exact htokens _ (Option.some.inj hscan).symm
  refine ⟨code, s', ?_, hgrows, hspells⟩
  rw [expression_of_code hw hb hc henabled hlast hcode hrun, wrap_of_le hg]

/-- The text of a block whose code spells tokens is read as they are parsed, unless the comments in
front of the block are refused. -/
lemma render_of_spelled (hw : r.workspace.validate = .ok ()) (hdialect : r.style.dialect = .python)
    (hb : b ∈ r.workspace.blocks) (henabled : b.disabled = false) (hlast : b.next = none)
    (hprocedure : r.handlers.isProcedure b.type = false) (h : r.Spelled limit tokens b)
    (hs : s.NamesFrom Dialect.python.reserved) :
    (∀ fault, r.commentsFor b = .error fault → ∃ s', (r.render b).run s = .error fault s') ∧
    ∀ comments, r.commentsFor b = .ok comments → ∃ text rank s',
      (r.render b).run s = .ok (.value text (.rank rank)) s' ∧
        readText text = parse (tokens s'.naming) := by
  obtain ⟨code, g, s', hrun, -, hspells⟩ := h s hs
  have hnames := ((extends_outcome r b).grows_of_ok hs hrun).namesFrom
  have hrender := render_of_outcome hw hb henabled hlast hrun
  refine ⟨fun fault hfault => ⟨s', by rw [hrender, hfault]; rfl⟩, fun comments hcomments => ?_⟩
  refine ⟨comments ++ code, g, s', by rw [hrender, hcomments]; rfl, ?_⟩
  rw [commentsFor, hprocedure, hdialect] at hcomments
  exact readText_eq_parse (Workspace.skipped_commentsFor hcomments) (hspells s' hnames.grows)

end Renderer

end Blockscribe
