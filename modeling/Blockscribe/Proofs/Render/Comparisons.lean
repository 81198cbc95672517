/-
Comparisons of comparisons.

* `Comparing`: trees of comparison blocks over variables and numbers.
* `Workspace.Compares`: the tree of a block.
* `spelled_of_compares`: the code of a tree is its operands and operators in a row, since both
  operands are asked for at the rank of comparisons.
* `render_comparisons`: so the text is read as one chain, and as the tree only if no comparison is
  nested in another.
-/
import Blockscribe.Proofs.Render.Bare

namespace Blockscribe

open Grammar

namespace Grammar.Comparison

/-- How a block names the operator. -/
def key : Comparison → String
  | equal => "EQ"
  | unequal => "NEQ"
  | less => "LT"
  | lessEqual => "LTE"
  | greater => "GT"
  | greaterEqual => "GTE"

lemma lookup_key (op : Comparison) :
    Handler.Logic.comparisons.lookup op.key = some op.text := by
  cases op <;> rfl

end Grammar.Comparison

/-! ### Trees -/

/-- A tree of comparison blocks. -/
inductive Comparing
  | number (x : Double)
  | named (name : String)
  | compare (op : Comparison) (left right : Comparing)

namespace Comparing

/-- The expression that a tree stands for, under identifiers for the variables. -/
def expr (naming : String → String) : Comparing → Expr
  | number x => Tree.numberExpr x
  | named name => .name (naming name)
  | compare op left right => .compare op (left.expr naming) (right.expr naming)

/-- Whether a tree is a number or a variable. -/
def isLeaf : Comparing → Bool
  | compare .. => false
  | _ => true

/-- Whether no comparison is nested in another. -/
def isFlat : Comparing → Bool
  | compare _ left right => left.isLeaf && right.isLeaf
  | _ => true

/-- The tokens of the operands and operators in a row. -/
def tokens (naming : String → String) : Comparing → List Token
  | number x => Tree.numberTokens x
  | named name => [.name (naming name)]
  | compare op left right => left.tokens naming ++ .comparison op :: right.tokens naming

/-- The first operand of the row. -/
def first (naming : String → String) : Comparing → Expr
  | number x => Tree.numberExpr x
  | named name => .name (naming name)
  | compare _ left _ => left.first naming

/-- The operators of the row, each with the operand behind it. -/
def rest (naming : String → String) : Comparing → List (Comparison × Expr)
  | number _ => []
  | named _ => []
  | compare op left right => left.rest naming ++ (op, right.first naming) :: right.rest naming

variable (naming : String → String)

/-- The row starts with an operand that is no comparison, and goes on with links of a chain. -/
lemma exists_links (t : Comparing) : ∃ a c, t.tokens naming = a ++ c ∧
    Derives (.whole .sum) a (t.first naming) ∧ Links c (t.rest naming) := by
  induction t with
  | number x =>
      refine ⟨Tree.numberTokens x, [], (List.append_nil _).symm, ?_, .nil⟩
      rw [first, Tree.numberTokens, Tree.numberExpr]
      cases x.isNegative with
      | true => exact (Derives.negative ((Derives.number _).lift (by decide))).lift (by decide)
      | false => exact (Derives.number _).lift (by decide)
  | named name => exact ⟨[.name (naming name)], [], rfl, (Derives.name _).lift (by decide), .nil⟩
  | compare op left right ihl ihr =>
      obtain ⟨a, c, htokens, ha, hc⟩ := ihl
      obtain ⟨a', c', htokens', ha', hc'⟩ := ihr
      refine ⟨a, c ++ .comparison op :: (a' ++ c'), ?_, ha, hc.append (.cons ha' hc')⟩
      rw [tokens, htokens, htokens', List.append_assoc]

/-- The row is parsed to one chain. -/
lemma parse_tokens (t : Comparing) :
    parse (t.tokens naming) = some (chained (t.first naming) (t.rest naming)) := by
  obtain ⟨a, c, htokens, ha, hc⟩ := t.exists_links naming
  rw [htokens]
  exact parse_of_derives ((derives_chained ha hc).lift (by decide))

lemma tokens_ne_nil (t : Comparing) : t.tokens naming ≠ [] := by
  cases t with
  | number x =>
      rw [tokens, Tree.numberTokens]
      cases x.isNegative <;> exact List.cons_ne_nil _ _
  | named name => exact List.cons_ne_nil _ _
  | compare => exact List.append_ne_nil_of_right_ne_nil _ (List.cons_ne_nil _ _)

lemma rest_of_isLeaf {t : Comparing} (h : t.isLeaf = true) :
    t.rest naming = [] ∧ t.first naming = t.expr naming := by
  cases t with
  | number | named => exact ⟨rfl, rfl⟩
  | compare => exact nomatch h

lemma length_rest_of_not_isLeaf {t : Comparing} (h : t.isLeaf = false) :
    1 ≤ (t.rest naming).length := by
  cases t with
  | number | named => exact nomatch h
  | compare =>
      rw [rest, List.length_append, List.length_cons]
      omega

/-- The chain is the tree only if no comparison is nested in another. -/
lemma chained_eq_expr_iff (t : Comparing) :
    chained (t.first naming) (t.rest naming) = t.expr naming ↔ t.isFlat = true := by
  cases t with
  | number | named => exact ⟨fun _ => rfl, fun _ => rfl⟩
  | compare op left right =>
      rw [isFlat, Bool.and_eq_true]
      refine ⟨fun h => ?_, fun ⟨hleft, hright⟩ => ?_⟩
      · refine Decidable.byContradiction fun hnested => chained_ne_compare ?_ h
        have hlong : 1 ≤ (left.rest naming).length ∨ 1 ≤ (right.rest naming).length := by
          rw [Decidable.not_and_iff_or_not, Bool.not_eq_true, Bool.not_eq_true] at hnested
          exact hnested.imp (length_rest_of_not_isLeaf naming) (length_rest_of_not_isLeaf naming)
        rw [rest, List.length_append, List.length_cons]
        omega
      · obtain ⟨hrest, hfirst⟩ := rest_of_isLeaf naming hleft
        obtain ⟨hrest', hfirst'⟩ := rest_of_isLeaf naming hright
        rw [rest, first, expr, hrest, hrest', hfirst, hfirst']
        rfl

end Comparing

namespace Workspace

/-- The tree of a block. -/
inductive Compares (w : Workspace) : Comparing → Block → Prop
  | number {b : Block} {x : Double} : b.IsLone "math_number" →
      (b.face.fieldOr "NUM" (.int 0)).toDouble = .ok x → x.IsFinite → Compares w (.number x) b
  | named {b : Block} {name : String} : b.IsLone "variables_get" →
      b.face.field "VAR" = .text name → name ≠ "" → Compares w (.named name) b
  | compare {b l r : Block} {op : Comparison} {left right : Comparing} :
      b.IsLone "logic_compare" → b.face.field "OP" = .text op.key →
      w.Operand b "A" (some l) → Compares w left l → w.Operand b "B" (some r) →
      Compares w right r → Compares w (.compare op left right) b

variable {w : Workspace} {t : Comparing} {b : Block}

/-- A block of a tree is enabled and nothing follows after it. -/
lemma Compares.lone (h : w.Compares t b) : b.disabled = false ∧ b.next = none := by
  cases h with
  | number hb | named hb | compare hb => exact ⟨hb.enabled, hb.last⟩

/-- No block of a tree defines a procedure. -/
lemma Compares.isProcedure (h : w.Compares t b) :
    Handler.standard.isProcedure b.type = false := by
  cases h with
  | number hb | named hb | compare hb =>
      rw [hb.type_eq]
      rfl

end Workspace

/-! ### Code -/

namespace Renderer

variable {r : Renderer} {b : Block}

/-- The handler of a comparison asks for both operands at its own rank, which leaves comparisons
among them without parentheses. -/
lemma spelled_compare (hw : r.workspace.validate = .ok ()) (hr : r.handlers = Handler.standard)
    (hb : b ∈ r.workspace.blocks) {op : Comparison} {left right : Comparing} {l c : Block}
    (hlone : b.IsLone "logic_compare") (hop : b.face.field "OP" = .text op.key)
    (hl : r.workspace.Operand b "A" (some l)) (hleft : r.workspace.Compares left l)
    (hc : r.workspace.Operand b "B" (some c)) (hright : r.workspace.Compares right c)
    (hlspelled : r.Spelled .relational (left.tokens ·) l)
    (hcspelled : r.Spelled .relational (right.tokens ·) c) :
    r.Spelled .relational ((Comparing.compare op left right).tokens ·) b := by
  intro s hs
  obtain ⟨lcode, s₁, hlrun, hlgrows, hlspells⟩ := expression_of_spelled hw hb "0" hl
    hleft.lone.1 hleft.lone.2 hlspelled (left.tokens_ne_nil ·) hs
  obtain ⟨rcode, s₂, hrrun, hrgrows, hrspells⟩ := expression_of_spelled hw hb "0" hc
    hright.lone.1 hright.lone.2 hcspelled (right.tokens_ne_nil ·) hlgrows.namesFrom
  refine ⟨lcode ++ " " ++ op.text ++ " " ++ rcode, .relational, s₂, ?_, Nat.le_refl _,
    fun s'' hgrows => ?_⟩
  · rw [outcome_eq hr hlone.type_eq (rfl : _ = some Handler.Logic.compare), Handler.Logic.compare,
      hop]
    dsimp only
    rw [op.lookup_key]
    dsimp only
    rw [Plan.run_expr_bind]
    exact (Running.run_bind_of_ok hlrun).trans (Running.run_bind_of_ok hrrun)
  · exact spells_comparison op (hlspells s'' (hrgrows.trans hgrows)) (hrspells s'' hgrows)

/-- The code of a tree is its operands and operators in a row. -/
lemma spelled_of_compares (hw : r.workspace.validate = .ok ()) (hr : r.handlers = Handler.standard)
    {t : Comparing} (ht : r.workspace.Compares t b) (hb : b ∈ r.workspace.blocks) :
    r.Spelled .relational (t.tokens ·) b := by
  induction ht with
  | number hlone hx hfinite => exact spelled_number hr hlone hx hfinite (by decide)
  | named hlone hfield hname => exact spelled_named hr hlone hfield hname
  | compare hlone hop hl hleft hc hright ihl ihc =>
      exact spelled_compare hw hr hb hlone hop hl hleft hc hright (ihl (hl.mem rfl))
        (ihc (hc.mem rfl))

/-- **Nested comparisons are read as one chain.** In an accepted workspace, with the standard
handlers, the python dialect and otherwise any style, let a block stand for a tree of comparisons
over variables and finite numbers. From every state whose identifiers come from a sequence of
requests, rendering the block gives text that is read to the chain of all comparisons of the tree,
from left to right; unless the comments in front of the block are refused, and then with that fault.
The chain is the expression of the tree exactly if no comparison is nested in another. -/
theorem render_comparisons {w : Workspace} (hw : w.validate = .ok ()) {style : Style}
    (hstyle : style.dialect = .python) {b : Block} (hb : b ∈ w.blocks) {t : Comparing}
    (ht : w.Compares t b) {s : Run} (hs : s.NamesFrom Dialect.python.reserved) :
    (∀ fault, (standard w style).commentsFor b = .error fault →
      ∃ s', ((standard w style).render b).run s = .error fault s') ∧
    ∀ comments, (standard w style).commentsFor b = .ok comments →
      ∃ text rank s', ((standard w style).render b).run s = .ok (.value text (.rank rank)) s' ∧
        readText text = some (chained (t.first s'.naming) (t.rest s'.naming)) ∧
        (readText text = some (t.expr s'.naming) ↔ t.isFlat = true) := by
  have hspelled := spelled_of_compares (r := standard w style) hw rfl ht hb
  obtain ⟨hrefused, hread⟩ := render_of_spelled (r := standard w style) hw hstyle hb ht.lone.1
    ht.lone.2 ht.isProcedure hspelled hs
  refine ⟨hrefused, fun comments hcomments => ?_⟩
  obtain ⟨text, rank, s', hrun, htext⟩ := hread comments hcomments
  rw [t.parse_tokens s'.naming] at htext
  refine ⟨text, rank, s', hrun, htext, ?_⟩
  rw [htext, Option.some_inj]
  exact t.chained_eq_expr_iff s'.naming

/-- The comparison of `a < b` with `c`. -/
def comparisonSample : Workspace :=
  Workspace.edited []
    [.add ⟨"variables_get", [("VAR", .text "a")], [], none, .null, false, []⟩,
      .add ⟨"variables_get", [("VAR", .text "b")], [], none, .null, false, []⟩,
      .add ⟨"logic_compare", [("OP", .text "LT")],
        [⟨"A", .value, some 1⟩, ⟨"B", .value, some 2⟩], none, .null, false, []⟩,
      .add ⟨"variables_get", [("VAR", .text "c")], [], none, .null, false, []⟩,
      .add ⟨"logic_compare", [("OP", .text "LT")],
        [⟨"A", .value, some 3⟩, ⟨"B", .value, some 4⟩], none, .null, false, []⟩]

/-- The tree of the last block of the sample. -/
def comparisonTree : Comparing :=
  .compare .less (.compare .less (.named "a") (.named "b")) (.named "c")

theorem render_comparisons_comparisonSample : comparisonSample.validate = .ok () ∧
    ∃ b ∈ comparisonSample.blocks, ∃ text rank s',
      ((standard comparisonSample ⟨.python, true, "  ", .whole 60⟩).render b).run
        (.closed Dialect.python.reserved) = .ok (.value text (.rank rank)) s' ∧
      readText text ≠ some (comparisonTree.expr s'.naming) := by
  have ha : comparisonSample.Compares (.named "a") comparisonSample.blocks[0] :=
    .named ⟨rfl, rfl, rfl⟩ rfl (by decide)
  have hb : comparisonSample.Compares (.named "b") comparisonSample.blocks[1] :=
    .named ⟨rfl, rfl, rfl⟩ rfl (by decide)
  have hinner : comparisonSample.Compares (.compare .less (.named "a") (.named "b"))
      comparisonSample.blocks[2] :=
    .compare ⟨rfl, rfl, rfl⟩ rfl (.of_plugged rfl rfl) ha (.of_plugged rfl rfl) hb
  have hc : comparisonSample.Compares (.named "c") comparisonSample.blocks[3] :=
    .named ⟨rfl, rfl, rfl⟩ rfl (by decide)
  have htree : comparisonSample.Compares comparisonTree comparisonSample.blocks[4] :=
    .compare ⟨rfl, rfl, rfl⟩ rfl (.of_plugged rfl rfl) hinner (.of_plugged rfl rfl) hc
  have hmem : comparisonSample.blocks[4] ∈ comparisonSample.blocks := List.getElem_mem _
  obtain ⟨text, rank, s', hrun, -, hiff⟩ :=
    (@render_comparisons comparisonSample rfl ⟨.python, true, "  ", .whole 60⟩ rfl _ hmem
      comparisonTree htree (.closed Dialect.python.reserved) ⟨[], rfl⟩).2 "" rfl
  exact ⟨rfl, _, hmem, text, rank, s', hrun, fun h => absurd (hiff.mp h) (by decide)⟩

end Renderer

end Blockscribe
