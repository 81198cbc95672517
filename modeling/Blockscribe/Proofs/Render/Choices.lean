/-
Conditional expressions of conditional expressions.

* `Choosing`: trees of conditional expression blocks over variables and truth values.
* `Workspace.Chooses`: the tree of a block.
* `spelled_of_chooses`: the code of a tree has no parentheses, since all three operands are asked
  for at the rank of conditional expressions.
* `parse_tokens`: so a conditional expression in a condition is refused, and one in front of an `if`
  becomes part of what is chosen otherwise.
* `render_choices`: the text is read as the tree only if the tree is nested in its last operands.
-/
import Blockscribe.Proofs.Render.Bare

namespace Blockscribe

open Grammar

/-! ### Trees -/

/-- A tree of conditional expression blocks. -/
inductive Choosing
  | boolean (value : Bool)
  | named (name : String)
  | choose (condition whenTrue whenFalse : Choosing)

namespace Choosing

/-- The expression that a tree stands for, under identifiers for the variables. -/
def expr (naming : String → String) : Choosing → Expr
  | boolean value => .constant (if value then .true else .false)
  | named name => .name (naming name)
  | choose condition whenTrue whenFalse =>
      .conditional (condition.expr naming) (whenTrue.expr naming) (whenFalse.expr naming)

/-- Whether a tree is a truth value or a variable. -/
def isLeaf : Choosing → Bool
  | choose .. => false
  | _ => true

/-- Whether no condition is a conditional expression. -/
def hasPlainConditions : Choosing → Bool
  | choose condition whenTrue whenFalse =>
      condition.isLeaf && whenTrue.hasPlainConditions && whenFalse.hasPlainConditions
  | _ => true

/-- Whether conditional expressions are nested in last operands only. -/
def isLadder : Choosing → Bool
  | choose condition whenTrue whenFalse =>
      condition.isLeaf && whenTrue.isLeaf && whenFalse.isLadder
  | _ => true

/-- The tokens of the operands, without parentheses. -/
def tokens (naming : String → String) : Choosing → List Token
  | boolean value => [.constant (if value then .true else .false)]
  | named name => [.name (naming name)]
  | choose condition whenTrue whenFalse =>
      whenTrue.tokens naming ++
        .cond :: (condition.tokens naming ++ .otherwise :: whenFalse.tokens naming)

/-- The value at the end of the row. -/
def last (naming : String → String) : Choosing → Expr
  | boolean value => .constant (if value then .true else .false)
  | named name => .name (naming name)
  | choose _ _ whenFalse => whenFalse.last naming

/-- The other values of the row, each with the condition behind it. -/
def arms (naming : String → String) : Choosing → List (Expr × Expr)
  | boolean _ => []
  | named _ => []
  | choose condition whenTrue whenFalse =>
      whenTrue.arms naming ++
        (whenTrue.last naming, condition.expr naming) :: whenFalse.arms naming

variable (naming : String → String)

lemma tokens_ne_nil (t : Choosing) : t.tokens naming ≠ [] := by
  cases t with
  | boolean | named => exact List.cons_ne_nil _ _
  | choose => exact List.append_ne_nil_of_right_ne_nil _ (List.cons_ne_nil _ _)

/-! ### Plain conditions -/

section Leaf

variable {t : Choosing}

lemma arms_of_isLeaf (h : t.isLeaf = true) : t.arms naming = [] ∧ t.last naming = t.expr naming := by
  cases t with
  | boolean | named => exact ⟨rfl, rfl⟩
  | choose => exact nomatch h

lemma derives_of_isLeaf (h : t.isLeaf = true) {L : Grammar.Level} :
    Derives (.whole L) (t.tokens naming) (t.expr naming) := by
  cases t with
  | boolean => exact Derives.lift (.constant _) (Nat.zero_le _)
  | named => exact Derives.lift (.name _) (Nat.zero_le _)
  | choose => exact nomatch h

lemma hasPlainConditions_of_isLeaf (h : t.isLeaf = true) : t.hasPlainConditions = true := by
  cases t with
  | boolean | named => rfl
  | choose => exact nomatch h

end Leaf

/-- A tree in front of an `if` becomes part of what is chosen otherwise. -/
lemma derives_before {t : Choosing} (ht : t.hasPlainConditions = true) :
    ∀ {b c : List Token} {y z : Expr}, Derives (.whole .disjunction) b y →
      Derives (.whole .conditional) c z →
      Derives (.whole .conditional) (t.tokens naming ++ .cond :: (b ++ .otherwise :: c))
        (branched (t.arms naming ++ [(t.last naming, y)]) z) := by
  induction t with
  | boolean value =>
      exact fun hb hc => derives_conditional (derives_of_isLeaf naming (t := .boolean value) rfl) hb hc
  | named name =>
      exact fun hb hc => derives_conditional (derives_of_isLeaf naming (t := .named name) rfl) hb hc
  | choose condition whenTrue whenFalse _ iht ihf =>
      intro b c y z hb hc
      rw [hasPlainConditions, Bool.and_eq_true, Bool.and_eq_true] at ht
      have hlast := ihf ht.2 hb hc
      have hall := iht ht.1.2 (derives_of_isLeaf naming ht.1.1) hlast
      rw [← branched_append] at hall
      rw [tokens, arms, last]
      simp only [List.append_assoc, List.cons_append, List.nil_append] at hall ⊢
      exact hall

/-- With plain conditions the row is parsed from left to right. -/
lemma derives_branched {t : Choosing} (ht : t.hasPlainConditions = true) :
    Derives (.whole .conditional) (t.tokens naming) (branched (t.arms naming) (t.last naming)) := by
  induction t with
  | boolean value => exact derives_of_isLeaf naming (t := .boolean value) rfl
  | named name => exact derives_of_isLeaf naming (t := .named name) rfl
  | choose condition whenTrue whenFalse _ _ ihf =>
      rw [hasPlainConditions, Bool.and_eq_true, Bool.and_eq_true] at ht
      have hall := derives_before naming ht.1.2 (derives_of_isLeaf naming ht.1.1)
        (ihf ht.2)
      rw [← branched_append, List.append_assoc] at hall
      exact hall

/-! ### Other conditions -/

lemma opening_notMem_tokens (t : Choosing) : .opening ∉ t.tokens naming := by
  induction t with
  | boolean | named => simp [tokens]
  | choose condition whenTrue whenFalse ihc iht ihf => simp [tokens, ihc, iht, ihf]

lemma marks_tokens_choose (condition whenTrue whenFalse : Choosing) :
    marks ((choose condition whenTrue whenFalse).tokens naming) =
      marks (whenTrue.tokens naming) ++ .cond :: (marks (condition.tokens naming) ++
        .otherwise :: marks (whenFalse.tokens naming)) := by
  simp [tokens, marks]

/-- A conditional expression has an `if` in front of its marks. -/
lemma exists_marks {t : Choosing} (h : t.isLeaf = false) :
    ∃ more, marks (t.tokens naming) = .cond :: more := by
  induction t with
  | boolean | named => exact nomatch h
  | choose condition whenTrue whenFalse _ iht _ =>
      rw [marks_tokens_choose]
      cases hleaf : whenTrue.isLeaf with
      | false =>
          obtain ⟨more, hmore⟩ := iht hleaf
          exact ⟨_, by rw [hmore, List.cons_append]⟩
      | true =>
          have hnone := (derives_of_isLeaf naming hleaf (L := .atom)).alternates
            (opening_notMem_tokens naming _)
          exact ⟨_, by rw [hnone.2 (by decide), List.nil_append]⟩

/-- If each `if` is followed by its `else`, no condition is a conditional expression. -/
lemma hasPlainConditions_of_alternates (t : Choosing) : ∀ {more : List Token},
    Alternates (marks (t.tokens naming) ++ more) →
      t.hasPlainConditions = true ∧ Alternates more := by
  induction t with
  | boolean | named => exact fun h => ⟨rfl, h⟩
  | choose condition whenTrue whenFalse _ iht ihf =>
      intro more h
      rw [marks_tokens_choose, List.append_assoc, List.cons_append, List.append_assoc,
        List.cons_append] at h
      obtain ⟨htrue, h⟩ := iht h
      cases hleaf : condition.isLeaf with
      | false =>
          obtain ⟨rest, hrest⟩ := exists_marks naming hleaf
          rw [hrest] at h
          exact nomatch h
      | true =>
          have hnone := (derives_of_isLeaf naming hleaf (L := .atom)).alternates
            (opening_notMem_tokens naming _)
          rw [hnone.2 (by decide), List.nil_append] at h
          cases h with
          | cons h =>
              obtain ⟨hfalse, h⟩ := ihf h
              exact ⟨by rw [hasPlainConditions, hleaf, htrue, hfalse]; rfl, h⟩

/-- The row is parsed from left to right; with a conditional expression in a condition it is
refused. -/
lemma parse_tokens (t : Choosing) : parse (t.tokens naming) =
    if t.hasPlainConditions then some (branched (t.arms naming) (t.last naming)) else none := by
  cases hplain : t.hasPlainConditions with
  | true => exact parse_of_derives (derives_branched naming hplain)
  | false =>
      rw [if_neg Bool.false_ne_true, Option.eq_none_iff_forall_ne_some]
      intro x hx
      have hmarks := (parse_eq_some_iff.mp hx).alternates (opening_notMem_tokens naming t)
      have halternates : Alternates (marks (t.tokens naming) ++ []) := by
        rw [List.append_nil]
        exact hmarks.1
      have hboth := hplain.symm.trans (t.hasPlainConditions_of_alternates naming halternates).1
      exact Bool.false_ne_true hboth

/-! ### Ladders -/

lemma hasPlainConditions_of_isLadder {t : Choosing} (h : t.isLadder = true) :
    t.hasPlainConditions = true := by
  induction t with
  | boolean | named => rfl
  | choose condition whenTrue whenFalse _ _ ih =>
      rw [isLadder, Bool.and_eq_true, Bool.and_eq_true] at h
      rw [hasPlainConditions, h.1.1, hasPlainConditions_of_isLeaf h.1.2, ih h.2]
      rfl

/-- The first value of a row is no conditional expression. -/
lemma exists_arm {t : Choosing} (h : t.isLeaf = false) : ∃ leaf y more,
    t.arms naming = (expr naming leaf, y) :: more ∧ leaf.isLeaf = true := by
  induction t with
  | boolean | named => exact nomatch h
  | choose condition whenTrue whenFalse _ iht _ =>
      rw [arms]
      cases hleaf : whenTrue.isLeaf with
      | false =>
          obtain ⟨leaf, y, more, harms, hl⟩ := iht hleaf
          exact ⟨leaf, y, _, by rw [harms, List.cons_append], hl⟩
      | true =>
          obtain ⟨harms, hlast⟩ := arms_of_isLeaf naming hleaf
          exact ⟨whenTrue, _, _, by rw [harms, hlast, List.nil_append], hleaf⟩

lemma expr_ne_of_isLeaf {t u : Choosing} (ht : t.isLeaf = true) (hu : u.isLeaf = false) :
    t.expr naming ≠ u.expr naming := by
  cases u with
  | boolean | named => exact nomatch hu
  | choose =>
      cases t with
      | boolean | named => exact Expr.noConfusion
      | choose => exact nomatch ht

/-- Read from left to right, the row is the tree only if the tree is a ladder. -/
lemma branched_eq_expr_iff {t : Choosing} (ht : t.hasPlainConditions = true) :
    branched (t.arms naming) (t.last naming) = t.expr naming ↔ t.isLadder = true := by
  induction t with
  | boolean | named => exact ⟨fun _ => rfl, fun _ => rfl⟩
  | choose condition whenTrue whenFalse _ _ ih =>
      rw [hasPlainConditions, Bool.and_eq_true, Bool.and_eq_true] at ht
      rw [isLadder, ht.1.1, Bool.true_and, Bool.and_eq_true, arms, last, expr]
      cases hleaf : whenTrue.isLeaf with
      | true =>
          obtain ⟨harms, hlast⟩ := arms_of_isLeaf naming hleaf
          rw [harms, hlast, List.nil_append, ← ih ht.2]
          refine ⟨fun h => ⟨rfl, (Expr.conditional.inj h).2.2⟩, fun h => ?_⟩
          exact congrArg (Expr.conditional _ _) h.2
      | false =>
          obtain ⟨leaf, y, more, harms, hl⟩ := exists_arm naming hleaf
          rw [harms]
          refine ⟨fun h => ?_, fun h => absurd h.1 Bool.false_ne_true⟩
          exact absurd (Expr.conditional.inj h).2.1 (expr_ne_of_isLeaf naming hl hleaf)

end Choosing

namespace Workspace

/-- The tree of a block. -/
inductive Chooses (w : Workspace) : Choosing → Block → Prop
  | boolean {b : Block} {value : Bool} : b.IsLone "logic_boolean" →
      b.face.field "BOOL" = .text (if value then "TRUE" else "FALSE") →
      Chooses w (.boolean value) b
  | named {b : Block} {name : String} : b.IsLone "variables_get" →
      b.face.field "VAR" = .text name → name ≠ "" → Chooses w (.named name) b
  | choose {b i d e : Block} {condition whenTrue whenFalse : Choosing} :
      b.IsLone "logic_ternary" → w.Operand b "IF" (some i) → Chooses w condition i →
      w.Operand b "THEN" (some d) → Chooses w whenTrue d →
      w.Operand b "ELSE" (some e) → Chooses w whenFalse e →
      Chooses w (.choose condition whenTrue whenFalse) b

variable {w : Workspace} {t : Choosing} {b : Block}

/-- A block of a tree is enabled and nothing follows after it. -/
lemma Chooses.lone (h : w.Chooses t b) : b.disabled = false ∧ b.next = none := by
  cases h with
  | boolean hb | named hb | choose hb => exact ⟨hb.enabled, hb.last⟩

/-- No block of a tree defines a procedure. -/
lemma Chooses.isProcedure (h : w.Chooses t b) :
    Handler.standard.isProcedure b.type = false := by
  cases h with
  | boolean hb | named hb | choose hb =>
      rw [hb.type_eq]
      rfl

end Workspace

/-! ### Code -/

namespace Renderer

variable {r : Renderer} {b : Block}

/-- The handler of a conditional expression asks for all three operands at its own rank, which
leaves conditional expressions among them without parentheses. -/
lemma spelled_choose (hw : r.workspace.validate = .ok ()) (hr : r.handlers = Handler.standard)
    (hb : b ∈ r.workspace.blocks) {condition whenTrue whenFalse : Choosing} {i d e : Block}
    (hlone : b.IsLone "logic_ternary") (hi : r.workspace.Operand b "IF" (some i))
    (hcondition : r.workspace.Chooses condition i) (hd : r.workspace.Operand b "THEN" (some d))
    (htrue : r.workspace.Chooses whenTrue d) (he : r.workspace.Operand b "ELSE" (some e))
    (hfalse : r.workspace.Chooses whenFalse e)
    (hispelled : r.Spelled .conditional (condition.tokens ·) i)
    (hdspelled : r.Spelled .conditional (whenTrue.tokens ·) d)
    (hespelled : r.Spelled .conditional (whenFalse.tokens ·) e) :
    r.Spelled .conditional ((Choosing.choose condition whenTrue whenFalse).tokens ·) b := by
  intro s hs
  obtain ⟨icode, s₁, hirun, higrows, hispells⟩ := expression_of_spelled hw hb "False" hi
    hcondition.lone.1 hcondition.lone.2 hispelled (condition.tokens_ne_nil ·) hs
  obtain ⟨dcode, s₂, hdrun, hdgrows, hdspells⟩ := expression_of_spelled hw hb "None" hd
    htrue.lone.1 htrue.lone.2 hdspelled (whenTrue.tokens_ne_nil ·) higrows.namesFrom
  obtain ⟨ecode, s₃, herun, hegrows, hespells⟩ := expression_of_spelled hw hb "None" he
    hfalse.lone.1 hfalse.lone.2 hespelled (whenFalse.tokens_ne_nil ·) hdgrows.namesFrom
  refine ⟨dcode ++ " if " ++ icode ++ " else " ++ ecode, .conditional, s₃, ?_, Nat.le_refl _,
    fun s'' hgrows => ?_⟩
  · rw [outcome_eq hr hlone.type_eq (rfl : _ = some Handler.Logic.ternary), Handler.Logic.ternary,
      Plan.run_expr_bind]
    refine (Running.run_bind_of_ok hirun).trans ?_
    exact (Running.run_bind_of_ok hdrun).trans (Running.run_bind_of_ok herun)
  · exact spells_conditional (hdspells s'' (hegrows.trans hgrows))
      (hispells s'' (hdgrows.trans (hegrows.trans hgrows))) (hespells s'' hgrows)

/-- The code of a tree has no parentheses. -/
lemma spelled_of_chooses (hw : r.workspace.validate = .ok ()) (hr : r.handlers = Handler.standard)
    {t : Choosing} (ht : r.workspace.Chooses t b) (hb : b ∈ r.workspace.blocks) :
    r.Spelled .conditional (t.tokens ·) b := by
  induction ht with
  | boolean hlone hvalue => exact spelled_boolean hr hlone hvalue
  | named hlone hfield hname => exact spelled_named hr hlone hfield hname
  | choose hlone hi hcondition hd htrue he hfalse ihi ihd ihe =>
      exact spelled_choose hw hr hb hlone hi hcondition hd htrue he hfalse (ihi (hi.mem rfl))
        (ihd (hd.mem rfl)) (ihe (he.mem rfl))

/-- **Nested conditional expressions are read from left to right, or not at all.** In an accepted
workspace, with the standard handlers, the python dialect and otherwise any style, let a block stand
for a tree of conditional expressions over variables and truth values. From every state whose
identifiers come from a sequence of requests, rendering the block gives text that is no expression
if a condition is a conditional expression, and else is read so that everything behind an `else` is
chosen otherwise; unless the comments in front of the block are refused, and then with that fault.
What is read is the expression of the tree exactly if conditional expressions are nested in last
operands only. -/
theorem render_choices {w : Workspace} (hw : w.validate = .ok ()) {style : Style}
    (hstyle : style.dialect = .python) {b : Block} (hb : b ∈ w.blocks) {t : Choosing}
    (ht : w.Chooses t b) {s : Run} (hs : s.NamesFrom Dialect.python.reserved) :
    (∀ fault, (standard w style).commentsFor b = .error fault →
      ∃ s', ((standard w style).render b).run s = .error fault s') ∧
    ∀ comments, (standard w style).commentsFor b = .ok comments →
      ∃ text rank s', ((standard w style).render b).run s = .ok (.value text (.rank rank)) s' ∧
        readText text = (if t.hasPlainConditions then
          some (branched (t.arms s'.naming) (t.last s'.naming)) else none) ∧
        (readText text = some (t.expr s'.naming) ↔ t.isLadder = true) := by
  have hspelled := spelled_of_chooses (r := standard w style) hw rfl ht hb
  obtain ⟨hrefused, hread⟩ := render_of_spelled (r := standard w style) hw hstyle hb ht.lone.1
    ht.lone.2 ht.isProcedure hspelled hs
  refine ⟨hrefused, fun comments hcomments => ?_⟩
  obtain ⟨text, rank, s', hrun, htext⟩ := hread comments hcomments
  rw [t.parse_tokens s'.naming] at htext
  refine ⟨text, rank, s', hrun, htext, ?_⟩
  cases hplain : t.hasPlainConditions with
  | true =>
      rw [htext, hplain, if_pos rfl, Option.some_inj]
      exact t.branched_eq_expr_iff s'.naming hplain
  | false =>
      rw [htext, hplain, if_neg Bool.false_ne_true]
      refine ⟨fun h => (nomatch h), fun h => ?_⟩
      exact absurd (hplain.symm.trans (t.hasPlainConditions_of_isLadder h)) Bool.false_ne_true

/-- A choice whose condition is the choice between the truth values by `a`. -/
def choiceSample : Workspace :=
  Workspace.edited []
    [.add ⟨"variables_get", [("VAR", .text "a")], [], none, .null, false, []⟩,
      .add ⟨"logic_boolean", [("BOOL", .text "TRUE")], [], none, .null, false, []⟩,
      .add ⟨"logic_boolean", [("BOOL", .text "FALSE")], [], none, .null, false, []⟩,
      .add ⟨"logic_ternary", [], [⟨"IF", .value, some 1⟩, ⟨"THEN", .value, some 2⟩,
        ⟨"ELSE", .value, some 3⟩], none, .null, false, []⟩,
      .add ⟨"variables_get", [("VAR", .text "b")], [], none, .null, false, []⟩,
      .add ⟨"variables_get", [("VAR", .text "c")], [], none, .null, false, []⟩,
      .add ⟨"logic_ternary", [], [⟨"IF", .value, some 4⟩, ⟨"THEN", .value, some 5⟩,
        ⟨"ELSE", .value, some 6⟩], none, .null, false, []⟩]

/-- The tree of the last block of the sample. -/
def choiceTree : Choosing :=
  .choose (.choose (.named "a") (.boolean true) (.boolean false)) (.named "b") (.named "c")

theorem render_choices_choiceSample : choiceSample.validate = .ok () ∧
    ∃ b ∈ choiceSample.blocks, ∃ text rank s',
      ((standard choiceSample ⟨.python, true, "  ", .whole 60⟩).render b).run
        (.closed Dialect.python.reserved) = .ok (.value text (.rank rank)) s' ∧
      readText text = none := by
  have hinner : choiceSample.Chooses (.choose (.named "a") (.boolean true) (.boolean false))
      choiceSample.blocks[3] :=
    .choose ⟨rfl, rfl, rfl⟩ (.of_plugged rfl rfl) (.named ⟨rfl, rfl, rfl⟩ rfl (by decide))
      (.of_plugged rfl rfl) (.boolean ⟨rfl, rfl, rfl⟩ rfl)
      (.of_plugged rfl rfl) (.boolean ⟨rfl, rfl, rfl⟩ rfl)
  have htree : choiceSample.Chooses choiceTree choiceSample.blocks[6] :=
    .choose ⟨rfl, rfl, rfl⟩ (.of_plugged rfl rfl) hinner
      (.of_plugged rfl rfl) (.named ⟨rfl, rfl, rfl⟩ rfl (by decide))
      (.of_plugged rfl rfl) (.named ⟨rfl, rfl, rfl⟩ rfl (by decide))
  have hmem : choiceSample.blocks[6] ∈ choiceSample.blocks := List.getElem_mem _
  obtain ⟨text, rank, s', hrun, htext, -⟩ :=
    (@render_choices choiceSample rfl ⟨.python, true, "  ", .whole 60⟩ rfl _ hmem choiceTree htree
      (.closed Dialect.python.reserved) ⟨[], rfl⟩).2 "" rfl
  exact ⟨rfl, _, hmem, text, rank, s', hrun, htext⟩

end Renderer

end Blockscribe
