/-
Generated expressions keep the grouping of the block tree.

* `answers_number`, `answers_named` and so on: the handler of each kind of block gives code that
  denotes the expression of the block's tree.
* `answers_of_stands`: so does the handler of every block of a tree, by induction on the tree.
* `render_keeps_grouping`: the text of a tree of blocks is read to the expression of the tree.
-/
import Blockscribe.Proofs.Render.Comments
import Blockscribe.Proofs.Render.Operand

namespace Blockscribe

open Grammar

/-! ### Code of leaves -/

lemma denotes_constant {c : Constant} {code : String}
    (h : (c, code) ∈
      [(Constant.true, "True"), (Constant.false, "False"), (Constant.none, "None")]) :
    Denotes code .atomic (.constant c) := by
  refine Denotes.of_spells_atom ?_ (.constant c)
  simp only [List.mem_cons, List.not_mem_nil, or_false, Prod.mk.injEq] at h
  rcases h with ⟨rfl, rfl⟩ | ⟨rfl, rfl⟩ | ⟨rfl, rfl⟩
  · exact spells_word (c := 'T') (by decide) (by decide) (by decide) (by decide)
  · exact spells_word (c := 'F') (by decide) (by decide) (by decide) (by decide)
  · exact spells_word (c := 'N') (by decide) (by decide) (by decide) (by decide)

lemma denotes_numeral {code : String} (h : isNumeral code.toList = true) :
    Denotes code .atomic (.number code) := by
  refine Denotes.of_spells_atom ?_ (.number code)
  have hspells := spells_numeral h
  rw [String.ofList_toList] at hspells
  exact hspells

lemma denotes_zero : Denotes "0" .atomic (.number "0") := denotes_numeral (by decide)

/-- The keywords are reserved. Both lists are sorted, so one is a sublist of the other. -/
lemma keywords_subset_reserved : keywords ⊆ Dialect.python.reserved := by
  have hsublist : keywords.Sublist Dialect.python.reserved :=
    List.isSublist_iff_sublist.mp (by decide +kernel)
  exact hsublist.subset

lemma denotes_name {id : String} (hid : isIdentifier id = true)
    (hfree : id ∉ Dialect.python.reserved) : Denotes id .atomic (.name id) :=
  Denotes.of_spells_atom (spells_name hid fun h => hfree (keywords_subset_reserved h)) (.name id)

/-- The tokens of a number. -/
def Tree.numberTokens (x : Double) : List Token :=
  if x.isNegative then [.operator .subtract, .number x.magnitude.plainText]
  else [.number x.magnitude.plainText]

/-- A finite number is a numeral, with a sign if it is below zero. -/
lemma spells_number {x : Double} (hx : x.IsFinite) :
    Spells x.plainText.toList (Tree.numberTokens x) := by
  obtain ⟨negative, m, e, rfl⟩ := hx
  have hmagnitude := spells_numeral (Double.isNumeral_magnitude negative m e)
  rw [String.ofList_toList] at hmagnitude
  rw [Double.plainText_eq, Tree.numberTokens]
  cases hsign : (Double.finite negative m e).isNegative with
  | true =>
      rw [if_pos rfl, if_pos rfl, String.toList_append]
      exact spells_negative hmagnitude
  | false =>
      rw [if_neg Bool.false_ne_true, if_neg Bool.false_ne_true, String.empty_append]
      exact hmagnitude

lemma denotes_number {x : Double} (hx : x.IsFinite) :
    Denotes x.plainText (if x.isNegative then .unarySign else .atomic) (Tree.numberExpr x) := by
  refine ⟨_, _, spells_number hx, ?_, .refl _⟩
  rw [Tree.numberTokens, Tree.numberExpr]
  cases x.isNegative with
  | true => exact .negative (Derives.lift (.number _) (Nat.zero_le _))
  | false => exact .number _

/-! ### Code of operations -/

namespace Arithmetic

/-- The entry of the operation in the table of arithmetic operators. -/
def entry : Arithmetic → Handler.Variables.Operator
  | add => ⟨" + ", .additive, .additive, .additive⟩
  | subtract => ⟨" - ", .additive, .additive, .multiplicative⟩
  | multiply => ⟨" * ", .multiplicative, .multiplicative, .multiplicative⟩
  | divide => ⟨" / ", .multiplicative, .multiplicative, .unarySign⟩
  | power => ⟨" ** ", .exponentiation, .functionCall, .exponentiation⟩

lemma lookup_key (op : Arithmetic) : Handler.Variables.operators.lookup op.key = some op.entry := by
  cases op <;> rfl

lemma text_entry (op : Arithmetic) : op.entry.text = op.operator.text := by
  cases op <;> rfl

/-- The ranks that are asked for keep the grouping. -/
lemma denotes {op : Arithmetic} {left right : String} {x y : Expr}
    (hleft : Denotes left op.entry.left x) (hright : Denotes right op.entry.right y) :
    Denotes (left ++ op.entry.text ++ right) op.entry.rank (.binary op.operator x y) := by
  rw [text_entry]
  cases op with
  | add => exact Denotes.joined (by decide) rfl hleft hright
  | subtract => exact Denotes.ordered (by decide) rfl rfl hleft hright
  | multiply => exact Denotes.joined (by decide) rfl hleft hright
  | divide => exact Denotes.ordered (by decide) rfl rfl hleft hright
  | power => exact Denotes.power hleft hright

end Arithmetic

namespace Junction

/-- The operator of the operation as a word. -/
def word : Junction → String
  | and => "and"
  | or => "or"

/-- The code of the operand that does not change the result. -/
def neutralCode : Junction → String
  | and => "True"
  | or => "False"

/-- The rank of the operation. -/
def rank : Junction → Rank
  | and => .logicalAnd
  | or => .logicalOr

/-- The code of the operation, where operands without code are missing. -/
def code (op : Junction) (left right : String) : String :=
  if left = "" ∧ right = "" then "False " ++ op.word ++ " False"
  else
    (if left = "" then op.neutralCode else left) ++ " " ++ op.word ++ " " ++
      (if right = "" then op.neutralCode else right)

lemma denotes_neutral (op : Junction) : Denotes op.neutralCode op.rank (.constant op.neutral) := by
  have hatom : Denotes op.neutralCode .atomic (.constant op.neutral) := by
    cases op <;> exact denotes_constant (by decide)
  exact hatom.lift (Nat.zero_le _)

/-- The rank that is asked for keeps the grouping. -/
lemma denotes {op : Junction} {left right : String} {x y : Expr} (hleft : Denotes left op.rank x)
    (hright : Denotes right op.rank y) :
    Denotes (left ++ " " ++ op.word ++ " " ++ right) op.rank (.binary op.operator x y) := by
  have htext : " " ++ op.word ++ " " = op.operator.text := by cases op <;> rfl
  have hcode : left ++ " " ++ op.word ++ " " ++ right = left ++ op.operator.text ++ right := by
    rw [← htext]
    simp only [String.append_assoc]
  rw [hcode]
  cases op with
  | and => exact Denotes.joined (by decide) rfl hleft hright
  | or => exact Denotes.joined (by decide) rfl hleft hright

/-- Code of one or two operands; a missing one does not change the result. -/
lemma denotes_code {op : Junction} {left right : String} {s t : Tree} {x y : Expr}
    (hl : s.isMissing = true → left = "") (hleft : s.isMissing = false → Denotes left op.rank x)
    (hr : t.isMissing = true → right = "")
    (hright : t.isMissing = false → Denotes right op.rank y) :
    Denotes (op.code left right) op.rank
      (if s.isMissing && t.isMissing then
        .binary op.operator (.constant .false) (.constant .false)
      else .binary op.operator (s.orElse (.constant op.neutral) x)
        (t.orElse (.constant op.neutral) y)) := by
  have hfalse : Denotes "False" op.rank (.constant .false) :=
    (denotes_constant (by decide)).lift (Nat.zero_le _)
  simp only [Tree.orElse, code]
  cases hs : s.isMissing with
  | true =>
      cases ht : t.isMissing with
      | true =>
          rw [hl hs, hr ht]
          have hboth := denotes hfalse hfalse
          have hspace : "False" ++ " " = "False " := rfl
          have hspace' : " " ++ "False" = " False" := rfl
          rw [hspace, String.append_assoc, hspace'] at hboth
          exact hboth
      | false =>
          have hne := (hright ht).ne_empty
          simp only [hl hs, hne, and_false, if_false, if_true, Bool.and_false, Bool.false_eq_true]
          exact denotes op.denotes_neutral (hright ht)
  | false =>
      have hne := (hleft hs).ne_empty
      cases ht : t.isMissing with
      | true =>
          simp only [hr ht, hne, false_and, if_false, if_true, Bool.false_and, Bool.false_eq_true]
          exact denotes (hleft hs) op.denotes_neutral
      | false =>
          have hne' := (hright ht).ne_empty
          simp only [hne, hne', false_and, if_false, Bool.false_and, Bool.false_eq_true]
          exact denotes (hleft hs) (hright ht)

end Junction

/-! ### What the handlers give -/

namespace Renderer

variable {r : Renderer} {b : Block}

lemma outcome_number (hr : r.handlers = Handler.standard) {x : Double}
    (hb : b.IsLone "math_number") (hx : (b.face.fieldOr "NUM" (.int 0)).toDouble = .ok x)
    (hfinite : x.IsFinite) (s : Run) : (r.outcome b).run s =
      .ok (.value x.plainText (.rank (if x.isNegative then .unarySign else .atomic))) s := by
  obtain ⟨negative, m, e, rfl⟩ := hfinite
  rw [outcome_eq hr hb.type_eq (rfl : _ = some Handler.Variables.number), Handler.Variables.number,
    hx]
  rfl

lemma answers_number (hr : r.handlers = Handler.standard) {x : Double}
    (hb : b.IsLone "math_number") (hx : (b.face.fieldOr "NUM" (.int 0)).toDouble = .ok x)
    (hfinite : x.IsFinite) : r.Answers (.number x) b :=
  fun s _ => ⟨_, _, s, outcome_number hr hb hx hfinite s, fun _ _ => denotes_number hfinite⟩

lemma outcome_boolean (hr : r.handlers = Handler.standard) {value : Bool}
    (hb : b.IsLone "logic_boolean")
    (hvalue : b.face.field "BOOL" = .text (if value then "TRUE" else "FALSE")) (s : Run) :
    (r.outcome b).run s =
      .ok (.value (if value then "True" else "False") (.rank .atomic)) s := by
  rw [outcome_eq hr hb.type_eq (rfl : _ = some Handler.Logic.boolean), Handler.Logic.boolean,
    hvalue]
  cases value <;> rfl

lemma answers_boolean (hr : r.handlers = Handler.standard) {value : Bool}
    (hb : b.IsLone "logic_boolean")
    (hvalue : b.face.field "BOOL" = .text (if value then "TRUE" else "FALSE")) :
    r.Answers (.boolean value) b := by
  intro s hs
  refine ⟨_, .atomic, s, outcome_boolean hr hb hvalue s, fun _ _ => ?_⟩
  cases value with
  | false => exact denotes_constant (by decide)
  | true => exact denotes_constant (by decide)

lemma answers_null (hr : r.handlers = Handler.standard) (hb : b.IsLone "logic_null") :
    r.Answers .null b := by
  intro s hs
  refine ⟨"None", .atomic, s, ?_, fun _ _ => denotes_constant (by decide)⟩
  rw [outcome_eq hr hb.type_eq (rfl : _ = some Handler.Logic.null), Handler.Logic.null]
  rfl

lemma outcome_named (hr : r.handlers = Handler.standard) {name : String}
    (hb : b.IsLone "variables_get") (hfield : b.face.field "VAR" = .text name)
    (hname : name ≠ "") (s : Run) : (r.outcome b).run s =
      .ok (.value (s.named name .variable).1 (.rank .atomic)) (s.named name .variable).2 := by
  rw [outcome_eq hr hb.type_eq (rfl : _ = some Handler.Variables.get), Handler.Variables.get,
    Handler.Texts.nameField, hfield]
  dsimp only
  rw [if_neg hname]
  rfl

lemma answers_named (hr : r.handlers = Handler.standard) {name : String}
    (hb : b.IsLone "variables_get") (hfield : b.face.field "VAR" = .text name)
    (hname : name ≠ "") : r.Answers (.named name) b := by
  intro s hs
  refine ⟨_, .atomic, _, outcome_named hr hb hfield hname s, fun s'' hgrows => ?_⟩
  obtain ⟨hfree, hidentifier⟩ := Run.legal_named hs name .variable
  rw [Tree.expr, Run.naming_named hgrows]
  exact denotes_name hidentifier hfree

section Operations

variable {left right : Tree} {l c : Option Block}

/-- The handler puts the operator between the code of the operands. -/
lemma outcome_arithmetic (hr : r.handlers = Handler.standard) {op : Arithmetic}
    (hb : b.IsLone "math_arithmetic") (hop : b.face.field "OP" = .text op.key) {s s₁ s₂ : Run}
    {lcode rcode : String}
    (hleft : (r.expression r.render b "A" (.rank op.entry.left) "0").run s = .ok lcode s₁)
    (hright : (r.expression r.render b "B" (.rank op.entry.right) "0").run s₁ = .ok rcode s₂) :
    (r.outcome b).run s =
      .ok (.value (lcode ++ op.entry.text ++ rcode) (.rank op.entry.rank)) s₂ := by
  rw [outcome_eq hr hb.type_eq (rfl : _ = some Handler.Variables.arithmetic),
    Handler.Variables.arithmetic, hop]
  dsimp only
  rw [op.lookup_key]
  dsimp only
  rw [Plan.run_expr_bind]
  exact (Running.run_bind_of_ok hleft).trans (Running.run_bind_of_ok hright)

lemma answers_arithmetic (hw : r.workspace.validate = .ok ()) (hr : r.handlers = Handler.standard)
    (hmem : b ∈ r.workspace.blocks) {op : Arithmetic} (hb : b.IsLone "math_arithmetic")
    (hop : b.face.field "OP" = .text op.key) (hleft : r.Holds b "A" left l)
    (hright : r.Holds b "B" right c) :
    r.Answers (.arithmetic op left right) b := by
  intro s hs
  obtain ⟨lcode, s₁, hlrun, hlgrows, hldenotes⟩ := expression_orElse hw hmem hleft
    (denotes_zero.lift (Nat.zero_le op.entry.left.toNat)) hs
  obtain ⟨rcode, s₂, hrrun, hrgrows, hrdenotes⟩ := expression_orElse hw hmem hright
    (denotes_zero.lift (Nat.zero_le op.entry.right.toNat)) hlgrows.namesFrom
  refine ⟨_, op.entry.rank, s₂, outcome_arithmetic hr hb hop hlrun hrrun, fun s'' hgrows => ?_⟩
  exact Arithmetic.denotes (hldenotes s'' (hrgrows.trans hgrows)) (hrdenotes s'' hgrows)

/-- The plan of a logical operation. -/
lemma operation_eq {op : Junction} (hop : b.face.field "OP" = .text op.key) (site : Site) :
    Handler.Logic.operation site b.face =
      (Plan.expr "A" op.rank "" >>= fun left => Plan.expr "B" op.rank "" >>= fun right =>
        pure (.expr (op.code left right) op.rank)) := by
  have hjunction : Handler.Logic.operation site b.face =
      Handler.Logic.junction op.word op.neutralCode op.rank := by
    rw [Handler.Logic.operation, hop]
    cases op <;> rfl
  rw [hjunction, Handler.Logic.junction]
  refine congrArg (Plan.expr "A" op.rank "" >>= ·) (funext fun left => ?_)
  refine congrArg (Plan.expr "B" op.rank "" >>= ·) (funext fun right => ?_)
  rw [Junction.code]
  split <;> rfl

lemma answers_junction (hw : r.workspace.validate = .ok ()) (hr : r.handlers = Handler.standard)
    (hmem : b ∈ r.workspace.blocks) {op : Junction} (hb : b.IsLone "logic_operation")
    (hop : b.face.field "OP" = .text op.key) (hleft : r.Holds b "A" left l)
    (hright : r.Holds b "B" right c) :
    r.Answers (.junction op left right) b := by
  intro s hs
  obtain ⟨lcode, s₁, hlrun, hlgrows, hlmissing, hldenotes⟩ :=
    expression_of_operand hw hmem hleft op.rank "" hs
  obtain ⟨rcode, s₂, hrrun, hrgrows, hrmissing, hrdenotes⟩ :=
    expression_of_operand hw hmem hright op.rank "" hlgrows.namesFrom
  refine ⟨op.code lcode rcode, op.rank, s₂, ?_, fun s'' hgrows => ?_⟩
  · rw [outcome_eq hr hb.type_eq (rfl : _ = some Handler.Logic.operation), operation_eq hop,
      Plan.run_expr_bind]
    exact (Running.run_bind_of_ok hlrun).trans (Running.run_bind_of_ok hrrun)
  · exact Junction.denotes_code hlmissing (fun h => hldenotes h s'' (hrgrows.trans hgrows))
      hrmissing fun h => hrdenotes h s'' hgrows

lemma answers_negation (hw : r.workspace.validate = .ok ()) (hr : r.handlers = Handler.standard)
    (hmem : b ∈ r.workspace.blocks) (hb : b.IsLone "logic_negate")
    (hoperand : r.Holds b "BOOL" left c) : r.Answers (.negation left) b := by
  intro s hs
  have htrue : Denotes "True" .logicalNot (.constant .true) :=
    (denotes_constant (by decide)).lift (Nat.zero_le _)
  obtain ⟨code, s', hrun, -, hdenotes⟩ := expression_orElse hw hmem hoperand htrue hs
  refine ⟨"not " ++ code, .logicalNot, s', ?_, fun s'' h => (hdenotes s'' h).negation⟩
  rw [outcome_eq hr hb.type_eq (rfl : _ = some Handler.Logic.negate), Handler.Logic.negate,
    Plan.run_expr_bind]
  exact Running.run_bind_of_ok hrun

end Operations

/-! ### Trees -/

/-- The handler of every block of a tree gives code that denotes the tree. -/
lemma answers_of_stands (hw : r.workspace.validate = .ok ()) (hr : r.handlers = Handler.standard)
    {t : Tree} {target : Option Block} (ht : r.workspace.Stands t target) :
    ∀ b, target = some b → b ∈ r.workspace.blocks → r.Answers t b := by
  induction ht with
  | missing => exact fun b hb => nomatch hb
  | number hb hx hfinite =>
      rintro b ⟨⟩ _
      exact answers_number hr hb hx hfinite
  | boolean hb hvalue =>
      rintro b ⟨⟩ _
      exact answers_boolean hr hb hvalue
  | null hb =>
      rintro b ⟨⟩ _
      exact answers_null hr hb
  | named hb hfield hname =>
      rintro b ⟨⟩ _
      exact answers_named hr hb hfield hname
  | arithmetic hb hop hleft hl hright hc ihl ihc =>
      rintro b ⟨⟩ hmem
      exact answers_arithmetic hw hr hmem hb hop
        ⟨hleft, hl, fun d hd => ihl d hd (hleft.mem hd)⟩
        ⟨hright, hc, fun d hd => ihc d hd (hright.mem hd)⟩
  | junction hb hop hleft hl hright hc ihl ihc =>
      rintro b ⟨⟩ hmem
      exact answers_junction hw hr hmem hb hop
        ⟨hleft, hl, fun d hd => ihl d hd (hleft.mem hd)⟩
        ⟨hright, hc, fun d hd => ihc d hd (hright.mem hd)⟩
  | negation hb hoperand hc ih =>
      rintro b ⟨⟩ hmem
      exact answers_negation hw hr hmem hb
        ⟨hoperand, hc, fun d hd => ih d hd (hoperand.mem hd)⟩

/-- No block of a tree defines a procedure. -/
lemma isProcedure_of_stands {w : Workspace} {t : Tree} (ht : w.Stands t (some b)) :
    Handler.standard.isProcedure b.type = false := by
  have htype : b.type ∉ Handler.Procedures.definers := by
    cases ht with
    | number hb | boolean hb | null hb | named hb | arithmetic hb | junction hb | negation hb =>
        rw [hb.type_eq]
        decide
  rw [HandlerSet.isProcedure, Handler.info?_standard]
  cases Handler.standardTable.lookup b.type with
  | none => rfl
  | some h => simpa using htype

/-- **Generated text keeps the grouping of the block tree.** In an accepted workspace, with the
standard handlers, the python dialect and otherwise any style, let a block stand for a tree of
numbers, truth values, null, variables, arithmetic and logical operations, with any operands
missing. From every state whose identifiers come from a sequence of requests, as in a run they
always do, rendering the block gives text that is read to the expression of the tree, up to
groupings that do not matter; unless the comments in front of the block are refused, and then with
that fault. -/
theorem render_keeps_grouping {w : Workspace} (hw : w.validate = .ok ()) {style : Style}
    (hstyle : style.dialect = .python) {b : Block} (hb : b ∈ w.blocks) {t : Tree}
    (ht : w.Stands t (some b)) {s : Run} (hs : s.NamesFrom Dialect.python.reserved) :
    (∀ fault, (standard w style).commentsFor b = .error fault →
      ∃ s', ((standard w style).render b).run s = .error fault s') ∧
    ∀ comments, (standard w style).commentsFor b = .ok comments →
      ∃ text rank s' e, ((standard w style).render b).run s = .ok (.value text (.rank rank)) s' ∧
        readText text = some e ∧ Regroups (t.expr s'.naming) e := by
  obtain ⟨code, rank, s', hrun, hdenotes⟩ :=
    answers_of_stands (r := standard w style) hw rfl ht b rfl hb s hs
  have hnames := ((extends_outcome _ b).grows_of_ok hs hrun).namesFrom
  obtain ⟨henabled, hlast⟩ := ht.lone
  have hrender := render_of_outcome (r := standard w style) hw hb henabled hlast hrun
  refine ⟨fun fault hfault => ⟨s', ?_⟩, fun comments hcomments => ?_⟩
  · rw [hrender, hfault]
    rfl
  · have hskipped : Skipped comments := by
      rw [commentsFor] at hcomments
      have hprocedure : (standard w style).handlers.isProcedure b.type = false :=
        isProcedure_of_stands ht
      have hdialect : (standard w style).style.dialect = .python := hstyle
      rw [hprocedure, hdialect] at hcomments
      exact Workspace.skipped_commentsFor hcomments
    obtain ⟨e, hread, hregroups⟩ := (hdenotes s' hnames.grows).readText_eq hskipped
    refine ⟨comments ++ code, rank, s', e, ?_, hread, hregroups⟩
    rw [hrender, hcomments]
    rfl

/-- The negation of `(-2) ** (x - ·) and ·`. -/
def groupingSample : Workspace :=
  Workspace.edited ["x"]
    [.add ⟨"math_number", [("NUM", .int (-2))], [], none, .null, false, []⟩,
      .add ⟨"variables_get", [("VAR", .text "x")], [], none, .null, false, []⟩,
      .add ⟨"math_arithmetic", [("OP", .text "MINUS")], [⟨"A", .value, some 2⟩], none, .null, false,
        []⟩,
      .add ⟨"math_arithmetic", [("OP", .text "POWER")],
        [⟨"A", .value, some 1⟩, ⟨"B", .value, some 3⟩], none, .null, false, []⟩,
      .add ⟨"logic_operation", [("OP", .text "AND")], [⟨"A", .value, some 4⟩], none, .null, false,
        []⟩,
      .add ⟨"logic_negate", [], [⟨"BOOL", .value, some 5⟩], none, .null, false, []⟩]

/-- The tree of the last block of the sample. -/
def groupingTree : Tree :=
  .negation (.junction .and (.arithmetic .power (.number (Double.ofInt (-2)))
    (.arithmetic .subtract (.named "x") .missing)) .missing)

theorem render_keeps_grouping_groupingSample : groupingSample.validate = .ok () ∧
    ∃ b ∈ groupingSample.blocks, ∃ text rank s' e,
      ((standard groupingSample ⟨.python, true, "  ", .whole 60⟩).render b).run
        (.closed Dialect.python.reserved) = .ok (.value text (.rank rank)) s' ∧
      readText text = some e ∧ Regroups (groupingTree.expr s'.naming) e := by
  have hnumber : groupingSample.Stands (.number (Double.ofInt (-2)))
      (some groupingSample.blocks[0]) :=
    .number ⟨rfl, rfl, rfl⟩ rfl ⟨true, 4503599627370496, -51, rfl⟩
  have hnamed : groupingSample.Stands (.named "x") (some groupingSample.blocks[1]) :=
    .named ⟨rfl, rfl, rfl⟩ rfl (by decide)
  have hdifference : groupingSample.Stands (.arithmetic .subtract (.named "x") .missing)
      (some groupingSample.blocks[2]) :=
    .arithmetic ⟨rfl, rfl, rfl⟩ rfl (.of_plugged rfl rfl) hnamed (.of_absent rfl) .missing
  have hpower : groupingSample.Stands (.arithmetic .power (.number (Double.ofInt (-2)))
      (.arithmetic .subtract (.named "x") .missing)) (some groupingSample.blocks[3]) :=
    .arithmetic ⟨rfl, rfl, rfl⟩ rfl (.of_plugged rfl rfl) hnumber (.of_plugged rfl rfl) hdifference
  have hjunction : groupingSample.Stands (.junction .and (.arithmetic .power
      (.number (Double.ofInt (-2))) (.arithmetic .subtract (.named "x") .missing)) .missing)
      (some groupingSample.blocks[4]) :=
    .junction ⟨rfl, rfl, rfl⟩ rfl (.of_plugged rfl rfl) hpower (.of_absent rfl) .missing
  have htree : groupingSample.Stands groupingTree (some groupingSample.blocks[5]) :=
    .negation ⟨rfl, rfl, rfl⟩ (.of_plugged rfl rfl) hjunction
  have hmem : groupingSample.blocks[5] ∈ groupingSample.blocks := List.getElem_mem _
  exact ⟨rfl, _, hmem, (render_keeps_grouping rfl rfl hmem htree ⟨[], rfl⟩).2 "" rfl⟩

end Renderer

end Blockscribe
