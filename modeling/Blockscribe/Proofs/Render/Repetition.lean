/-
Lists that repeat one element.

* `Tree.IsCount`, `Tree.count`: trees of sums, differences and products, and their integers.
* `Tree.factors`: what is multiplied in a tree.
* `Renderer.multiplies_of_stands`: the code of such a tree in the socket of a count is that of its
  factors; there are no parentheses around a product.
* `Renderer.render_repetition`: so a list is repeated by one factor after the other, which is not by
  their product if two of them are negative.
-/
import Mathlib.Algebra.BigOperators.Ring.Finset
import Blockscribe.Proofs.Grammar.Amount
import Blockscribe.Proofs.Number.RoundTrip
import Blockscribe.Proofs.Render.Grouping

namespace Blockscribe

open Grammar

/-! ### Counts -/

namespace Tree

/-- A tree of numbers and variables, and of their sums, differences and products. -/
def IsCount : Tree → Prop
  | missing | number _ | named _ => True
  | arithmetic op left right =>
      (op = .add ∨ op = .subtract ∨ op = .multiply) ∧ left.IsCount ∧ right.IsCount
  | _ => False

/-- The integer of a tree under integers for the variables; a missing operand is zero. -/
def count (value : String → Option ℤ) : Tree → Option ℤ
  | missing => some 0
  | number x => x.whole?
  | named name => value name
  | arithmetic op left right => do op.operator.onIntegers (← left.count value) (← right.count value)
  | _ => none

/-- What is multiplied in a tree. -/
def factors : Tree → List Tree
  | arithmetic .multiply left right => left.factors ++ right.factors
  | t => [t]

/-- The expression of a tree as a count; without a tree it is zero. -/
def countExpr (naming : String → String) (t : Tree) : Expr :=
  t.orElse (.number "0") (t.expr naming)

/-- The integer of a tree is the product of those of its factors. -/
lemma exists_factors_of_count {value : String → Option ℤ} {t : Tree} {n : ℤ}
    (h : t.count value = some n) :
    ∃ ns : List ℤ, List.Forall₂ (fun t n => t.count value = some n) t.factors ns ∧ ns.prod = n := by
  induction t generalizing n with
  | arithmetic op left right ihl ihr =>
      have hone : ∀ t : Tree, t.count value = some n → t.factors = [t] →
          ∃ ns : List ℤ, List.Forall₂ (fun t n => t.count value = some n) t.factors ns ∧
            ns.prod = n := fun t ht hfactors =>
        ⟨[n], hfactors ▸ .cons ht .nil, List.prod_singleton⟩
      cases op with
      | multiply =>
          obtain ⟨i, hi, hrest⟩ := Option.bind_eq_some_iff.mp h
          obtain ⟨j, hj, hproduct⟩ := Option.bind_eq_some_iff.mp hrest
          obtain ⟨is, his, rfl⟩ := ihl hi
          obtain ⟨js, hjs, rfl⟩ := ihr hj
          refine ⟨is ++ js, List.rel_append his hjs, ?_⟩
          rw [List.prod_append]
          exact Option.some.inj hproduct
      | add | subtract | divide | power => exact hone _ h rfl
  | missing | number | boolean | null | named | junction | negation =>
      exact ⟨[n], .cons h .nil, List.prod_singleton⟩

/-- A number that is an integer is written as one. -/
lemma amount_numberExpr {α : Type} {scope : String → Option (Amount α)} {x : Double} {i : ℤ}
    (h : x.whole? = some i) : (numberExpr x).amount scope = some (.whole i) := by
  obtain ⟨n, htext, rfl⟩ := Double.exists_of_whole? h
  rw [numberExpr, htext]
  cases x.isNegative with
  | false =>
      rw [if_neg Bool.false_ne_true, Expr.amount, wholeLiteral?_repr]
      rfl
  | true =>
      rw [if_pos rfl, Expr.amount, Expr.amount, wholeLiteral?_repr]
      rfl

/-- The expression of a tree has the tree's integer. -/
lemma amount_countExpr {α : Type} {scope : String → Option (Amount α)} {naming : String → String}
    {t : Tree} {n : ℤ}
    (h : t.count (fun name => (scope (naming name)).bind Amount.whole?) = some n) :
    (t.countExpr naming).amount scope = some (.whole n) := by
  induction t generalizing n with
  | missing =>
      obtain rfl := Option.some.inj h
      rfl
  | number x => exact amount_numberExpr h
  | named name =>
      obtain ⟨v, hv, hwhole⟩ := Option.bind_eq_some_iff.mp h
      cases v with
      | whole i =>
          obtain rfl := Option.some.inj hwhole
          exact hv
      | items => exact nomatch hwhole
  | arithmetic op left right ihl ihr =>
      obtain ⟨i, hi, hrest⟩ := Option.bind_eq_some_iff.mp h
      obtain ⟨j, hj, hvalue⟩ := Option.bind_eq_some_iff.mp hrest
      exact Expr.amount_binary_eq_whole_iff.mpr ⟨i, j, ihl hi, ihr hj, hvalue⟩
  | boolean | null | junction | negation => exact nomatch h

end Tree

/-! ### Code of counts -/

namespace Renderer

variable {r : Renderer}

section Counts

variable (hw : r.workspace.validate = .ok ()) (hr : r.handlers = Handler.standard)

include hw hr

/-- The text of a number is not put in parentheses; it is one factor, with its sign. -/
lemma multiplies_of_number {b c : Block} {name : String} {x : Double} (hc : c.IsLone "math_number")
    (hx : (c.face.fieldOr "NUM" (.int 0)).toDouble = .ok x) (hfinite : x.IsFinite)
    (hb : b ∈ r.workspace.blocks) (hoperand : r.workspace.Operand b name (some c)) (s : Run) :
    (r.expression r.render b name (.rank .multiplicative) "0").run s = .ok x.plainText s ∧
      Multiplies x.plainText [Tree.numberExpr x] := by
  have hdenotes := denotes_number hfinite
  have hrank : (if x.isNegative then Rank.unarySign else .atomic).toNat ≤
      Rank.multiplicative.toNat := by split <;> decide
  have hlevel : (if x.isNegative then Rank.unarySign else .atomic).level.toNat ≤
      Level.factor.toNat := by split <;> decide
  refine ⟨?_, multiplies_of_denotes hdenotes hlevel⟩
  rw [expression_of_code hw hb hoperand hc.enabled hc.last hdenotes.ne_empty
    (outcome_number hr hc hx hfinite s), wrap_of_le hrank]

/-- A variable is one factor. -/
lemma multiplies_of_named {b c : Block} {name key : String} (hc : c.IsLone "variables_get")
    (hfield : c.face.field "VAR" = .text key) (hkey : key ≠ "") (hb : b ∈ r.workspace.blocks)
    (hoperand : r.workspace.Operand b name (some c)) {s : Run}
    (hs : s.NamesFrom Dialect.python.reserved) :
    (r.expression r.render b name (.rank .multiplicative) "0").run s =
        .ok (s.named key .variable).1 (s.named key .variable).2 ∧
      Multiplies (s.named key .variable).1 [.name (s.named key .variable).1] := by
  obtain ⟨hfree, hid⟩ := Run.legal_named hs key .variable
  have hdenotes := denotes_name hid hfree
  refine ⟨?_, multiplies_of_denotes hdenotes (by decide)⟩
  rw [expression_of_code hw hb hoperand hc.enabled hc.last hdenotes.ne_empty
    (outcome_named hr hc hfield hkey s), wrap_of_le (by decide)]

/-- A sum or a difference is put in parentheses, so it is one factor. -/
lemma multiplies_of_additive {b c : Block} {name : String} {op : Arithmetic} {left right : Tree}
    {l d : Option Block} (hc : c.IsLone "math_arithmetic")
    (hop : c.face.field "OP" = .text op.key) (hrank : op.entry.rank = .additive)
    (hleft : r.Holds c "A" left l) (hright : r.Holds c "B" right d) (hb : b ∈ r.workspace.blocks)
    (hoperand : r.workspace.Operand b name (some c)) {s : Run}
    (hs : s.NamesFrom Dialect.python.reserved) :
    ∃ code s', (r.expression r.render b name (.rank .multiplicative) "0").run s = .ok code s' ∧
      s.Grows Dialect.python.reserved s' ∧ ∀ s'', s'.Grows Dialect.python.reserved s'' →
        Multiplies code [(Tree.arithmetic op left right).expr s''.naming] := by
  have hmem : c ∈ r.workspace.blocks := hoperand.mem rfl
  obtain ⟨lcode, s₁, hlrun, hlgrows, hlcode⟩ := expression_orElse hw hmem hleft
    (denotes_zero.lift (Nat.zero_le op.entry.left.toNat)) hs
  obtain ⟨rcode, s₂, hrrun, hrgrows, hrcode⟩ := expression_orElse hw hmem hright
    (denotes_zero.lift (Nat.zero_le op.entry.right.toNat)) hlgrows.namesFrom
  have hdenotes : ∀ s'', s₂.Grows Dialect.python.reserved s'' →
      Denotes (lcode ++ op.entry.text ++ rcode) op.entry.rank
        ((Tree.arithmetic op left right).expr s''.naming) := fun s'' hlater =>
    Arithmetic.denotes (hlcode s'' (hrgrows.trans hlater)) (hrcode s'' hlater)
  refine ⟨"(" ++ (lcode ++ op.entry.text ++ rcode) ++ ")", s₂, ?_, hlgrows.trans hrgrows,
    fun s'' hlater => ?_⟩
  · rw [expression_of_code hw hb hoperand hc.enabled hc.last
      (hdenotes s₂ hrgrows.namesFrom.grows).ne_empty (outcome_arithmetic hr hc hop hlrun hrrun),
      hrank]
    rfl
  · have hatom : Denotes ("(" ++ (lcode ++ op.entry.text ++ rcode) ++ ")") .atomic
        ((Tree.arithmetic op left right).expr s''.naming) := (hdenotes s'' hlater).parens
    exact multiplies_of_denotes hatom (by decide)

/-- A product is not put in parentheses, so its factors are those of its operands. -/
lemma multiplies_of_product {b c : Block} {name lcode rcode : String} {xs ys : Run → List Expr}
    (hc : c.IsLone "math_arithmetic") (hop : c.face.field "OP" = .text Arithmetic.multiply.key)
    (hb : b ∈ r.workspace.blocks) (hoperand : r.workspace.Operand b name (some c)) {s s₁ s₂ : Run}
    (hleft : (r.expression r.render c "A" (.rank .multiplicative) "0").run s = .ok lcode s₁)
    (hright : (r.expression r.render c "B" (.rank .multiplicative) "0").run s₁ = .ok rcode s₂)
    (hgrows : s₁.Grows Dialect.python.reserved s₂)
    (hxs : ∀ s'', s₁.Grows Dialect.python.reserved s'' → Multiplies lcode (xs s''))
    (hys : ∀ s'', s₂.Grows Dialect.python.reserved s'' → Multiplies rcode (ys s'')) :
    ∃ code, (r.expression r.render b name (.rank .multiplicative) "0").run s = .ok code s₂ ∧
      ∀ s'', s₂.Grows Dialect.python.reserved s'' → Multiplies code (xs s'' ++ ys s'') := by
  refine ⟨lcode ++ Arithmetic.multiply.entry.text ++ rcode, ?_, fun s'' hlater =>
    (hxs s'' (hgrows.trans hlater)).joined (hys s'' hlater)⟩
  have hne : lcode ++ Arithmetic.multiply.entry.text ++ rcode ≠ "" := by
    intro hempty
    have hlists := congrArg String.toList hempty
    simp only [String.toList_append] at hlists
    exact absurd (List.append_eq_nil_iff.mp (List.append_eq_nil_iff.mp hlists).1).2 (by decide)
  rw [expression_of_code hw hb hoperand hc.enabled hc.last hne
    (outcome_arithmetic hr hc hop hleft hright)]
  exact congrArg (EStateM.Result.ok · s₂) (wrap_of_le le_rfl _)

/-- The code of a count in a socket that asks for the operand of a product is that of its factors.
The induction is on the tree. -/
lemma multiplies_of_stands {t : Tree} {target : Option Block}
    (ht : r.workspace.Stands t target) :
    ∀ (b : Block) (name : String), t.IsCount → b ∈ r.workspace.blocks →
      r.workspace.Operand b name target → ∀ s : Run, s.NamesFrom Dialect.python.reserved →
      ∃ code s', (r.expression r.render b name (.rank .multiplicative) "0").run s = .ok code s' ∧
        s.Grows Dialect.python.reserved s' ∧ ∀ s'', s'.Grows Dialect.python.reserved s'' →
          Multiplies code (t.factors.map (Tree.countExpr s''.naming)) := by
  induction ht with
  | missing =>
      intro b name _ _ hoperand s hs
      exact ⟨_, s, expression_of_missing hoperand, hs.grows,
        fun _ _ => multiplies_of_denotes denotes_zero (by decide)⟩
  | @number c x hb hx hfinite =>
      intro b name _ hmem hoperand s hs
      obtain ⟨hrun, hcode⟩ := multiplies_of_number hw hr hb hx hfinite hmem hoperand s
      exact ⟨_, s, hrun, hs.grows, fun _ _ => hcode⟩
  | @named c key hb hfield hname =>
      intro b name _ hmem hoperand s hs
      obtain ⟨hrun, hcode⟩ := multiplies_of_named hw hr hb hfield hname hmem hoperand hs
      refine ⟨_, _, hrun, Run.grows_named hs key .variable, fun s'' hgrows => ?_⟩
      have hexpr : (Tree.named key).countExpr s''.naming = .name (s.named key .variable).1 :=
        congrArg Expr.name (Run.naming_named hgrows)
      have hfactors : (Tree.named key).factors = [.named key] := rfl
      rwa [hfactors, List.map_singleton, hexpr]
  | @arithmetic c op left right l d hb hop hleft hl hright hd ihl ihd =>
      intro b name hcount hmem hoperand s hs
      obtain ⟨hkind, hlcount, hrcount⟩ := hcount
      have hc : c ∈ r.workspace.blocks := hoperand.mem rfl
      have hleft' : r.Holds c "A" left l :=
        ⟨hleft, hl, fun e he => answers_of_stands hw hr hl e he (hleft.mem he)⟩
      have hright' : r.Holds c "B" right d :=
        ⟨hright, hd, fun e he => answers_of_stands hw hr hd e he (hright.mem he)⟩
      rcases hkind with rfl | rfl | rfl
      · exact multiplies_of_additive hw hr hb hop rfl hleft' hright' hmem hoperand hs
      · exact multiplies_of_additive hw hr hb hop rfl hleft' hright' hmem hoperand hs
      · obtain ⟨lcode, s₁, hlrun, hlgrows, hlcode⟩ := ihl c "A" hlcount hc hleft s hs
        obtain ⟨rcode, s₂, hrrun, hrgrows, hrcode⟩ :=
          ihd c "B" hrcount hc hright s₁ hlgrows.namesFrom
        obtain ⟨code, hrun, hcode⟩ := multiplies_of_product hw hr hb hop hmem hoperand hlrun hrrun
          hrgrows hlcode hrcode
        refine ⟨code, s₂, hrun, hlgrows.trans hrgrows, fun s'' hlater => ?_⟩
        rw [Tree.factors, List.map_append]
        exact hcode s'' hlater
  | boolean | null | junction | negation => exact fun _ _ h => h.elim

end Counts

/-! ### What a repetition comes to -/

/-- The plan of a repetition. -/
lemma outcome_repetition (hr : r.handlers = Handler.standard) {b : Block}
    (htype : b.type = "lists_repeat") {s u v : Run} {item times : String}
    (hitem : (r.expression r.render b "ITEM" (.rank .none) "None").run s = .ok item u)
    (htimes : (r.expression r.render b "NUM" (.rank .multiplicative) "0").run u = .ok times v) :
    (r.outcome b).run s =
      .ok (.value ("[" ++ item ++ "] * " ++ times) (.rank .multiplicative)) v := by
  rw [outcome_eq hr htype (rfl : _ = some Handler.Lists.repetition), Handler.Lists.repetition,
    Plan.run_expr_bind]
  exact (Running.run_bind_of_ok hitem).trans (Running.run_bind_of_ok htimes)

end Renderer

/-- Counts that are not positive are left out by each factor, and by the product only if it is not
positive. -/
lemma prod_toNat_eq_iff (ns : List ℤ) :
    (ns.map Int.toNat).prod = ns.prod.toNat ↔ (0 < ns.prod → ∀ n ∈ ns, 0 < n) := by
  by_cases hall : ∀ n ∈ ns, 0 < n
  · refine iff_of_true ?_ fun _ => hall
    have hcast : (((ns.map Int.toNat).prod : ℕ) : ℤ) = ns.prod := by
      rw [Nat.cast_list_prod, List.map_map]
      refine congrArg List.prod ((List.map_congr_left fun n hn => ?_).trans (List.map_id ns))
      exact Int.toNat_of_nonneg (hall n hn).le
    omega
  · have hzero : (ns.map Int.toNat).prod = 0 := by
      push Not at hall
      obtain ⟨n, hn, hle⟩ := hall
      exact List.prod_eq_zero (List.mem_map.mpr ⟨n, hn, Int.toNat_of_nonpos hle⟩)
    rw [hzero]
    constructor
    · intro hprod hpos
      omega
    · intro himp
      have hnot : ¬ 0 < ns.prod := fun hpos => hall (himp hpos)
      omega

namespace Renderer

/-- **Repeated lists.** In an accepted workspace, with the standard handlers, any style and the
reserved words of the python dialect, let an enabled block repeat an item, and let a tree of
numbers, variables, sums, differences and products stand for the count, with any operands missing.
If the item renders to some code, the block renders to a list of it with a multiplication sign and
the code of the count behind it. Let this be read and evaluated, in this state or a later one, where
the list has one element, the variables have any values, and the count has an integer. The integers
of its factors, which have it as their product, repeat the list one after the other. So the element
is there as often as the count says exactly if the count is not positive, or all of its factors
are. -/
theorem render_repetition {w : Workspace} (hw : w.validate = .ok ()) {style : Style}
    {b : Block} (hb : b ∈ w.blocks) (henabled : b.disabled = false)
    (htype : b.type = "lists_repeat") {t : Tree} {target : Option Block} (hcount : t.IsCount)
    (hoperand : w.Operand b "NUM" target) (ht : w.Stands t target) {s u : Run}
    (hs : s.NamesFrom Dialect.python.reserved) {item : String}
    (hitem : ((standard w style).expression (standard w style).render b "ITEM" (.rank .none)
      "None").run s = .ok item u) :
    ∃ times u', u.Grows Dialect.python.reserved u' ∧
      ((standard w style).render b).run s = ((standard w style).complete b
        (.expr ("[" ++ item ++ "]" ++ " * " ++ times) .multiplicative)).run u' ∧
      ∀ u'', u'.Grows Dialect.python.reserved u'' → ∀ {α : Type} (scope : String → Option (Amount α))
        (v : α), scope ("[" ++ item ++ "]") = some (.items [v]) → ∀ n : ℤ,
        t.count (fun name => (scope (u''.naming name)).bind Amount.whole?) = some n →
        ∃ ns : List ℤ,
          List.Forall₂ (fun t n =>
            t.count (fun name => (scope (u''.naming name)).bind Amount.whole?) = some n)
            t.factors ns ∧
          ns.prod = n ∧
          (readBehind ("[" ++ item ++ "]") ("[" ++ item ++ "]" ++ " * " ++ times)).bind
            (Expr.amount scope) = some (.items (List.replicate (ns.map Int.toNat).prod v)) ∧
          (List.replicate (ns.map Int.toNat).prod v = List.replicate n.toNat v ↔
            (0 < n → ∀ k ∈ ns, 0 < k)) := by
  have hu : u.NamesFrom Dialect.python.reserved :=
    ((extends_expression (extends_render (standard w style)) b "ITEM" (.rank .none)
      "None").grows_of_ok hs hitem).namesFrom
  obtain ⟨times, u', htimes, hgrows, hmultiplies⟩ := multiplies_of_stands
    (r := standard w style) hw rfl ht b "NUM" hcount hb hoperand u hu
  refine ⟨times, u', hgrows, ?_, fun u'' hlater α scope v hdisplay n hn => ?_⟩
  · rw [render_eq_outcome (r := standard w style) hw hb henabled,
      Running.run_bind_of_ok (outcome_repetition rfl htype hitem htimes)]
    have htext : "[" ++ item ++ "]" ++ " * " ++ times = "[" ++ item ++ "] * " ++ times := by
      simp only [String.append_assoc]
      rfl
    rw [htext]
    rfl
  · obtain ⟨ns, hfactors, hproduct⟩ := Tree.exists_factors_of_count hn
    have hvalues : List.Forall₂ (fun (x : Expr) n => x.amount scope = some (.whole n))
        (t.factors.map (Tree.countExpr u''.naming)) ns :=
      List.forall₂_map_left_iff.mpr (hfactors.imp fun _ _ h => Tree.amount_countExpr h)
    refine ⟨ns, hfactors, hproduct, (hmultiplies u'' hlater).amount_eq hdisplay hvalues, ?_⟩
    rw [← hproduct, ← prod_toNat_eq_iff]
    exact ⟨fun h => by simpa using congrArg List.length h, fun h => by rw [h]⟩

/-- The list of `a` minus one times minus one times. -/
def repetitionSample : Workspace :=
  Workspace.edited ["a"]
    [.add ⟨"variables_get", [("VAR", .text "a")], [], none, .null, false, []⟩,
      .add ⟨"math_number", [("NUM", .int (-1))], [], none, .null, false, []⟩,
      .add ⟨"math_number", [("NUM", .int (-1))], [], none, .null, false, []⟩,
      .add ⟨"math_arithmetic", [("OP", .text "MULTIPLY")],
        [⟨"A", .value, some 2⟩, ⟨"B", .value, some 3⟩], none, .null, false, []⟩,
      .add ⟨"lists_repeat", [], [⟨"ITEM", .value, some 1⟩, ⟨"NUM", .value, some 4⟩], none, .null,
        false, []⟩]

theorem render_repetition_repetitionSample : repetitionSample.validate = .ok () ∧
    ∃ b ∈ repetitionSample.blocks, ∃ times u',
      ((standard repetitionSample ⟨.python, true, "  ", .whole 60⟩).render b).run
        (.closed Dialect.python.reserved) =
        ((standard repetitionSample ⟨.python, true, "  ", .whole 60⟩).complete b
          (.expr ("[a]" ++ " * " ++ times) .multiplicative)).run u' ∧
      ∀ {α : Type} (scope : String → Option (Amount α)) (v : α),
        scope "[a]" = some (.items [v]) →
        (readBehind "[a]" ("[a]" ++ " * " ++ times)).bind (Expr.amount scope) =
          some (.items []) := by
  have hnumber : ∀ b, b = repetitionSample.blocks[1] ∨ b = repetitionSample.blocks[2] →
      repetitionSample.Stands (.number (Double.ofInt (-1))) (some b) := by
    rintro b (rfl | rfl) <;>
      exact .number ⟨rfl, rfl, rfl⟩ rfl ⟨true, 4503599627370496, -52, rfl⟩
  have htree : repetitionSample.Stands (.arithmetic .multiply (.number (Double.ofInt (-1)))
      (.number (Double.ofInt (-1)))) (some repetitionSample.blocks[3]) :=
    .arithmetic ⟨rfl, rfl, rfl⟩ rfl (.of_plugged rfl rfl) (hnumber _ (.inl rfl))
      (.of_plugged rfl rfl) (hnumber _ (.inr rfl))
  have hmem : repetitionSample.blocks[4] ∈ repetitionSample.blocks := List.getElem_mem _
  have hitem : ((standard repetitionSample ⟨.python, true, "  ", .whole 60⟩).expression
      (standard repetitionSample ⟨.python, true, "  ", .whole 60⟩).render repetitionSample.blocks[4]
      "ITEM" (.rank .none) "None").run (.closed Dialect.python.reserved) =
      .ok "a" ((Run.closed Dialect.python.reserved).named "a" .variable).2 := by
    have hname : ((Run.closed Dialect.python.reserved).named "a" .variable).1 = "a" := by
      decide +kernel
    have hne : ((Run.closed Dialect.python.reserved).named "a" .variable).1 ≠ "" := by
      rw [hname]
      decide
    have hoperand : repetitionSample.Operand repetitionSample.blocks[4] "ITEM"
        (some repetitionSample.blocks[0]) := .of_plugged rfl rfl
    have hfield : repetitionSample.blocks[0].face.field "VAR" = .text "a" := rfl
    refine (expression_of_code rfl hmem hoperand rfl rfl hne (outcome_named rfl ⟨rfl, rfl, rfl⟩
      hfield (by decide) (.closed Dialect.python.reserved))).trans ?_
    rw [hname]
    rfl
  have hcount : (Tree.arithmetic .multiply (.number (Double.ofInt (-1)))
      (.number (Double.ofInt (-1)))).IsCount := ⟨.inr (.inr rfl), trivial, trivial⟩
  obtain ⟨times, u', hgrows, hrender, hvalue⟩ := render_repetition rfl hmem rfl rfl
    hcount (.of_plugged rfl rfl) htree ⟨[], rfl⟩ hitem
  refine ⟨rfl, _, hmem, times, u', hrender, fun scope v hdisplay => ?_⟩
  obtain ⟨ns, hfactors, -, hemitted, -⟩ := hvalue u' hgrows.namesFrom.grows scope v hdisplay 1 rfl
  have hnone : (ns.map Int.toNat).prod = 0 := by
    cases hfactors with
    | cons hfirst hrest =>
        have hminus : (Double.ofInt (-1)).whole? = some (-1) := by decide +kernel
        obtain rfl := Option.some.inj (hminus.symm.trans hfirst)
        rw [List.map_cons, List.prod_cons]
        exact Nat.zero_mul _
  rw [hnone] at hemitted
  exact hemitted

end Renderer

end Blockscribe
