/-
Expressions up to regrouping, and code that stands for an expression.

* `regroupings`, `Regroups`: the pairs of operators whose grouping does not matter, and the
  expressions that differ in such groupings only, anywhere inside.
* `Derives.joined`: two expressions of one level with an operator between them are read from left to
  right, which is a regrouping if the grouping does not matter for the operator.
* `Rank.level`: the level of the expressions of a rank; `level_mono` says that looser ranks have
  looser levels.
* `Denotes`: code that spells an expression of a rank, up to regrouping. `Denotes.wrap` says that
  parentheses are put where they are needed, `Denotes.readText_eq` that the code is read.
-/
import Blockscribe.Proofs.Grammar.Lex
import Blockscribe.Rank

namespace Blockscribe.Grammar

/-! ### Regrouping -/

/-- An operator and the operator of its right operand, where the grouping does not matter. -/
def regroupings : List (Operator × Operator) :=
  [(.add, .add), (.add, .subtract), (.multiply, .multiply), (.multiply, .divide), (.and, .and),
    (.or, .or)]

/-- Expressions that differ in groupings that do not matter, anywhere inside. -/
inductive Regroups : Expr → Expr → Prop
  | refl (x : Expr) : Regroups x x
  | symm {x y : Expr} : Regroups x y → Regroups y x
  | trans {x y z : Expr} : Regroups x y → Regroups y z → Regroups x z
  | assoc {op inner : Operator} (x y z : Expr) : (op, inner) ∈ regroupings →
      Regroups (.binary op x (.binary inner y z)) (.binary inner (.binary op x y) z)
  | negative {x y : Expr} : Regroups x y → Regroups (.negative x) (.negative y)
  | negation {x y : Expr} : Regroups x y → Regroups (.negation x) (.negation y)
  | binary {x x' y y' : Expr} (op : Operator) : Regroups x x' → Regroups y y' →
      Regroups (.binary op x y) (.binary op x' y')
  | compare {x x' y y' : Expr} (op : Comparison) : Regroups x x' → Regroups y y' →
      Regroups (.compare op x y) (.compare op x' y')
  | chain {x x' y y' : Expr} (op : Comparison) : Regroups x x' → Regroups y y' →
      Regroups (.chain x op y) (.chain x' op y')
  | conditional {x x' y y' z z' : Expr} : Regroups x x' → Regroups y y' → Regroups z z' →
      Regroups (.conditional x y z) (.conditional x' y' z')

/-- An operator whose grouping with itself does not matter may be regrouped with every operator of
its level. -/
lemma mem_regroupings {op inner : Operator} (hop : (op, op) ∈ regroupings)
    (hlevel : inner.level = op.level) : (op, inner) ∈ regroupings := by
  cases op <;> cases inner <;>
    first | decide | exact absurd hop (by decide) | exact absurd hlevel (by decide)

/-! ### Operands that are joined -/

section Joined

variable {op : Operator}

/-- What follows behind an operand of an operator that groups to the left: nothing, or an operator
of the same level with its right operand, and what follows behind that. -/
lemma Derives.after_induction (hop : op ≠ .power) {P : Expr → List Token → Expr → Prop}
    (stop : ∀ x, P x [] x)
    (binary : ∀ (inner : Operator) (x y z : Expr) (b c : List Token), inner ≠ .power →
      inner.level = op.level → Derives (.whole inner.right) b y →
      P (.binary inner x y) c z → P x (.operator inner :: (b ++ c)) z)
    {x y : Expr} {ts : List Token} (h : Derives (.after op.level x) ts y) : P x ts y := by
  generalize hgoal : Goal.after op.level x = goal at h
  induction h generalizing x with
  | stop =>
      obtain ⟨-, rfl⟩ := Goal.after.inj hgoal
      exact stop x
  | @binary inner b c x' y z hinner hb _ _ ih =>
      obtain ⟨hlevel, rfl⟩ := Goal.after.inj hgoal
      exact binary inner x y z b c hinner hlevel.symm hb (ih (hlevel ▸ rfl))
  | power | compare | conditional =>
      obtain ⟨hlevel, -⟩ := Goal.after.inj hgoal
      cases op <;> first | exact absurd rfl hop | exact absurd hlevel (by decide)
  | name | number | constant | parens | run | stopCompared | chain | negation | ofComparison
    | negative | ofPower => exact nomatch hgoal

/-- What follows behind an operand may be followed by more. -/
lemma Derives.after_append (hop : op ≠ .power) {x y z : Expr} {a b : List Token}
    (ha : Derives (.after op.level x) a y) (hb : Derives (.after op.level y) b z) :
    Derives (.after op.level x) (a ++ b) z := by
  refine Derives.after_induction hop (P := fun x a y => Derives (.after op.level y) b z →
    Derives (.after op.level x) (a ++ b) z) (fun x h => h) ?_ ha hb
  intro inner x y z' b' c hinner hlevel hb' ih hz
  rw [List.cons_append, List.append_assoc, ← hlevel]
  exact .binary hinner hb' (hlevel ▸ ih hz)

/-- The first operand of what follows may be put into a greater expression, up to regrouping. -/
lemma Derives.after_regroup (hop : (op, op) ∈ regroupings) {x y u v : Expr} {ts : List Token}
    (h : Derives (.after op.level y) ts v) (hu : Regroups (.binary op x y) u) :
    ∃ e, Derives (.after op.level u) ts e ∧ Regroups (.binary op x v) e := by
  have hpower : op ≠ .power := by
    rintro rfl
    exact absurd hop (by decide)
  refine Derives.after_induction hpower (P := fun y ts v => ∀ u, Regroups (.binary op x y) u →
    ∃ e, Derives (.after op.level u) ts e ∧ Regroups (.binary op x v) e) ?_ ?_ h u hu
  · intro y u hu
    exact ⟨u, .stop, hu⟩
  · intro inner y z v b c hinner hlevel hb ih u hu
    have hassoc := Regroups.assoc x y z (mem_regroupings hop hlevel)
    obtain ⟨e, he, hregroups⟩ := ih (.binary inner u z) (hassoc.trans (.binary inner hu (.refl z)))
    exact ⟨e, hlevel ▸ .binary hinner hb (hlevel ▸ he), hregroups⟩

/-- An operand of a level that is followed by more of that level. -/
lemma Derives.exists_run {L : Level} (hL : L.isRun = true) {ts : List Token} {x : Expr}
    (h : Derives (.whole L) ts x) :
    ∃ a b y, ts = a ++ b ∧ Derives (.whole L.next) a y ∧ Derives (.after L y) b x := by
  cases h with
  | run _ ha hb => exact ⟨_, _, _, rfl, ha, hb⟩
  | name | number | constant | parens | negation | ofComparison | negative | ofPower =>
      exact absurd hL (by decide)

/-- Two expressions of a level with an operator between them are read from left to right. -/
lemma Derives.joined (hop : (op, op) ∈ regroupings) {x y : Expr} {a b : List Token}
    (ha : Derives (.whole op.level) a x) (hb : Derives (.whole op.level) b y) :
    ∃ e, Derives (.whole op.level) (a ++ .operator op :: b) e ∧ Regroups (.binary op x y) e := by
  have hpower : op ≠ .power := by
    rintro rfl
    exact absurd hop (by decide)
  have hrun : op.level.isRun = true := by cases op <;> rfl
  have hright : op.right = op.level.next := by
    cases op <;> first | rfl | exact absurd rfl hpower
  obtain ⟨a₁, a₂, x₀, rfl, ha₁, ha₂⟩ := ha.exists_run hrun
  obtain ⟨b₁, b₂, y₀, rfl, hb₁, hb₂⟩ := hb.exists_run hrun
  obtain ⟨e, he, hregroups⟩ := hb₂.after_regroup hop (Regroups.refl (.binary op x y₀))
  refine ⟨e, ?_, hregroups⟩
  rw [List.append_assoc]
  exact .run hrun ha₁ (ha₂.after_append hpower (.binary hpower (hright ▸ hb₁) he))

/-- A right operand of the level that the operator asks for needs no regrouping. -/
lemma Derives.binary_of_right {x y : Expr} {a b : List Token} (ha : Derives (.whole op.level) a x)
    (hpower : op ≠ .power) (hb : Derives (.whole op.right) b y) :
    Derives (.whole op.level) (a ++ .operator op :: b) (.binary op x y) := by
  have hrun : op.level.isRun = true := by cases op <;> rfl
  obtain ⟨a₁, a₂, x₀, rfl, ha₁, ha₂⟩ := ha.exists_run hrun
  have hlast : Derives (.after op.level x) (.operator op :: (b ++ [])) (.binary op x y) :=
    .binary hpower hb .stop
  rw [List.append_nil] at hlast
  rw [List.append_assoc]
  exact .run hrun ha₁ (ha₂.after_append hpower hlast)

end Joined

end Blockscribe.Grammar

/-! ### Code of a rank -/

namespace Blockscribe

open Grammar

/-- The level of the expressions of a rank. -/
def Rank.level : Rank → Grammar.Level
  | atomic | collection | member | functionCall => .atom
  | exponentiation => .power
  | unarySign => .factor
  | multiplicative => .term
  | additive => .sum
  | relational => .comparison
  | logicalNot => .negation
  | logicalAnd => .conjunction
  | logicalOr => .disjunction
  | conditional | lambda | none => .conditional

/-- Looser ranks have looser levels. -/
lemma Rank.level_mono {g r : Rank} (h : g.toNat ≤ r.toNat) : g.level.toNat ≤ r.level.toNat := by
  cases g <;> cases r <;> first | decide | exact absurd h (by decide)

/-- Code that spells an expression of a rank, up to regrouping. -/
def Denotes (code : String) (rank : Rank) (x : Expr) : Prop :=
  ∃ ts e, Spells code.toList ts ∧ Derives (.whole rank.level) ts e ∧ Regroups x e

namespace Denotes

variable {code left right : String} {g r : Rank} {x y : Expr}

lemma ne_empty (h : Denotes code g x) : code ≠ "" := by
  rintro rfl
  obtain ⟨ts, e, hspells, hderives, -⟩ := h
  obtain ⟨t, more, rfl, -⟩ := hderives.starts _ rfl
  exact nomatch hspells.scan_eq

/-- Code of a rank is code of every looser one. -/
lemma lift (h : Denotes code g x) (hgr : g.toNat ≤ r.toNat) : Denotes code r x := by
  obtain ⟨ts, e, hspells, hderives, hregroups⟩ := h
  exact ⟨ts, e, hspells, hderives.lift (Rank.level_mono hgr), hregroups⟩

/-- Code in parentheses is an atom. -/
lemma parens (h : Denotes code g x) : Denotes ("(" ++ code ++ ")") r x := by
  obtain ⟨ts, e, hspells, hderives, hregroups⟩ := h
  have htext : ("(" ++ code ++ ")").toList = '(' :: (code.toList ++ [')']) := by
    simp only [String.toList_append, List.append_assoc]
    rfl
  refine ⟨.opening :: (ts ++ [.closing]), e, ?_, ?_, hregroups⟩
  · rw [htext]
    exact spells_parens hspells
  · exact (Derives.parens (hderives.lift (Grammar.Level.toNat_le _))).lift (Nat.zero_le _)

/-- Parentheses are put where the rank asks for them. -/
lemma wrap (h : Denotes code g x) : Denotes (wrap code g r) r x := by
  rw [Blockscribe.wrap, wrapAt]
  by_cases hgr : (g.toNat : Int) > r.toNat
  · rw [if_pos hgr]
    exact h.parens
  · rw [if_neg hgr]
    exact h.lift (by omega)

/-- Code is read to its expression, behind any comments. -/
lemma readText_eq (h : Denotes code g x) {comments : String}
    (hcomments : ∀ rest, skipComments false (comments.toList ++ rest) = skipComments false rest) :
    ∃ e, readText (comments ++ code) = some e ∧ Regroups x e := by
  obtain ⟨ts, e, hspells, hderives, hregroups⟩ := h
  refine ⟨e, ?_, hregroups⟩
  rw [readText_eq_parse hcomments hspells]
  exact parse_of_derives (hderives.lift (Grammar.Level.toNat_le _))

/-! ### Composed code -/

lemma of_spells_atom {t : Token} (hspells : Spells code.toList [t])
    (ht : Derives (.whole .atom) [t] x) : Denotes code .atomic x :=
  ⟨[t], x, hspells, ht, .refl x⟩

/-- A `not` in front of an expression that is no looser. -/
lemma negation (h : Denotes code .logicalNot x) :
    Denotes ("not " ++ code) .logicalNot (.negation x) := by
  obtain ⟨ts, e, hspells, hderives, hregroups⟩ := h
  refine ⟨.not :: ts, .negation e, ?_, .negation hderives, hregroups.negation⟩
  rw [String.toList_append]
  exact spells_negation hspells

lemma spells_joined {op : Operator} {ts us : List Token} (hleft : Spells left.toList ts)
    (hright : Spells right.toList us) :
    Spells (left ++ op.text ++ right).toList (ts ++ .operator op :: us) := by
  rw [String.toList_append, String.toList_append]
  exact spells_binary op hleft hright

/-- Two operands of the rank of an operator whose grouping does not matter. -/
lemma joined {op : Operator} (hop : (op, op) ∈ regroupings) (hr : r.level = op.level)
    (hleft : Denotes left r x) (hright : Denotes right r y) :
    Denotes (left ++ op.text ++ right) r (.binary op x y) := by
  obtain ⟨ts, d, hts, hd, hxd⟩ := hleft
  obtain ⟨us, e, hus, he, hye⟩ := hright
  rw [hr] at hd he
  obtain ⟨f, hf, hregroups⟩ := hd.joined hop he
  exact ⟨_, f, spells_joined hts hus, hr ▸ hf, (Regroups.binary op hxd hye).trans hregroups⟩

/-- A left operand of the rank of an operator and a tighter right one. -/
lemma ordered {op : Operator} (hop : op ≠ .power) (hr : r.level = op.level)
    (hg : g.level = op.right) (hleft : Denotes left r x) (hright : Denotes right g y) :
    Denotes (left ++ op.text ++ right) r (.binary op x y) := by
  obtain ⟨ts, d, hts, hd, hxd⟩ := hleft
  obtain ⟨us, e, hus, he, hye⟩ := hright
  rw [hr] at hd
  rw [hg] at he
  have hderives := hd.binary_of_right hop he
  exact ⟨_, .binary op d e, spells_joined hts hus, hr ▸ hderives, .binary op hxd hye⟩

/-- A base that is an atom and an exponent that may be a power. -/
lemma power (hleft : Denotes left .functionCall x) (hright : Denotes right .exponentiation y) :
    Denotes (left ++ Operator.power.text ++ right) .exponentiation (.binary .power x y) := by
  obtain ⟨ts, d, hts, hd, hxd⟩ := hleft
  obtain ⟨us, e, hus, he, hye⟩ := hright
  refine ⟨_, .binary .power d e, spells_joined hts hus, ?_, .binary .power hxd hye⟩
  exact .run rfl hd (.power (he.lift (by decide)))

end Denotes

end Blockscribe
