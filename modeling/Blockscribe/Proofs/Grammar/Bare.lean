/-
Comparisons and conditional expressions without parentheses around their operands.

* `spells_comparison`, `spells_conditional`: the tokens of such a text are the tokens of its
  operands with those of the operator between them.
* `chained`: comparisons in a row are one chain. `derives_chained` says that they are read so.
* `branched`: conditional expressions in a row; each is the last case of the one before.
  `derives_branched` says that they are read so.
* `Alternates`, `Derives.alternates`: without parentheses every `if` has its `else` before the next
  `if`, so the condition of a conditional expression is no conditional expression.
-/
import Blockscribe.Proofs.Grammar.Lex
import Blockscribe.Proofs.Grammar.Sound

namespace Blockscribe.Grammar

/-! ### Texts -/

/-- How a comparison operator is written. -/
def Comparison.text : Comparison → String
  | equal => "=="
  | unequal => "!="
  | less => "<"
  | lessEqual => "<="
  | greater => ">"
  | greaterEqual => ">="

section Texts

variable {left right condition : String} {ts us vs : List Token}

/-- Two texts with one token between spaces. -/
lemma spells_between {t : Token} {c : Char} {w : List Char} (hc : c ≠ ' ')
    (hw : runsOn [c] w = true) (ht : token? (c :: w) = some t)
    (hstop : goesOn (c :: w) ' ' = false) (hleft : Spells left.toList ts)
    (hright : Spells right.toList us) :
    Spells (left ++ " " ++ String.ofList (c :: w) ++ " " ++ right).toList (ts ++ t :: us) := by
  have htext : (left ++ " " ++ String.ofList (c :: w) ++ " " ++ right).toList =
      left.toList ++ ' ' :: (c :: (w ++ ' ' :: right.toList)) := by
    simp [String.toList_append]
  rw [htext]
  exact spells_spaced hc hw ht hstop hleft hright

lemma spells_comparison (op : Comparison) (hleft : Spells left.toList ts)
    (hright : Spells right.toList us) :
    Spells (left ++ " " ++ op.text ++ " " ++ right).toList (ts ++ .comparison op :: us) := by
  cases op with
  | equal | unequal | lessEqual | greaterEqual =>
      exact spells_between (w := ['=']) (by decide) (by decide) (by decide) (by decide) hleft
        hright
  | less | greater =>
      exact spells_between (w := []) (by decide) (by decide) (by decide) (by decide) hleft hright

lemma spells_conditional (hleft : Spells left.toList ts) (hcondition : Spells condition.toList us)
    (hright : Spells right.toList vs) :
    Spells (left ++ " if " ++ condition ++ " else " ++ right).toList
      (ts ++ .cond :: (us ++ .otherwise :: vs)) := by
  have helse : Spells (condition ++ " " ++ "else" ++ " " ++ right).toList (us ++ .otherwise :: vs) :=
    spells_between (w := ['l', 's', 'e']) (by decide) (by decide) (by decide) (by decide)
      hcondition hright
  have htext : left ++ " if " ++ condition ++ " else " ++ right =
      left ++ " " ++ "if" ++ " " ++ (condition ++ " " ++ "else" ++ " " ++ right) := by
    apply String.toList_injective
    simp [String.toList_append]
  rw [htext]
  exact spells_between (w := ['f']) (by decide) (by decide) (by decide) (by decide) hleft helse

end Texts

/-! ### Comparisons in a row -/

/-- The first operand of a row of comparisons, compared with the others. -/
def chained (x : Expr) : List (Comparison × Expr) → Expr
  | [] => x
  | (op, y) :: rest => rest.foldl (fun z (op, y) => .chain z op y) (.compare op x y)

/-- Comparison operators, each with its right operand. -/
inductive Links : List Token → List (Comparison × Expr) → Prop
  | nil : Links [] []
  | cons {op : Comparison} {b c : List Token} {y : Expr} {rest : List (Comparison × Expr)} :
      Derives (.whole .sum) b y → Links c rest →
      Links (.comparison op :: (b ++ c)) ((op, y) :: rest)

lemma Links.append {b c : List Token} {l m : List (Comparison × Expr)} (hb : Links b l)
    (hc : Links c m) : Links (b ++ c) (l ++ m) := by
  induction hb with
  | nil => exact hc
  | cons hy _ ih =>
      rw [List.cons_append, List.append_assoc]
      exact .cons hy ih

lemma Links.derives_compared {c : List Token} {rest : List (Comparison × Expr)} (h : Links c rest) :
    ∀ z, Derives (.compared z) c (rest.foldl (fun z (op, y) => .chain z op y) z) := by
  induction h with
  | nil => exact fun _ => .stopCompared
  | cons hy _ ih => exact fun z => .chain hy (ih _)

/-- Comparisons in a row are one chain. -/
lemma derives_chained {a c : List Token} {x : Expr} {rest : List (Comparison × Expr)}
    (ha : Derives (.whole .sum) a x) (hc : Links c rest) :
    Derives (.whole .comparison) (a ++ c) (chained x rest) := by
  refine .run rfl ha ?_
  cases hc with
  | nil => exact .stop
  | cons hy hrest => exact .compare hy (hrest.derives_compared _)

/-- A chain of at least two comparisons is not the comparison of two operands. -/
lemma chained_ne_compare {x y z : Expr} {op : Comparison} {rest : List (Comparison × Expr)}
    (h : 2 ≤ rest.length) : chained x rest ≠ .compare op y z := by
  obtain _ | ⟨first, rest⟩ := rest
  · exact absurd h (by decide)
  · obtain ⟨more, last, rfl⟩ : ∃ more last, rest = more ++ [last] := by
      refine ⟨_, _, (List.dropLast_concat_getLast ?_).symm⟩
      rintro rfl
      exact absurd h (by simp)
    rw [chained, List.foldl_append]
    exact Expr.noConfusion

/-! ### Conditional expressions in a row -/

/-- Values, each with the condition under which it is chosen, and the value that is left. -/
def branched (arms : List (Expr × Expr)) (last : Expr) : Expr :=
  arms.foldr (fun (value, condition) rest => .conditional condition value rest) last

lemma branched_append (arms more : List (Expr × Expr)) (last : Expr) :
    branched (arms ++ more) last = branched arms (branched more last) := List.foldr_append

/-- A value, its condition, and what is chosen otherwise. -/
lemma derives_conditional {a b c : List Token} {x y z : Expr}
    (ha : Derives (.whole .disjunction) a x) (hb : Derives (.whole .disjunction) b y)
    (hc : Derives (.whole .conditional) c z) :
    Derives (.whole .conditional) (a ++ .cond :: (b ++ .otherwise :: c)) (.conditional y x z) :=
  .run rfl ha (.conditional hb hc)

/-! ### Conditions are no conditional expressions -/

/-- The tokens around the conditions. -/
def marks (ts : List Token) : List Token := ts.filter fun t => t == .cond || t == .otherwise

lemma marks_append (ts us : List Token) : marks (ts ++ us) = marks ts ++ marks us :=
  List.filter_append ..

/-- Each `if` is followed by its `else`. -/
inductive Alternates : List Token → Prop
  | nil : Alternates []
  | cons {ts : List Token} : Alternates ts → Alternates (.cond :: .otherwise :: ts)

/-- Without parentheses each `if` is followed by its `else`; at tighter levels there are none. -/
lemma Derives.alternates {goal : Goal} {ts : List Token} {x : Expr} (h : Derives goal ts x)
    (hbare : .opening ∉ ts) :
    Alternates (marks ts) ∧ (goal.level ≠ .conditional → marks ts = []) := by
  induction h with
  | name | number | constant | stop | stopCompared => exact ⟨.nil, fun _ => rfl⟩
  | parens => exact absurd List.mem_cons_self hbare
  | @run L a b x y hL ha hb iha ihb =>
      rw [List.mem_append, not_or] at hbare
      have hfirst := (iha hbare.1).2 (by cases L <;> decide)
      obtain ⟨hrest, htight⟩ := ihb hbare.2
      rw [marks_append, hfirst, List.nil_append]
      exact ⟨hrest, htight⟩
  | @binary op b c x y z hop hb hc ihb ihc =>
      rw [List.mem_cons, List.mem_append, not_or, not_or] at hbare
      have hright := (ihb hbare.2.1).2 (by cases op <;> decide)
      obtain ⟨hrest, htight⟩ := ihc hbare.2.2
      have hmarks : marks (.operator op :: (b ++ c)) = marks c := by
        rw [← List.singleton_append, marks_append, marks_append, hright]
        rfl
      rw [hmarks]
      exact ⟨hrest, htight⟩
  | power _ ih | negation _ ih | negative _ ih =>
      rw [List.mem_cons, not_or] at hbare
      have hmarks := (ih hbare.2).2 (by decide)
      rw [← List.singleton_append, marks_append, hmarks]
      exact ⟨.nil, fun _ => rfl⟩
  | compare _ _ ihb ihc | chain _ _ ihb ihc =>
      rw [List.mem_cons, List.mem_append, not_or, not_or] at hbare
      have hleft := (ihb hbare.2.1).2 (by decide)
      have hrest := (ihc hbare.2.2).2 Level.noConfusion
      rw [← List.singleton_append, marks_append, marks_append, hleft, hrest]
      exact ⟨.nil, fun _ => rfl⟩
  | @conditional b c x y z _ _ ihb ihc =>
      rw [List.mem_cons, List.mem_append, List.mem_cons, not_or, not_or, not_or] at hbare
      have hcondition := (ihb hbare.2.1).2 (by decide)
      have hmarks : marks (.cond :: (b ++ .otherwise :: c)) = .cond :: .otherwise :: marks c := by
        rw [← List.singleton_append, marks_append, marks_append, hcondition]
        rfl
      rw [hmarks]
      exact ⟨.cons (ihc hbare.2.2.2).1, fun h => absurd rfl h⟩
  | ofComparison _ ih => exact ⟨(ih hbare).1, fun _ => (ih hbare).2 (by decide)⟩
  | ofPower _ ih => exact ⟨(ih hbare).1, fun _ => (ih hbare).2 (by decide)⟩

end Blockscribe.Grammar
