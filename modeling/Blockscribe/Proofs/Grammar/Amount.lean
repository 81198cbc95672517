/-
Expressions that stand for integers and lists.

* `Amount`, `Expr.amount`: integers and lists, and the value of an expression in sums, differences
  and products. A list times an integer is the list so many times over, and nothing if the integer
  is not positive.
* `Regroups.amount_whole_iff`: groupings that do not matter do not matter to integers.
* `readBehind`: the expression of a text with a display of a list in front.
* `Multiplies`: code of factors, by each of which what stands in front is multiplied in turn.
  `Multiplies.amount_eq` says what a list comes to in front of it.
-/
import Mathlib.Algebra.BigOperators.Group.List.Basic
import Mathlib.Tactic.Ring
import Blockscribe.Proofs.Grammar.Regroup
import Blockscribe.Proofs.Number.Digits

namespace Blockscribe.Grammar

variable {α : Type}

/-! ### Values -/

/-- An integer or a list. -/
inductive Amount (α : Type)
  | whole (i : ℤ)
  | items (xs : List α)
  deriving DecidableEq

/-- The integer that a value is. -/
def Amount.whole? : Amount α → Option ℤ
  | whole i => some i
  | items _ => none

/-- The operations on integers that give one. -/
def Operator.onIntegers : Operator → ℤ → ℤ → Option ℤ
  | add, i, j => some (i + j)
  | subtract, i, j => some (i - j)
  | multiply, i, j => some (i * j)
  | _, _, _ => none

/-- The operations on values: those on integers, two lists one after the other, and a list so many
times over. -/
def Operator.onAmounts (op : Operator) : Amount α → Amount α → Option (Amount α)
  | .whole i, .whole j => (op.onIntegers i j).map .whole
  | .items xs, .items ys => if op = add then some (.items (xs ++ ys)) else none
  | .items xs, .whole i | .whole i, .items xs =>
    if op = multiply then some (.items (List.replicate i.toNat xs).flatten) else none

/-- The integer of a numeral that has only digits. -/
def wholeLiteral? (literal : String) : Option ℤ :=
  if literal.toList ≠ [] ∧ literal.toList.all Char.isDigit then
    some (Nat.ofDigitChars 10 literal.toList 0)
  else none

/-- The digits of a natural are a numeral of it. -/
lemma wholeLiteral?_repr (n : ℕ) : wholeLiteral? n.repr = some (n : ℤ) := by
  have hne : n.repr.toList ≠ [] := Nat.toList_repr ▸ Nat.toDigits_ne_nil
  have hdigits : n.repr.toList.all Char.isDigit = true := by
    rw [Nat.toList_repr]
    exact List.all_eq_true.mpr fun _ => isDigit_of_mem_digitsOf
  rw [wholeLiteral?, if_pos ⟨hne, hdigits⟩, Nat.toList_repr, Nat.ofDigitChars_ten_toDigits]

/-- The value of an expression, if it is an integer or a list. -/
def Expr.amount (scope : String → Option (Amount α)) : Expr → Option (Amount α)
  | name id => scope id
  | number literal => (wholeLiteral? literal).map .whole
  | negative x => (x.amount scope).bind fun v => v.whole?.map fun i => .whole (-i)
  | binary op x y => (x.amount scope).bind fun v => (y.amount scope).bind fun w => op.onAmounts v w
  | _ => none

variable {scope : String → Option (Amount α)} {op : Operator} {x y : Expr} {i : ℤ}

/-- An operation gives an integer only for integers. -/
lemma Operator.onAmounts_eq_whole_iff {v w : Amount α} :
    op.onAmounts v w = some (.whole i) ↔
      ∃ j k, v = .whole j ∧ w = .whole k ∧ op.onIntegers j k = some i := by
  have hlist : ∀ {p : Prop} [Decidable p] (xs : List α),
      (if p then some (Amount.items xs) else none) ≠ some (.whole i) := by
    intro p _ xs
    split <;> nofun
  cases v with
  | whole j =>
      cases w with
      | whole k => simp [onAmounts]
      | items ys => exact iff_of_false (hlist _) nofun
  | items xs =>
      cases w with
      | whole k => exact iff_of_false (hlist _) nofun
      | items ys => exact iff_of_false (hlist _) nofun

lemma Expr.amount_binary_eq_whole_iff :
    (binary op x y).amount scope = some (.whole i) ↔
      ∃ j k, x.amount scope = some (.whole j) ∧ y.amount scope = some (.whole k) ∧
        op.onIntegers j k = some i := by
  simp only [amount, Option.bind_eq_some_iff, Operator.onAmounts_eq_whole_iff]
  constructor
  · rintro ⟨_, hx, _, hy, j, k, rfl, rfl, h⟩
    exact ⟨j, k, hx, hy, h⟩
  · rintro ⟨j, k, hx, hy, h⟩
    exact ⟨_, hx, _, hy, j, k, rfl, rfl, h⟩

lemma Expr.amount_negative_eq_whole_iff :
    (negative x).amount scope = some (.whole i) ↔
      ∃ j, x.amount scope = some (.whole j) ∧ -j = i := by
  simp only [amount, Option.bind_eq_some_iff, Option.map_eq_some_iff, Amount.whole.injEq]
  constructor
  · rintro ⟨v, hx, j, hv, rfl⟩
    cases v with
    | whole k =>
        obtain rfl := Option.some.inj hv
        exact ⟨k, hx, rfl⟩
    | items => exact nomatch hv
  · rintro ⟨j, hx, rfl⟩
    exact ⟨_, hx, j, rfl, rfl⟩

/-- **Groupings that do not matter do not matter to integers.** They do to lists: a list times a
product of two negative integers is not empty. -/
lemma Regroups.amount_whole_iff (h : Regroups x y) :
    ∀ i, x.amount scope = some (.whole i) ↔ y.amount scope = some (.whole i) := by
  induction h with
  | refl => exact fun _ => Iff.rfl
  | symm _ ih => exact fun i => (ih i).symm
  | trans _ _ ih ih' => exact fun i => (ih i).trans (ih' i)
  | @assoc op inner x y z hmem =>
      intro i
      -- both sides are the same operations on the same three integers
      have hvalue : ∀ a b c : ℤ, ((inner.onIntegers b c).bind fun d => op.onIntegers a d) =
          (op.onIntegers a b).bind fun d => inner.onIntegers d c := by
        intro a b c
        cases op <;> cases inner <;>
          first
          | exact absurd hmem (by decide)
          | rfl
          | (simp only [Operator.onIntegers, Option.bind_some, Option.some.injEq]; ring)
      simp only [Expr.amount_binary_eq_whole_iff]
      constructor
      · rintro ⟨a, d, hx, ⟨b, c, hy, hz, hd⟩, hi⟩
        have hboth := hvalue a b c
        rw [hd, Option.bind_some, hi] at hboth
        obtain ⟨e, he, hlast⟩ := Option.bind_eq_some_iff.mp hboth.symm
        exact ⟨e, c, ⟨a, b, hx, hy, he⟩, hz, hlast⟩
      · rintro ⟨d, c, ⟨a, b, hx, hy, hd⟩, hz, hi⟩
        have hboth := hvalue a b c
        rw [hd, Option.bind_some, hi] at hboth
        obtain ⟨e, he, hlast⟩ := Option.bind_eq_some_iff.mp hboth
        exact ⟨a, e, hx, ⟨b, c, hy, hz, he⟩, hlast⟩
  | negative _ ih =>
      intro i
      simp only [Expr.amount_negative_eq_whole_iff, ih]
  | binary op _ _ ihx ihy =>
      intro i
      simp only [Expr.amount_binary_eq_whole_iff, ihx, ihy]
  | negation | compare | chain | conditional => exact fun _ => Iff.rfl

/-! ### A display in front of a product -/

/-- The expression of a text with a display in front. The display is an atom, which is named by its
own text. -/
def readBehind (display text : String) : Option Expr :=
  if display.toList <+: text.toList then
    (scan (text.toList.drop display.toList.length)).bind fun ts => parse (.name display :: ts)
  else none

/-- What stands in front of the code and a multiplication sign is multiplied by each of the factors
in turn. -/
def Multiplies (code : String) (factors : List Expr) : Prop :=
  ∃ ts es, Spells code.toList ts ∧ List.Forall₂ Regroups factors es ∧
    ∀ x, Derives (.after .term x) (.operator .multiply :: ts) (es.foldl (.binary .multiply) x)

variable {code left right : String} {factors xs ys : List Expr}

/-- Code that is no looser than a sign is one factor. -/
lemma multiplies_of_denotes {rank : Rank} (h : Denotes code rank x)
    (hrank : rank.level.toNat ≤ Level.factor.toNat) : Multiplies code [x] := by
  obtain ⟨ts, e, hspells, hderives, hregroups⟩ := h
  refine ⟨ts, [e], hspells, .cons hregroups .nil, fun z => ?_⟩
  have hoperand : Derives (.whole Operator.multiply.right) ts e := hderives.lift hrank
  have hlast : Derives (.after Operator.multiply.level z) (.operator .multiply :: (ts ++ []))
      (.binary .multiply z e) := .binary (by decide) hoperand .stop
  rwa [List.append_nil] at hlast

/-- A product that is not put in parentheses gives its factors. -/
lemma Multiplies.joined (hleft : Multiplies left xs) (hright : Multiplies right ys) :
    Multiplies (left ++ " * " ++ right) (xs ++ ys) := by
  obtain ⟨ts, ds, hts, hds, hleft⟩ := hleft
  obtain ⟨us, es, hus, hes, hright⟩ := hright
  have hspells : Spells (left ++ Operator.multiply.text ++ right).toList
      (ts ++ .operator .multiply :: us) := Denotes.spells_joined hts hus
  refine ⟨_, ds ++ es, hspells, List.rel_append hds hes, fun z => ?_⟩
  have hfirst : Derives (.after Operator.multiply.level z) (.operator .multiply :: ts)
      (ds.foldl (.binary .multiply) z) := hleft z
  rw [List.foldl_append, ← List.cons_append]
  exact hfirst.after_append (by decide) (hright _)

/-- Integers repeat a list one after the other. The induction is on the factors. -/
lemma amount_foldl_multiply {v : α} {k : ℕ} {ns : List ℤ}
    (hx : x.amount scope = some (.items (List.replicate k v)))
    (hfactors : List.Forall₂ (fun (x : Expr) n => x.amount scope = some (.whole n)) factors ns) :
    (factors.foldl (.binary .multiply) x).amount scope =
      some (.items (List.replicate (k * (ns.map Int.toNat).prod) v)) := by
  induction hfactors generalizing x k with
  | nil =>
      rw [List.map_nil, List.prod_nil, mul_one]
      exact hx
  | @cons e n es ns he _ ih =>
      have hproduct : (Expr.binary .multiply x e).amount scope =
          some (.items (List.replicate (k * n.toNat) v)) := by
        rw [Expr.amount, hx, he, Option.bind_some, Option.bind_some, Operator.onAmounts,
          if_pos rfl, List.flatten_replicate_replicate, Nat.mul_comm]
      rw [List.foldl_cons, ih hproduct, List.map_cons, List.prod_cons, mul_assoc]

/-- Factors that are grouped in another way are the same integers. -/
lemma amounts_of_regroups {ns : List ℤ} (h : List.Forall₂ Regroups xs ys)
    (hvalues : List.Forall₂ (fun (x : Expr) n => x.amount scope = some (.whole n)) xs ns) :
    List.Forall₂ (fun (x : Expr) n => x.amount scope = some (.whole n)) ys ns := by
  induction h generalizing ns with
  | nil =>
      cases hvalues
      exact .nil
  | cons hx _ ih =>
      cases hvalues with
      | cons hn hrest => exact .cons ((hx.amount_whole_iff _).mp hn) (ih hrest)

/-- **A list in front of a product** is repeated by one factor after the other, so there is nothing
left if one of them is not positive. -/
lemma Multiplies.amount_eq (h : Multiplies code factors) {display : String} {v : α} {ns : List ℤ}
    (hdisplay : scope display = some (.items [v]))
    (hfactors : List.Forall₂ (fun (x : Expr) n => x.amount scope = some (.whole n)) factors ns) :
    ((readBehind display (display ++ " * " ++ code)).bind (Expr.amount scope)) =
      some (.items (List.replicate (ns.map Int.toNat).prod v)) := by
  obtain ⟨ts, es, hspells, hregroups, hderives⟩ := h
  have hscan : scan (" * ".toList ++ code.toList) = some (.operator .multiply :: ts) := by
    rw [show " * ".toList = Operator.multiply.text.toList from rfl, scan_operator, hspells.scan_eq]
    rfl
  have hparse : parse (.name display :: .operator .multiply :: ts) =
      some (es.foldl (.binary .multiply) (.name display)) := by
    have hatom : Derives (.whole Level.term.next) [.name display] (.name display) :=
      Derives.lift (.name display) (Nat.zero_le _)
    have hwhole : Derives (.whole .term) ([.name display] ++ .operator .multiply :: ts) _ :=
      .run rfl hatom (hderives _)
    exact parse_of_derives (hwhole.lift (Level.toNat_le _))
  have hread : readBehind display (display ++ " * " ++ code) =
      some (es.foldl (.binary .multiply) (.name display)) := by
    have htext : (display ++ " * " ++ code).toList =
        display.toList ++ (" * ".toList ++ code.toList) := by
      rw [String.toList_append, String.toList_append, List.append_assoc]
    rw [readBehind, htext, if_pos (List.prefix_append _ _), List.drop_left, hscan, Option.bind_some,
      hparse]
  have hone : (Expr.name display).amount scope = some (.items (List.replicate 1 v)) := hdisplay
  rw [hread, Option.bind_some, amount_foldl_multiply hone (amounts_of_regroups hregroups hfactors),
    one_mul]

end Blockscribe.Grammar
