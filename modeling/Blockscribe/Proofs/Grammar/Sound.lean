/-
What the parser reads is derived by the grammar.

* `Derived`: the tokens in front of a rest derive an expression.
* `derived_readAtom`, `derived_readWhole`, `derived_readAfter`, `derived_readCompared`: each part of
  the parser reads what is derived, if the parts that it calls do.
* `parse_eq_some_iff`: an expression is read exactly if the grammar derives it, so tokens that
  derive nothing are refused.
-/
import Blockscribe.Proofs.Grammar.Parse

namespace Blockscribe.Grammar

/-- The tokens in front of a rest derive an expression. -/
def Derived (goal : Goal) (ts : List Token) (x : Expr) (rest : List Token) : Prop :=
  ∃ used, ts = used ++ rest ∧ Derives goal used x

/-- Nothing is read behind an operand. -/
lemma derived_stop {L : Level} {ts rest : List Token} {x y : Expr}
    (hread : some (x, ts) = some (y, rest)) : Derived (.after L x) ts y rest := by
  obtain ⟨rfl, rfl⟩ := Prod.mk.inj (Option.some.inj hread)
  exact ⟨[], rfl, .stop⟩

section Step

variable {below : Goal → List Token → Option (Expr × List Token)}
  (h : ∀ goal ts x rest, below goal ts = some (x, rest) → Derived goal ts x rest)

include h

lemma derived_readAtom {ts rest : List Token} {x : Expr}
    (hread : readAtom below ts = some (x, rest)) : Derived (.whole .atom) ts x rest := by
  rw [readAtom.eq_def] at hread
  split at hread
  · rename_i id ts
    obtain ⟨rfl, rfl⟩ := Prod.mk.inj (Option.some.inj hread)
    exact ⟨[.name id], rfl, .name id⟩
  · rename_i literal ts
    obtain ⟨rfl, rfl⟩ := Prod.mk.inj (Option.some.inj hread)
    exact ⟨[.number literal], rfl, .number literal⟩
  · rename_i c ts
    obtain ⟨rfl, rfl⟩ := Prod.mk.inj (Option.some.inj hread)
    exact ⟨[.constant c], rfl, .constant c⟩
  · rename_i ts
    split at hread
    · rename_i y more hinner
      obtain ⟨rfl, rfl⟩ := Prod.mk.inj (Option.some.inj hread)
      obtain ⟨used, rfl, hderives⟩ := h _ _ _ _ hinner
      exact ⟨.opening :: (used ++ [.closing]), by simp, .parens hderives⟩
    · exact nomatch hread
  · exact nomatch hread

/-- An operand of the next level and what follows behind it. -/
lemma derived_run {L : Level} (hL : L.isRun = true) {ts rest : List Token} {x : Expr}
    (hread : ((below (.whole L.next) ts).bind fun (y, more) => below (.after L y) more) =
      some (x, rest)) : Derived (.whole L) ts x rest := by
  obtain ⟨⟨y, more⟩, hfirst, hrest⟩ := Option.bind_eq_some_iff.mp hread
  obtain ⟨a, rfl, ha⟩ := h _ _ _ _ hfirst
  obtain ⟨b, rfl, hb⟩ := h _ _ _ _ hrest
  exact ⟨a ++ b, (List.append_assoc a b rest).symm, .run hL ha hb⟩

lemma derived_readWhole {L : Level} {ts rest : List Token} {x : Expr}
    (hread : readWhole below L ts = some (x, rest)) : Derived (.whole L) ts x rest := by
  cases L with
  | atom => exact derived_readAtom h hread
  | factor =>
      by_cases hsign : ∃ more, ts = .operator .subtract :: more
      · obtain ⟨more, rfl⟩ := hsign
        obtain ⟨⟨y, rest'⟩, hoperand, heq⟩ := Option.map_eq_some_iff.mp hread
        obtain ⟨rfl, rfl⟩ := Prod.mk.inj heq
        obtain ⟨used, rfl, hderives⟩ := h _ _ _ _ hoperand
        exact ⟨.operator .subtract :: used, rfl, .negative hderives⟩
      · have hpower : read below (.whole .factor) ts = below (.whole .power) ts :=
          read_factor fun more hts => hsign ⟨more, hts⟩
        obtain ⟨used, rfl, hderives⟩ := h _ _ _ _ (hpower.symm.trans hread)
        exact ⟨used, rfl, .ofPower hderives⟩
  | negation =>
      by_cases hnot : ∃ more, ts = .not :: more
      · obtain ⟨more, rfl⟩ := hnot
        obtain ⟨⟨y, rest'⟩, hoperand, heq⟩ := Option.map_eq_some_iff.mp hread
        obtain ⟨rfl, rfl⟩ := Prod.mk.inj heq
        obtain ⟨used, rfl, hderives⟩ := h _ _ _ _ hoperand
        exact ⟨.not :: used, rfl, .negation hderives⟩
      · have hcomparison : read below (.whole .negation) ts = below (.whole .comparison) ts :=
          read_negation fun more hts => hnot ⟨more, hts⟩
        obtain ⟨used, rfl, hderives⟩ := h _ _ _ _ (hcomparison.symm.trans hread)
        exact ⟨used, rfl, .ofComparison hderives⟩
  | power | term | sum | comparison | conjunction | disjunction | conditional =>
      exact derived_run h rfl hread

lemma derived_readAfter {L : Level} {ts rest : List Token} {x z : Expr}
    (hread : readAfter below L x ts = some (z, rest)) : Derived (.after L x) ts z rest := by
  rw [readAfter.eq_def] at hread
  split at hread
  · rename_i op more
    split at hread
    · rename_i hlevel
      obtain ⟨⟨y, more'⟩, hoperand, hrest⟩ := Option.bind_eq_some_iff.mp hread
      obtain ⟨b, rfl, hb⟩ := h _ _ _ _ hoperand
      by_cases hop : op = .power
      · subst hop hlevel
        obtain ⟨rfl, rfl⟩ := Prod.mk.inj (Option.some.inj hrest)
        exact ⟨.operator .power :: b, rfl, .power hb⟩
      · subst hlevel
        obtain ⟨c, rfl, hc⟩ := h _ _ _ _ ((if_neg hop).symm.trans hrest)
        exact ⟨.operator op :: (b ++ c), by simp, .binary hop hb hc⟩
    · exact derived_stop hread
  · rename_i op more
    split at hread
    · rename_i hlevel
      subst hlevel
      obtain ⟨⟨y, more'⟩, hoperand, hrest⟩ := Option.bind_eq_some_iff.mp hread
      obtain ⟨b, rfl, hb⟩ := h _ _ _ _ hoperand
      obtain ⟨c, rfl, hc⟩ := h _ _ _ _ hrest
      exact ⟨.comparison op :: (b ++ c), by simp, .compare hb hc⟩
    · exact derived_stop hread
  · rename_i more
    split at hread
    · rename_i hlevel
      subst hlevel
      split at hread
      · rename_i y more' hcondition
        obtain ⟨⟨w, more''⟩, helse, heq⟩ := Option.map_eq_some_iff.mp hread
        obtain ⟨rfl, rfl⟩ := Prod.mk.inj heq
        obtain ⟨b, rfl, hb⟩ := h _ _ _ _ hcondition
        obtain ⟨c, rfl, hc⟩ := h _ _ _ _ helse
        exact ⟨.cond :: (b ++ .otherwise :: c), by simp, .conditional hb hc⟩
      · exact nomatch hread
    · exact derived_stop hread
  · exact derived_stop hread

lemma derived_readCompared {ts rest : List Token} {x z : Expr}
    (hread : readCompared below x ts = some (z, rest)) : Derived (.compared x) ts z rest := by
  rw [readCompared.eq_def] at hread
  split at hread
  · rename_i op more
    obtain ⟨⟨y, more'⟩, hoperand, hrest⟩ := Option.bind_eq_some_iff.mp hread
    obtain ⟨b, rfl, hb⟩ := h _ _ _ _ hoperand
    obtain ⟨c, rfl, hc⟩ := h _ _ _ _ hrest
    exact ⟨.comparison op :: (b ++ c), by simp, .chain hb hc⟩
  · obtain ⟨rfl, rfl⟩ := Prod.mk.inj (Option.some.inj hread)
    exact ⟨[], rfl, .stopCompared⟩

end Step

/-- What is read to any depth is derived. -/
lemma derived_of_parseTo (n : ℕ) : ∀ goal ts x rest,
    parseTo n goal ts = some (x, rest) → Derived goal ts x rest := by
  induction n with
  | zero => exact fun _ _ _ _ hread => nomatch hread
  | succ n ih =>
      intro goal ts x rest hread
      cases goal with
      | whole L => exact derived_readWhole ih hread
      | after L y => exact derived_readAfter ih hread
      | compared y => exact derived_readCompared ih hread

/-- An expression is read exactly if the grammar derives it. -/
lemma parse_eq_some_iff {ts : List Token} {x : Expr} :
    parse ts = some x ↔ Derives (.whole .conditional) ts x := by
  refine ⟨fun hparse => ?_, parse_of_derives⟩
  rw [parse] at hparse
  split at hparse
  · rename_i y hread
    obtain ⟨used, rfl, hderives⟩ := derived_of_parseTo _ _ _ _ _ hread
    rw [List.append_nil]
    exact Option.some.inj hparse ▸ hderives
  · cases hparse

end Blockscribe.Grammar
