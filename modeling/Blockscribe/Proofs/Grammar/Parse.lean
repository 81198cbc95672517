/-
Expressions of the python dialect and how they are read from tokens.

* `Expr`: expressions. A comparison that goes on, as in `a < b < c`, is a `chain`, which is not the
  comparison of a comparison.
* `Level`: the levels of precedence, from atoms to conditional expressions.
* `Derives`: the grammar. Powers group to the right, sums, products and the two connectives to the
  left; a comparison and a conditional have operands of a tighter level.
* `parse`: reads an expression by recursive descent. `parse_of_derives` says that what the grammar
  derives is read, so no tokens have two readings: `Derives.unique`.
* `Derives.lift`: an expression of a level is one of every looser level.
-/
import Mathlib.Data.Nat.Notation
import Mathlib.Tactic.Lemma

namespace Blockscribe.Grammar

/-! ### Expressions and tokens -/

/-- Operators with two operands, but for comparisons. -/
inductive Operator
  | or
  | and
  | add
  | subtract
  | multiply
  | divide
  | power
  deriving DecidableEq, Repr

/-- Comparison operators. -/
inductive Comparison
  | equal
  | unequal
  | less
  | lessEqual
  | greater
  | greaterEqual
  deriving DecidableEq, Repr

/-- Names that stand for a fixed value. -/
inductive Constant
  | true
  | false
  | none
  deriving DecidableEq, Repr

/-- Expressions. -/
inductive Expr
  | name (identifier : String)
  | number (literal : String)
  | constant (c : Constant)
  | negative (operand : Expr)
  | negation (operand : Expr)
  | binary (op : Operator) (left right : Expr)
  | compare (op : Comparison) (left right : Expr)
  /-- A comparison whose right operand is compared once more. -/
  | chain (comparison : Expr) (op : Comparison) (right : Expr)
  | conditional (condition whenTrue whenFalse : Expr)
  deriving DecidableEq, Repr

/-- Tokens; `cond` and `otherwise` stand around the condition of a conditional expression. -/
inductive Token
  | name (identifier : String)
  | number (literal : String)
  | constant (c : Constant)
  | operator (op : Operator)
  | comparison (op : Comparison)
  | not
  | cond
  | otherwise
  | opening
  | closing
  deriving DecidableEq, Repr

/-- Levels of precedence, the tightest first. -/
inductive Level
  | atom
  | power
  | factor
  | term
  | sum
  | comparison
  | negation
  | conjunction
  | disjunction
  | conditional
  deriving DecidableEq, Repr

namespace Level

/-- The number of a level; the greater, the looser. -/
def toNat : Level → ℕ
  | atom => 0
  | power => 1
  | factor => 2
  | term => 3
  | sum => 4
  | comparison => 5
  | negation => 6
  | conjunction => 7
  | disjunction => 8
  | conditional => 9

/-- The next tighter level. -/
def next : Level → Level
  | atom => atom
  | power => atom
  | factor => power
  | term => factor
  | sum => term
  | comparison => sum
  | negation => comparison
  | conjunction => negation
  | disjunction => conjunction
  | conditional => disjunction

/-- Whether an expression of the level starts with an operand of the next level, which something may
follow. -/
def isRun : Level → Bool
  | atom | factor | negation => false
  | _ => true

lemma toNat_injective {L M : Level} (h : L.toNat = M.toNat) : L = M := by
  cases L <;> cases M <;> first | rfl | exact absurd h (by decide)

lemma toNat_next {L : Level} (h : L ≠ atom) : L.next.toNat + 1 = L.toNat := by
  cases L <;> first | rfl | exact absurd rfl h

lemma toNat_le (L : Level) : L.toNat ≤ 9 := by
  cases L <;> decide

end Level

/-- The level at which an operator stands. -/
def Operator.level : Operator → Level
  | or => .disjunction
  | and => .conjunction
  | add | subtract => .sum
  | multiply | divide => .term
  | power => .power

/-- The level of the operand behind an operator: operators group to the left, but for powers, whose
exponent may have a sign. -/
def Operator.right : Operator → Level
  | power => .factor
  | op => op.level.next

/-- The level at which a token goes on after an operand. -/
def Token.level? : Token → Option Level
  | operator op => some op.level
  | comparison _ => some .comparison
  | cond => some .conditional
  | _ => none

/-- Whether an expression of a level can start with a token. -/
def Token.starts (L : Level) : Token → Bool
  | name _ | number _ | constant _ | opening => true
  | operator op => op == .subtract && decide (2 ≤ L.toNat)
  | not => decide (6 ≤ L.toNat)
  | _ => false

/-- What is to be read: an expression of a level; what follows behind an operand of a level; or what
follows behind a comparison. -/
inductive Goal
  | whole (L : Level)
  | after (L : Level) (x : Expr)
  | compared (x : Expr)

/-- The level of what is to be read. -/
def Goal.level : Goal → Level
  | whole L => L
  | after L _ => L
  | compared _ => .comparison

/-! ### The grammar -/

/-- The grammar: which tokens are read to which expression. -/
inductive Derives : Goal → List Token → Expr → Prop
  | name (id : String) : Derives (.whole .atom) [.name id] (.name id)
  | number (literal : String) : Derives (.whole .atom) [.number literal] (.number literal)
  | constant (c : Constant) : Derives (.whole .atom) [.constant c] (.constant c)
  | parens {ts : List Token} {x : Expr} : Derives (.whole .conditional) ts x →
      Derives (.whole .atom) (.opening :: (ts ++ [.closing])) x
  | run {L : Level} {a b : List Token} {x y : Expr} : L.isRun = true →
      Derives (.whole L.next) a x → Derives (.after L x) b y → Derives (.whole L) (a ++ b) y
  | stop {L : Level} {x : Expr} : Derives (.after L x) [] x
  | binary {op : Operator} {b c : List Token} {x y z : Expr} : op ≠ .power →
      Derives (.whole op.right) b y → Derives (.after op.level (.binary op x y)) c z →
      Derives (.after op.level x) (.operator op :: (b ++ c)) z
  | power {b : List Token} {x y : Expr} : Derives (.whole .factor) b y →
      Derives (.after .power x) (.operator .power :: b) (.binary .power x y)
  | compare {op : Comparison} {b c : List Token} {x y z : Expr} : Derives (.whole .sum) b y →
      Derives (.compared (.compare op x y)) c z →
      Derives (.after .comparison x) (.comparison op :: (b ++ c)) z
  | stopCompared {x : Expr} : Derives (.compared x) [] x
  | chain {op : Comparison} {b c : List Token} {x y z : Expr} : Derives (.whole .sum) b y →
      Derives (.compared (.chain x op y)) c z →
      Derives (.compared x) (.comparison op :: (b ++ c)) z
  | conditional {b c : List Token} {x y z : Expr} : Derives (.whole .disjunction) b y →
      Derives (.whole .conditional) c z →
      Derives (.after .conditional x) (.cond :: (b ++ .otherwise :: c)) (.conditional y x z)
  | negation {ts : List Token} {x : Expr} : Derives (.whole .negation) ts x →
      Derives (.whole .negation) (.not :: ts) (.negation x)
  | ofComparison {ts : List Token} {x : Expr} : Derives (.whole .comparison) ts x →
      Derives (.whole .negation) ts x
  | negative {ts : List Token} {x : Expr} : Derives (.whole .factor) ts x →
      Derives (.whole .factor) (.operator .subtract :: ts) (.negative x)
  | ofPower {ts : List Token} {x : Expr} : Derives (.whole .power) ts x →
      Derives (.whole .factor) ts x

/-! ### The parser -/

section Step

variable (below : Goal → List Token → Option (Expr × List Token))

/-- Reads an atom. -/
def readAtom : List Token → Option (Expr × List Token)
  | .name id :: ts => some (.name id, ts)
  | .number literal :: ts => some (.number literal, ts)
  | .constant c :: ts => some (.constant c, ts)
  | .opening :: ts =>
      match below (.whole .conditional) ts with
      | some (x, .closing :: rest) => some (x, rest)
      | _ => none
  | _ => none

/-- Reads an expression of a level. -/
def readWhole : Level → List Token → Option (Expr × List Token)
  | .atom, ts => readAtom below ts
  | .factor, .operator .subtract :: ts =>
      (below (.whole .factor) ts).map fun (x, rest) => (.negative x, rest)
  | .factor, ts => below (.whole .power) ts
  | .negation, .not :: ts =>
      (below (.whole .negation) ts).map fun (x, rest) => (.negation x, rest)
  | .negation, ts => below (.whole .comparison) ts
  | L, ts => (below (.whole L.next) ts).bind fun (x, rest) => below (.after L x) rest

/-- Reads what follows behind an operand of a level. -/
def readAfter (L : Level) (x : Expr) : List Token → Option (Expr × List Token)
  | .operator op :: ts =>
      if op.level = L then
        (below (.whole op.right) ts).bind fun (y, rest) =>
          if op = .power then some (.binary op x y, rest)
          else below (.after L (.binary op x y)) rest
      else some (x, .operator op :: ts)
  | .comparison op :: ts =>
      if L = .comparison then
        (below (.whole .sum) ts).bind fun (y, rest) => below (.compared (.compare op x y)) rest
      else some (x, .comparison op :: ts)
  | .cond :: ts =>
      if L = .conditional then
        match below (.whole .disjunction) ts with
        | some (y, .otherwise :: rest) =>
            (below (.whole .conditional) rest).map fun (z, rest') => (.conditional y x z, rest')
        | _ => none
      else some (x, .cond :: ts)
  | ts => some (x, ts)

/-- Reads what follows behind a comparison. -/
def readCompared (x : Expr) : List Token → Option (Expr × List Token)
  | .comparison op :: ts =>
      (below (.whole .sum) ts).bind fun (y, rest) => below (.compared (.chain x op y)) rest
  | ts => some (x, ts)

/-- Reads what is to be read, given how to read what it is made of. -/
def read : Goal → List Token → Option (Expr × List Token)
  | .whole L, ts => readWhole below L ts
  | .after L x, ts => readAfter below L x ts
  | .compared x, ts => readCompared below x ts

end Step

/-- Reads from the front of the tokens, to a depth of `fuel`; what is left is given back. -/
def parseTo : ℕ → Goal → List Token → Option (Expr × List Token)
  | 0, _, _ => none
  | fuel + 1, goal, ts => read (parseTo fuel) goal ts

/-- A depth that suffices: between two tokens no level is entered twice. -/
def depthFor (ts : List Token) : ℕ := 11 * ts.length + 10

/-- The expression that the tokens spell, if they spell one. -/
def parse (ts : List Token) : Option Expr :=
  match parseTo (depthFor ts) (.whole .conditional) ts with
  | some (x, []) => some x
  | _ => none

/-! ### What the grammar derives -/

lemma Token.starts_mono {L M : Level} (h : L.toNat ≤ M.toNat) {t : Token}
    (ht : t.starts L = true) : t.starts M = true := by
  cases t with
  | name | number | constant | opening => rfl
  | operator op =>
      rw [Token.starts, Bool.and_eq_true, decide_eq_true_eq] at ht ⊢
      exact ⟨ht.1, Nat.le_trans ht.2 h⟩
  | not =>
      rw [Token.starts, decide_eq_true_eq] at ht ⊢
      exact Nat.le_trans ht h
  | comparison | cond | otherwise | closing => exact absurd ht (by simp [Token.starts])

/-- An expression of a level has a first token, which can start it. -/
lemma Derives.starts {goal : Goal} {ts : List Token} {x : Expr} (h : Derives goal ts x) :
    ∀ L, goal = .whole L → ∃ t more, ts = t :: more ∧ t.starts L = true := by
  induction h with
  | name | number | constant | parens => exact fun L _ => ⟨_, _, rfl, rfl⟩
  | @run L a b x y hL ha hb iha ihb =>
      rintro _ ⟨⟩
      obtain ⟨t, more, rfl, ht⟩ := iha L.next rfl
      refine ⟨t, more ++ b, rfl, Token.starts_mono ?_ ht⟩
      cases L <;> decide
  | stop | binary | power | compare | stopCompared | chain | conditional =>
      exact fun L hL => nomatch hL
  | negation | negative =>
      rintro _ ⟨⟩
      exact ⟨_, _, rfl, rfl⟩
  | ofComparison _ ih =>
      rintro _ ⟨⟩
      obtain ⟨t, more, rfl, ht⟩ := ih .comparison rfl
      exact ⟨t, more, rfl, Token.starts_mono (by decide) ht⟩
  | ofPower _ ih =>
      rintro _ ⟨⟩
      obtain ⟨t, more, rfl, ht⟩ := ih .power rfl
      exact ⟨t, more, rfl, Token.starts_mono (by decide) ht⟩

/-- The tokens do not go on at a level or at a tighter one. -/
def Stops (L : Level) (ts : List Token) : Prop :=
  ∀ t ∈ ts.head?, ∀ M ∈ t.level?, L.toNat < M.toNat

lemma Stops.mono {L M : Level} (h : L.toNat ≤ M.toNat) {ts : List Token} (hs : Stops M ts) :
    Stops L ts :=
  fun t ht N hN => Nat.lt_of_le_of_lt h (hs t ht N hN)

lemma stops_nil (L : Level) : Stops L [] := fun _ h => nomatch h

lemma stops_cons_iff {L : Level} {t : Token} {ts : List Token} :
    Stops L (t :: ts) ↔ ∀ M ∈ t.level?, L.toNat < M.toNat := by
  simp [Stops]

/-- No token goes on at the level of factors, so what stops at powers stops there too. -/
lemma stops_factor {ts : List Token} (hs : Stops .power ts) : Stops .factor ts := by
  intro t ht M hM
  have hlt : 1 < M.toNat := hs t ht M hM
  have hne : M ≠ .factor := by
    rintro rfl
    cases t with
    | operator op => cases op <;> exact nomatch hM
    | comparison | cond | name | number | constant | not | otherwise | opening | closing =>
        exact nomatch hM
  have hne' : M.toNat ≠ 2 := fun he => hne (Level.toNat_injective he)
  show 2 < M.toNat
  omega

/-- What follows behind an operand of a level goes on at that level, if it goes on. -/
lemma Derives.stops_next {L : Level} {x y : Expr} {ts rest : List Token}
    (h : Derives (.after L x) ts y) (hL : L ≠ .atom) (hrest : Stops L rest) :
    Stops L.next (ts ++ rest) := by
  have hnext := Level.toNat_next hL
  cases h with
  | stop => exact hrest.mono (by omega)
  | binary hop hb hc =>
      refine stops_cons_iff.mpr fun M hM => ?_
      obtain rfl := Option.mem_some_iff.mp hM
      omega
  | power hb =>
      refine stops_cons_iff.mpr fun M hM => ?_
      obtain rfl := Option.mem_some_iff.mp hM
      decide
  | compare hb hc =>
      refine stops_cons_iff.mpr fun M hM => ?_
      obtain rfl := Option.mem_some_iff.mp hM
      decide
  | conditional hb hc =>
      refine stops_cons_iff.mpr fun M hM => ?_
      obtain rfl := Option.mem_some_iff.mp hM
      decide

/-- What follows behind a comparison starts with a comparison operator, if it goes on. -/
lemma Derives.stops_sum {x y : Expr} {ts rest : List Token} (h : Derives (.compared x) ts y)
    (hrest : Stops .comparison rest) : Stops .sum (ts ++ rest) := by
  cases h with
  | stopCompared => exact hrest.mono (by decide)
  | chain hb hc =>
      refine stops_cons_iff.mpr fun M hM => ?_
      obtain rfl := Option.mem_some_iff.mp hM
      decide

/-! ### The parser reads what the grammar derives -/

/-- The depth that is needed in front of the next token. -/
def Goal.depth : Goal → ℕ
  | whole L => L.toNat + 1
  | after _ _ => 1
  | compared _ => 1

section Read

variable {below : Goal → List Token → Option (Expr × List Token)} {ts rest : List Token}
  {x y : Expr}

lemma read_run {L : Level} (hL : L.isRun = true) (hx : below (.whole L.next) ts = some (x, rest)) :
    read below (.whole L) ts = below (.after L x) rest := by
  have hread : read below (.whole L) ts =
      (below (.whole L.next) ts).bind fun (x, rest) => below (.after L x) rest := by
    cases L <;> first | rfl | exact absurd hL (by decide)
  rw [hread, hx]
  rfl

/-- Without a `not` in front, a negation is a comparison. -/
lemma read_negation (h : ∀ more, ts ≠ .not :: more) :
    read below (.whole .negation) ts = below (.whole .comparison) ts := by
  rw [read, readWhole]
  exact fun more hts => h more hts

/-- Without a sign in front, a factor is a power. -/
lemma read_factor (h : ∀ more, ts ≠ .operator .subtract :: more) :
    read below (.whole .factor) ts = below (.whole .power) ts := by
  rw [read, readWhole]
  exact fun more hts => h more hts

/-- Nothing is read where the tokens do not go on. -/
lemma read_after_stop {L : Level} (h : Stops L ts) : read below (.after L x) ts = some (x, ts) := by
  cases ts with
  | nil => rfl
  | cons t more =>
      have hlt := stops_cons_iff.mp h
      cases t with
      | operator op =>
          have hne : op.level ≠ L := fun he => absurd (hlt op.level rfl) (by rw [he]; omega)
          simp only [read, readAfter, if_neg hne]
      | comparison op =>
          have hne : L ≠ .comparison := fun he => absurd (hlt .comparison rfl) (by rw [he]; omega)
          simp only [read, readAfter, if_neg hne]
      | cond =>
          have hne : L ≠ .conditional := fun he => absurd (hlt .conditional rfl) (by rw [he]; omega)
          simp only [read, readAfter, if_neg hne]
      | name | number | constant | not | otherwise | opening | closing => rfl

lemma read_compared_stop (h : Stops .comparison ts) :
    read below (.compared x) ts = some (x, ts) := by
  cases ts with
  | nil => rfl
  | cons t more =>
      have hlt := stops_cons_iff.mp h
      cases t with
      | comparison op => exact absurd (hlt .comparison rfl) (by decide)
      | operator | cond | name | number | constant | not | otherwise | opening | closing => rfl

end Read

/-- The tokens are read to an expression, whatever is behind them that does not go on, if there is
depth enough for all of it. -/
def Reads (goal : Goal) (ts : List Token) (x : Expr) : Prop :=
  ∀ (rest : List Token) (n : ℕ), Stops goal.level rest →
    11 * (ts ++ rest).length + goal.depth ≤ n → parseTo n goal (ts ++ rest) = some (x, rest)

/-- There is always a step left. -/
lemma reads_of_step {goal : Goal} {ts : List Token} {x : Expr}
    (h : ∀ (rest : List Token) (k : ℕ), Stops goal.level rest →
      11 * (ts ++ rest).length + goal.depth ≤ k + 1 →
      read (parseTo k) goal (ts ++ rest) = some (x, rest)) : Reads goal ts x := by
  intro rest n hrest hn
  have hpos : n ≠ 0 := by
    rintro rfl
    cases goal <;> (rw [Goal.depth] at hn; omega)
  obtain ⟨k, rfl⟩ := Nat.exists_eq_succ_of_ne_zero hpos
  exact h rest k hrest hn

section Constructors

variable {a b c ts : List Token} {x y z : Expr}

lemma reads_parens (h : Reads (.whole .conditional) ts x) :
    Reads (.whole .atom) (.opening :: (ts ++ [.closing])) x := by
  refine reads_of_step fun rest k hrest hk => ?_
  have hx := h (.closing :: rest) k (stops_cons_iff.mpr fun M hM => nomatch hM) (by
    simp only [Goal.depth, Level.toNat, List.length_append, List.length_cons] at hk ⊢
    omega)
  rw [List.cons_append, List.append_assoc, List.singleton_append, read, readWhole, readAtom, hx]

/-- A tighter expression uses up a token, which leaves depth for what follows behind it. -/
lemma reads_run {L : Level} (hL : L.isRun = true) (ha : Derives (.whole L.next) a x)
    (hb : Derives (.after L x) b y) (hx : Reads (.whole L.next) a x)
    (hy : Reads (.after L x) b y) : Reads (.whole L) (a ++ b) y := by
  refine reads_of_step fun rest k hrest hk => ?_
  obtain ⟨t, more, rfl, -⟩ := ha.starts L.next rfl
  have hatom : L ≠ .atom := by
    rintro rfl
    exact absurd hL (by decide)
  have hnext := Level.toNat_next hatom
  simp only [Goal.depth, List.length_append, List.length_cons] at hk
  have hfirst := hx (b ++ rest) k (hb.stops_next hatom hrest) (by
    simp only [Goal.depth, List.length_append, List.length_cons]
    omega)
  rw [List.append_assoc, read_run hL hfirst]
  refine hy rest k hrest ?_
  simp only [Goal.depth, List.length_append]
  omega

lemma reads_binary {op : Operator} (hop : op ≠ .power)
    (hc : Derives (.after op.level (.binary op x y)) c z) (hy : Reads (.whole op.right) b y)
    (hz : Reads (.after op.level (.binary op x y)) c z) :
    Reads (.after op.level x) (.operator op :: (b ++ c)) z := by
  refine reads_of_step fun rest k hrest hk => ?_
  have hright := Level.toNat_le op.right
  have hlevel : op.level ≠ .atom := by cases op <;> decide
  have hnext : op.right = op.level.next := by
    cases op <;> first | rfl | exact absurd rfl hop
  simp only [Goal.depth, List.length_append, List.length_cons] at hk
  have hoperand := hy (c ++ rest) k (hnext ▸ hc.stops_next hlevel hrest) (by
    simp only [Goal.depth, List.length_append]
    omega)
  rw [List.cons_append, List.append_assoc, read, readAfter, if_pos rfl, hoperand,
    Option.bind_some]
  refine (if_neg hop).trans (hz rest k hrest ?_)
  simp only [Goal.depth, List.length_append]
  omega

lemma reads_power (hy : Reads (.whole .factor) b y) :
    Reads (.after .power x) (.operator .power :: b) (.binary .power x y) := by
  refine reads_of_step fun rest k hrest hk => ?_
  simp only [Goal.depth, List.length_append, List.length_cons] at hk
  have hoperand := hy rest k (stops_factor hrest) (by
    simp only [Goal.depth, Level.toNat, List.length_append]
    omega)
  rw [List.cons_append, read, readAfter]
  simp only [Operator.level, Operator.right, hoperand, Option.bind_some, if_true]

lemma reads_compare {op : Comparison} (hc : Derives (.compared (.compare op x y)) c z)
    (hy : Reads (.whole .sum) b y) (hz : Reads (.compared (.compare op x y)) c z) :
    Reads (.after .comparison x) (.comparison op :: (b ++ c)) z := by
  refine reads_of_step fun rest k hrest hk => ?_
  simp only [Goal.depth, List.length_append, List.length_cons] at hk
  have hoperand := hy (c ++ rest) k (hc.stops_sum hrest) (by
    simp only [Goal.depth, Level.toNat, List.length_append]
    omega)
  rw [List.cons_append, List.append_assoc, read, readAfter, if_pos rfl, hoperand,
    Option.bind_some]
  refine hz rest k hrest ?_
  simp only [Goal.depth, List.length_append]
  omega

lemma reads_chain {op : Comparison} (hc : Derives (.compared (.chain x op y)) c z)
    (hy : Reads (.whole .sum) b y) (hz : Reads (.compared (.chain x op y)) c z) :
    Reads (.compared x) (.comparison op :: (b ++ c)) z := by
  refine reads_of_step fun rest k hrest hk => ?_
  simp only [Goal.depth, List.length_append, List.length_cons] at hk
  have hoperand := hy (c ++ rest) k (hc.stops_sum hrest) (by
    simp only [Goal.depth, Level.toNat, List.length_append]
    omega)
  rw [List.cons_append, List.append_assoc, read, readCompared, hoperand, Option.bind_some]
  refine hz rest k hrest ?_
  simp only [Goal.depth, List.length_append]
  omega

lemma reads_conditional (hy : Reads (.whole .disjunction) b y)
    (hz : Reads (.whole .conditional) c z) :
    Reads (.after .conditional x) (.cond :: (b ++ .otherwise :: c)) (.conditional y x z) := by
  refine reads_of_step fun rest k hrest hk => ?_
  simp only [Goal.depth, List.length_append, List.length_cons] at hk
  have hcondition := hy (.otherwise :: (c ++ rest)) k
    (stops_cons_iff.mpr fun M hM => nomatch hM) (by
      simp only [Goal.depth, Level.toNat, List.length_append, List.length_cons]
      omega)
  have helse := hz rest k hrest (by
    simp only [Goal.depth, Level.toNat, List.length_append]
    omega)
  rw [List.cons_append, List.append_assoc, List.cons_append, read, readAfter, if_pos rfl,
    hcondition]
  simp only [helse, Option.map_some]

lemma reads_negation (h : Reads (.whole .negation) ts x) :
    Reads (.whole .negation) (.not :: ts) (.negation x) := by
  refine reads_of_step fun rest k hrest hk => ?_
  have hx := h rest k hrest (by
    simp only [Goal.depth, Level.toNat, List.length_append, List.length_cons] at hk ⊢
    omega)
  rw [List.cons_append, read, readWhole, hx]
  rfl

lemma reads_negative (h : Reads (.whole .factor) ts x) :
    Reads (.whole .factor) (.operator .subtract :: ts) (.negative x) := by
  refine reads_of_step fun rest k hrest hk => ?_
  have hx := h rest k hrest (by
    simp only [Goal.depth, Level.toNat, List.length_append, List.length_cons] at hk ⊢
    omega)
  rw [List.cons_append, read, readWhole, hx]
  rfl

/-- No comparison starts with `not`. -/
lemma reads_ofComparison (h : Derives (.whole .comparison) ts x)
    (hx : Reads (.whole .comparison) ts x) : Reads (.whole .negation) ts x := by
  refine reads_of_step fun rest k hrest hk => ?_
  obtain ⟨t, more, rfl, ht⟩ := h.starts .comparison rfl
  rw [read_negation]
  · refine hx rest k (hrest.mono (by decide)) ?_
    simp only [Goal.depth, Level.toNat] at hk ⊢
    omega
  · rintro more' ⟨⟩
    exact absurd ht (by decide)

/-- No power starts with a sign. -/
lemma reads_ofPower (h : Derives (.whole .power) ts x) (hx : Reads (.whole .power) ts x) :
    Reads (.whole .factor) ts x := by
  refine reads_of_step fun rest k hrest hk => ?_
  obtain ⟨t, more, rfl, ht⟩ := h.starts .power rfl
  rw [read_factor]
  · refine hx rest k (hrest.mono (by decide)) ?_
    simp only [Goal.depth, Level.toNat] at hk ⊢
    omega
  · rintro more' ⟨⟩
    exact absurd ht (by decide)

end Constructors

/-- What the grammar derives is read, if the tokens behind it do not go on. -/
lemma reads_of_derives {goal : Goal} {ts : List Token} {x : Expr} (h : Derives goal ts x) :
    Reads goal ts x := by
  induction h with
  | name | number | constant => exact reads_of_step fun rest k _ _ => rfl
  | parens _ ih => exact reads_parens ih
  | run hL ha hb iha ihb => exact reads_run hL ha hb iha ihb
  | stop => exact reads_of_step fun rest k hrest _ => read_after_stop hrest
  | binary hop _ hc ihb ihc => exact reads_binary hop hc ihb ihc
  | power _ ih => exact reads_power ih
  | compare _ hc ihb ihc => exact reads_compare hc ihb ihc
  | stopCompared => exact reads_of_step fun rest k hrest _ => read_compared_stop hrest
  | chain _ hc ihb ihc => exact reads_chain hc ihb ihc
  | conditional _ _ ihb ihc => exact reads_conditional ihb ihc
  | negation _ ih => exact reads_negation ih
  | ofComparison h ih => exact reads_ofComparison h ih
  | negative _ ih => exact reads_negative ih
  | ofPower h ih => exact reads_ofPower h ih

/-- What the grammar derives is read. -/
lemma parse_of_derives {ts : List Token} {x : Expr} (h : Derives (.whole .conditional) ts x) :
    parse ts = some x := by
  have hread := reads_of_derives h [] (depthFor ts) (stops_nil _) (by
    simp only [Goal.depth, Level.toNat, depthFor, List.append_nil]
    omega)
  rw [List.append_nil] at hread
  rw [parse, hread]

/-- No tokens have two readings. -/
lemma Derives.unique {ts : List Token} {x y : Expr} (hx : Derives (.whole .conditional) ts x)
    (hy : Derives (.whole .conditional) ts y) : x = y :=
  Option.some.inj ((parse_of_derives hx).symm.trans (parse_of_derives hy))

/-! ### Looser levels -/

/-- An expression of the next tighter level is one of this level. -/
lemma Derives.loosen {L : Level} {ts : List Token} {x : Expr} (h : Derives (.whole L.next) ts x) :
    Derives (.whole L) ts x := by
  have hrun : L.isRun = true → Derives (.whole L) ts x := by
    intro hL
    rw [← List.append_nil ts]
    exact .run hL h .stop
  cases L with
  | atom => exact h
  | factor => exact .ofPower h
  | negation => exact .ofComparison h
  | power | term | sum | comparison | conjunction | disjunction | conditional => exact hrun rfl

/-- An expression of a level is one of every looser level. -/
lemma Derives.lift {L M : Level} {ts : List Token} {x : Expr} (h : Derives (.whole L) ts x)
    (hLM : L.toNat ≤ M.toNat) : Derives (.whole M) ts x := by
  obtain ⟨k, hk⟩ := Nat.exists_eq_add_of_le hLM
  induction k generalizing M with
  | zero => exact Level.toNat_injective hk ▸ h
  | succ k ih =>
      have hM : M ≠ .atom := by
        rintro rfl
        simp only [Level.toNat] at hk
        omega
      have hnext := Level.toNat_next hM
      exact (ih (by omega) (by omega)).loosen

end Blockscribe.Grammar
