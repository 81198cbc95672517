/-
Precedence of expressions.

* `Rank`: how tightly the outermost operator of an expression binds, from atoms to no requirement.
* `Grade`: the rank that someone reports or requires, which need not exist.
* `wrap`: parentheses around an expression that binds more loosely than required.
* `resolve`: the same for grades, refusing those that are no ranks.
* `Rank.ofInt?_toNat`: a rank is recovered from its number.
-/
import Blockscribe.Fault

namespace Blockscribe

/-- Precedence ranks; the first binds tightest. -/
inductive Rank
  | atomic
  | collection
  | member
  | functionCall
  | exponentiation
  | unarySign
  | multiplicative
  | additive
  | relational
  | logicalNot
  | logicalAnd
  | logicalOr
  | conditional
  | lambda
  | none
  deriving DecidableEq, Repr

namespace Rank

/-- The number of a rank; the greater, the looser. -/
def toNat : Rank → Nat
  | atomic => 0
  | collection => 1
  | member => 2
  | functionCall => 3
  | exponentiation => 4
  | unarySign => 5
  | multiplicative => 6
  | additive => 7
  | relational => 8
  | logicalNot => 9
  | logicalAnd => 10
  | logicalOr => 11
  | conditional => 12
  | lambda => 13
  | none => 99

/-- All ranks, the tightest first. -/
def all : List Rank :=
  [atomic, collection, member, functionCall, exponentiation, unarySign, multiplicative, additive,
    relational, logicalNot, logicalAnd, logicalOr, conditional, lambda, none]

/-- The rank with a number. -/
def ofInt? (i : Int) : Option Rank := all.find? fun r => (r.toNat : Int) == i

/-- A rank is recovered from its number. -/
theorem ofInt?_toNat (r : Rank) : ofInt? r.toNat = some r := by
  cases r <;> rfl

end Rank

/-- A rank that is reported or required: one that exists, or a value that is none. -/
inductive Grade
  | rank (r : Rank)
  | unknown (v : Value)

namespace Grade

/-- The grade that a value stands for: whole numbers that are ranks, and nothing else. -/
def ofValue (v : Value) : Grade :=
  match v with
  | .int i =>
    match Rank.ofInt? i with
    | some r => rank r
    | none => unknown v
  | _ => unknown v

/-- A grade as a value. -/
def toValue : Grade → Value
  | rank r => .int r.toNat
  | unknown v => v

/-- Whether the grade is a rank. -/
def isRank : Grade → Bool
  | rank _ => true
  | unknown _ => false

end Grade

/-- Puts an expression in parentheses if its number is greater than the required one. -/
def wrapAt (code : String) (given required : Int) : String :=
  if given > required then "(" ++ code ++ ")" else code

/-- Puts an expression in parentheses if it binds more loosely than required. -/
def wrap (code : String) (given required : Rank) : String :=
  wrapAt code given.toNat required.toNat

/-- Puts an expression in parentheses where needed; a grade that is no rank is refused. -/
def resolve (code : String) (given required : Grade) : Except Flaw String :=
  match given, required with
  | .unknown v, _ => .error (.unknownRank v)
  | .rank _, .unknown v => .error (.unknownRank v)
  | .rank g, .rank r => .ok (wrap code g r)

end Blockscribe
