/-
Line widths, which may be whole or fractional numbers.

* `Extent.fits`: whether a line of so many characters is within the width.
* `Extent.isUsable`: a width of zero or less is not.
* `Extent.fits_whole`: within a whole width fit the lines that are no longer.
-/
import Blockscribe.Value

namespace Blockscribe

/-- A width in characters. -/
inductive Extent
  | whole (n : Int)
  | real (x : Double)
  deriving DecidableEq, Repr

namespace Extent

/-- The width that a value stands for; truth values count as one and zero. -/
def ofValue? : Value → Option Extent
  | .bool b => some (whole (if b then 1 else 0))
  | .int i => some (whole i)
  | .real x => some (real x)
  | _ => none

/-- The value of a width. -/
def toValue : Extent → Value
  | whole n => .int n
  | real x => .real x

/-- A width less so many columns. -/
def minus (w : Extent) (columns : Nat) : Extent :=
  match w with
  | whole n => whole (n - columns)
  | real x => real (x.minus columns)

/-- Whether the width is at most so many columns. -/
def atMost (w : Extent) (columns : Nat) : Bool :=
  match w with
  | whole n => n ≤ columns
  | real x => x.atMost columns

/-- Whether lines can be filled to this width. -/
def isUsable (w : Extent) : Bool := !w.atMost 0

/-- Whether a line of so many characters is within the width. -/
def fits (w : Extent) (length : Nat) : Bool :=
  match w with
  | whole n => (length : Int) ≤ n
  | real x => x.atLeast length

/-- Within a whole width fit the lines that are no longer. -/
theorem fits_whole (n length : Nat) : (whole n).fits length = decide (length ≤ n) := by
  simp [fits]

end Extent

end Blockscribe
