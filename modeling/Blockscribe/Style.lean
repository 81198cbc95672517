/-
The style of a generated program.

* `Style`: the target dialect, the unit of indentation, where indexes start and how wide comments
  may be.
* `commentAllowance`: the columns that a comment's lead takes from the width of comments.
* `Style.site`: the part of a style that handlers may look at.
-/
import Blockscribe.Number.Extent
import Blockscribe.Plan

namespace Blockscribe

/-- The columns that the lead of a comment takes from its width. -/
def commentAllowance : Nat := 3

/-- How a program is written. -/
structure Style where
  dialect : Dialect
  oneBased : Bool
  indent : String
  commentWrap : Extent

namespace Style

/-- The width to which comments are filled. -/
def commentWidth (s : Style) : Extent := s.commentWrap.minus commentAllowance

/-- What handlers may look at. -/
def site (s : Style) (declared : List String) : Site :=
  ⟨s.dialect, s.indent, s.oneBased, declared⟩

/-- The line of an empty statement, indented by one level. -/
def emptyBody (s : Style) : String := s.indent ++ s.dialect.passKeyword ++ "\n"

end Style

end Blockscribe
