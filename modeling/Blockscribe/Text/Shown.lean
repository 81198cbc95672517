/-
Texts as they are shown in messages: between quotes, with everything unprintable escaped.

* `Shown.quoteFor`: the quote that is used, a double quote only for a text that holds single quotes
  and no double quote.
* `showText`: the text between its quotes.
-/
import Blockscribe.Text.Printable

namespace Blockscribe.Text.Shown

/-- Lower-case hexadecimal digits of `n`, at least `width` of them. -/
def hex (width n : Nat) : List Char :=
  let digits := Nat.toDigits 16 n
  List.replicate (width - digits.length) '0' ++ digits

/-- The quote for a text. -/
def quoteFor (cs : List Char) : Char :=
  if cs.contains '\x27' && !cs.contains '\x22' then '\x22' else '\x27'

/-- One character between quotes of the given kind. -/
def escapeChar (quote c : Char) : List Char :=
  if c = quote ∨ c = '\\' then ['\\', c]
  else if c = '\n' then ['\\', 'n']
  else if c = '\r' then ['\\', 'r']
  else if c = '\t' then ['\\', 't']
  else if isPrintable c then [c]
  else if c.toNat < 0x100 then '\\' :: 'x' :: hex 2 c.toNat
  else if c.toNat < 0x10000 then '\\' :: 'u' :: hex 4 c.toNat
  else '\\' :: 'U' :: hex 8 c.toNat

end Blockscribe.Text.Shown

namespace Blockscribe

/-- A text between quotes, with line breaks, tabs, backslashes, the quote itself and everything
unprintable escaped. -/
def showText (text : String) : String :=
  let quote := Text.Shown.quoteFor text.toList
  String.ofList (quote :: text.toList.flatMap (Text.Shown.escapeChar quote) ++ [quote])

end Blockscribe
