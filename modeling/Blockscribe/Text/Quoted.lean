/-
String literals of the generated program.

* `Quoted.escape`: backslash, line feed, percent sign and single quote get a backslash in front;
  every other character stands for itself.
* `quote`: the escaped text between single quotes.
* `Quoted.scan`: reads a literal from after its opening quote, as far as its closing quote.
* `Quoted.scan_escape`: scanning an escaped text stops at the quote that follows it and gives the
  text back.
-/
namespace Blockscribe.Text.Quoted

/-- The single quote. -/
def mark : Char := '\x27'

/-- The characters that a backslash precedes. -/
def needsEscape (c : Char) : Bool :=
  c == '\\' || c == '\n' || c == '%' || c == mark

/-- Puts a backslash in front of every character that needs one. -/
def escape : List Char → List Char
  | [] => []
  | c :: rest => if needsEscape c then '\\' :: c :: escape rest else c :: escape rest

/-- Reads up to the first single quote that no backslash precedes: the text without the backslashes
that precede a character, and what follows the quote. A line feed ends the scan without a result. -/
def scan : List Char → Option (List Char × List Char)
  | [] => none
  | c :: rest =>
    if c = '\\' then
      match rest with
      | [] => none
      | d :: more => (scan more).map fun (body, after) => (d :: body, after)
    else if c = mark then some ([], rest)
    else if c = '\n' then none
    else (scan rest).map fun (body, after) => (c :: body, after)

/-- Scanning an escaped text stops at the quote that follows it. -/
theorem scan_escape (cs rest : List Char) :
    scan (escape cs ++ mark :: rest) = some (cs, rest) := by
  induction cs with
  | nil =>
    unfold scan
    simp [escape, mark]
  | cons c tail ih =>
    by_cases hc : needsEscape c = true
    · simp [escape, hc, scan, ih]
    · have hb : c ≠ '\\' := by rintro rfl; simp [needsEscape] at hc
      have hm : c ≠ mark := by rintro rfl; simp [needsEscape] at hc
      have hn : c ≠ '\n' := by rintro rfl; simp [needsEscape] at hc
      simp only [escape, hc, Bool.false_eq_true, if_false, List.cons_append]
      unfold scan
      simp [hb, hm, hn, ih]

end Blockscribe.Text.Quoted

namespace Blockscribe

/-- Text as a single-quoted literal of the generated program. -/
def quote (text : String) : String :=
  "'" ++ String.ofList (Text.Quoted.escape text.toList) ++ "'"

end Blockscribe
