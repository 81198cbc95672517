/-
Expressions of joined texts as the program reads and evaluates them.

* `Expr`: names, numerals, literals, signs, sums, calls, attributes, displays of lists and
  comprehensions.
* `scan`, `parse`, `readText`: the expression that a text spells.
* `Datum`, `Scope`, `Expr.value`: the value of an expression, given those of the names. A
  comprehension evaluates its element once for each item of its source, under a name of its own.
* `Cuts`: a text is cut into given tokens, or into none, whatever stands behind it.
-/
import Blockscribe.Proofs.Grammar.Amount
import Blockscribe.Proofs.Number.RoundTrip
import Blockscribe.Proofs.Text.Literal

namespace Blockscribe.Joined

open Name (isWordChar)
open Text.Quoted (mark denote isOutside)

/-! ### Expressions -/

/-- Expressions of texts, numbers and lists. -/
inductive Expr
  | name (id : String)
  | numeral (digits : String)
  | literal (text : List Char)
  | negative (operand : Expr)
  | sum (left right : Expr)
  | call (function argument : Expr)
  | member (owner : Expr) (field : String)
  /-- The display of a list without items. -/
  | noItems
  /-- An item in front of the display of a list. -/
  | item (first rest : Expr)
  /-- The list of what an element is for each item of a source, under a name for the item. -/
  | each (element : Expr) (id : String) (source : Expr)

/-- The names in an expression. -/
def Expr.identifiers : Expr → List String
  | name id => [id]
  | numeral _ | literal _ | noItems => []
  | negative x | member x _ => x.identifiers
  | sum x y | call x y | item x y => x.identifiers ++ y.identifiers
  | each x id y => id :: (x.identifiers ++ y.identifiers)

/-! ### Values -/

/-- Routines with one argument. -/
inductive Routine
  | str
  | float
  /-- The texts of a list with a separator between them. -/
  | join (separator : List Char)

/-- Values; those of a type of their own are neither texts nor numbers nor lists. -/
inductive Datum (α : Type)
  | text (cs : List Char)
  | whole (i : ℤ)
  | real (x : Double)
  | items (vs : List (Datum α))
  | routine (f : Routine)
  | other (a : α)

/-- The number of the same magnitude with the other sign. -/
def opposite : Double → Double
  | .nan => .nan
  | .infinite negative => .infinite !negative
  | .finite negative m e => .finite (!negative) m e

namespace Datum

variable {α : Type}

/-- The text that a value is. -/
def text? : Datum α → Option (List Char)
  | text cs => some cs
  | _ => none

/-- The items of the list that a value is. -/
def items? : Datum α → Option (List (Datum α))
  | items vs => some vs
  | _ => none

/-- The value with a sign in front. -/
def opposite? : Datum α → Option (Datum α)
  | whole i => some (.whole (-i))
  | real x => some (.real (opposite x))
  | _ => none

/-- The sum of two integers, and two texts one after the other. -/
def plus? : Datum α → Datum α → Option (Datum α)
  | whole i, whole j => some (.whole (i + j))
  | text cs, text ds => some (.text (cs ++ ds))
  | _, _ => none

/-- An attribute of a value. -/
def member? : Datum α → String → Option (Datum α)
  | text cs, "join" => some (.routine (.join cs))
  | _, _ => none

/-- The value of a numeral: an integer if there are only digits. -/
def ofNumeral? (digits : String) : Option (Datum α) :=
  match Grammar.wholeLiteral? digits with
  | some i => some (.whole i)
  | none => (Number.readDouble? digits).map .real

/-- The value of a number: one with nothing behind the point is an integer. -/
def ofDouble (x : Double) : Datum α :=
  match x.whole? with
  | some i => .whole i
  | none => .real x

end Datum

/-- The values that names have, and the texts that `str` gives. -/
structure Scope (α : Type) where
  value : String → Option (Datum α)
  shown : Datum α → List Char
  shown_text : ∀ cs, shown (.text cs) = cs

namespace Scope

variable {α : Type} (scope : Scope α)

/-- A name has a value; other names have the ones that they had. -/
def bind (id : String) (v : Datum α) : Scope α :=
  { scope with value := fun name => if name = id then some v else scope.value name }

/-- The routines that are there from the start have their names. -/
structure Plain : Prop where
  str : scope.value "str" = some (.routine .str)
  float : scope.value "float" = some (.routine .float)

/-- What a routine gives. -/
def call? : Datum α → Datum α → Option (Datum α)
  | .routine .str, v => some (.text (scope.shown v))
  | .routine .float, .text cs => (Number.readDouble? (String.ofList cs)).map .real
  | .routine (.join separator), .items vs =>
      (vs.mapM Datum.text?).map fun texts => .text (separator.intercalate texts)
  | _, _ => none

end Scope

/-- The value of an expression, if it has one. -/
def Expr.value {α : Type} : Expr → Scope α → Option (Datum α)
  | name id, scope => scope.value id
  | numeral digits, _ => Datum.ofNumeral? digits
  | literal cs, _ => some (.text cs)
  | negative x, scope => (x.value scope).bind Datum.opposite?
  | sum x y, scope => do (← x.value scope).plus? (← y.value scope)
  | call f x, scope => do scope.call? (← f.value scope) (← x.value scope)
  | member x field, scope => (x.value scope).bind (Datum.member? · field)
  | noItems, _ => some (.items [])
  | item x rest, scope => do
    let v ← x.value scope
    let vs ← (← rest.value scope).items?
    return .items (v :: vs)
  | each x id source, scope => do
    let vs ← (← source.value scope).items?
    return .items (← vs.mapM fun v => x.value (scope.bind id v))

lemma Expr.value_call {α : Type} (f x : Expr) (scope : Scope α) : (call f x).value scope =
    (f.value scope).bind fun g => (x.value scope).bind fun v => scope.call? g v := rfl

/-! ### Tokens -/

/-- What expressions are written with. -/
inductive Token
  | name (id : String)
  | numeral (digits : String)
  | literal (text : List Char)
  | each
  | within
  | plus
  | minus
  | point
  | comma
  | opening
  | closing
  | left
  | right

/-- The symbols. -/
def symbols : List (Char × Token) :=
  [('+', .plus), ('-', .minus), ('.', .point), (',', .comma), ('(', .opening), (')', .closing),
    ('[', .left), (']', .right)]

/-- The token of a word; other keywords have none. -/
def wordToken? (word : String) : Option Token :=
  if word = "for" then some .each
  else if word = "in" then some .within
  else if Grammar.keywords.contains word then none
  else some (.name word)

/-- How much of a text a piece goes on with. -/
def runLength : List Char → List Char → ℕ
  | _, [] => 0
  | piece, c :: cs => if Grammar.goesOn piece c then runLength (piece ++ [c]) cs + 1 else 0

/-- The token that starts with a character, and how many characters it takes of those behind.
Literals in double quotes are read if they have no backslash. -/
def next (c : Char) (cs : List Char) : Option (Token × ℕ) :=
  if c = mark then (denote cs).map fun (text, rest) => (.literal text, cs.length - rest.length)
  else if c = '"' then
    let text := cs.takeWhile (· != '"')
    if (cs.dropWhile (· != '"')).isEmpty ||
        text.any (fun d => d == '\\' || d == '\n' || isOutside d) then none
    else some (.literal text, text.length + 1)
  else if isWordChar c then
    let more := cs.take (runLength [c] cs)
    let token :=
      if c.isDigit then
        if Grammar.isNumeral (c :: more) then some (.numeral (String.ofList (c :: more))) else none
      else wordToken? (String.ofList (c :: more))
    token.map (·, more.length)
  else (symbols.lookup c).map (·, 0)

/-- The tokens of a text, behind some characters that belong to an earlier one. -/
def scan : ℕ → List Char → Option (List Token)
  | _, [] => some []
  | skip + 1, _ :: cs => scan skip cs
  | 0, c :: cs =>
      if c = ' ' then scan 0 cs
      else (next c cs).bind fun (t, length) => (scan length cs).map (t :: ·)

/-! ### Reading -/

/-- Levels of precedence. -/
inductive Level
  | sum
  | factor
  | primary

mutual

/-- The expression of a level at the front of some tokens, and what is left of them. Two literals
next to each other are not read. -/
def parse : ℕ → Level → List Token → Option (Expr × List Token)
  | 0, _, _ => none
  | n + 1, .sum, ts => (parse n .factor ts).bind fun (x, rest) => goOn n .sum x rest
  | n + 1, .factor, .minus :: ts => (parse n .factor ts).map fun (x, rest) => (.negative x, rest)
  | n + 1, .factor, ts => parse n .primary ts
  | n + 1, .primary, .name id :: ts => goOn n .primary (.name id) ts
  | n + 1, .primary, .numeral digits :: ts => goOn n .primary (.numeral digits) ts
  | n + 1, .primary, .literal text :: ts => goOn n .primary (.literal text) ts
  | n + 1, .primary, .opening :: ts =>
      (parse n .sum ts).bind fun
        | (x, .closing :: rest) => goOn n .primary x rest
        | _ => none
  | n + 1, .primary, .left :: .right :: ts => goOn n .primary .noItems ts
  | n + 1, .primary, .left :: ts =>
      (parse n .sum ts).bind fun
        | (x, .each :: .name id :: .within :: more) =>
            (parse n .sum more).bind fun
              | (y, .right :: rest) => goOn n .primary (.each x id y) rest
              | _ => none
        | (x, more) => (items n more).bind fun (y, rest) => goOn n .primary (.item x y) rest
  | _ + 1, .primary, _ => none

/-- The display of the further items of a list, as far as its end. -/
def items : ℕ → List Token → Option (Expr × List Token)
  | 0, _ => none
  | _ + 1, .right :: ts => some (.noItems, ts)
  | n + 1, .comma :: ts =>
      (parse n .sum ts).bind fun (x, more) =>
        (items n more).map fun (y, rest) => (.item x y, rest)
  | _ + 1, _ => none

/-- Goes on with an expression of a level. -/
def goOn : ℕ → Level → Expr → List Token → Option (Expr × List Token)
  | 0, _, _, _ => none
  | n + 1, .sum, x, .plus :: ts =>
      (parse n .factor ts).bind fun (y, rest) => goOn n .sum (.sum x y) rest
  | n + 1, .primary, x, .opening :: ts =>
      (parse n .sum ts).bind fun
        | (y, .closing :: rest) => goOn n .primary (.call x y) rest
        | _ => none
  | n + 1, .primary, x, .point :: .name field :: ts => goOn n .primary (.member x field) ts
  | _ + 1, _, x, ts => some (x, ts)

end

/-- The expression that tokens spell, if nothing is left of them. -/
def parseAll (ts : List Token) : Option Expr :=
  match parse (4 * ts.length + 12) .sum ts with
  | some (x, []) => some x
  | _ => none

lemma parseAll_eq {ts : List Token} {x : Expr} {n : ℕ} (h : parse n .sum ts = some (x, []))
    (hn : 4 * ts.length + 12 = n) : parseAll ts = some x := by
  rw [parseAll, hn, h]

/-- The expression that a text spells. -/
def readText (text : String) : Option Expr := (scan 0 text.toList).bind parseAll

/-! ### Cutting a text into tokens -/

/-- The characters at which a word or a numeral ends. -/
def breaks : List Char := [' ', '(', ')', ',', ']']

/-- A text is cut into tokens, or into none, whatever stands behind it from a break on. -/
def Cuts (cs : List Char) (tokens : Option (List Token)) : Prop :=
  ∀ rest, (∀ c ∈ rest.head?, c ∈ breaks) →
    scan 0 (cs ++ rest) = tokens.bind fun ts => (scan 0 rest).map (ts ++ ·)

lemma head_mem_breaks {c : Char} (hc : c ∈ breaks) (cs : List Char) :
    ∀ d ∈ (c :: cs).head?, d ∈ breaks := by
  intro d hd
  obtain rfl := Option.some.inj hd
  exact hc

/-- The rest of a text behind characters that belong to an earlier token. -/
lemma scan_length (cs rest : List Char) : scan cs.length (cs ++ rest) = scan 0 rest := by
  induction cs with
  | nil => rfl
  | cons c cs ih => exact ih

/-- A token takes in what belongs to it. -/
lemma scan_token {c : Char} {cs rest : List Char} {t : Token} (hc : c ≠ ' ')
    (h : next c (cs ++ rest) = some (t, cs.length)) :
    scan 0 (c :: (cs ++ rest)) = (scan 0 rest).map (t :: ·) := by
  rw [scan, if_neg hc, h, Option.bind_some]
  dsimp only
  rw [scan_length]

lemma runLength_of_runsOn {piece cs rest : List Char} (h : Grammar.runsOn piece cs = true)
    (hrest : ∀ c ∈ rest.head?, Grammar.goesOn (piece ++ cs) c = false) :
    runLength piece (cs ++ rest) = cs.length := by
  induction cs generalizing piece with
  | nil =>
      rw [List.append_nil] at hrest
      cases rest with
      | nil => rfl
      | cons c rest =>
          rw [List.nil_append, runLength, hrest c rfl, if_neg Bool.false_ne_true]
          rfl
  | cons c cs ih =>
      rw [Grammar.runsOn, Bool.and_eq_true] at h
      rw [List.cons_append, runLength, if_pos h.1, ih h.2, List.length_cons]
      intro d hd
      rw [List.append_assoc, List.singleton_append]
      exact hrest d hd

/-- No break belongs to a word or a numeral. -/
lemma goesOn_of_mem_breaks {first c : Char} {piece : List Char} (hfirst : isWordChar first = true)
    (hc : c ∈ breaks) : Grammar.goesOn (first :: piece) c = false := by
  have hmarks : (breaks.all fun d =>
      isWordChar d = false ∧ d ≠ '.' ∧ d ≠ '+' ∧ d ≠ '-') = true := by decide
  obtain ⟨hword, hpoint, hplus, hminus⟩ := of_decide_eq_true (List.all_eq_true.mp hmarks c hc)
  rw [Grammar.goesOn]
  split
  · simp [hword, hpoint, hplus, hminus]
  · exact hword

/-- A word is one token. -/
lemma cuts_word {c : Char} {cs : List Char} (hc : isWordChar c = true) (hdigit : c.isDigit = false)
    (hcs : cs.all isWordChar = true) :
    Cuts (c :: cs) ((wordToken? (String.ofList (c :: cs))).map ([·])) := by
  intro rest hrest
  have hquotes : c ≠ mark ∧ c ≠ '"' ∧ c ≠ ' ' := by
    refine ⟨?_, ?_, ?_⟩ <;> rintro rfl <;> exact absurd hc (by decide)
  have hlength : runLength [c] (cs ++ rest) = cs.length :=
    runLength_of_runsOn (Grammar.runsOn_of_isWordChar hc hcs)
      fun d hd => goesOn_of_mem_breaks hc (hrest d hd)
  have hnext : next c (cs ++ rest) =
      (wordToken? (String.ofList (c :: cs))).map (·, cs.length) := by
    rw [next, if_neg hquotes.1, if_neg hquotes.2.1, if_pos hc, hlength, List.take_left, hdigit]
    rfl
  cases htoken : wordToken? (String.ofList (c :: cs)) with
  | none =>
      rw [htoken] at hnext
      rw [List.cons_append, scan, if_neg hquotes.2.2, hnext]
      rfl
  | some t =>
      rw [htoken] at hnext
      rw [List.cons_append, scan_token hquotes.2.2 hnext]
      rfl

/-- A numeral is one token. -/
lemma cuts_numeral {digits : String} (h : Grammar.isNumeral digits.toList = true) :
    Cuts digits.toList (some [.numeral digits]) := by
  intro rest hrest
  cases hcs : digits.toList with
  | nil => exact absurd (hcs ▸ h) (by decide)
  | cons c cs =>
      rw [hcs] at h
      obtain ⟨hdigit, hrun⟩ := Grammar.runsOn_of_isNumeral h
      have hc : isWordChar c = true := Grammar.isWordChar_of_isDigit hdigit
      have hquotes : c ≠ mark ∧ c ≠ '"' ∧ c ≠ ' ' := by
        refine ⟨?_, ?_, ?_⟩ <;> rintro rfl <;> exact absurd hc (by decide)
      have hlength : runLength [c] (cs ++ rest) = cs.length :=
        runLength_of_runsOn hrun fun d hd => goesOn_of_mem_breaks hc (hrest d hd)
      have hnext : next c (cs ++ rest) = some (.numeral digits, cs.length) := by
        rw [next, if_neg hquotes.1, if_neg hquotes.2.1, if_pos hc, hlength, List.take_left]
        dsimp only
        rw [if_pos hdigit, if_pos h, ← hcs, String.ofList_toList]
        rfl
      rw [List.cons_append, scan_token hquotes.2.2 hnext]
      rfl

/-- A quoted text is one token, if it can be read. -/
lemma scan_quote (text : String) (rest : List Char) :
    scan 0 ((quote text).toList ++ rest) =
      if text.toList.any isOutside then none
      else (scan 0 rest).map (.literal (Text.Quoted.altered [] text.toList) :: ·) := by
  have hlead : '\n' ∈ text.toList → ∀ c ∈ [], c = ' ' ∨ c = '\t' := fun _ => nofun
  have hdenote := Text.Quoted.denote_escapeLed hlead rest
  generalize hbody : Text.Quoted.escapeLed [] text.toList = body at hdenote
  have htext : (quote text).toList = mark :: (body ++ [mark]) := by
    rw [Text.Quoted.toList_quote, Text.Quoted.literal, hbody]
  have hbehind : (body ++ [mark]) ++ rest = body ++ mark :: rest := by
    rw [List.append_assoc, List.singleton_append]
  rw [htext, List.cons_append]
  cases houtside : text.toList.any isOutside with
  | true =>
      rw [houtside, if_pos rfl] at hdenote
      rw [if_pos rfl, scan, if_neg (by decide), next, if_pos rfl, hbehind, hdenote]
      rfl
  | false =>
      rw [houtside, if_neg Bool.false_ne_true] at hdenote
      have hnext : next mark ((body ++ [mark]) ++ rest) =
          some (.literal (Text.Quoted.altered [] text.toList), (body ++ [mark]).length) := by
        rw [next, if_pos rfl, hbehind, hdenote, ← hbehind, Option.map_some]
        dsimp only
        rw [List.length_append, Nat.add_sub_cancel_right]
      rw [if_neg Bool.false_ne_true, scan_token (by decide) hnext]

end Blockscribe.Joined
