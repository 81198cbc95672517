/-
How a text of the python dialect is cut into tokens.

* `scan`: the tokens of a text, each as long as it can be. A run of letters, digits and underscores
  is a word or a numeral, and a keyword is no name.
* `isNumeral`: numerals: whole ones without zeros in front, and those with a point or an exponent.
* `skipComments`: leaves out the lines of comments in front of a text.
* `readText`: the expression that a text spells.
* `Spells`: a text is cut into given tokens whatever follows it, as long as that is a space, a
  closing parenthesis or nothing. `spells_binary` and its like say so of composed texts.
-/
import Blockscribe.Name.Safe
import Blockscribe.Proofs.Grammar.Parse
import Blockscribe.Text.Lines

namespace Blockscribe.Grammar

open Name (isWordChar)

/-! ### Tokens of a text -/

/-- The words that are no names. -/
def keywords : List String :=
  ["False", "None", "True", "and", "as", "assert", "async", "await", "break", "class", "continue",
    "def", "del", "elif", "else", "except", "finally", "for", "from", "global", "if", "import",
    "in", "is", "lambda", "nonlocal", "not", "or", "pass", "raise", "return", "try", "while", "with",
    "yield"]

/-- The keywords of expressions. -/
def keywordTokens : List (String × Token) :=
  [("True", .constant .true), ("False", .constant .false), ("None", .constant .none),
    ("not", .not), ("and", .operator .and), ("or", .operator .or), ("if", .cond),
    ("else", .otherwise)]

/-- The symbols of expressions. -/
def symbolTokens : List (List Char × Token) :=
  [(['+'], .operator .add), (['-'], .operator .subtract), (['*'], .operator .multiply),
    (['/'], .operator .divide), (['*', '*'], .operator .power), (['=', '='], .comparison .equal),
    (['!', '='], .comparison .unequal), (['<'], .comparison .less),
    (['<', '='], .comparison .lessEqual), (['>'], .comparison .greater),
    (['>', '='], .comparison .greaterEqual), (['('], .opening), ([')'], .closing)]

/-- Digits behind a sign, if there is one. -/
def isExponent : List Char → Bool
  | '+' :: ds | '-' :: ds => !ds.isEmpty && ds.all Char.isDigit
  | ds => !ds.isEmpty && ds.all Char.isDigit

/-- Nothing, or an exponent. -/
def isScale : List Char → Bool
  | [] => true
  | c :: rest => (c == 'e' || c == 'E') && isExponent rest

/-- Whether a text is a decimal numeral. A whole one has no zeros in front. -/
def isNumeral (cs : List Char) : Bool :=
  !(cs.takeWhile Char.isDigit).isEmpty &&
    match cs.dropWhile Char.isDigit with
    | [] => cs.head? != some '0' || cs.all (· == '0')
    | '.' :: rest => isScale (rest.dropWhile Char.isDigit)
    | rest => isScale rest

/-- The token that a word is. -/
def wordToken? (word : String) : Option Token :=
  if keywords.contains word then keywordTokens.lookup word else some (.name word)

/-- The token that a piece of text is. -/
def token? : List Char → Option Token
  | [] => none
  | c :: rest =>
      if c.isDigit then
        if isNumeral (c :: rest) then some (.number (String.ofList (c :: rest))) else none
      else if isWordChar c then wordToken? (String.ofList (c :: rest))
      else symbolTokens.lookup (c :: rest)

/-- Whether a piece of text goes on with a character. -/
def goesOn (piece : List Char) (c : Char) : Bool :=
  match piece with
  | [] => false
  | first :: _ =>
      if first.isDigit then
        isWordChar c || c == '.' ||
          ((c == '+' || c == '-') && (piece.getLast? == some 'e' || piece.getLast? == some 'E'))
      else if isWordChar first then isWordChar c
      else symbolTokens.any fun entry => entry.1 == piece ++ [c]

/-- Puts the token of a piece in front of others; no piece has no token. -/
def close (piece : List Char) (ts : List Token) : Option (List Token) :=
  match piece with
  | [] => some ts
  | c :: rest => (token? (c :: rest)).map (· :: ts)

/-- The tokens of a text that follows a piece which has been begun. -/
def scanFrom : List Char → List Char → Option (List Token)
  | piece, [] => close piece []
  | piece, c :: cs =>
      if goesOn piece c then scanFrom (piece ++ [c]) cs
      else (scanFrom (if c = ' ' then [] else [c]) cs).bind (close piece)

/-- The tokens of a text. -/
def scan (cs : List Char) : Option (List Token) := scanFrom [] cs

/-- A text without the lines of comments in front of it; `inside` says whether one has begun. -/
def skipComments (inside : Bool) : List Char → List Char
  | [] => []
  | c :: cs =>
      if inside then skipComments (c != '\n') cs
      else if c = '#' then skipComments true cs
      else c :: cs

/-- The expression that a text spells behind its comments. -/
def readText (text : String) : Option Expr := (scan (skipComments false text.toList)).bind parse

/-! ### Pieces -/

/-- Whether a piece goes on with every character of a text. -/
def runsOn : List Char → List Char → Bool
  | _, [] => true
  | piece, c :: cs => goesOn piece c && runsOn (piece ++ [c]) cs

lemma runsOn_append {piece cs ds : List Char} :
    runsOn piece (cs ++ ds) = (runsOn piece cs && runsOn (piece ++ cs) ds) := by
  induction cs generalizing piece with
  | nil => simp [runsOn]
  | cons c cs ih => simp only [List.cons_append, runsOn, ih, Bool.and_assoc, List.append_assoc,
      List.nil_append]

/-- A piece takes in all the characters with which it goes on. -/
lemma scanFrom_append {piece cs rest : List Char} (h : runsOn piece cs = true) :
    scanFrom piece (cs ++ rest) = scanFrom (piece ++ cs) rest := by
  induction cs generalizing piece with
  | nil => rw [List.nil_append, List.append_nil]
  | cons c cs ih =>
      rw [runsOn, Bool.and_eq_true] at h
      rw [List.cons_append, scanFrom, if_pos h.1, ih h.2, List.append_assoc, List.singleton_append]

lemma close_nil : close [] = some := rfl

lemma scan_cons (c : Char) (cs : List Char) :
    scan (c :: cs) = scanFrom (if c = ' ' then [] else [c]) cs := by
  have hnot : ¬ goesOn [] c = true := by simp [goesOn]
  rw [scan, scanFrom, if_neg hnot, close_nil, Option.bind_fun_some]

/-- A piece ends where it does not go on. -/
lemma scanFrom_eq_bind {piece rest : List Char} (h : ∀ c ∈ rest.head?, goesOn piece c = false) :
    scanFrom piece rest = (scan rest).bind (close piece) := by
  cases rest with
  | nil => rfl
  | cons c cs =>
      have hstop : ¬ goesOn piece c = true := by simp [h c rfl]
      rw [scanFrom, if_neg hstop, scan_cons]

/-- A piece is read as one token where it ends. -/
lemma scan_piece {c : Char} {cs rest : List Char} {t : Token} (hc : c ≠ ' ')
    (hcs : runsOn [c] cs = true) (ht : token? (c :: cs) = some t)
    (hrest : ∀ d ∈ rest.head?, goesOn (c :: cs) d = false) :
    scan (c :: (cs ++ rest)) = (scan rest).map (t :: ·) := by
  have hclose : close (c :: cs) = fun ts => some (t :: ts) := by
    funext ts
    rw [close, ht, Option.map_some]
  rw [scan_cons, if_neg hc, scanFrom_append hcs, List.singleton_append, scanFrom_eq_bind hrest,
    hclose, Option.map_eq_bind]
  rfl

/-- A space separates. -/
lemma scan_space (cs : List Char) : scan (' ' :: cs) = scan cs := by
  rw [scan_cons, if_pos rfl, scan]

/-! ### Words and numerals are pieces -/

lemma isWordChar_of_isDigit {c : Char} (h : c.isDigit = true) : isWordChar c = true := by
  simp [isWordChar, Char.isAlphanum, h]

lemma goesOn_of_isWordChar {first c : Char} {piece : List Char} (hfirst : isWordChar first = true)
    (hc : isWordChar c = true) : goesOn (first :: piece) c = true := by
  by_cases hdigit : first.isDigit = true
  · simp [goesOn, hdigit, hc]
  · simp [goesOn, hdigit, hfirst, hc]

/-- Letters, digits and underscores make one piece. -/
lemma runsOn_of_isWordChar {first : Char} {piece cs : List Char} (hfirst : isWordChar first = true)
    (hcs : cs.all isWordChar = true) : runsOn (first :: piece) cs = true := by
  induction cs generalizing piece with
  | nil => rfl
  | cons c cs ih =>
      rw [List.all_cons, Bool.and_eq_true] at hcs
      rw [runsOn, goesOn_of_isWordChar hfirst hcs.1, Bool.true_and]
      exact ih hcs.2

lemma runsOn_of_isDigit {first : Char} {piece cs : List Char} (hfirst : first.isDigit = true)
    (hcs : cs.all Char.isDigit = true) : runsOn (first :: piece) cs = true := by
  refine runsOn_of_isWordChar (isWordChar_of_isDigit hfirst) (List.all_eq_true.mpr fun c hc => ?_)
  exact isWordChar_of_isDigit (List.all_eq_true.mp hcs c hc)

/-- An exponent belongs to the numeral in front of it, with its sign. -/
lemma runsOn_of_isScale {first : Char} {piece cs : List Char} (hfirst : first.isDigit = true)
    (hcs : isScale cs = true) : runsOn (first :: piece) cs = true := by
  cases cs with
  | nil => rfl
  | cons e rest =>
      rw [isScale, Bool.and_eq_true, Bool.or_eq_true, beq_iff_eq, beq_iff_eq] at hcs
      obtain ⟨he, hrest⟩ := hcs
      have hword : isWordChar e = true := by rcases he with rfl | rfl <;> decide
      have hlast : (first :: (piece ++ [e])).getLast? = some e := by
        rw [← List.cons_append, List.getLast?_append, List.getLast?_singleton, Option.some_or]
      have hsign : ∀ c, c = '+' ∨ c = '-' → goesOn (first :: (piece ++ [e])) c = true := by
        intro c hc
        rw [goesOn, if_pos hfirst, hlast]
        rcases hc with rfl | rfl <;> rcases he with rfl | rfl <;> decide
      rw [runsOn, goesOn_of_isWordChar (isWordChar_of_isDigit hfirst) hword, Bool.true_and,
        List.cons_append]
      rw [isExponent.eq_def] at hrest
      split at hrest
      · rw [Bool.and_eq_true] at hrest
        rw [runsOn, hsign _ (Or.inl rfl), Bool.true_and]
        exact runsOn_of_isDigit hfirst hrest.2
      · rw [Bool.and_eq_true] at hrest
        rw [runsOn, hsign _ (Or.inr rfl), Bool.true_and]
        exact runsOn_of_isDigit hfirst hrest.2
      · rw [Bool.and_eq_true] at hrest
        exact runsOn_of_isDigit hfirst hrest.2

/-- A numeral starts with a digit and is one piece. -/
lemma runsOn_of_isNumeral {c : Char} {cs : List Char} (h : isNumeral (c :: cs) = true) :
    c.isDigit = true ∧ runsOn [c] cs = true := by
  rw [isNumeral, Bool.and_eq_true] at h
  obtain ⟨hwhole, htail⟩ := h
  have hc : c.isDigit = true := by
    refine Decidable.byContradiction fun hc => ?_
    rw [List.takeWhile_cons_of_neg hc] at hwhole
    exact absurd hwhole (by decide)
  refine ⟨hc, ?_⟩
  rw [List.dropWhile_cons_of_pos hc] at htail
  have hdigits : ∀ ds : List Char, (ds.takeWhile Char.isDigit).all Char.isDigit = true :=
    fun ds => List.all_takeWhile
  rw [← List.takeWhile_append_dropWhile (p := Char.isDigit) (l := cs), runsOn_append,
    runsOn_of_isDigit hc (hdigits cs), Bool.true_and, List.singleton_append]
  split at htail
  · rename_i hdrop
    rw [hdrop]
    rfl
  · rename_i rest hdrop
    have hpoint : goesOn (c :: cs.takeWhile Char.isDigit) '.' = true := by
      rw [goesOn, if_pos hc]
      rfl
    rw [hdrop, runsOn, hpoint, Bool.true_and, List.cons_append,
      ← List.takeWhile_append_dropWhile (p := Char.isDigit) (l := rest), runsOn_append,
      runsOn_of_isDigit hc (hdigits rest), Bool.true_and]
    exact runsOn_of_isScale hc htail
  · exact runsOn_of_isScale hc htail

/-! ### Texts that spell tokens -/

/-- A space, a closing parenthesis or nothing follows. -/
def Breaks (rest : List Char) : Prop := ∀ c ∈ rest.head?, c = ' ' ∨ c = ')'

/-- A text is cut into the tokens, whatever follows the break behind it. -/
def Spells (cs : List Char) (ts : List Token) : Prop :=
  ∀ rest, Breaks rest → scan (cs ++ rest) = (scan rest).map (ts ++ ·)

lemma breaks_nil : Breaks [] := fun _ h => nomatch h

lemma breaks_cons {c : Char} (h : c = ' ' ∨ c = ')') (cs : List Char) : Breaks (c :: cs) := by
  intro d hd
  obtain rfl := Option.mem_some_iff.mp hd
  exact h

/-- The tokens of a whole text. -/
lemma Spells.scan_eq {cs : List Char} {ts : List Token} (h : Spells cs ts) : scan cs = some ts := by
  have hscan := h [] breaks_nil
  rw [List.append_nil] at hscan
  rw [hscan]
  exact congrArg some (List.append_nil ts)

/-- Neither break belongs to a word or a numeral. -/
lemma goesOn_break {first d : Char} {piece : List Char} (hfirst : isWordChar first = true)
    (hd : d = ' ' ∨ d = ')') : goesOn (first :: piece) d = false := by
  by_cases hdigit : first.isDigit = true
  · rcases hd with rfl | rfl <;> (rw [goesOn, if_pos hdigit]; rfl)
  · rcases hd with rfl | rfl <;> (rw [goesOn, if_neg hdigit, if_pos hfirst]; rfl)

/-- A word spells its token. -/
lemma spells_word {c : Char} {cs : List Char} {t : Token} (hc : isWordChar c = true)
    (hdigit : c.isDigit = false) (hcs : cs.all isWordChar = true)
    (ht : wordToken? (String.ofList (c :: cs)) = some t) : Spells (c :: cs) [t] := by
  intro rest hrest
  have hspace : c ≠ ' ' := by
    rintro rfl
    exact absurd hc (by decide)
  have htoken : token? (c :: cs) = some t := by
    rw [token?, if_neg (by rw [hdigit]; exact Bool.false_ne_true), if_pos hc, ht]
  exact scan_piece hspace (runsOn_of_isWordChar hc hcs) htoken
    fun d hd => goesOn_break hc (hrest d hd)

/-- A numeral spells its token. -/
lemma spells_numeral {cs : List Char} (h : isNumeral cs = true) :
    Spells cs [.number (String.ofList cs)] := by
  cases cs with
  | nil => exact absurd h (by decide)
  | cons c cs =>
      intro rest hrest
      obtain ⟨hc, hrun⟩ := runsOn_of_isNumeral h
      have hspace : c ≠ ' ' := by
        rintro rfl
        exact absurd hc (by decide)
      have htoken : token? (c :: cs) = some (.number (String.ofList (c :: cs))) := by
        rw [token?, if_pos hc, if_pos h]
      exact scan_piece hspace hrun htoken
        fun d hd => goesOn_break (isWordChar_of_isDigit hc) (hrest d hd)

/-! ### Composed texts -/

/-- How an operator is written between its operands. -/
def Operator.text : Operator → String
  | or => " or "
  | and => " and "
  | add => " + "
  | subtract => " - "
  | multiply => " * "
  | divide => " / "
  | power => " ** "

/-- A symbol that is part of no longer one ends at once. -/
lemma scan_symbol {c : Char} {t : Token} (hc : c = '(' ∨ c = ')' ∨ c = '-')
    (ht : token? [c] = some t) (rest : List Char) :
    scan (c :: rest) = (scan rest).map (t :: ·) := by
  have hstop : ∀ d, goesOn [c] d = false := by
    intro d
    rcases hc with rfl | rfl | rfl <;> simp [goesOn, symbolTokens, isWordChar]
  have hspace : c ≠ ' ' := by
    rcases hc with rfl | rfl | rfl <;> decide
  exact scan_piece hspace rfl ht fun d _ => hstop d

/-- What is written between spaces is read as one token, whatever follows. -/
lemma scan_spaced {c : Char} {w : List Char} {t : Token} (hc : c ≠ ' ')
    (hw : runsOn [c] w = true) (ht : token? (c :: w) = some t)
    (hstop : goesOn (c :: w) ' ' = false) (rest : List Char) :
    scan (' ' :: (c :: (w ++ ' ' :: rest))) = (scan rest).map (t :: ·) := by
  rw [scan_space, scan_piece hc hw ht, scan_space]
  intro d hd
  obtain rfl := Option.mem_some_iff.mp hd
  exact hstop

/-- The space behind an operator ends it, whatever follows. -/
lemma scan_operator (op : Operator) (rest : List Char) :
    scan (op.text.toList ++ rest) = (scan rest).map (.operator op :: ·) := by
  cases op with
  | or => exact scan_spaced (w := ['r']) (by decide) (by decide) (by decide) (by decide) rest
  | and => exact scan_spaced (w := ['n', 'd']) (by decide) (by decide) (by decide) (by decide) rest
  | add => exact scan_spaced (w := []) (by decide) (by decide) (by decide) (by decide) rest
  | subtract => exact scan_spaced (w := []) (by decide) (by decide) (by decide) (by decide) rest
  | multiply => exact scan_spaced (w := []) (by decide) (by decide) (by decide) (by decide) rest
  | divide => exact scan_spaced (w := []) (by decide) (by decide) (by decide) (by decide) rest
  | power => exact scan_spaced (w := ['*']) (by decide) (by decide) (by decide) (by decide) rest

lemma breaks_operator (op : Operator) (rest : List Char) : Breaks (op.text.toList ++ rest) := by
  cases op <;> exact breaks_cons (Or.inl rfl) _

/-- Two operands with an operator between them. -/
lemma spells_binary {a b : List Char} {ts us : List Token} (op : Operator) (ha : Spells a ts)
    (hb : Spells b us) : Spells (a ++ op.text.toList ++ b) (ts ++ .operator op :: us) := by
  intro rest hrest
  rw [List.append_assoc, List.append_assoc, ha _ (breaks_operator op _), scan_operator,
    hb rest hrest, Option.map_map, Option.map_map]
  congr 1
  funext more
  simp only [Function.comp_apply, List.append_assoc, List.cons_append]

/-- Two texts with one token between spaces. -/
lemma spells_spaced {c : Char} {w a b : List Char} {t : Token} {ts us : List Token} (hc : c ≠ ' ')
    (hw : runsOn [c] w = true) (ht : token? (c :: w) = some t)
    (hstop : goesOn (c :: w) ' ' = false) (ha : Spells a ts) (hb : Spells b us) :
    Spells (a ++ ' ' :: (c :: (w ++ ' ' :: b))) (ts ++ t :: us) := by
  intro rest hrest
  have hmiddle : a ++ ' ' :: (c :: (w ++ ' ' :: b)) ++ rest =
      a ++ ' ' :: (c :: (w ++ ' ' :: (b ++ rest))) := by simp
  rw [hmiddle, ha _ (breaks_cons (Or.inl rfl) _), scan_spaced hc hw ht hstop, hb rest hrest,
    Option.map_map, Option.map_map]
  congr 1
  funext more
  simp only [Function.comp_apply, List.append_assoc, List.cons_append]

/-- A text in parentheses. -/
lemma spells_parens {a : List Char} {ts : List Token} (ha : Spells a ts) :
    Spells ('(' :: (a ++ [')'])) (.opening :: (ts ++ [.closing])) := by
  intro rest hrest
  have hopening := scan_symbol (t := .opening) (Or.inl rfl) rfl (a ++ ')' :: rest)
  have hclosing := scan_symbol (t := .closing) (Or.inr (Or.inl rfl)) rfl rest
  rw [List.cons_append, List.append_assoc, List.singleton_append, hopening,
    ha _ (breaks_cons (Or.inr rfl) rest), hclosing, Option.map_map, Option.map_map]
  congr 1
  funext more
  simp only [Function.comp_apply, List.append_assoc, List.cons_append, List.nil_append]

/-- A sign in front of an operand. -/
lemma spells_negative {a : List Char} {ts : List Token} (ha : Spells a ts) :
    Spells ('-' :: a) (.operator .subtract :: ts) := by
  intro rest hrest
  have hsign := scan_symbol (t := .operator .subtract) (Or.inr (Or.inr rfl)) rfl (a ++ rest)
  rw [List.cons_append, hsign, ha rest hrest, Option.map_map]
  rfl

/-- A `not` in front of an operand. -/
lemma spells_negation {a : List Char} {ts : List Token} (ha : Spells a ts) :
    Spells ("not ".toList ++ a) (.not :: ts) := by
  intro rest hrest
  have hnot : Spells "not".toList [.not] :=
    spells_word (by decide) (by decide) (by decide) (by decide)
  have htext : "not ".toList ++ a ++ rest = "not".toList ++ ' ' :: (a ++ rest) := rfl
  rw [htext, hnot _ (breaks_cons (Or.inl rfl) _), scan_space, ha rest hrest, Option.map_map]
  rfl

/-- An identifier that is no keyword spells a name. -/
lemma spells_name {id : String} (hid : isIdentifier id = true) (hfree : id ∉ keywords) :
    Spells id.toList [.name id] := by
  obtain ⟨c, cs, hcs, hdigit, hword, hwords⟩ := exists_of_isIdentifier hid
  have htoken : wordToken? (String.ofList (c :: cs)) = some (.name id) := by
    have hnot : ¬ keywords.contains id = true := by simpa using hfree
    rw [← hcs, String.ofList_toList, wordToken?, if_neg hnot]
  rw [hcs]
  exact spells_word hword hdigit hwords htoken

/-! ### Comments in front of a text -/

/-- Inside a comment, everything up to its last line feed is left out. -/
lemma skipComments_leadAfterBreaks (cs rest : List Char) :
    skipComments true (Text.leadAfterBreaks ['#', ' '] (cs ++ ['\n']) ++ rest) =
      skipComments false rest := by
  induction cs with
  | nil => rfl
  | cons c cs ih =>
      rw [List.cons_append, Text.leadAfterBreaks]
      by_cases hc : c = '\n'
      · rw [if_pos ⟨hc, by simp⟩, hc]
        exact ih
      · rw [if_neg fun h => hc h.1, List.cons_append, skipComments, if_pos rfl,
          (bne_iff_ne.mpr hc : (c != '\n') = true)]
        exact ih

/-- Lines that are led by a number sign are left out, if the last of them is ended. -/
lemma skipComments_leadLines (cs rest : List Char) :
    skipComments false (Text.leadLines ['#', ' '] (cs ++ ['\n']) ++ rest) =
      skipComments false rest :=
  skipComments_leadAfterBreaks cs rest

/-- Nothing is left out of a text that can be cut into tokens. -/
lemma skipComments_eq {cs : List Char} {ts : List Token} (h : scan cs = some ts) :
    skipComments false cs = cs := by
  cases cs with
  | nil => rfl
  | cons c cs =>
      by_cases hc : c = '#'
      · have hstop : ∀ d ∈ cs.head?, goesOn ['#'] d = false := by
          intro d _
          simp [goesOn, symbolTokens, isWordChar]
        have hnone : close ['#'] = fun _ => none := rfl
        rw [hc, scan_cons, if_neg (by decide), scanFrom_eq_bind hstop, hnone,
          Option.bind_fun_none] at h
        exact nomatch h
      · rw [skipComments, if_neg (by decide), if_neg hc]

/-- A text that spells tokens is read as they are parsed, behind any comments. -/
lemma readText_eq_parse {comments code : String} {ts : List Token}
    (hcomments : ∀ rest, skipComments false (comments.toList ++ rest) = skipComments false rest)
    (h : Spells code.toList ts) : readText (comments ++ code) = parse ts := by
  rw [readText, String.toList_append, hcomments, skipComments_eq h.scan_eq, h.scan_eq,
    Option.bind_some]

end Blockscribe.Grammar
