/-
Parts of joined texts.

* `Part`: a text that is typed into a block, a number, or the value of a variable; `Part.code` is
  what is written for it.
* `joinedCode`, `joined`: what is written for parts that are joined, and the expression of it.
* `cuts_code`, `scan_further`: how the code of parts is cut into tokens, by induction on the parts.
* `parse_part`, `items_further`: and how these are read.
* `readText_joinedCode`: what is written for parts is read as their joined expression, unless a typed
  text holds a character that cannot stand in a literal.
-/
import Blockscribe.Proofs.Joined.Reader
import Blockscribe.Proofs.Render.Grouping

namespace Blockscribe.Joined

open Text.Quoted (altered isOutside)

/-- What is joined. -/
inductive Part
  | typed (text : String)
  | number (x : Double)
  | named (name : String)

/-! ### Numbers -/

/-- The code of a number without its sign. -/
def magnitudeCode : Double → String
  | .nan => "float(\"nan\")"
  | .infinite _ => "float(\"inf\")"
  | x => x.magnitude.plainText

/-- The expression of a number without its sign. -/
def magnitudeExpr : Double → Expr
  | .nan => .call (.name "float") (.literal "nan".toList)
  | .infinite _ => .call (.name "float") (.literal "inf".toList)
  | x => .numeral x.magnitude.plainText

/-- The tokens of a number without its sign. -/
def magnitudeTokens : Double → List Token
  | .nan => [.name "float", .opening, .literal "nan".toList, .closing]
  | .infinite _ => [.name "float", .opening, .literal "inf".toList, .closing]
  | x => [.numeral x.magnitude.plainText]

namespace Part

/-- What is written for a part, under identifiers for the variables. -/
def code (naming : String → String) : Part → String
  | typed text => quote text
  | number x => (if x.isNegative then "-" else "") ++ magnitudeCode x
  | named name => naming name

/-- The expression of a part. -/
def expr (naming : String → String) : Part → Expr
  | typed text => .literal (altered [] text.toList)
  | number x => if x.isNegative then .negative (magnitudeExpr x) else magnitudeExpr x
  | named name => .name (naming name)

/-- The tokens of a part; there are none if a text holds a character that cannot stand in a literal.
-/
def tokens? (naming : String → String) : Part → Option (List Token)
  | typed text =>
      if text.toList.any isOutside then none else some [.literal (altered [] text.toList)]
  | number x => some ((if x.isNegative then [.minus] else []) ++ magnitudeTokens x)
  | named name => some [.name (naming name)]

/-- Variables have identifiers that are not reserved, and numbers are numbers of double precision.
-/
def Legal (naming : String → String) : Part → Prop
  | typed _ => True
  | number x => x.Canonical
  | named name => isIdentifier (naming name) = true ∧ naming name ∉ Dialect.python.reserved

end Part

lemma quote_ne_empty (text : String) : quote text ≠ "" := by
  intro h
  have hlists := congrArg String.toList h
  rw [Text.Quoted.toList_quote] at hlists
  exact nomatch hlists

lemma code_number_ne_empty (naming : String → String) (x : Double) :
    Part.code naming (.number x) ≠ "" := by
  have hmagnitude : (magnitudeCode x).toList ≠ [] := by
    cases x with
    | nan => decide
    | infinite negative =>
        rw [magnitudeCode]
        decide
    | finite negative m e =>
        have hnumeral := Double.isNumeral_magnitude negative m e
        intro hempty
        rw [magnitudeCode] at hempty
        · rw [hempty] at hnumeral
          exact absurd hnumeral (by decide)
        · nofun
        · nofun
  intro h
  have hlists := congrArg String.toList h
  rw [Part.code, String.toList_append] at hlists
  exact hmagnitude (List.append_eq_nil_iff.mp hlists).2

/-! ### What is written for several parts -/

/-- The display of a list of items. -/
def display (xs : List Expr) : Expr := xs.foldr .item .noItems

/-- The call of `str` with an argument. -/
def strOf (x : Expr) : Expr := .call (.name "str") x

/-- The expression of the texts of some expressions, one after the other. Two are added up; more are
joined, as a list of texts, under a name that stands for each. -/
def joined (temporary : String) : List Expr → Expr
  | [] => .literal []
  | [x] => strOf x
  | [x, y] => .sum (strOf x) (strOf y)
  | xs => .call (.member (.literal []) "join")
      (.each (strOf (.name temporary)) temporary (display xs))

/-- The code of the texts of some code, one after the other. -/
def joinedCode (temporary : String) : List String → String
  | [] => "''"
  | [x] => "str(" ++ x ++ ")"
  | [x, y] => "str(" ++ x ++ ") + str(" ++ y ++ ")"
  | xs => "''.join([str(" ++ temporary ++ ") for " ++ temporary ++ " in [" ++
      ", ".intercalate xs ++ "]])"

/-! ### Cutting parts into tokens -/

variable {naming : String → String} {part : Part} {parts : List Part} {rest : List Char}

/-- Identifiers that are not reserved are names. -/
lemma cuts_identifier {id : String} (hid : isIdentifier id = true)
    (hfree : id ∉ Dialect.python.reserved) : Cuts id.toList (some [.name id]) := by
  have hkeyword : id ∉ Grammar.keywords := fun h => hfree (keywords_subset_reserved h)
  have htoken : wordToken? id = some (.name id) := by
    have hne : id ≠ "for" ∧ id ≠ "in" := by
      constructor <;> rintro rfl <;> exact hkeyword (by decide)
    rw [wordToken?, if_neg hne.1, if_neg hne.2, if_neg (by rwa [List.contains_iff_mem])]
  obtain ⟨c, cs, hcs, hdigit, hword, hwords⟩ := exists_of_isIdentifier hid
  have hcuts := cuts_word hword hdigit hwords
  rwa [← hcs, String.ofList_toList, htoken] at hcuts

/-- The sign of a number is a token of its own. -/
lemma cuts_number (x : Double) : Cuts (Part.code naming (.number x)).toList
    (Part.tokens? naming (.number x)) := by
  have hmagnitude : Cuts (magnitudeCode x).toList (some (magnitudeTokens x)) := by
    cases x with
    | nan =>
        intro rest _
        show Option.map _ (Option.map _ (Option.map _ (Option.map _ (scan 0 rest)))) = _
        simp only [Option.map_map]
        rfl
    | infinite negative =>
        intro rest _
        rw [magnitudeCode]
        show Option.map _ (Option.map _ (Option.map _ (Option.map _ (scan 0 rest)))) = _
        simp only [Option.map_map]
        rfl
    | finite negative m e => exact cuts_numeral (Double.isNumeral_magnitude negative m e)
  rw [Part.code, Part.tokens?]
  cases x.isNegative with
  | false => exact hmagnitude
  | true =>
      intro rest hrest
      rw [if_pos rfl, if_pos rfl, String.toList_append, List.append_assoc]
      show Option.map _ (scan 0 ((magnitudeCode x).toList ++ rest)) = _
      rw [hmagnitude rest hrest, Option.bind_some, Option.map_map]
      rfl

/-- The code of a part is cut into its tokens. -/
lemma cuts_code (hlegal : part.Legal naming) :
    Cuts (part.code naming).toList (part.tokens? naming) := by
  cases part with
  | typed text =>
      intro rest _
      rw [Part.code, Part.tokens?, scan_quote]
      split <;> rfl
  | number x => exact cuts_number x
  | named name => exact cuts_identifier hlegal.1 hlegal.2

/-- The tokens of further items of a list. -/
def furtherTokens? (naming : String → String) : List Part → Option (List Token)
  | [] => some []
  | part :: parts => do
    let ts ← part.tokens? naming
    return .comma :: (ts ++ (← furtherTokens? naming parts))

lemma toList_intercalate_cons (first : String) (codes : List String) :
    (", ".intercalate (first :: codes)).toList =
      first.toList ++ codes.flatMap fun code => ',' :: ' ' :: code.toList := by
  induction codes generalizing first with
  | nil => rw [String.intercalate_singleton, List.flatMap_nil, List.append_nil]
  | cons second codes ih =>
      rw [String.intercalate_cons_cons, String.toList_append, String.toList_append, ih,
        List.append_assoc, List.flatMap_cons]
      rfl

/-- A comma stands in front of further items. -/
lemma head_further (codes : List String) (hrest : ∀ c ∈ rest.head?, c ∈ breaks) :
    ∀ c ∈ (codes.flatMap (fun code => ',' :: ' ' :: code.toList) ++ rest).head?, c ∈ breaks := by
  cases codes with
  | nil => exact hrest
  | cons => exact head_mem_breaks (by decide) _

section Items

variable (hlegal : ∀ part ∈ parts, part.Legal naming) (hrest : ∀ c ∈ rest.head?, c ∈ breaks)

include hlegal hrest

/-- Further items are cut at their commas. -/
lemma scan_further :
    scan 0 ((parts.map (Part.code naming)).flatMap (fun code => ',' :: ' ' :: code.toList) ++
        rest) = (furtherTokens? naming parts).bind fun ts => (scan 0 rest).map (ts ++ ·) := by
  induction parts with
  | nil => exact Option.map_id'.symm
  | cons part parts ih =>
      rw [List.forall_mem_cons] at hlegal
      rw [List.map_cons, List.flatMap_cons, List.append_assoc]
      show Option.map _ (scan 0 ((part.code naming).toList ++ _)) = _
      rw [cuts_code hlegal.1 _ (head_further _ hrest), ih hlegal.2, furtherTokens?]
      cases part.tokens? naming with
      | none => rfl
      | some ts =>
          cases furtherTokens? naming parts with
          | none => rfl
          | some us =>
              cases scan 0 rest with
              | none => rfl
              | some vs => simp

end Items

/-! ### Reading parts -/

/-- What stands behind a part. -/
inductive Halts : List Token → Prop
  | comma (ts : List Token) : Halts (.comma :: ts)
  | closing (ts : List Token) : Halts (.closing :: ts)
  | right (ts : List Token) : Halts (.right :: ts)

section Tokens

variable {ts us more : List Token}

/-- The tokens of a part spell its expression. -/
lemma parse_part (hts : part.tokens? naming = some ts) (hmore : Halts more) (k : ℕ) :
    parse (k + 10) .sum (ts ++ more) = some (part.expr naming, more) := by
  cases part with
  | typed text =>
      rw [Part.tokens?] at hts
      split at hts
      · exact nomatch hts
      · obtain rfl := Option.some.inj hts
        cases hmore <;> rfl
  | number x =>
      obtain rfl := Option.some.inj hts
      rw [Part.expr]
      generalize x.isNegative = negative
      cases negative <;> cases x <;> cases hmore <;> rfl
  | named name =>
      obtain rfl := Option.some.inj hts
      cases hmore <;> rfl

/-- No part starts with a bracket. -/
lemma tokens_ne_right (hts : part.tokens? naming = some ts) (us vs : List Token) :
    ts ++ us ≠ .right :: vs := by
  cases part with
  | typed text =>
      rw [Part.tokens?] at hts
      split at hts
      · exact nomatch hts
      · obtain rfl := Option.some.inj hts
        nofun
  | number x =>
      obtain rfl := Option.some.inj hts
      generalize x.isNegative = negative
      cases negative <;> cases x <;> nofun
  | named name =>
      obtain rfl := Option.some.inj hts
      nofun

/-- Another item or the end of the list stands behind an item. -/
lemma halts_further (hus : furtherTokens? naming parts = some us) (more : List Token) :
    Halts (us ++ .right :: more) := by
  cases parts with
  | nil =>
      obtain rfl := Option.some.inj hus
      exact .right more
  | cons =>
      obtain ⟨_, _, hrest⟩ := Option.bind_eq_some_iff.mp hus
      obtain ⟨_, _, hall⟩ := Option.bind_eq_some_iff.mp hrest
      obtain rfl := Option.some.inj hall
      exact .comma _

/-- There is a comma in front of each further item. -/
lemma length_further (hus : furtherTokens? naming parts = some us) : parts.length ≤ us.length := by
  induction parts generalizing us with
  | nil => exact Nat.zero_le _
  | cons part parts ih =>
      obtain ⟨ts, -, hrest⟩ := Option.bind_eq_some_iff.mp hus
      obtain ⟨vs, hvs, hall⟩ := Option.bind_eq_some_iff.mp hrest
      obtain rfl := Option.some.inj hall
      have hle := ih hvs
      simp only [List.length_cons, List.length_append]
      omega

/-- The tokens of further items of a list spell its display. -/
lemma items_further (hus : furtherTokens? naming parts = some us) (more : List Token) (k : ℕ) :
    items (k + parts.length + 11) (us ++ .right :: more) =
      some (display (parts.map (Part.expr naming)), more) := by
  induction parts generalizing us k with
  | nil =>
      obtain rfl := Option.some.inj hus
      rfl
  | cons part parts ih =>
      obtain ⟨ts, hts, hrest⟩ := Option.bind_eq_some_iff.mp hus
      obtain ⟨vs, hvs, hall⟩ := Option.bind_eq_some_iff.mp hrest
      obtain rfl := Option.some.inj hall
      have hfuel : k + (part :: parts).length + 11 = (k + parts.length + 1) + 10 + 1 := by
        rw [List.length_cons]
        omega
      have hpart : parse ((k + parts.length + 1) + 10) .sum (ts ++ (vs ++ .right :: more)) =
          some (part.expr naming, vs ++ .right :: more) := parse_part hts (halts_further hvs more) _
      have hitems := ih hvs k
      rw [show k + parts.length + 11 = k + parts.length + 1 + 10 by omega] at hitems
      rw [hfuel, List.cons_append, List.append_assoc, items, hpart, Option.bind_some]
      dsimp only
      rw [hitems]
      rfl

lemma parse_left (n : ℕ) (hts : ∀ us, ts ≠ .right :: us) :
    parse (n + 1) .primary (.left :: ts) = (parse n .sum ts).bind fun
      | (x, .each :: .name id :: .within :: more) =>
          (parse n .sum more).bind fun
            | (y, .right :: rest) => goOn n .primary (.each x id y) rest
            | _ => none
      | (x, more) => (items n more).bind fun (y, rest) => goOn n .primary (.item x y) rest := by
  match ts with
  | [] => rfl
  | t :: us => cases t <;> first | exact absurd rfl (hts us) | rfl

/-- The tokens of items of a list spell its display. -/
lemma parse_items {first : Part} (hts : first.tokens? naming = some ts)
    (hus : furtherTokens? naming parts = some us) (hmore : Halts more) (k : ℕ) :
    parse (k + parts.length + 14) .sum (.left :: (ts ++ us ++ .right :: more)) =
      some (display ((first :: parts).map (Part.expr naming)), more) := by
  have hfirst : parse (k + parts.length + 11) .sum (ts ++ (us ++ .right :: more)) =
      some (first.expr naming, us ++ .right :: more) :=
    parse_part hts (halts_further hus more) (k + parts.length + 1)
  have hitems := items_further hus more k
  have hprimary : parse (k + parts.length + 12) .primary (.left :: (ts ++ (us ++ .right :: more))) =
      some (display ((first :: parts).map (Part.expr naming)), more) := by
    rw [parse_left _ (tokens_ne_right hts _), hfirst, Option.bind_some]
    have hhalts := halts_further hus more
    generalize us ++ .right :: more = next at hhalts hitems
    cases hhalts <;> cases hmore <;> (dsimp only; rw [hitems]; rfl)
  rw [List.append_assoc, parse, parse, hprimary]
  · cases hmore <;> rfl
  · nofun

/-- The tokens of a call of `str`. -/
def strTokens (ts : List Token) : List Token := .name "str" :: .opening :: (ts ++ [.closing])

lemma length_strTokens (ts : List Token) : (strTokens ts).length = ts.length + 3 := by
  simp only [strTokens, List.length_cons, List.length_append, List.length_nil]

/-- The tokens of a call of `str` spell it. -/
lemma parse_strOf (hts : part.tokens? naming = some ts)
    (hmore : more = [] ∨ ∃ us, more = .plus :: us) (k : ℕ) :
    parse (k + 13) .factor (strTokens ts ++ more) = some (strOf (part.expr naming), more) := by
  have hargument : parse (k + 10) .sum (ts ++ .closing :: more) =
      some (part.expr naming, .closing :: more) := parse_part hts (.closing more) k
  have hcall : goOn (k + 11) .primary (.name "str") (.opening :: (ts ++ .closing :: more)) =
      some (strOf (part.expr naming), more) := by
    rw [goOn, hargument, Option.bind_some]
    rcases hmore with rfl | ⟨us, rfl⟩ <;> rfl
  rw [strTokens, List.cons_append, List.cons_append, List.append_assoc, List.singleton_append]
  exact hcall

/-- The tokens of a comprehension in front of its source. -/
def frontTokens (id : String) : List Token :=
  [.literal [], .point, .name "join", .opening, .left, .name "str", .opening, .name id, .closing,
    .each, .name id, .within]

/-- A comprehension over the source that tokens spell. -/
lemma parse_comprehension {n : ℕ} {source : Expr}
    (hsource : parse (n + 12) .sum ts = some (source, [.right, .closing])) (id : String) :
    parse (n + 20) .sum (frontTokens id ++ ts) =
      some (.call (.member (.literal []) "join") (.each (strOf (.name id)) id source), []) := by
  have helement : parse (n + 12) .sum (.name "str" :: .opening :: .name id :: .closing :: .each ::
      .name id :: .within :: ts) =
      some (strOf (.name id), .each :: .name id :: .within :: ts) := rfl
  have hprimary : parse (n + 13) .primary (.left :: .name "str" :: .opening :: .name id ::
      .closing :: .each :: .name id :: .within :: ts) =
      some (.each (strOf (.name id)) id source, [.closing]) := by
    rw [parse_left, helement, Option.bind_some]
    · dsimp only
      rw [hsource]
      rfl
    · nofun
  have hargument : parse (n + 15) .sum (.left :: .name "str" :: .opening :: .name id ::
      .closing :: .each :: .name id :: .within :: ts) =
      some (.each (strOf (.name id)) id source, [.closing]) := by
    rw [parse, parse, hprimary]
    · rfl
    · nofun
  have hcall : goOn (n + 16) .primary (.member (.literal []) "join") (.opening :: .left ::
      .name "str" :: .opening :: .name id :: .closing :: .each :: .name id :: .within :: ts) =
      some (.call (.member (.literal []) "join") (.each (strOf (.name id)) id source), []) := by
    rw [goOn, hargument]
    rfl
  rw [frontTokens, List.cons_append, parse, parse, parse, List.cons_append, List.cons_append, goOn]
  · exact (congrArg (Option.bind · _) hcall).trans rfl
  · nofun

/-- The tokens of a comprehension over a list of parts spell it. -/
lemma parseAll_many {first : Part} (hts : first.tokens? naming = some ts)
    (hus : furtherTokens? naming parts = some us) (id : String) :
    parseAll ((frontTokens id ++ [.left]) ++ (ts ++ (us ++ [.right, .right, .closing]))) =
      some (.call (.member (.literal []) "join") (.each (strOf (.name id)) id
        (display ((first :: parts).map (Part.expr naming))))) := by
  obtain ⟨k, hk⟩ := Nat.exists_eq_add_of_le' (length_further hus)
  have hsource : parse (4 * ts.length + 4 * us.length + 56 + 12) .sum
      (.left :: (ts ++ us ++ [.right, .right, .closing])) =
      some (display ((first :: parts).map (Part.expr naming)), [.right, .closing]) := by
    have hfuel : 4 * ts.length + 4 * us.length + 56 + 12 =
        (4 * ts.length + 3 * us.length + k + 54) + parts.length + 14 := by omega
    rw [hfuel]
    exact parse_items hts hus (.right [.closing]) _
  have htokens : (frontTokens id ++ [.left]) ++ (ts ++ (us ++ [.right, .right, .closing])) =
      frontTokens id ++ (.left :: (ts ++ us ++ [.right, .right, .closing])) := by
    simp only [List.append_assoc, List.singleton_append]
  rw [htokens]
  refine parseAll_eq (parse_comprehension hsource id) ?_
  simp only [frontTokens, List.length_cons, List.length_append, List.length_nil]
  omega

end Tokens

/-! ### Reading what is written for several parts -/

/-- The text of a part can be read. -/
def Part.isReadable : Part → Bool
  | typed text => !text.toList.any isOutside
  | number _ | named _ => true

/-- The texts of parts can be read if they have neither carriage returns nor null characters. -/
lemma all_isReadable_iff (parts : List Part) : parts.all Part.isReadable = true ↔
    ∀ text, .typed text ∈ parts → '\r' ∉ text.toList ∧ '\x00' ∉ text.toList := by
  have houtside : ∀ cs : List Char, (!cs.any isOutside) = true ↔ '\r' ∉ cs ∧ '\x00' ∉ cs := by
    intro cs
    rw [Bool.not_eq_true', List.any_eq_false]
    constructor
    · exact fun h => ⟨fun hmem => h _ hmem rfl, fun hmem => h _ hmem rfl⟩
    · rintro ⟨hreturn, hnull⟩ c hc houtside
      rw [isOutside, Bool.or_eq_true, beq_iff_eq, beq_iff_eq] at houtside
      rcases houtside with rfl | rfl
      · exact hreturn hc
      · exact hnull hc
  rw [List.all_eq_true]
  constructor
  · exact fun h text htext => (houtside _).mp (h _ htext)
  · intro h part hpart
    cases part with
    | typed text => exact (houtside _).mpr (h text hpart)
    | number | named => rfl

/-- The names in a part are that of its variable, and one that is reserved. -/
lemma notMem_identifiers {id : String} (hfree : id ∉ Dialect.python.reserved)
    (hnames : ∀ name, part = .named name → id ≠ naming name) :
    id ∉ (part.expr naming).identifiers := by
  have hfloat : id ≠ "float" := by
    rintro rfl
    exact hfree (by decide +kernel)
  cases part with
  | typed => exact List.not_mem_nil
  | named name => exact fun hmem => hnames name rfl (List.mem_singleton.mp hmem)
  | number x =>
      have hmagnitude : id ∉ (magnitudeExpr x).identifiers := by
        cases x with
        | nan | infinite => exact fun hmem => hfloat (List.mem_singleton.mp hmem)
        | finite => exact List.not_mem_nil
      rw [Part.expr]
      cases x.isNegative <;> exact hmagnitude

lemma isSome_tokens (naming : String → String) (part : Part) :
    (part.tokens? naming).isSome = part.isReadable := by
  cases part with
  | typed text =>
      rw [Part.tokens?, Part.isReadable]
      cases text.toList.any isOutside <;> rfl
  | number | named => rfl

lemma isSome_further (naming : String → String) (parts : List Part) :
    (furtherTokens? naming parts).isSome = parts.all Part.isReadable := by
  induction parts with
  | nil => rfl
  | cons part parts ih =>
      rw [List.all_cons, ← ih, ← isSome_tokens naming, furtherTokens?]
      cases part.tokens? naming with
      | none => rfl
      | some ts => cases furtherTokens? naming parts <;> rfl

lemma scan_str (rest : List Char) :
    scan 0 ("str(".toList ++ rest) = (scan 0 rest).map ([.name "str", .opening] ++ ·) := by
  show ((scan 0 rest).map (Token.opening :: ·)).map (Token.name "str" :: ·) = _
  rw [Option.map_map]
  rfl

/-- The code of a call of `str` is cut into its tokens, whatever stands behind it. -/
lemma scan_strOf (hlegal : part.Legal naming) (rest : List Char) :
    scan 0 (("str(" ++ part.code naming ++ ")").toList ++ rest) =
      (part.tokens? naming).bind fun ts =>
        (scan 0 rest).map (strTokens ts ++ ·) := by
  have hcode := cuts_code hlegal (')' :: rest) (head_mem_breaks (by decide) rest)
  have hclosing : scan 0 (')' :: rest) = (scan 0 rest).map (.closing :: ·) := rfl
  have htext : ("str(" ++ part.code naming ++ ")").toList ++ rest =
      "str(".toList ++ ((part.code naming).toList ++ ')' :: rest) := by
    simp only [String.toList_append, List.append_assoc]
    rfl
  rw [htext, scan_str, hcode, hclosing]
  cases part.tokens? naming with
  | none => rfl
  | some ts =>
      cases scan 0 rest with
      | none => rfl
      | some us => simp [strTokens]

/-- One part is read as a call. -/
lemma readText_one (hlegal : part.Legal naming) :
    readText ("str(" ++ part.code naming ++ ")") =
      if part.isReadable then some (strOf (part.expr naming)) else none := by
  have hscan := scan_strOf hlegal []
  rw [List.append_nil] at hscan
  rw [readText, hscan, ← isSome_tokens naming]
  cases hts : part.tokens? naming with
  | none => rfl
  | some ts =>
      have hsum : parse (4 * ts.length + 10 + 13 + 1) .sum (strTokens ts ++ []) =
          some (strOf (part.expr naming), []) := by
        rw [parse, parse_strOf hts (.inl rfl)]
        rfl
      refine (parseAll_eq hsum ?_ : parseAll (strTokens ts ++ []) = _)
      rw [List.append_nil, length_strTokens]
      omega

/-- Two parts are read as a sum of calls. -/
lemma readText_two {other : Part} (hlegal : part.Legal naming) (hother : other.Legal naming) :
    readText ("str(" ++ part.code naming ++ ") + str(" ++ other.code naming ++ ")") =
      if part.isReadable && other.isReadable then
        some (.sum (strOf (part.expr naming)) (strOf (other.expr naming)))
      else none := by
  have hsecond := scan_strOf hother []
  rw [List.append_nil] at hsecond
  have hplus : ∀ rest, scan 0 (" + ".toList ++ rest) = (scan 0 rest).map (.plus :: ·) :=
    fun rest => rfl
  have htext : ("str(" ++ part.code naming ++ ") + str(" ++ other.code naming ++ ")").toList =
      ("str(" ++ part.code naming ++ ")").toList ++
        (" + ".toList ++ ("str(" ++ other.code naming ++ ")").toList) := by
    simp only [String.toList_append, List.append_assoc]
    rfl
  rw [readText, htext, scan_strOf hlegal, hplus, hsecond, ← isSome_tokens naming part,
    ← isSome_tokens naming other]
  cases hts : part.tokens? naming with
  | none => rfl
  | some ts =>
      cases hus : other.tokens? naming with
      | none => rfl
      | some us =>
          have hfirst := parse_strOf hts (.inr ⟨strTokens us ++ [], rfl⟩)
            (4 * (ts.length + us.length) + 26)
          have hlast := parse_strOf hus (.inl rfl) (4 * (ts.length + us.length) + 25)
          have hsum : parse (4 * (ts.length + us.length) + 26 + 13 + 1) .sum
              (strTokens ts ++ .plus :: (strTokens us ++ [])) =
              some (.sum (strOf (part.expr naming)) (strOf (other.expr naming)), []) := by
            rw [parse, hfirst, Option.bind_some]
            dsimp only
            rw [goOn, hlast]
            rfl
          refine (parseAll_eq hsum ?_ : parseAll (strTokens ts ++ .plus :: (strTokens us ++ [])) = _)
          rw [List.append_nil, List.length_append, List.length_cons, length_strTokens,
            length_strTokens]
          omega

section Many

variable {temporary : String} (hid : isIdentifier temporary = true)
  (hfree : temporary ∉ Dialect.python.reserved)

include hid hfree

/-- The code of a comprehension is cut into its tokens, up to the items of its source. -/
lemma scan_comprehension (rest : List Char) :
    scan 0 (("''.join([str(" ++ temporary ++ ") for " ++ temporary ++ " in [").toList ++ rest) =
      (scan 0 rest).map ((frontTokens temporary ++ [.left]) ++ ·) := by
  have hliteral : ∀ rest, scan 0 ("''".toList ++ rest) = (scan 0 rest).map (.literal [] :: ·) :=
    fun rest => scan_quote "" rest
  have hjoin : ∀ rest, scan 0 (".join([".toList ++ rest) =
      (scan 0 rest).map ([.point, .name "join", .opening, .left] ++ ·) := by
    intro rest
    show ((((scan 0 rest).map (Token.left :: ·)).map (Token.opening :: ·)).map
      (Token.name "join" :: ·)).map (Token.point :: ·) = _
    simp only [Option.map_map]
    rfl
  have hfor : ∀ rest, scan 0 (") for ".toList ++ rest) =
      (scan 0 rest).map ([.closing, .each] ++ ·) := by
    intro rest
    show ((scan 0 rest).map (Token.each :: ·)).map (Token.closing :: ·) = _
    rw [Option.map_map]
    rfl
  have hin : ∀ rest, scan 0 (" in [".toList ++ rest) =
      (scan 0 rest).map ([.within, .left] ++ ·) := by
    intro rest
    show ((scan 0 rest).map (Token.left :: ·)).map (Token.within :: ·) = _
    rw [Option.map_map]
    rfl
  have hfirst := cuts_identifier hid hfree
    (") for ".toList ++ (temporary.toList ++ (" in [".toList ++ rest)))
    (head_mem_breaks (by decide) _)
  have hsecond := cuts_identifier hid hfree (" in [".toList ++ rest) (head_mem_breaks (by decide) _)
  have htext : ("''.join([str(" ++ temporary ++ ") for " ++ temporary ++ " in [").toList ++ rest =
      "''".toList ++ (".join([".toList ++ ("str(".toList ++ (temporary.toList ++
        (") for ".toList ++ (temporary.toList ++ (" in [".toList ++ rest)))))) := by
    simp only [String.toList_append, List.append_assoc]
    rfl
  rw [htext, hliteral, hjoin, scan_str, hfirst, hfor, hsecond, hin]
  simp only [Option.bind_some, Option.map_map]
  rfl

/-- More parts are read as a comprehension that is joined. -/
lemma readText_many {first : Part} (hlegal : ∀ part ∈ first :: parts, part.Legal naming) :
    readText ("''.join([str(" ++ temporary ++ ") for " ++ temporary ++ " in [" ++
        ", ".intercalate ((first :: parts).map (Part.code naming)) ++ "]])") =
      if (first :: parts).all Part.isReadable then
        some (.call (.member (.literal []) "join") (.each (strOf (.name temporary)) temporary
          (display ((first :: parts).map (Part.expr naming)))))
      else none := by
  rw [List.forall_mem_cons] at hlegal
  have htext : ("''.join([str(" ++ temporary ++ ") for " ++ temporary ++ " in [" ++
      ", ".intercalate ((first :: parts).map (Part.code naming)) ++ "]])").toList =
      ("''.join([str(" ++ temporary ++ ") for " ++ temporary ++ " in [").toList ++
        ((first.code naming).toList ++ ((parts.map (Part.code naming)).flatMap
          (fun code => ',' :: ' ' :: code.toList) ++ "]])".toList)) := by
    rw [String.toList_append, String.toList_append, List.map_cons, toList_intercalate_cons,
      List.append_assoc, List.append_assoc]
  have hend : scan 0 "]])".toList = some [.right, .right, .closing] := rfl
  have hbreak : ∀ c ∈ "]])".toList.head?, c ∈ breaks := head_mem_breaks (by decide) _
  rw [readText, htext, scan_comprehension hid hfree,
    cuts_code hlegal.1 _ (head_further _ hbreak), scan_further hlegal.2 hbreak, hend,
    List.all_cons, ← isSome_tokens naming, ← isSome_further naming]
  cases hts : first.tokens? naming with
  | none => rfl
  | some ts =>
      cases hus : furtherTokens? naming parts with
      | none => rfl
      | some us => exact parseAll_many hts hus temporary

end Many

/-- What is written for parts is read as their joined expression, if each part can be read. -/
lemma readText_joinedCode {temporary : String} (hid : isIdentifier temporary = true)
    (hfree : temporary ∉ Dialect.python.reserved) (hlegal : ∀ part ∈ parts, part.Legal naming) :
    readText (joinedCode temporary (parts.map (Part.code naming))) =
      if parts.all Part.isReadable then some (joined temporary (parts.map (Part.expr naming)))
      else none := by
  match parts, hlegal with
  | [], _ =>
      have hscan : scan 0 (quote "").toList = some [.literal []] := scan_quote "" []
      show (scan 0 (quote "").toList).bind parseAll = _
      rw [hscan]
      rfl
  | [part], hlegal =>
      rw [List.all_cons, List.all_nil, Bool.and_true]
      exact readText_one (hlegal part List.mem_cons_self)
  | [part, other], hlegal =>
      rw [List.all_cons, List.all_cons, List.all_nil, Bool.and_true]
      exact readText_two (hlegal part List.mem_cons_self)
        (hlegal other (List.mem_cons_of_mem _ List.mem_cons_self))
  | first :: second :: third :: parts, hlegal =>
      have hcode : joinedCode temporary
          ((first :: second :: third :: parts).map (Part.code naming)) =
          "''.join([str(" ++ temporary ++ ") for " ++ temporary ++ " in [" ++
            ", ".intercalate ((first :: second :: third :: parts).map (Part.code naming)) ++
            "]])" := rfl
      rw [hcode, readText_many hid hfree hlegal]
      rfl

end Blockscribe.Joined
