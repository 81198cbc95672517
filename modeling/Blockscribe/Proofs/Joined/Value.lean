/-
What is written for joined parts stands for.

* `Part.datum`, `concatenation`: the values of parts, and their texts one after the other.
* `value_expr`: the expression of a part has its value, except that a literal alters a typed text.
* `value_joined`: the value of a joined expression, however many parts there are.
* `eval_joinedCode`: so what is written stands for the texts of the parts one after the other, with a
  backslash in front of each percent sign and without line feeds where they were typed.
* `eval_joinedCode_eq_iff`: and for the texts as they were typed exactly if there are no such
  characters, whatever stands between them.
-/
import Blockscribe.Proofs.Joined.Part

namespace Blockscribe.Joined

open Text.Quoted (altered)

/-- The value of a part, with typed texts altered. -/
def Part.datum {α : Type} (scope : Scope α) (naming : String → String)
    (alter : List Char → List Char) : Part → Option (Datum α)
  | typed text => some (.text (alter text.toList))
  | number x => some (.ofDouble x)
  | named name => scope.value (naming name)

/-- The texts of parts, as `str` gives them, one after the other. -/
def concatenation {α : Type} (scope : Scope α) (naming : String → String)
    (alter : List Char → List Char) (parts : List Part) : Option (Datum α) :=
  (parts.mapM (Part.datum scope naming alter)).map fun vs => .text (vs.flatMap scope.shown)

variable {α : Type} {scope : Scope α} {naming : String → String} {part : Part} {parts : List Part}

/-! ### Numbers -/

/-- The words for infinity and for no number are read back. -/
lemma value_float (hplain : scope.Plain) (word : String) :
    (Expr.call (.name "float") (.literal word.toList)).value scope =
      (Number.readDouble? word).map .real := by
  rw [Expr.value_call, Expr.value, Expr.value, hplain.float, Option.bind_some, Option.bind_some,
    Scope.call?, String.ofList_toList]

/-- A numeral with a point or an exponent is read back. -/
lemma ofNumeral?_magnitude {negative : Bool} {m : ℕ} {e : Int}
    (hx : (Double.finite negative m e).Canonical)
    (hwhole : (Double.finite negative m e).whole? = none) :
    Datum.ofNumeral? (α := α) (Double.finite negative m e).magnitude.plainText =
      some (.real (.finite false m e)) := by
  obtain ⟨-, c, hc, hdigit⟩ := Double.exists_not_digit_plainText hwhole
  have hliteral :
      Grammar.wholeLiteral? (Double.finite negative m e).magnitude.plainText = none := by
    refine if_neg fun h => ?_
    have hall := List.all_eq_true.mp h.2 c hc
    exact Bool.false_ne_true (hdigit.symm.trans hall)
  have hread : Number.readDouble? (Double.finite negative m e).magnitude.plainText =
      some (.finite false m e) := by
    have hmagnitude : (Double.finite false m e).Canonical := hx
    exact hmagnitude.readDouble?_plainText
  rw [Datum.ofNumeral?, hliteral, hread]
  rfl

/-- A number that is no integer is read back without its sign. -/
lemma value_magnitude (hplain : scope.Plain) {x : Double} (hx : x.Canonical)
    (hwhole : x.whole? = none) :
    (magnitudeExpr x).value scope = some (.real (x.withSign false)) := by
  cases x with
  | nan =>
      have hread : Number.readDouble? "nan" = some .nan := by decide +kernel
      exact (value_float hplain "nan").trans (by rw [hread]; rfl)
  | infinite negative =>
      have hread : Number.readDouble? "inf" = some (.infinite false) := by decide +kernel
      exact (value_float hplain "inf").trans (by rw [hread]; rfl)
  | finite negative m e => exact ofNumeral?_magnitude hx hwhole

/-- The sign of a number that is no integer goes in front of its magnitude. -/
lemma opposite_withSign {x : Double} (hwhole : x.whole? = none) :
    (if x.isNegative then opposite (x.withSign false) else x.withSign false) = x := by
  cases x with
  | nan => rfl
  | infinite negative => cases negative <;> rfl
  | finite negative m e =>
      obtain ⟨hm, -⟩ := Double.exists_not_digit_plainText hwhole
      rw [Double.isNegative, bne_iff_ne.mpr hm, Bool.and_true]
      cases negative <;> rfl

/-- The expression of a part has its value, where typed texts are altered. -/
lemma value_expr (hplain : scope.Plain) (hlegal : part.Legal naming) :
    (part.expr naming).value scope = part.datum scope naming (altered []) := by
  cases part with
  | typed text => rfl
  | named name => rfl
  | number x =>
      -- a sign is evaluated after what stands behind it
      have hsigned : ((Part.number x).expr naming).value scope =
          if x.isNegative then ((magnitudeExpr x).value scope).bind Datum.opposite?
          else (magnitudeExpr x).value scope := by
        rw [Part.expr]
        cases x.isNegative <;> rfl
      rw [hsigned, Part.datum, Datum.ofDouble]
      cases hwhole : x.whole? with
      | none =>
          have hsign := opposite_withSign hwhole
          rw [value_magnitude hplain hlegal hwhole]
          cases hnegative : x.isNegative with
          | false =>
              rw [hnegative, if_neg Bool.false_ne_true] at hsign
              rw [if_neg Bool.false_ne_true, hsign]
          | true =>
              rw [hnegative, if_pos rfl] at hsign
              rw [if_pos rfl, Option.bind_some, Datum.opposite?, hsign]
      | some i =>
          obtain ⟨n, htext, rfl⟩ := Double.exists_of_whole? hwhole
          have hmagnitude : (magnitudeExpr x).value scope = some (.whole n) := by
            have hexpr : magnitudeExpr x = .numeral n.repr := by
              cases x with
              | nan | infinite => cases hwhole
              | finite => exact congrArg Expr.numeral htext
            rw [hexpr, Expr.value, Datum.ofNumeral?, Grammar.wholeLiteral?_repr]
          rw [hmagnitude]
          cases x.isNegative <;> rfl

/-! ### The value of what is written -/

lemma mapM_value (hplain : scope.Plain) (hlegal : ∀ part ∈ parts, part.Legal naming) :
    (parts.map (Part.expr naming)).mapM (fun x => x.value scope) =
      parts.mapM (Part.datum scope naming (altered [])) := by
  induction parts with
  | nil => rfl
  | cons part parts ih =>
      rw [List.forall_mem_cons] at hlegal
      rw [List.map_cons, List.mapM_cons, List.mapM_cons, value_expr hplain hlegal.1, ih hlegal.2]

lemma value_strOf (hplain : scope.value "str" = some (.routine .str)) (x : Expr) :
    (strOf x).value scope = (x.value scope).map fun v => .text (scope.shown v) := by
  rw [strOf, Expr.value_call, Expr.value, hplain]
  cases x.value scope <;> rfl

lemma value_display (xs : List Expr) :
    (display xs).value scope = (xs.mapM fun x : Expr => x.value scope).map .items := by
  induction xs with
  | nil => rfl
  | cons x xs ih =>
      have hitem : (display (x :: xs)).value scope = (x.value scope).bind fun v =>
          ((display xs).value scope).bind fun u =>
            u.items?.bind fun vs => some (.items (v :: vs)) := rfl
      rw [hitem, ih, List.mapM_cons]
      cases x.value scope with
      | none => rfl
      | some v => cases xs.mapM (fun x : Expr => x.value scope) <;> rfl

/-- Texts are joined without anything between them. -/
lemma call_join (texts : List (List Char)) :
    scope.call? (.routine (.join [])) (.items (texts.map .text)) = some (.text texts.flatten) := by
  have htexts : (texts.map (Datum.text (α := α))).mapM Datum.text? = some texts := by
    induction texts with
    | nil => rfl
    | cons cs texts ih =>
        rw [List.map_cons, List.mapM_cons, ih]
        rfl
  have hflatten : [].intercalate texts = texts.flatten := by
    cases texts with
    | nil => rfl
    | cons cs texts =>
        clear htexts
        induction texts generalizing cs with
        | nil => rfl
        | cons ds texts ih =>
            rw [List.intercalate_cons_cons, List.append_nil, ih ds]
            rfl
  rw [Scope.call?, htexts, Option.map_some, hflatten]

/-- The element of the comprehension is the text of each item, since `str` is not its own name. -/
lemma mapM_element {id : String} (hplain : scope.Plain) (hid : id ≠ "str") (vs : List (Datum α)) :
    (vs.mapM fun v => (strOf (.name id)).value (scope.bind id v)) =
      some ((vs.map scope.shown).map .text) := by
  have helement : ∀ v, (strOf (.name id)).value (scope.bind id v) =
      some (.text (scope.shown v)) := by
    intro v
    have hstr : (scope.bind id v).value "str" = some (.routine .str) :=
      (if_neg (Ne.symm hid)).trans hplain.str
    have hname : (Expr.name id).value (scope.bind id v) = some v := if_pos rfl
    rw [value_strOf hstr, hname]
    rfl
  simp only [helement]
  induction vs with
  | nil => rfl
  | cons v vs ih =>
      rw [List.mapM_cons, ih]
      rfl

/-- Many expressions are joined as the items of a list. -/
lemma value_comprehension {id : String} (hplain : scope.Plain) (hid : id ≠ "str") (xs : List Expr) :
    (Expr.call (.member (.literal []) "join")
        (.each (strOf (.name id)) id (display xs))).value scope =
      (xs.mapM fun x : Expr => x.value scope).map fun vs => .text (vs.flatMap scope.shown) := by
  have hmethod : (Expr.member (.literal []) "join").value scope = some (.routine (.join [])) := rfl
  have heach : (Expr.each (strOf (.name id)) id (display xs)).value scope =
      ((display xs).value scope).bind fun u => u.items?.bind fun vs =>
        (vs.mapM fun v => (strOf (.name id)).value (scope.bind id v)).bind
          fun us => some (.items us) := rfl
  rw [Expr.value_call, hmethod, heach, Option.bind_some, value_display]
  cases xs.mapM (fun x : Expr => x.value scope) with
  | none => rfl
  | some vs =>
      rw [Option.map_some, Option.bind_some, Datum.items?, Option.bind_some,
        mapM_element hplain hid, Option.bind_some, Option.bind_some, call_join, Option.map_some,
        List.flatMap_def]

/-- **However many expressions are joined**, and whatever their values are, the value is that of
their texts, one after the other. -/
lemma value_joined {temporary : String} (hplain : scope.Plain) (htemporary : temporary ≠ "str")
    (xs : List Expr) : (joined temporary xs).value scope =
      (xs.mapM fun x : Expr => x.value scope).map fun vs => .text (vs.flatMap scope.shown) := by
  match xs with
  | [] => rfl
  | [x] =>
      rw [joined, value_strOf hplain.str, List.mapM_cons]
      cases x.value scope with
      | none => rfl
      | some v => exact congrArg (some ∘ Datum.text) (List.append_nil _).symm
  | [x, y] =>
      have hsum : (joined temporary [x, y]).value scope = ((strOf x).value scope).bind fun v =>
          ((strOf y).value scope).bind fun u => v.plus? u := rfl
      rw [hsum, value_strOf hplain.str, value_strOf hplain.str, List.mapM_cons, List.mapM_cons]
      cases x.value scope with
      | none => rfl
      | some v =>
          cases y.value scope with
          | none => rfl
          | some u =>
              exact congrArg (fun cs => some (Datum.text (scope.shown v ++ cs)))
                (List.append_nil _).symm
  | x :: y :: z :: xs => exact value_comprehension hplain htemporary (x :: y :: z :: xs)

/-- **What is written for parts** stands for their texts one after the other, with typed texts
altered, if each part can be read. -/
lemma eval_joinedCode {temporary : String} (hplain : scope.Plain)
    (hid : isIdentifier temporary = true) (hfree : temporary ∉ Dialect.python.reserved)
    (hlegal : ∀ part ∈ parts, part.Legal naming) :
    (readText (joinedCode temporary (parts.map (Part.code naming)))).bind (fun x => x.value scope) =
      if parts.all Part.isReadable then concatenation scope naming (altered []) parts
      else none := by
  have hstr : temporary ≠ "str" := by
    rintro rfl
    exact hfree (by decide +kernel)
  rw [readText_joinedCode hid hfree hlegal]
  split
  · rw [Option.bind_some, value_joined hplain hstr, mapM_value hplain hlegal, concatenation]
  · rfl

/-! ### Texts that are not altered -/

/-- The number of characters that are altered. -/
def Part.count (c : Char) : Part → ℕ
  | typed text => text.toList.count c
  | number _ | named _ => 0

/-- Altering a text adds a backslash for each percent sign and takes the line feeds out. -/
lemma count_altered (cs : List Char) :
    (altered [] cs).count '\\' = cs.count '\\' + cs.count '%' ∧
      (altered [] cs).count '\n' = 0 := by
  induction cs with
  | nil => exact ⟨rfl, rfl⟩
  | cons c cs ih =>
      rw [altered, List.flatMap_cons, ← altered, List.count_append, List.count_append, ih.1, ih.2,
        Text.Quoted.alteredChar]
      by_cases hbreak : c = '\n'
      · subst hbreak
        simp
      · by_cases hpercent : c = '%'
        · subst hpercent
          refine ⟨?_, rfl⟩
          simp
          omega
        · rw [if_neg hbreak, if_neg hpercent]
          refine ⟨?_, ?_⟩
          · simp [List.count_cons, hpercent]
            omega
          · simp [hbreak]

/-- In the text of one part, its percent signs are backslashes more and its line feeds are gone. -/
lemma exists_count
    (hvalues : ∀ name, part = .named name → ∃ v, scope.value (naming name) = some v) :
    ∃ v u, part.datum scope naming (altered []) = some v ∧
      part.datum scope naming id = some u ∧
      (scope.shown v).count '\\' = (scope.shown u).count '\\' + part.count '%' ∧
      (scope.shown u).count '\n' = (scope.shown v).count '\n' + part.count '\n' := by
  cases part with
  | typed text =>
      refine ⟨_, _, rfl, rfl, ?_, ?_⟩
      · rw [scope.shown_text, scope.shown_text]
        exact (count_altered _).1
      · rw [scope.shown_text, scope.shown_text, (count_altered _).2, Nat.zero_add]
        rfl
  | number x => exact ⟨_, _, rfl, rfl, rfl, rfl⟩
  | named name =>
      obtain ⟨v, hv⟩ := hvalues name rfl
      exact ⟨v, v, hv, hv, rfl, rfl⟩

/-- The characters of the texts of parts are counted part by part. -/
lemma exists_counts
    (hvalues : ∀ name, .named name ∈ parts → ∃ v, scope.value (naming name) = some v) :
    ∃ vs us : List (Datum α), parts.mapM (Part.datum scope naming (altered [])) = some vs ∧
      parts.mapM (Part.datum scope naming id) = some us ∧
      (vs.flatMap scope.shown).count '\\' =
        (us.flatMap scope.shown).count '\\' + (parts.map (Part.count '%')).sum ∧
      (us.flatMap scope.shown).count '\n' =
        (vs.flatMap scope.shown).count '\n' + (parts.map (Part.count '\n')).sum := by
  induction parts with
  | nil => exact ⟨[], [], rfl, rfl, rfl, rfl⟩
  | cons part parts ih =>
      obtain ⟨vs, us, hvs, hus, hslash, hbreak⟩ :=
        ih fun name hname => hvalues name (List.mem_cons_of_mem _ hname)
      obtain ⟨v, u, hv, hu, hslash', hbreak'⟩ :=
        exists_count fun name hname => hvalues name (hname ▸ List.mem_cons_self)
      refine ⟨v :: vs, u :: us, ?_, ?_, ?_, ?_⟩
      · rw [List.mapM_cons, hv, hvs]
        rfl
      · rw [List.mapM_cons, hu, hus]
        rfl
      · rw [List.flatMap_cons, List.flatMap_cons, List.count_append, List.count_append,
          List.map_cons, List.sum_cons, hslash, hslash']
        omega
      · rw [List.flatMap_cons, List.flatMap_cons, List.count_append, List.count_append,
          List.map_cons, List.sum_cons, hbreak, hbreak']
        omega

/-- **Typed texts stand for themselves** exactly if there are no percent signs and no line feeds in
them, whatever stands between them: each percent sign adds a backslash, and none is ever lost. -/
lemma concatenation_altered_eq_iff
    (hvalues : ∀ name, .named name ∈ parts → ∃ v, scope.value (naming name) = some v) :
    concatenation scope naming (altered []) parts = concatenation scope naming id parts ↔
      ∀ text, .typed text ∈ parts → '%' ∉ text.toList ∧ '\n' ∉ text.toList := by
  constructor
  · intro h text htext
    obtain ⟨vs, us, hvs, hus, hslash, hbreak⟩ := exists_counts hvalues
    rw [concatenation, concatenation, hvs, hus, Option.map_some, Option.map_some,
      Option.some.injEq, Datum.text.injEq] at h
    rw [h] at hslash hbreak
    have hnone : ∀ c, (parts.map (Part.count c)).sum = 0 → c ∉ text.toList := by
      intro c hsum
      have hzero := List.sum_eq_zero_iff.mp hsum _ (List.mem_map_of_mem htext)
      exact List.count_eq_zero.mp hzero
    exact ⟨hnone _ (by omega), hnone _ (by omega)⟩
  · intro h
    have hdatum : ∀ part ∈ parts, part.datum scope naming (altered []) =
        part.datum scope naming id := by
      intro part hpart
      cases part with
      | number | named => rfl
      | typed text =>
          have hsame : altered [] text.toList = text.toList :=
            (Text.Quoted.altered_eq_iff fun _ => List.not_mem_nil).mpr (h text hpart)
          exact congrArg (some ∘ Datum.text) hsame
    have hall : parts.mapM (Part.datum scope naming (altered [])) =
        parts.mapM (Part.datum scope naming id) := by
      clear hvalues h
      induction parts with
      | nil => rfl
      | cons part parts ih =>
          rw [List.forall_mem_cons] at hdatum
          rw [List.mapM_cons, List.mapM_cons, hdatum.1, ih hdatum.2]
    rw [concatenation, concatenation, hall]

/-- **What is written for parts stands for their texts** exactly if no typed text holds a percent
sign, a line break or a null character. -/
lemma eval_joinedCode_eq_iff {temporary : String} (hplain : scope.Plain)
    (hid : isIdentifier temporary = true) (hfree : temporary ∉ Dialect.python.reserved)
    (hlegal : ∀ part ∈ parts, part.Legal naming)
    (hvalues : ∀ name, .named name ∈ parts → ∃ v, scope.value (naming name) = some v) :
    (readText (joinedCode temporary (parts.map (Part.code naming)))).bind (fun x => x.value scope) =
        concatenation scope naming id parts ↔
      ∀ text, .typed text ∈ parts →
        '%' ∉ text.toList ∧ '\n' ∉ text.toList ∧ '\r' ∉ text.toList ∧ '\x00' ∉ text.toList := by
  have hreadable := all_isReadable_iff parts
  have haltered := concatenation_altered_eq_iff hvalues
  rw [eval_joinedCode hplain hid hfree hlegal]
  by_cases hall : parts.all Part.isReadable = true
  · rw [if_pos hall, haltered]
    have houtside := hreadable.mp hall
    exact ⟨fun h text htext => ⟨(h text htext).1, (h text htext).2, houtside text htext⟩,
      fun h text htext => ⟨(h text htext).1, (h text htext).2.1⟩⟩
  · obtain ⟨-, us, -, hus, -⟩ := exists_counts hvalues
    rw [if_neg hall, concatenation, hus]
    refine iff_of_false nofun fun h => hall (hreadable.mpr fun text htext => (h text htext).2.2)

end Blockscribe.Joined
