/-
Values that are written as JSON and read back.

* `Json.Plain`: values without fractions whose records have every key once.
* `Closed`, `Opens`: what follows a value, and how a value starts.
* `readNumber?_toString`: whole numbers are read back.
* `ReadsBack`: a value is read back from its text. `readsBack_list` and `readsBack_record` say so of
  lists and records if it holds of each of their values.
* `read?_indented`: plain values are read back from their indented text.
-/
import Blockscribe.Proofs.Assoc
import Blockscribe.Proofs.Json.Text
import Blockscribe.Proofs.Number.Digits

namespace Blockscribe.Json

open Double (digitsOf signed)

/-- Values without fractions; the keys of a record differ. -/
inductive Plain : Value → Prop
  | null : Plain .null
  | bool (b : Bool) : Plain (.bool b)
  | int (i : ℤ) : Plain (.int i)
  | text (s : String) : Plain (.text s)
  | list {items : List Value} (h : ∀ v ∈ items, Plain v) : Plain (.list items)
  | record {entries : Entries} (hkeys : (entries.map Prod.fst).Nodup)
      (h : ∀ e ∈ entries, Plain e.2) : Plain (.record entries)

variable {v : Value} {c : Char} {cs rest body : List Char} {fuel level : ℕ}

/-! ### Starts and ends -/

/-- Behind a value stands nothing, a comma or a line break. -/
def Closed (rest : List Char) : Prop := ∀ c ∈ rest.head?, c = ',' ∨ c = '\n'

/-- A value starts with something else than a blank or a closing bracket. -/
def Opens (cs : List Char) : Prop :=
  ∃ c more, cs = c :: more ∧ c ∉ [' ', '\t', '\n', '\r', ']', '\x7d']

lemma closed_nil : Closed [] := nofun

lemma closed_comma (rest : List Char) : Closed (',' :: rest) :=
  fun _ hc => .inl (Option.mem_some_iff.mp hc).symm

lemma toList_newline (level : ℕ) :
    (newline level).toList = '\n' :: List.replicate (2 * level) ' ' := by
  rw [newline, String.toList_append]
  exact congrArg ('\n' :: ·) String.toList_ofList

lemma closed_newline (level : ℕ) (rest : List Char) : Closed ((newline level).toList ++ rest) := by
  rw [toList_newline]
  exact fun _ hc => .inr (Option.mem_some_iff.mp hc).symm

lemma Opens.append (h : Opens cs) (rest : List Char) : Opens (cs ++ rest) := by
  obtain ⟨c, more, rfl, hc⟩ := h
  exact ⟨c, more ++ rest, rfl, hc⟩

lemma opens_cons (h : c ∉ [' ', '\t', '\n', '\r', ']', '\x7d']) (more : List Char) :
    Opens (c :: more) :=
  ⟨c, more, rfl, h⟩

lemma Opens.skip_eq (h : Opens cs) : skip cs = cs := by
  obtain ⟨c, more, rfl, hc⟩ := h
  refine List.dropWhile_cons_of_neg ?_
  simp only [List.mem_cons, not_or] at hc
  simp [hc]

lemma skip_cons (h : c = ' ' ∨ c = '\n') (cs : List Char) : skip (c :: cs) = skip cs := by
  refine List.dropWhile_cons_of_pos ?_
  rcases h with rfl | rfl <;> rfl

/-- A line break and its indentation are skipped. -/
lemma skip_newline (level : ℕ) (cs : List Char) :
    skip ((newline level).toList ++ cs) = skip cs := by
  have hspaces : ∀ n, skip (List.replicate n ' ' ++ cs) = skip cs := by
    intro n
    induction n with
    | zero => rfl
    | succ n ih => rw [List.replicate_succ, List.cons_append, skip_cons (.inl rfl), ih]
  rw [toList_newline, List.cons_append, skip_cons (.inr rfl), hspaces]

/-! ### Whole numbers -/

lemma exists_digitsOf_eq (n : ℕ) : ∃ c more, digitsOf n = c :: more ∧ c.isDigit = true := by
  obtain ⟨c, more, hdigits⟩ := List.exists_cons_of_ne_nil (Double.digitsOf_ne_nil n)
  exact ⟨c, more, hdigits, isDigit_of_mem_digitsOf (n := n) (hdigits ▸ List.mem_cons_self)⟩

lemma readWhole?_digitsOf (n : ℕ) (h : Closed rest) :
    readWhole? (digitsOf n ++ rest) = some (digitsOf n, rest) := by
  have hstop : ∀ c ∈ rest.head?, c.isDigit = false := by
    intro c hc
    rcases h c hc with rfl | rfl <;> rfl
  obtain ⟨htake, hdrop⟩ := Grammar.span_digits (fun _ => isDigit_of_mem_digitsOf (n := n)) hstop
  obtain ⟨c, more, hdigits, -⟩ := exists_digitsOf_eq n
  have hrun : readDigits? (digitsOf n ++ rest) = some (digitsOf n, rest) := by
    rw [readDigits?, htake, hdrop, hdigits]
  rcases Nat.eq_zero_or_pos n with rfl | hn
  · rfl
  · have hc : c ≠ '0' := by
      rintro rfl
      exact head?_digitsOf hn (hdigits ▸ rfl)
    rw [hdigits, List.cons_append] at hrun ⊢
    rw [readWhole?.eq_def]
    split
    · rename_i heq
      exact absurd (List.cons.inj heq).1 hc
    · exact hrun

lemma readFraction_of_closed (h : Closed rest) : readFraction rest = ([], rest) := by
  rw [readFraction.eq_def]
  split
  · exact absurd (h '.' rfl) (by decide)
  · rfl

lemma readExponent_of_closed (h : Closed rest) : readExponent rest = (none, rest) := by
  cases rest with
  | nil => rfl
  | cons c rest =>
      rw [readExponent]
      refine if_neg ?_
      rcases h c rfl with rfl | rfl <;> decide

lemma signed_natAbs (i : ℤ) : signed (decide (i < 0)) i.natAbs = i := by
  rw [signed]
  split
  · rename_i hneg
    have : i < 0 := of_decide_eq_true hneg
    omega
  · rename_i hpos
    have : ¬ i < 0 := fun hneg => hpos (decide_eq_true hneg)
    omega

/-- **Whole numbers are read back.** -/
lemma readNumber?_toString (i : ℤ) (h : Closed rest) :
    readNumber? ((toString i).toList ++ rest) = some (.int i, rest) := by
  have hwhole := readWhole?_digitsOf i.natAbs h
  obtain ⟨c, more, hdigits, hdigit⟩ := exists_digitsOf_eq i.natAbs
  have hc : c ≠ '-' := by
    rintro rfl
    exact absurd hdigit (by decide)
  rw [Number.toString_eq, String.toList_ofList, List.append_assoc]
  have hvalue := signed_natAbs i
  generalize decide (i < 0) = below at hvalue ⊢
  rw [readNumber?.eq_def]
  split
  rename_i negative body heq
  have hsplit : negative = below ∧ body = digitsOf i.natAbs ++ rest := by
    cases below with
    | true =>
        rw [if_pos rfl, List.singleton_append] at heq
        exact ⟨(Prod.mk.inj heq).1.symm, (Prod.mk.inj heq).2.symm⟩
    | false =>
        rw [if_neg Bool.false_ne_true, List.nil_append, hdigits, List.cons_append] at heq
        split at heq
        · rename_i hminus
          exact absurd (List.cons.inj hminus).1 hc
        · rw [hdigits]
          exact ⟨(Prod.mk.inj heq).1.symm, (Prod.mk.inj heq).2.symm⟩
  obtain ⟨rfl, rfl⟩ := hsplit
  simp only [hwhole, readFraction_of_closed h, readExponent_of_closed h,
    List.isEmpty_nil, Option.isNone_none, Bool.and_self, if_true, Number.natOf_digitsOf, hvalue]

/-! ### Values on one line -/

/-- The text of a whole number starts with a digit, or with a minus sign and a digit. -/
lemma toList_toString (i : ℤ) : ∃ c more, c.isDigit = true ∧
    ((toString i).toList = c :: more ∨ (toString i).toList = '-' :: c :: more) := by
  obtain ⟨c, more, hdigits, hdigit⟩ := exists_digitsOf_eq i.natAbs
  refine ⟨c, more, hdigit, ?_⟩
  rw [Number.toString_eq, String.toList_ofList, hdigits]
  split
  · exact .inr rfl
  · exact .inl rfl

/-- A text with a digit in one of its first two places is no word. -/
lemma find?_words (h : c.isDigit = true) (more : List Char) :
    (words.find? fun (word, _) => word.isPrefixOf (c :: more)) = none ∧
      (words.find? fun (word, _) => word.isPrefixOf ('-' :: c :: more)) = none := by
  have hletters : ∀ w ∈ words, ∃ a b tail, w.1 = a :: b :: tail ∧ a.isDigit = false ∧
      b.isDigit = false := by
    intro w hw
    simp only [words, List.mem_cons, List.not_mem_nil, or_false] at hw
    rcases hw with rfl | rfl | rfl | rfl | rfl | rfl <;> exact ⟨_, _, _, rfl, rfl, rfl⟩
  refine ⟨List.find?_eq_none.mpr fun w hw hstart => ?_,
    List.find?_eq_none.mpr fun w hw hstart => ?_⟩
  all_goals
    obtain ⟨a, b, tail, hword, ha, hb⟩ := hletters w hw
    obtain ⟨left, heq⟩ := List.isPrefixOf_iff_prefix.mp hstart
    rw [hword] at heq
  · obtain rfl := (List.cons.inj heq).1
    exact Bool.noConfusion (ha.symm.trans h)
  · obtain rfl := (List.cons.inj (List.cons.inj heq).2).1
    exact Bool.noConfusion (hb.symm.trans h)

/-- Whole numbers are no words. -/
lemma readAtom?_toString (i : ℤ) (h : Closed rest) :
    readAtom? ((toString i).toList ++ rest) = some (.int i, rest) := by
  have hnumber := readNumber?_toString i h
  obtain ⟨c, more, hc, htext | htext⟩ := toList_toString i
  · rw [htext, List.cons_append] at hnumber ⊢
    rw [readAtom?, (find?_words hc _).1]
    exact hnumber
  · rw [htext, List.cons_append, List.cons_append] at hnumber ⊢
    rw [readAtom?, (find?_words hc _).2]
    exact hnumber

lemma readValue?_of_head (hquote : c ≠ '\x22') (hbracket : c ≠ '[') (hbrace : c ≠ '\x7b') :
    readValue? (fuel + 1) (c :: cs) = readAtom? (c :: cs) := by
  rw [readValue?.eq_def]
  simp only
  split
  · rename_i heq
    exact absurd (List.cons.inj heq).1 hquote
  · rename_i heq
    exact absurd (List.cons.inj heq).1 hbracket
  · rename_i heq
    exact absurd (List.cons.inj heq).1 hbrace
  · rfl

/-- A value is read back from its text at any level of indentation, whatever stands behind it. -/
structure ReadsBack (v : Value) : Prop where
  opens (level : ℕ) : Opens (indentedAt level v).toList
  reads (level fuel : ℕ) {rest : List Char} (hrest : Closed rest)
    (hfuel : (indentedAt level v).toList.length < fuel) :
    readValue? fuel ((indentedAt level v).toList ++ rest) = some (v, rest)

/-- A value on one line is read back if this takes one step. -/
lemma readsBack_of_step (hopens : Opens (atom v).toList)
    (hatom : ∀ level, indentedAt level v = atom v)
    (h : ∀ fuel rest, Closed rest →
      readValue? (fuel + 1) ((atom v).toList ++ rest) = some (v, rest)) : ReadsBack v := by
  refine ⟨fun level => hatom level ▸ hopens, fun level fuel rest hrest hfuel => ?_⟩
  rw [hatom]
  obtain ⟨fuel, rfl⟩ := Nat.exists_eq_succ_of_ne_zero (Nat.ne_zero_of_lt hfuel)
  exact h fuel rest hrest

lemma readsBack_int (i : ℤ) : ReadsBack (.int i) := by
  obtain ⟨c, more, hc, htext⟩ := toList_toString i
  have hother : c ∉ [' ', '\t', '\n', '\r', ']', '\x7d', '\x22', '[', '\x7b'] :=
    Number.forall_isDigit (P := fun c => c ∉ [' ', '\t', '\n', '\r', ']', '\x7d', '\x22', '[',
      '\x7b']) (by decide) hc
  -- the digit or the minus sign in front starts neither a text nor a list nor a record
  obtain ⟨x, tail, hx, hopen⟩ : ∃ x tail, (toString i).toList = x :: tail ∧
      x ∉ [' ', '\t', '\n', '\r', ']', '\x7d', '\x22', '[', '\x7b'] := by
    rcases htext with htext | htext
    · exact ⟨_, _, htext, hother⟩
    · exact ⟨_, _, htext, by decide⟩
  simp only [List.mem_cons, not_or] at hopen
  refine readsBack_of_step ?_ (fun _ => rfl) fun fuel rest hrest => ?_
  · rw [atom, hx]
    exact opens_cons (by simp [hopen]) tail
  · have hread := readAtom?_toString i hrest
    rw [hx, List.cons_append] at hread
    rw [atom, hx, List.cons_append, readValue?_of_head (by simp [hopen]) (by simp [hopen])
      (by simp [hopen]), hread]

lemma readsBack_text (s : String) : ReadsBack (.text s) := by
  refine readsBack_of_step ?_ (fun _ => rfl) fun fuel rest hrest => ?_
  · obtain ⟨cs, hescape, -⟩ := readText?_escape s []
    rw [atom, hescape]
    exact opens_cons (by decide) cs
  · obtain ⟨cs, hescape, hread⟩ := readText?_escape s rest
    rw [atom, hescape, List.cons_append, readValue?, hread]
    rfl

/-! ### Items and entries -/

/-- Parts with a comma and a line break between them. -/
def joined (level : ℕ) (parts : List String) : String := ("," ++ newline level).intercalate parts

lemma joined_cons_cons (level : ℕ) (part next : String) (parts : List String) :
    (joined level (part :: next :: parts)).toList =
      part.toList ++
        (',' :: ((newline level).toList ++ (joined level (next :: parts)).toList)) := by
  rw [joined, String.intercalate_cons_cons, joined]
  simp only [String.toList_append, List.append_assoc]
  rfl

lemma joined_singleton (level : ℕ) (part : String) : joined level [part] = part :=
  String.intercalate_singleton

lemma opens_joined {part : String} (h : Opens part.toList) (level : ℕ) (parts : List String) :
    Opens (joined level (part :: parts)).toList := by
  cases parts with
  | nil => rwa [joined_singleton]
  | cons next parts => exact joined_cons_cons level part next parts ▸ h.append _

lemma indentedItems_eq (level : ℕ) (items : List Value) :
    indentedItems level items = items.map (indentedAt level) := by
  induction items with
  | nil => rfl
  | cons v items ih => rw [indentedItems, ih, List.map_cons]

lemma readItems?_last {left : List Char} (h : readValue? fuel cs = some (v, left))
    (hend : skip left = ']' :: rest) : readItems? (fuel + 1) cs = some ([v], rest) := by
  rw [readItems?, h]
  simp only [hend]

lemma readItems?_more {left more : List Char} {items : List Value}
    (h : readValue? fuel cs = some (v, left)) (hcomma : skip left = ',' :: more)
    (hmore : readItems? fuel (skip more) = some (items, rest)) :
    readItems? (fuel + 1) cs = some (v :: items, rest) := by
  rw [readItems?, h]
  simp only [hcomma, hmore, Option.map_some]

/-- The items of a list are read back, from the first one on. -/
lemma readItems?_joined {items : List Value} (h : ∀ v ∈ items, ReadsBack v) (hne : items ≠ [])
    (level below : ℕ) (rest : List Char)
    (hfuel : (joined level (items.map (indentedAt level))).toList.length + 1 < fuel) :
    readItems? fuel ((joined level (items.map (indentedAt level))).toList ++
      ((newline below).toList ++ ']' :: rest)) = some (items, rest) := by
  -- behind an item stands a comma, behind the last one the line break in front of the bracket
  induction items generalizing fuel with
  | nil => exact absurd rfl hne
  | cons v items ih =>
      obtain ⟨fuel, rfl⟩ := Nat.exists_eq_succ_of_ne_zero (Nat.ne_zero_of_lt hfuel)
      rw [List.forall_mem_cons] at h
      cases items with
      | nil =>
          rw [List.map_cons, List.map_nil, joined_singleton] at hfuel ⊢
          refine readItems?_last (h.1.reads level fuel (closed_newline below _) (by omega)) ?_
          rw [skip_newline]
          rfl
      | cons w items =>
          have hopens := opens_joined ((List.forall_mem_cons.mp h.2).1.opens level) level
            (items.map (indentedAt level))
          rw [List.map_cons, List.map_cons, joined_cons_cons] at hfuel ⊢
          rw [← List.map_cons] at hfuel hopens ⊢
          simp only [List.length_append, List.length_cons] at hfuel
          simp only [List.append_assoc, List.cons_append]
          refine readItems?_more (h.1.reads level fuel (closed_comma _) (by omega)) rfl ?_
          rw [skip_newline, (hopens.append _).skip_eq]
          exact ih h.2 (List.cons_ne_nil _ _) (by omega)

lemma readEntries?_last {key : String} {afterKey afterValue : List Char}
    (hkey : readText? cs = some (key, ':' :: afterKey))
    (h : readValue? fuel (skip afterKey) = some (v, afterValue))
    (hend : skip afterValue = '\x7d' :: rest) :
    readEntries? (fuel + 1) ('\x22' :: cs) = some ([(key, v)], rest) := by
  have hcolon : skip (':' :: afterKey) = ':' :: afterKey := rfl
  rw [readEntries?, hkey]
  simp only [hcolon, h, hend]

lemma readEntries?_more {key : String} {afterKey afterValue more : List Char} {entries : Entries}
    (hkey : readText? cs = some (key, ':' :: afterKey))
    (h : readValue? fuel (skip afterKey) = some (v, afterValue))
    (hcomma : skip afterValue = ',' :: more)
    (hmore : readEntries? fuel (skip more) = some (entries, rest)) :
    readEntries? (fuel + 1) ('\x22' :: cs) = some ((key, v) :: entries, rest) := by
  have hcolon : skip (':' :: afterKey) = ':' :: afterKey := rfl
  rw [readEntries?, hkey]
  simp only [hcolon, h, hcomma, hmore, Option.map_some]

/-- The text of an entry: its key between quotes, a colon and its value. -/
def entryText (level : ℕ) (e : String × Value) : String :=
  escape e.1 ++ ": " ++ indentedAt level e.2

lemma indentedEntries_eq (level : ℕ) (entries : Entries) :
    indentedEntries level entries = entries.map (entryText level) := by
  induction entries with
  | nil => rfl
  | cons e entries ih => rw [indentedEntries, ih, List.map_cons, entryText]

/-- The key of an entry is read back, and the value is what is left behind the colon. -/
lemma entryText_cases (level : ℕ) (e : String × Value) (rest : List Char) :
    ∃ cs, (entryText level e).toList ++ rest = '\x22' :: cs ∧
      readText? cs = some (e.1, ':' :: ' ' :: ((indentedAt level e.2).toList ++ rest)) := by
  obtain ⟨cs, hescape, hread⟩ :=
    readText?_escape e.1 (':' :: ' ' :: ((indentedAt level e.2).toList ++ rest))
  refine ⟨_, ?_, hread⟩
  rw [entryText, String.toList_append, String.toList_append, hescape]
  simp only [List.append_assoc, List.cons_append]
  rfl

lemma length_entryText (level : ℕ) (e : String × Value) :
    (indentedAt level e.2).toList.length ≤ (entryText level e).toList.length := by
  rw [entryText, String.toList_append, List.length_append]
  omega

lemma opens_entryText (level : ℕ) (e : String × Value) : Opens (entryText level e).toList := by
  obtain ⟨cs, htext, -⟩ := entryText_cases level e []
  rw [List.append_nil] at htext
  exact htext ▸ opens_cons (by decide) cs

/-- The entries of a record are read back, from the first one on. -/
lemma readEntries?_joined {entries : Entries} (h : ∀ e ∈ entries, ReadsBack e.2)
    (hne : entries ≠ []) (level below : ℕ) (rest : List Char)
    (hfuel : (joined level (entries.map (entryText level))).toList.length + 1 < fuel) :
    readEntries? fuel ((joined level (entries.map (entryText level))).toList ++
      ((newline below).toList ++ '\x7d' :: rest)) = some (entries, rest) := by
  induction entries generalizing fuel with
  | nil => exact absurd rfl hne
  | cons e entries ih =>
      obtain ⟨fuel, rfl⟩ := Nat.exists_eq_succ_of_ne_zero (Nat.ne_zero_of_lt hfuel)
      rw [List.forall_mem_cons] at h
      have hlength := length_entryText level e
      have hskip : ∀ left, skip (' ' :: ((indentedAt level e.2).toList ++ left)) =
          (indentedAt level e.2).toList ++ left := fun left => by
        rw [skip_cons (.inl rfl), ((h.1.opens level).append left).skip_eq]
      cases entries with
      | nil =>
          rw [List.map_cons, List.map_nil, joined_singleton] at hfuel ⊢
          obtain ⟨cs, htext, hkey⟩ := entryText_cases level e
            ((newline below).toList ++ '\x7d' :: rest)
          have hvalue := h.1.reads level fuel (closed_newline below ('\x7d' :: rest))
            (by omega)
          rw [← hskip] at hvalue
          rw [htext]
          refine readEntries?_last hkey hvalue ?_
          rw [skip_newline]
          rfl
      | cons e' entries =>
          have hopens := opens_joined (opens_entryText level e') level
            (entries.map (entryText level))
          rw [List.map_cons, List.map_cons, joined_cons_cons] at hfuel ⊢
          rw [← List.map_cons] at hfuel hopens ⊢
          simp only [List.length_append, List.length_cons] at hfuel
          simp only [List.append_assoc, List.cons_append]
          have hvalue := h.1.reads level fuel (closed_comma ((newline level).toList ++
            ((joined level ((e' :: entries).map (entryText level))).toList ++
              ((newline below).toList ++ '\x7d' :: rest)))) (by omega)
          rw [← hskip] at hvalue
          obtain ⟨cs, htext, hkey⟩ := entryText_cases level e _
          rw [htext]
          refine readEntries?_more hkey hvalue rfl ?_
          rw [skip_newline, (hopens.append _).skip_eq]
          exact ih h.2 (List.cons_ne_nil _ _) (by omega)

/-! ### Lists and records -/

/-- What stands between the brackets of a list starts with its first item. -/
lemma readValue?_list {items : List Value} {left : List Char} (hskip : skip rest = body)
    (hopens : Opens body) (h : readItems? fuel body = some (items, left)) :
    readValue? (fuel + 1) ('[' :: rest) = some (.list items, left) := by
  obtain ⟨c, more, rfl, hc⟩ := hopens
  rw [readValue?, hskip]
  split
  · rename_i heq
    obtain rfl := (List.cons.inj heq).1
    exact absurd hc (by decide)
  · rw [h, Option.map_some]

/-- What stands between the braces of a record starts with its first entry. -/
lemma readValue?_record {entries : Entries} {left : List Char}
    (hkeys : (entries.map Prod.fst).Nodup) (hskip : skip rest = body) (hopens : Opens body)
    (h : readEntries? fuel body = some (entries, left)) :
    readValue? (fuel + 1) ('\x7b' :: rest) = some (.record entries, left) := by
  obtain ⟨c, more, rfl, hc⟩ := hopens
  rw [readValue?, hskip]
  split
  · rename_i heq
    obtain rfl := (List.cons.inj heq).1
    exact absurd hc (by decide)
  · simp only [h, Option.map_some, Assoc.ofPairs_of_nodup hkeys]

/-- Parts between brackets are read back if they are read up to the closing one. -/
lemma readsBack_of_bracket (opening closing : String) (o c : Char) (parts : ℕ → List String)
    (ho : opening.toList = [o]) (hc : closing.toList = [c])
    (hopens : o ∉ [' ', '\t', '\n', '\r', ']', '\x7d'])
    (htext : ∀ level, indentedAt level v = bracket opening closing level (parts (level + 1)))
    (hread : ∀ level below fuel rest, (joined level (parts level)).toList.length + 1 < fuel →
      readValue? (fuel + 1) (o :: ((newline level).toList ++ ((joined level (parts level)).toList ++
        ((newline below).toList ++ c :: rest)))) = some (v, rest)) : ReadsBack v := by
  have hlist (level : ℕ) : (indentedAt level v).toList = o :: ((newline (level + 1)).toList ++
      ((joined (level + 1) (parts (level + 1))).toList ++ ((newline level).toList ++ [c]))) := by
    rw [htext]
    simp only [bracket, joined, String.toList_append, ho, hc, List.append_assoc, List.cons_append,
      List.nil_append]
  refine ⟨fun level => hlist level ▸ opens_cons hopens _, fun level fuel rest _ hfuel => ?_⟩
  rw [hlist] at hfuel ⊢
  obtain ⟨fuel, rfl⟩ := Nat.exists_eq_succ_of_ne_zero (Nat.ne_zero_of_lt hfuel)
  simp only [List.length_append, List.length_cons] at hfuel
  simp only [List.append_assoc, List.cons_append, List.nil_append]
  exact hread (level + 1) level fuel rest (by omega)

lemma readsBack_list {items : List Value} (h : ∀ v ∈ items, ReadsBack v) :
    ReadsBack (.list items) := by
  cases items with
  | nil => exact readsBack_of_step (opens_cons (by decide) [']']) (fun _ => rfl) fun _ _ _ => rfl
  | cons v items =>
      refine readsBack_of_bracket "[" "]" '[' ']' (fun level => (v :: items).map (indentedAt level))
        rfl rfl (by decide) (fun level => ?_) ?_
      · rw [indentedAt, indentedItems_eq]
      · intro level below fuel rest hfuel
        have hopens := (opens_joined ((List.forall_mem_cons.mp h).1.opens level) level
          (items.map (indentedAt level))).append ((newline below).toList ++ ']' :: rest)
        exact readValue?_list ((skip_newline _ _).trans hopens.skip_eq) hopens
          (readItems?_joined h (List.cons_ne_nil _ _) level below rest hfuel)

lemma readsBack_record {entries : Entries} (hkeys : (entries.map Prod.fst).Nodup)
    (h : ∀ e ∈ entries, ReadsBack e.2) : ReadsBack (.record entries) := by
  cases entries with
  | nil =>
      exact readsBack_of_step (opens_cons (by decide) ['\x7d']) (fun _ => rfl) fun _ _ _ => rfl
  | cons e entries =>
      refine readsBack_of_bracket "\x7b" "\x7d" '\x7b' '\x7d'
        (fun level => (e :: entries).map (entryText level)) rfl rfl (by decide) (fun level => ?_) ?_
      · rw [indentedAt, indentedEntries_eq]
      · intro level below fuel rest hfuel
        have hopens := (opens_joined (opens_entryText level e) level
          (entries.map (entryText level))).append ((newline below).toList ++ '\x7d' :: rest)
        exact readValue?_record hkeys ((skip_newline _ _).trans hopens.skip_eq) hopens
          (readEntries?_joined h (List.cons_ne_nil _ _) level below rest hfuel)

/-! ### Plain values -/

lemma Plain.readsBack (h : Plain v) : ReadsBack v := by
  induction h with
  | null => exact readsBack_of_step (opens_cons (by decide) _) (fun _ => rfl) fun _ _ _ => rfl
  | bool b =>
      cases b <;>
        exact readsBack_of_step (opens_cons (by decide) _) (fun _ => rfl) fun _ _ _ => rfl
  | int i => exact readsBack_int i
  | text s => exact readsBack_text s
  | list _ ih => exact readsBack_list ih
  | record hkeys _ ih => exact readsBack_record hkeys ih

/-- **Plain values are read back from their indented text.** -/
theorem read?_indented (h : Plain v) : read? (indented v) = some v := by
  have hopens := h.readsBack.opens 0
  have hread := h.readsBack.reads 0 ((indentedAt 0 v).toList.length + 1) closed_nil (by omega)
  rw [List.append_nil] at hread
  rw [read?, indented, hopens.skip_eq, hread]
  rfl

end Blockscribe.Json
