/-
What the changes of a run write.

* `Step.kinds`: everything that one change does to the identifiers and the definitions of a run.
  There are three kinds: an identifier is looked up or issued, a helper routine is written together
  with its identifier, or a definition is written.
* `Definitions.exists_helperText_eq`: a helper routine begins with its head, in every indentation.
-/
import Blockscribe.Proofs.Assoc
import Blockscribe.Proofs.Run.Later
import Blockscribe.Proofs.Run.Refine
import Blockscribe.Proofs.Text.CodeLines
import Blockscribe.Handler.Index

namespace Blockscribe

/-! ### Changes -/

namespace Run

variable {Q : Question → Prop} {indent : String} {s t : Run}

lemma definitions_note (s : Run) (e : Event) : (s.note e).definitions = s.definitions := rfl

/-- A helper routine that is known is looked up. -/
lemma provide_of_known {key id : String} (h : s.definitions.helper? key = some id)
    (indent : String) (lines : List String) : s.provide indent key lines = (id, s) := by
  rw [Run.provide, Definitions.provide_eq_of_known h]
  rfl

/-- The first request for a helper routine issues an identifier and writes the definition. -/
lemma provide_of_new {key : String} (h : s.definitions.helper? key = none) (indent : String)
    (lines : List String) :
    (s.provide indent key lines).1 = s.names.choose key ∧
    (s.provide indent key lines).2.names = (s.names.fresh key).2 ∧
    (s.provide indent key lines).2.definitions = Definitions.put
      ⟨s.definitions.entries, (key, s.names.choose key) :: s.definitions.helpers⟩ key
      (Definitions.helperText indent (s.names.choose key) lines) := by
  simp only [Run.provide, Definitions.provide_eq_of_new h, if_true, true_and]
  rw [names_note, names_noteRenaming, definitions_note, definitions_noteRenaming]
  exact ⟨rfl, rfl⟩

/-- What one change does: an identifier is looked up or issued; or a helper routine is written, with
an identifier of its own; or a definition is written. -/
lemma Step.kinds (h : Step Q indent s t) :
    (t.definitions = s.definitions ∧ (t.names = s.names ∨
      (∃ name kind, Q (.identifier name kind) ∧ t.names = (s.names.named name kind).2) ∨
      ∃ hint kind, Q (.fresh hint kind) ∧ t.names = (s.names.fresh hint).2)) ∨
    (∃ key lines, Q (.helper key lines) ∧ s.definitions.helper? key = none ∧
      t.names = (s.names.fresh key).2 ∧
      t.definitions = Definitions.put
        ⟨s.definitions.entries, (key, s.names.choose key) :: s.definitions.helpers⟩ key
        (Definitions.helperText indent (s.names.choose key) lines)) ∨
    ∃ key text, Q (.define key text) ∧ t.names = s.names ∧
      t.definitions = s.definitions.put key text := by
  cases h with
  | @named name kind hq =>
      exact .inl ⟨definitions_named s name kind, .inr (.inl ⟨name, kind, hq, names_named s name kind⟩)⟩
  | @fresh hint kind hq =>
      exact .inl ⟨definitions_fresh s hint kind,
        .inr (.inr ⟨hint, kind, hq, names_fresh s hint kind⟩)⟩
  | @define key text hq => exact .inr (.inr ⟨key, text, hq, rfl, rfl⟩)
  | @provide key lines hq =>
      cases hhelper : s.definitions.helper? key with
      | some id =>
          rw [provide_of_known hhelper]
          exact .inl ⟨rfl, .inl rfl⟩
      | none =>
          obtain ⟨-, hnames, hdefinitions⟩ := provide_of_new hhelper indent lines
          exact .inr (.inl ⟨key, lines, hq, hhelper, hnames, hdefinitions⟩)

/-- What one change does to the definition under a key: nothing, or a helper routine is written
there with the first request for it, or the definition is written. -/
lemma Step.get?_cases (h : Step Q indent s t) (key : String) :
    t.definitions.get? key = s.definitions.get? key ∨
    (∃ lines, Q (.helper key lines) ∧ s.definitions.helper? key = none) ∨
    ∃ text, Q (.define key text) ∧ t.definitions.get? key = some text := by
  rcases h.kinds with ⟨hsame, -⟩ | ⟨written, lines, hq, hnew, -, hput⟩ | ⟨written, text, hq, -, hput⟩
  · exact .inl (by rw [hsame])
  · by_cases hkey : key = written
    · exact .inr (.inl ⟨lines, hkey ▸ hq, hkey ▸ hnew⟩)
    · exact .inl (by rw [hput, Definitions.get?_put, if_neg hkey]; rfl)
  · by_cases hkey : key = written
    · exact .inr (.inr ⟨text, hkey ▸ hq, by rw [hput, Definitions.get?_put, if_pos hkey]⟩)
    · exact .inl (by rw [hput, Definitions.get?_put, if_neg hkey])

end Run

/-! ### Helper routines -/

namespace Text

variable {a b rest pattern replacement unit : List Char}

/-- What has nothing in common with the pattern stays as it is. -/
lemma replaceFrom_append_of_not_head {p : Char} (hp : pattern.head? = some p) (ha : p ∉ a) :
    replaceFrom pattern replacement 0 (a ++ b) = a ++ replaceFrom pattern replacement 0 b := by
  obtain ⟨rest, rfl⟩ : ∃ rest, pattern = p :: rest := List.head?_eq_some_iff.mp hp
  induction a with
  | nil => rfl
  | cons c more ih =>
      rw [List.mem_cons, not_or] at ha
      have hc : (p :: rest).isPrefixOf (c :: (more ++ b)) = false := by
        rw [List.isPrefixOf, beq_eq_false_iff_ne.mpr ha.1, Bool.false_and]
      rw [List.cons_append, replaceFrom, hc, if_neg Bool.false_ne_true, ih ha.2, List.cons_append]

lemma replaceFrom_skip (a b : List Char) :
    replaceFrom pattern replacement a.length (a ++ b) = replaceFrom pattern replacement 0 b := by
  induction a with
  | nil => rfl
  | cons c more ih => exact ih

/-- The pattern at the start of a text is replaced. -/
lemma replaceFrom_pattern (h : pattern ≠ []) (b : List Char) :
    replaceFrom pattern replacement 0 (pattern ++ b) =
      replacement ++ replaceFrom pattern replacement 0 b := by
  obtain ⟨p, more, rfl⟩ := List.exists_cons_of_ne_nil h
  have hprefix : (p :: more).isPrefixOf (p :: (more ++ b)) = true :=
    List.isPrefixOf_iff_prefix.mpr (List.prefix_append _ _)
  rw [List.cons_append, replaceFrom, hprefix, if_pos rfl]
  exact congrArg (replacement ++ ·) (replaceFrom_skip more b)

/-- The first line of a text begins with what comes before the first line feed. -/
lemma exists_splitLines_append (ha : '\n' ∉ a) (b : List Char) :
    ∃ line more, splitLines b = line :: more ∧ splitLines (a ++ b) = (a ++ line) :: more := by
  induction a with
  | nil =>
      obtain ⟨line, more, h⟩ := List.exists_cons_of_ne_nil (splitLines_ne_nil b)
      exact ⟨line, more, h, h⟩
  | cons c rest ih =>
      rw [List.mem_cons, not_or] at ha
      obtain ⟨line, more, hlines, h⟩ := ih ha.2
      refine ⟨line, more, hlines, ?_⟩
      rw [List.cons_append, splitLines, if_neg (Ne.symm ha.1), h]
      rfl

lemma exists_joinLines_append (a line : List Char) (more : List (List Char)) :
    ∃ rest, joinLines ((a ++ line) :: more) = a ++ rest := by
  cases more with
  | nil => exact ⟨line, rfl⟩
  | cons next more => exact ⟨line ++ '\n' :: joinLines (next :: more), List.append_assoc _ _ _⟩

/-- A line that does not begin with a space is left as it is. -/
lemma exists_reindent_append (unit : List Char) (ha : '\n' ∉ a)
    (hhead : ∀ c ∈ a.head?, c ≠ ' ') (hne : a ≠ []) (b : List Char) :
    ∃ rest, reindent unit (a ++ b) = a ++ rest := by
  obtain ⟨line, more, -, h⟩ := exists_splitLines_append ha b
  obtain ⟨c, a, rfl⟩ := List.exists_cons_of_ne_nil hne
  have hline : reindentLine unit (c :: a ++ line) = c :: a ++ line := by
    rw [List.cons_append, reindentLine]
    rintro rest hrest
    exact hhead c rfl (List.cons.inj hrest).1
  rw [reindent, h, List.map_cons, hline]
  exact exists_joinLines_append _ _ _

end Text

/-- An identifier has only word characters. -/
lemma isWordChar_of_isIdentifier {text : String} {c : Char} (h : isIdentifier text = true)
    (hc : c ∈ text.toList) : Name.isWordChar c = true := by
  obtain ⟨first, rest, hlist, -, hfirst, hall⟩ := exists_of_isIdentifier h
  rw [hlist] at hc
  rcases List.mem_cons.mp hc with rfl | hrest
  · exact hfirst
  · exact List.all_eq_true.mp hall c hrest

namespace Definitions

/-- A helper routine begins with its head, in every indentation. -/
lemma exists_helperText_eq (indent : String) {identifier signature : String}
    (more : List String) (hid : isIdentifier identifier = true)
    (hsignature : signature.toList.head? = some '(') :
    ∃ rest, helperText indent identifier (("def " ++ ownName ++ signature) :: more) =
      "def " ++ identifier ++ "(" ++ rest := by
  obtain ⟨tail, htail⟩ := List.head?_eq_some_iff.mp hsignature
  obtain ⟨joined, hjoined⟩ := Text.exists_joinLines_append
    ("def ".toList ++ (ownName.toList ++ '(' :: tail)) [] (more.map String.toList)
  have hfilled : Text.replaceAll ownName.toList identifier.toList
      ("def ".toList ++ (ownName.toList ++ '(' :: tail) ++ joined) =
      "def ".toList ++ (identifier.toList ++ ['(']) ++
        Text.replaceFrom ownName.toList identifier.toList 0 (tail ++ joined) := by
    rw [Text.replaceAll, List.append_assoc, List.append_assoc,
      Text.replaceFrom_append_of_not_head (p := '\x7b') rfl (by decide),
      Text.replaceFrom_pattern (by decide), List.cons_append, ← List.singleton_append,
      Text.replaceFrom_append_of_not_head (p := '\x7b') rfl (by decide)]
    simp only [List.append_assoc]
  have hbreak : '\n' ∉ "def ".toList ++ (identifier.toList ++ ['(']) := by
    simp only [List.mem_append, not_or]
    exact ⟨by decide, fun hmem => absurd (isWordChar_of_isIdentifier hid hmem) (by decide), by decide⟩
  obtain ⟨rest, hrest⟩ := Text.exists_reindent_append indent.toList hbreak
    (fun c hc => by
      obtain rfl := Option.some.inj hc
      decide) (List.cons_ne_nil _ _)
    (Text.replaceFrom ownName.toList identifier.toList 0 (tail ++ joined))
  refine ⟨String.ofList rest, String.toList_inj.mp ?_⟩
  simp only [helperText_eq, namedText, List.map_cons, String.toList_append, htail,
    String.toList_ofList]
  rw [List.append_nil] at hjoined
  rw [List.append_assoc, hjoined, hfilled, hrest]
  simp only [List.append_assoc]
  rfl

end Definitions

end Blockscribe
