/-
The names that a program binds besides its identifiers: the modules that it imports, and its entry
point.

* `Run.PlainImports`: the definitions of a run that are imports are those of the standard handlers.
  Every change keeps this (`Step.plainImports`); declarations of variables, helper routines and
  procedures begin with something else.
* `Run.Wished`: the identifiers of a run come from names that are written in the workspace, hints
  for temporaries and keys of helper routines. Every change keeps this too (`Step.wished`).
* `Generator.issued_boundNames`: in the `python` dialect an identifier is the name of an imported
  module or of the entry point exactly if a name of the workspace is spelled like it.
-/
import Blockscribe.Proofs.Name.Hints
import Blockscribe.Proofs.Program.Course
import Blockscribe.Proofs.Program.SolidLines
import Blockscribe.Proofs.Run.Definitions

namespace Blockscribe

/-- The modules that the imports of the standard handlers bind. -/
def Handler.moduleNames : List String := ["random", "sys"]

/-- The names that a `python` program binds without asking for an identifier. -/
def Program.boundNames : List String := "main" :: Handler.moduleNames

variable {s t : Run} {names : List String} {indent : String}

/-! ### Texts that are no imports -/

namespace Program

variable {text : String} {cs : List Char}

/-- A text with an import at its start begins with one of two words and a blank. -/
lemma exists_word_of_importLine (h : ImportLine cs) :
    ∃ word ∈ ["import".toList, "from".toList], ∃ c rest, cs = word ++ c :: rest ∧
      Text.isBlank c = true := by
  rcases h with ⟨gap, c, rest, rfl, hne, hblank, -⟩ | ⟨gap, name, gap', rest, rfl, hne, hblank, -⟩
  all_goals
    obtain ⟨d, gap, rfl⟩ := List.exists_cons_of_ne_nil hne
    rw [Text.allBlank, List.all_cons, Bool.and_eq_true] at hblank
  · exact ⟨_, List.mem_cons_self, d, _, rfl, hblank.1⟩
  · exact ⟨_, List.mem_cons_of_mem _ List.mem_cons_self, d, _, rfl, hblank.1⟩

/-- A text that begins with neither letter is no import. -/
lemma isImport_of_head (h : ∀ c ∈ text.toList.head?, c ≠ 'i' ∧ c ≠ 'f') : isImport text = false := by
  rw [Bool.eq_false_iff, Ne, isImport_iff]
  intro himport
  obtain ⟨word, hword, c, rest, htext, -⟩ := exists_word_of_importLine himport
  rw [htext] at h
  simp only [List.mem_cons, List.not_mem_nil, or_false] at hword
  rcases hword with rfl | rfl
  · exact (h 'i' rfl).1 rfl
  · exact (h 'f' rfl).2 rfl

/-- Words in front of a blank are told apart by what comes before the blank. -/
lemma eq_of_append_blank {a b rest rest' : List Char} {c d : Char}
    (ha : ∀ x ∈ a, Text.isBlank x = false) (hb : ∀ x ∈ b, Text.isBlank x = false)
    (hc : Text.isBlank c = true) (hd : Text.isBlank d = true)
    (h : a ++ c :: rest = b ++ d :: rest') : a = b := by
  have hword : ∀ {l : List Char} {x : Char} (more : List Char),
      (∀ x ∈ l, Text.isBlank x = false) → Text.isBlank x = true →
      (l ++ x :: more).takeWhile (fun x => !Text.isBlank x) = l := by
    intro l x more hl hx
    rw [List.takeWhile_append_of_pos fun y hy => by rw [hl y hy]; rfl,
      List.takeWhile_cons_of_neg (by rw [hx]; decide), List.append_nil]
  rw [← hword rest ha hc, h, hword rest' hb hd]

/-- Word characters are no blanks. -/
lemma isBlank_of_isWordChar {c : Char} (h : Name.isWordChar c = true) : Text.isBlank c = false := by
  rw [Name.isWordChar, Bool.or_eq_true, beq_iff_eq] at h
  rcases h with h | rfl
  · have hranges : ((decide (c.val ≥ 65 ∧ c.val ≤ 90) || c.val ≥ 97 && c.val ≤ 122) ||
        c.val ≥ 48 && c.val ≤ 57) = true := h
    simp only [Bool.or_eq_true, Bool.and_eq_true, decide_eq_true_eq, ge_iff_le,
      UInt32.le_iff_toNat_le] at hranges
    have hcode : (65 ≤ c.toNat ∧ c.toNat ≤ 90 ∨ 97 ≤ c.toNat ∧ c.toNat ≤ 122) ∨
        48 ≤ c.toNat ∧ c.toNat ≤ 57 := hranges
    rw [Bool.eq_false_iff, Ne, Text.isBlank]
    simp only [Bool.or_eq_true, Bool.and_eq_true, decide_eq_true_eq, beq_iff_eq]
    omega
  · decide

/-- The declarations of variables are no imports, as both words are reserved. -/
lemma isImport_declarations {ids : List String} (hids : ∀ id ∈ ids, isIdentifier id = true ∧
    id ∉ Dialect.python.reserved) :
    isImport ("\n".intercalate (ids.map Dialect.python.declare)) = false := by
  cases ids with
  | nil => rfl
  | cons id rest =>
      obtain ⟨hid, hfree⟩ := hids id List.mem_cons_self
      have htext : ∃ more, ("\n".intercalate ((id :: rest).map Dialect.python.declare)).toList =
          id.toList ++ ' ' :: more := by
        have hdeclare : Dialect.python.declare id = id ++ " = None" := by
          show "" ++ id ++ " = None" = _
          rw [String.empty_append]
        rw [List.map_cons, hdeclare]
        cases rest with
        | nil =>
            refine ⟨"= None".toList, ?_⟩
            rw [List.map_nil, String.intercalate_singleton, String.toList_append]
            rfl
        | cons next rest =>
            rw [List.map_cons, String.intercalate_cons_cons]
            simp only [String.toList_append, List.append_assoc]
            exact ⟨_, rfl⟩
      obtain ⟨more, hmore⟩ := htext
      rw [Bool.eq_false_iff, Ne, isImport_iff, hmore]
      intro himport
      obtain ⟨word, hword, c, tail, heq, hc⟩ := exists_word_of_importLine himport
      have hchars : ∀ x ∈ id.toList, Text.isBlank x = false := fun x hx =>
        isBlank_of_isWordChar (isWordChar_of_isIdentifier hid hx)
      have hwords : ∀ word ∈ ["import".toList, "from".toList],
          word.all Name.isWordChar = true ∧ String.ofList word ∈ Dialect.python.reserved := by
        decide
      obtain ⟨hall, hreserved⟩ := hwords word hword
      have hword' : ∀ x ∈ word, Text.isBlank x = false := fun x hx =>
        isBlank_of_isWordChar (List.all_eq_true.mp hall x hx)
      obtain rfl := eq_of_append_blank hchars hword' (by decide) hc heq
      refine hfree ?_
      rwa [String.ofList_toList] at hreserved

/-- The definition of a procedure begins with a comment or with its head. -/
lemma isImport_procedure {identifier : String} (h : IsProcedure identifier text) :
    isImport text = false := by
  obtain ⟨code, comments, rest, hcomments, rfl⟩ := h
  refine isImport_of_head fun c hc => ?_
  simp only [String.toList_append, List.append_assoc, List.head?_append] at hc
  cases hhead : comments.toList.head? with
  | none =>
      rw [hhead] at hc
      obtain rfl := Option.some.inj hc
      decide
  | some d =>
      rw [hhead] at hc
      obtain rfl := Option.some.inj hc
      rcases hcomments d hhead with rfl | rfl <;> decide

/-- A helper routine begins with its head. -/
lemma isImport_helperText {indent identifier signature : String} {more : List String}
    (hid : isIdentifier identifier = true) (hsignature : signature.toList.head? = some '(') :
    isImport (Definitions.helperText indent identifier
      (("def " ++ Definitions.ownName ++ signature) :: more)) = false := by
  obtain ⟨rest, hrest⟩ := Definitions.exists_helperText_eq indent more hid hsignature
  rw [hrest]
  refine isImport_of_head fun c hc => ?_
  simp only [String.toList_append, List.append_assoc] at hc
  obtain rfl := Option.some.inj hc
  decide

end Program

/-! ### What every change keeps -/

namespace Run

/-- The definitions that are imports are those of the standard handlers. -/
def PlainImports (s : Run) : Prop :=
  ∀ e ∈ s.definitions.entries, Program.isImport e.2 = true → e ∈ Handler.moduleLines

/-- The identifiers come from given names, from hints for temporaries and from keys of helper
routines. -/
def Wished (reserved names : List String) (s : Run) : Prop :=
  ∃ wishes : List NameTable.Wish,
    s.names = (NameTable.history reserved (wishes.map .want)).table ∧
      ∀ wish ∈ wishes, wish.hint ∈ names ++ Handler.temporaryHints ++ Handler.routineKeys

lemma Step.plainImports (h : Step (Question.Allowed names) indent s t) (hs : s.PlainImports) :
    t.PlainImports := by
  rcases h.kinds with ⟨hsame, -⟩ | ⟨key, lines, hallowed, -, -, hput⟩ | ⟨key, text, hallowed, -, hput⟩
  · rw [PlainImports, hsame]
    exact hs
  · intro e he himport
    rw [hput] at he
    obtain ⟨-, signature, more, rfl, hsignature⟩ := hallowed
    rcases Assoc.mem_put he with rfl | hold
    · exact absurd himport (Bool.eq_false_iff.mp
        (Program.isImport_helperText (NameTable.isIdentifier_choose _ _) hsignature))
    · exact hs e hold himport
  · intro e he himport
    rw [hput] at he
    rcases Assoc.mem_put he with rfl | hold
    · rcases hallowed with hmodule | ⟨identifier, -, hprocedure⟩
      · exact hmodule
      · exact absurd himport (Bool.eq_false_iff.mp (Program.isImport_procedure hprocedure))
    · exact hs e hold himport

/-- One more wish is granted. -/
lemma Wished.answer {reserved : List String} (hs : s.Wished reserved names) (wish : NameTable.Wish)
    (hwish : wish.hint ∈ names ++ Handler.temporaryHints ++ Handler.routineKeys)
    (h : t.names = (s.names.answer wish).2) : t.Wished reserved names := by
  obtain ⟨wishes, hnames, hall⟩ := hs
  refine ⟨wishes ++ [wish], ?_, ?_⟩
  · rw [h, hnames, List.map_append, List.map_singleton, NameTable.table_want]
  · rw [List.forall_mem_append]
    exact ⟨hall, List.forall_mem_singleton.mpr hwish⟩

lemma Wished.of_names_eq {reserved : List String} (hs : s.Wished reserved names)
    (h : t.names = s.names) : t.Wished reserved names := by
  rw [Wished, h]
  exact hs

lemma Step.wished {reserved : List String} (h : Step (Question.Allowed names) indent s t)
    (hs : s.Wished reserved names) : t.Wished reserved names := by
  rcases h.kinds with ⟨-, hsame | ⟨name, kind, hname, hnamed⟩ | ⟨hint, kind, hhint, hfresh⟩⟩ |
    ⟨key, lines, hallowed, -, hfresh, -⟩ | ⟨key, text, -, hsame, -⟩
  · exact hs.of_names_eq hsame
  · refine hs.answer (.named name kind) ?_ hnamed
    exact List.mem_append_left _ (List.mem_append_left _ hname)
  · refine hs.answer (.fresh hint kind) ?_ hfresh
    exact List.mem_append_left _ (List.mem_append_right _ hhint)
  · exact hs.answer (.fresh key .procedure) (List.mem_append_right _ hallowed.1) hfresh
  · exact hs.of_names_eq hsame

end Run

/-! ### Whole runs -/

namespace Generator

variable {style : Style} {w : Workspace} {text : String}

/-- A run starts with the declaration of the program's variables, which is no import. -/
lemma plainImports_start (hpython : style.dialect = .python) :
    ((standard style).start w).PlainImports := by
  intro e he himport
  rw [definitions_start] at he
  obtain rfl := List.mem_singleton.mp he
  have hids := legal_variableIdentifiers (standard style) w
  rw [show (standard style).style.dialect = Dialect.python from hpython] at himport hids
  exact absurd himport (Bool.eq_false_iff.mp (Program.isImport_declarations hids))

/-- What is asked for when a run starts are the names of the program's variables. -/
lemma wished_start : ((standard style).start w).Wished style.dialect.reserved w.written := by
  rw [start_eq]
  have hblank : ((standard style).blank w).Wished style.dialect.reserved w.written :=
    ⟨[], rfl, nofun⟩
  have hlater : Run.Later (Question.Allowed w.written) style.indent ((standard style).blank w) _ :=
    Run.later_namedAll (fun name hname => Workspace.written_declared hname) _
  exact (hlater.keeps (fun _ _ hstep => hstep.wished) hblank).of_names_eq rfl

/-- The definitions that are imports bind the modules of the standard handlers. -/
lemma Makes.eq_import {body : String} {t : Run} (h : (standard style).Makes w body t text)
    (hpython : style.dialect = .python) :
    ∀ line ∈ Program.imports t.definitions,
      ∃ name ∈ Handler.moduleNames, line = "import " ++ name := by
  intro line hline
  obtain ⟨hmem, himport⟩ := List.mem_filter.mp hline
  obtain ⟨e, he, rfl⟩ := List.mem_map.mp hmem
  have hmodule := (h.leads (hpython ▸ Dialect.python_mem_all)).keeps
    (fun _ _ hstep => hstep.plainImports) (plainImports_start hpython) e he himport
  have hlines : ∀ e ∈ Handler.moduleLines, ∃ name ∈ Handler.moduleNames,
      e.2 = "import " ++ name := by decide
  exact hlines e hmodule

/-- A name that a program binds itself is issued exactly if a given name is spelled like it: what
the handlers ask for is spelled differently. -/
lemma mem_issued_of_boundNames {names : List String} {wishes : List NameTable.Wish}
    (hwishes : ∀ wish ∈ wishes,
      wish.hint ∈ names ++ Handler.temporaryHints ++ Handler.routineKeys)
    {bound : String} (hbound : bound ∈ Program.boundNames) :
    bound ∈ (NameTable.history Dialect.python.reserved (wishes.map .want)).table.issued ↔
      ∃ name ∈ NameTable.newHints
        (NameTable.history Dialect.python.reserved (wishes.map .want)).answers,
        name ∈ names ∧ safeName name = bound := by
  have hfree : ∀ bound ∈ Program.boundNames, bound ∉ Dialect.python.reserved ∧
      ¬ (bound.toList.getLast?.any Char.isDigit = true) ∧
      ∀ hint ∈ Handler.temporaryHints ++ Handler.routineKeys, safeName hint ≠ bound := by
    decide +kernel
  obtain ⟨hreserved, hdigit, hother⟩ := hfree bound hbound
  have hend : ¬ NameTable.EndsWithDigit bound := by
    rintro ⟨c, hc, hisDigit⟩
    rw [Option.mem_def.mp hc] at hdigit
    exact hdigit hisDigit
  rw [NameTable.mem_issued_iff _ hreserved hend]
  refine exists_congr fun name => and_congr_right fun hname => ⟨fun hspelled => ⟨?_, hspelled⟩,
    And.right⟩
  obtain ⟨wish, hwish, rfl⟩ := NameTable.mem_of_mem_newHints hname
  have hmem := hwishes wish hwish
  rw [List.append_assoc] at hmem
  exact (List.mem_append.mp hmem).resolve_right fun hours => hother _ hours hspelled

/-- **Which names of its own a program finds taken.** In the `python` dialect, with the standard
handlers, the only definitions that are imports bind the modules `random` and `sys`. An identifier
that is issued during the run is one of these modules, or the name of the entry point, exactly if an
identifier is issued for a name of the workspace that is spelled like it: temporaries and helper
routines never are. So if no name in the workspace is spelled like one of them, no identifier is
equal to one of them. -/
theorem issued_boundNames (hpython : style.dialect = .python)
    (hgenerate : ((standard style).generate w).1 = .ok text) :
    ∃ (body : String) (t : Run) (wishes : List NameTable.Wish),
      (standard style).Makes w body t text ∧
      (∀ line ∈ Program.imports t.definitions,
        ∃ name ∈ Handler.moduleNames, line = "import " ++ name) ∧
      t.names = (NameTable.history style.dialect.reserved (wishes.map .want)).table ∧
      (∀ wish ∈ wishes,
        wish.hint ∈ w.written ++ Handler.temporaryHints ++ Handler.routineKeys) ∧
      (∀ bound ∈ Program.boundNames, bound ∈ t.names.issued ↔
        ∃ name ∈ NameTable.newHints
          (NameTable.history style.dialect.reserved (wishes.map .want)).answers,
          name ∈ w.written ∧ safeName name = bound) ∧
      ((∀ name ∈ w.written, safeName name ∉ Program.boundNames) →
        ∀ id ∈ t.names.issued, id ≠ "main" ∧
          ∀ line ∈ Program.imports t.definitions, line ≠ "import " ++ id) := by
  obtain ⟨body, t, hmakes⟩ := exists_makes hgenerate
  have hleads := hmakes.leads (hpython ▸ Dialect.python_mem_all)
  obtain ⟨wishes, hnames, hwishes⟩ := hleads.keeps (fun _ _ hstep => hstep.wished) wished_start
  have himports := hmakes.eq_import hpython
  have hissued : ∀ bound ∈ Program.boundNames, bound ∈ t.names.issued ↔
      ∃ name ∈ NameTable.newHints
        (NameTable.history style.dialect.reserved (wishes.map .want)).answers,
        name ∈ w.written ∧ safeName name = bound := by
    intro bound hbound
    rw [hnames, hpython]
    exact mem_issued_of_boundNames hwishes hbound
  refine ⟨body, t, wishes, hmakes, himports, hnames, hwishes, hissued, fun hwritten id hid => ?_⟩
  have hne : ∀ bound ∈ Program.boundNames, id ≠ bound := by
    rintro _ hbound rfl
    obtain ⟨name, -, hname, hspelled⟩ := (hissued id hbound).mp hid
    exact hwritten name hname (hspelled ▸ hbound)
  refine ⟨hne "main" List.mem_cons_self, fun line hline heq => ?_⟩
  obtain ⟨name, hname, rfl⟩ := himports line hline
  exact hne name (List.mem_cons_of_mem _ hname) ((String.append_right_inj _).mp heq).symm

/-- A random element of a list in a variable, put out; the variable has the name of a module. -/
def boundNamesSample : Workspace :=
  Workspace.edited ["random"]
    [.add ⟨"variables_get", [("VAR", .text "random")], [], none, .null, false, []⟩,
      .add ⟨"lists_getIndex", [("MODE", .text "GET"), ("WHERE", .text "RANDOM")],
        [⟨"VALUE", .value, some 1⟩], none, .null, false, []⟩,
      .add ⟨"text_print", [], [⟨"TEXT", .value, some 2⟩], none, .null, false, []⟩]

theorem issued_boundNames_boundNamesSample :
    ∃ (body text : String) (t : Run) (wishes : List NameTable.Wish),
      (standard .python).Makes boundNamesSample body t text ∧
      "import random" ∈ Program.imports t.definitions ∧ "random" ∈ t.names.issued ∧
      ∃ name ∈ NameTable.newHints
        (NameTable.history Dialect.python.reserved (wishes.map .want)).answers,
        name ∈ boundNamesSample.written ∧ safeName name = "random" := by
  obtain ⟨text, hgenerate⟩ := exists_generate (g := standard .python) (w := boundNamesSample)
    (by decide +kernel)
  obtain ⟨body, t, wishes, hmakes, -, -, -, hissued, -⟩ := issued_boundNames rfl hgenerate
  have himports : "import random" ∈ Program.imports t.definitions := by
    rw [← hmakes.after_eq]
    decide +kernel
  have hrandom : "random" ∈ t.names.issued := by
    rw [← hmakes.after_eq]
    decide +kernel
  exact ⟨body, text, t, wishes, hmakes, himports, hrandom, (hissued _ (by decide)).mp hrandom⟩

end Generator

end Blockscribe
