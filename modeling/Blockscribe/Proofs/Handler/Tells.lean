/-
What the standard handlers ask for, and that they pass on what they are told.

* `Face.written`: the names in the fields and the parameters of a block.
* `Handler.routineKeys`, `temporaryHints`, `moduleLines`: the helper routines, the temporaries and
  the imports of the standard handlers.
* `Question.Allowed`: identifiers of given names, of temporaries and of helper routines, and
  definitions that are imports or procedures.
* `Surrounds`: comments in front of code, and something behind it.
* `conveys_of_resolve`: the standard handlers ask for nothing else, and the code that they are told
  is in their outcome, or in the procedure that they define.
-/
import Blockscribe.Proofs.Handler.Registry
import Blockscribe.Proofs.Plan.Tells

namespace Blockscribe

open Handler

/-- The names in the fields and the parameters of a block. -/
def Face.written (f : Face) : List String :=
  (["VAR", "NAME"].filterMap fun field => (f.field field).asText?) ++
    match Procedures.parameters f with
    | .ok values => values.filterMap Value.asText?
    | .error _ => []

namespace Handler

/-- The keys of the helper routines. -/
def routineKeys : List String :=
  ["first_index", "last_index", "lists_remove_random_item", "lists_sort", "text_random_letter",
    "text_prompt"]

/-- The hints for temporary variables. -/
def temporaryHints : List String := ["tmp_list", "tmp_x", "x"]

/-- The imports by their keys. -/
def moduleLines : List (String × String) :=
  [("import_random", "import random"), ("import_sys", "import sys")]

end Handler

/-- What begins with a comment if it is not empty. -/
def Commentary (comments : String) : Prop := ∀ c ∈ comments.toList.head?, c = '"' ∨ c = '#'

/-- A text around code: comments in front of it, and something behind it. -/
def Surrounds (code full : String) : Prop :=
  ∃ comments rest, Commentary comments ∧ full = comments ++ code ++ rest

/-- The definition of a procedure: a text around a code that begins with its head. -/
def IsProcedure (identifier text : String) : Prop :=
  ∃ code, Surrounds ("def " ++ identifier ++ "(" ++ code) text

/-- Questions for identifiers of given names, of temporaries and of helper routines, and definitions
that are imports or procedures. -/
def Question.Allowed (names : List String) : Question → Prop
  | identifier name _ => name ∈ names
  | fresh hint _ => hint ∈ temporaryHints
  | helper key lines =>
      key ∈ routineKeys ∧ ∃ signature more, lines = ("def " ++ self ++ signature) :: more ∧
        signature.toList.head? = some '('
  | define key text =>
      (key, text) ∈ moduleLines ∨ ∃ identifier, key = "%" ++ identifier ∧ IsProcedure identifier text
  | _ => True

/-- The keys of procedures begin with a percent sign, so under any other key stands an import. -/
lemma Question.Allowed.mem_moduleLines {names : List String} {key text : String}
    (h : (define key text).Allowed names) (hhead : key.toList.head? ≠ some '%') :
    (key, text) ∈ moduleLines := by
  rcases h with hmodule | ⟨identifier, rfl, -⟩
  · exact hmodule
  · refine absurd ?_ hhead
    rw [String.toList_append]
    rfl

/-- The code of an outcome, if it has any. -/
def Outcome.code : Outcome → String
  | value code _ => code
  | statement code => code
  | _ => ""

/-- What is required of a plan of the standard handlers. -/
abbrev Plan.Reports {α : Type} (names : List String) (B : String → Prop) (R : α → Prop)
    (told : Prop) (p : Plan α) : Prop :=
  p.Tells (Question.Allowed names) Surrounds B R told

/-- What is required of the plan of a standard handler: the code that it is told is in its outcome.
-/
abbrev Plan.Conveys (names : List String) (B : String → Prop) (p : Plan Outcome) : Prop :=
  p.Reports names B (fun o => B o.code) False

namespace Handler

open Plan

variable {α β : Type} {names : List String} {B : String → Prop} {told : Prop} {R : Outcome → Prop}

/-! ### Results that may be faults -/

lemma reports_require {e : Except Fault α} {f : α → Plan Outcome}
    (h : ∀ a, e = .ok a → (f a).Reports names B R told) :
    (Procedures.require e >>= f).Reports names B R told := by
  cases e with
  | ok a => exact h a rfl
  | error fault => exact trivial

lemma mem_written_of_field {face : Face} {field name : String} (hfield : field ∈ ["VAR", "NAME"])
    (h : face.field field = .text name) : name ∈ face.written :=
  List.mem_append_left _ (List.mem_filterMap.mpr ⟨field, hfield, by rw [h]; rfl⟩)

/-- A name in a field of a block is one of its names. -/
lemma reports_nameField {β : Type} {R : β → Prop} {face : Face} {field operation : String}
    (hfield : field ∈ ["VAR", "NAME"]) {f : String → Plan β}
    (h : ∀ name ∈ face.written, (f name).Reports names B R told) :
    (Texts.nameField face field operation >>= f).Reports names B R told := by
  rw [Texts.nameField]
  split
  · rename_i name hname
    split
    · exact tells_refuse
    · exact h name (mem_written_of_field hfield hname)
  · exact tells_refuse

lemma mem_of_asNames {values : List Value} {ns : List String}
    (h : Procedures.asNames values = .ok ns) : ns = values.filterMap Value.asText? := by
  induction values generalizing ns with
  | nil => exact (Except.ok.inj h).symm
  | cons v rest ih =>
      cases v with
      | text s =>
          rw [Procedures.asNames] at h
          cases hrest : Procedures.asNames rest with
          | error fault =>
              rw [hrest] at h
              exact nomatch h
          | ok more =>
              rw [hrest] at h
              rw [← Except.ok.inj h, ih hrest]
              rfl
      | null | bool | int | real | list | record => exact nomatch h

/-- The parameters of a block are among its names. -/
lemma mem_written_of_parameters {face : Face} {ns : List String}
    (h : (Procedures.parameters face).bind Procedures.asNames = .ok ns) :
    ∀ name ∈ ns, name ∈ face.written := by
  obtain ⟨values, hvalues, hnames⟩ := bind_eq_ok h
  intro name hname
  rw [mem_of_asNames hnames] at hname
  rw [Face.written, hvalues]
  exact List.mem_append_right _ hname

/-! ### Outcomes -/

lemma reports_expr {code : String} {rank : Rank} (h : told → B code) :
    (pure (.expr code rank) : Plan Outcome).Reports names B (fun o => B o.code) told := h

lemma reports_statement {code : String} (h : told → B code) :
    (pure (.statement code) : Plan Outcome).Reports names B (fun o => B o.code) told := h

lemma reports_operands (word default : String) (count : Nat) :
    (Lists.operands word default count).Reports names B (fun bs => told ∨ ∃ b ∈ bs, B b) told :=
  tells_mapM (fun _ _ _ => tells_expr _ _ _) told

lemma reports_importRandom :
    Lists.importRandom.Reports names B (fun _ => told) told :=
  (tells_writeDefinition (.inl (by decide))).mono fun _ h => h.1

section Bearing

variable (hB : Bearing B)

include hB

/-! ### Indexes -/

lemma bears_computedIndex {index : String} (h : B index) (shift : Int) (negate : Bool) :
    B (computedIndex index shift negate) := by
  rw [computedIndex]
  grind [Bearing.append]

lemma reports_indexAt (site : Site) (socket : String) (offset : Int) (negate : Bool) :
    (indexAt site socket offset negate).Reports names B (fun index => told ∨ B index) told := by
  refine (tells_expr _ _ _).bind fun index => ?_
  split
  · rename_i hnumeral
    split
    · refine tells_pure fun h => h.imp_right fun hindex => ?_
      exact absurd (hB.not_numeral hindex) (by simp [hnumeral])
    · exact tells_fail
  · exact tells_pure fun h => h.imp_right fun hindex => bears_computedIndex hB hindex _ _

/-- A numeral is left out where it makes no difference. -/
lemma bears_ite_zero {index : String} (h : told ∨ B index) :
    told ∨ B (if index = "0" then "" else index) := by
  refine h.imp_right fun hindex => ?_
  rw [if_neg]
  · exact hindex
  · rintro rfl
    exact absurd (hB.not_numeral hindex) (by decide)

lemma reports_sliceStart (site : Site) (face : Face) (operation : String) :
    (sliceStart site face operation).Reports names B (fun start => told ∨ B start) told := by
  rw [sliceStart]
  split
  · exact (reports_indexAt hB _ _ _ _).bind fun _ => tells_pure (bears_ite_zero hB)
  split
  · exact reports_indexAt hB _ _ _ _
  split
  · exact tells_pure .inl
  · exact tells_refuse

lemma reports_sliceEnd (site : Site) (face : Face) (operation : String) :
    (sliceEnd site face operation).Reports names B (fun stop => told ∨ B stop) told := by
  rw [sliceEnd]
  split
  · exact reports_indexAt hB _ _ _ _
  split
  · refine (reports_indexAt hB _ _ _ _).bind fun stop => ?_
    split
    · refine (tells_writeDefinition (.inl (by decide))).bind fun _ => tells_pure ?_
      exact fun h => h.1.imp_right fun hstop => hB.append (.inl hstop)
    · exact tells_pure (bears_ite_zero hB)
  split
  · exact tells_pure .inl
  · exact tells_refuse

lemma reports_slice (site : Site) (face : Face) (operation : String) {sequence : String}
    (h : told → B sequence) :
    (slice site face operation sequence).Reports names B (fun o => B o.code) told := by
  refine (reports_sliceStart hB _ _ _).bind fun start => ?_
  refine (reports_sliceEnd hB _ _ _).bind fun stop => reports_expr ?_
  grind [Bearing.append]

/-! ### Lists -/

lemma bears_intercalate {texts : List String} (h : ∃ text ∈ texts, B text) (sep : String) :
    B (sep.intercalate texts) := by
  obtain ⟨text, htext, hbear⟩ := h
  induction texts with
  | nil => exact absurd htext List.not_mem_nil
  | cons first more ih =>
      cases more with
      | nil =>
          rw [String.intercalate_singleton]
          exact List.mem_singleton.mp htext ▸ hbear
      | cons second more =>
          rw [String.intercalate_cons_cons]
          rcases List.mem_cons.mp htext with rfl | hmem
          · exact hB.append (.inl (hB.append (.inl hbear)))
          · exact hB.append (.inr (ih hmem))

lemma bears_join {texts : List String} (h : ∃ text ∈ texts, B text) : B (String.join texts) := by
  obtain ⟨text, htext, hbear⟩ := h
  induction texts with
  | nil => exact absurd htext List.not_mem_nil
  | cons first more ih =>
      rw [String.join_cons]
      rcases List.mem_cons.mp htext with rfl | hmem
      · exact hB.append (.inl hbear)
      · exact hB.append (.inr (ih hmem))

lemma conveys_listsIndexOf (site : Site) (face : Face) :
    (Lists.indexOf site face).Conveys names B := by
  refine (tells_expr _ _ _).bind fun item => (tells_expr _ _ _).bind fun items => ?_
  dsimp only
  split
  · refine (tells_routine ⟨by decide, _, _, rfl, rfl⟩).bind fun _ => reports_expr ?_
    grind [Bearing.append]
  split
  · refine (tells_routine ⟨by decide, _, _, rfl, rfl⟩).bind fun _ => reports_expr ?_
    grind [Bearing.append]
  · exact tells_refuse

lemma conveys_getIndex (site : Site) (face : Face) :
    (Lists.getIndex site face).Conveys names B := by
  refine (tells_expr _ _ _).bind fun items => ?_
  -- what is done at a place once it has been found
  extract_lets finish
  have hfinish : ∀ place : String × String,
      (finish place).Reports names B (fun o => B o.code)
        ((False ∨ B items) ∨ B place.1 ∧ B place.2) := by
    intro place
    dsimp only [finish]
    split
    · refine reports_expr ?_
      grind [Bearing.append]
    split
    · refine reports_expr ?_
      grind [Bearing.append]
    split
    · refine reports_statement ?_
      grind [Bearing.append]
    · exact tells_refuse
  split
  · split
    · exact (tells_pure .inl).bind hfinish
    split
    · exact (tells_pure .inl).bind hfinish
    split
    · refine (reports_indexAt hB _ _ _ _).bind fun index => (tells_pure ?_).bind hfinish
      exact fun h => h.imp_right fun hindex => ⟨hindex, hindex⟩
    · refine (reports_indexAt hB _ _ _ _).bind fun index => (tells_pure ?_).bind hfinish
      exact fun h => h.imp_right fun hindex => ⟨hindex, hindex⟩
  split
  · refine reports_importRandom.bind fun _ => ?_
    split
    · refine reports_expr ?_
      grind [Bearing.append]
    split
    · refine (tells_routine ⟨by decide, _, _, rfl, rfl⟩).bind fun routine => ?_
      dsimp only
      split
      · refine reports_expr ?_
        grind [Bearing.append]
      · refine reports_statement ?_
        grind [Bearing.append]
    · exact tells_refuse
  · exact tells_refuse

lemma conveys_setRandom {items value : String} (insert : Bool) (h : told → B items ∨ B value) :
    (Lists.setRandom items value insert).Reports names B (fun o => B o.code) told := by
  refine reports_importRandom.bind fun _ => ?_
  extract_lets finish
  have hfinish : ∀ list : String × String,
      (finish list).Reports names B (fun o => B o.code)
        (B value ∨ B list.1 ∨ B list.2) := by
    intro list
    refine (tells_temporary (show _ ∈ temporaryHints by decide)).bind fun index => ?_
    dsimp only
    split
    · refine reports_statement ?_
      grind [Bearing.append]
    · refine reports_statement ?_
      grind [Bearing.append]
  split
  · refine (tells_pure fun htold => ?_).bind hfinish
    exact (h htold).elim (fun hitems => .inr (.inr hitems)) .inl
  · refine (tells_temporary (show _ ∈ temporaryHints by decide)).bind fun list => ?_
    refine (tells_pure fun htold => ?_).bind hfinish
    refine (h htold).elim (fun hitems => .inr (.inl ?_)) .inl
    grind [Bearing.append]

lemma conveys_setIndex (site : Site) (face : Face) :
    (Lists.setIndex site face).Conveys names B := by
  refine (tells_expr _ _ _).bind fun items => (tells_expr _ _ _).bind fun value => ?_
  extract_lets finish
  -- at the end of the list the index is not used
  have hfinish : ∀ index, (finish index).Reports names B (fun o => B o.code)
      (((False ∨ B items) ∨ B value) ∨ B index ∧
        ¬ ((face.field "WHERE").orElse (.text "FROM_START")).isText "LAST" = true) := by
    intro index
    dsimp only [finish]
    split
    · refine reports_statement ?_
      grind [Bearing.append]
    split
    · split
      · refine reports_statement ?_
        grind [Bearing.append]
      · refine reports_statement ?_
        grind [Bearing.append]
    · exact tells_refuse
  split
  · split
    · exact (tells_pure .inl).bind hfinish
    split
    · exact (tells_pure .inl).bind hfinish
    rename_i hlast
    split
    · exact (reports_indexAt hB _ _ _ _).bind fun index =>
        (hfinish index).anti fun h => h.imp_right fun hindex => ⟨hindex, hlast⟩
    · exact (reports_indexAt hB _ _ _ _).bind fun index =>
        (hfinish index).anti fun h => h.imp_right fun hindex => ⟨hindex, hlast⟩
  split
  · exact conveys_setRandom hB _ fun h => h.imp_left fun h => h.elim False.elim id
  · exact tells_refuse

lemma conveys_sort (site : Site) (face : Face) : (Lists.sort site face).Conveys names B := by
  refine (tells_expr _ _ _).bind fun items => ?_
  split
  · split
    · refine (tells_routine ⟨by decide, _, _, rfl, rfl⟩).bind fun routine => reports_expr ?_
      grind [Bearing.append]
    · exact tells_refuse
  · exact tells_refuse

lemma conveys_split (site : Site) (face : Face) : (Lists.split site face).Conveys names B := by
  rw [Lists.split]
  split
  · refine (tells_expr _ _ _).bind fun text => (tells_expr _ _ _).bind fun delimiter =>
      reports_expr ?_
    grind [Bearing.append]
  split
  · refine (tells_expr _ _ _).bind fun items => (tells_expr _ _ _).bind fun delimiter =>
      reports_expr ?_
    grind [Bearing.append]
  · exact tells_refuse

/-- An expression around the one in a socket. -/
lemma conveys_around (before after socket default : String) (required rank : Rank) :
    Plan.Conveys names B do
      let code ← Plan.expr socket required default
      return .expr (before ++ code ++ after) rank := by
  refine (tells_expr _ _ _).bind fun code => reports_expr ?_
  grind [Bearing.append]

lemma conveys_of_mem_lists :
    ∀ entry ∈ Lists.table, ∀ site face, (entry.2 site face).Conveys names B := by
  simp only [Lists.table, List.forall_mem_cons, List.not_mem_nil, false_implies, implies_true,
    and_true]
  refine ⟨fun _ _ => reports_expr False.elim, fun _ _ => ?_, fun _ _ => ?_,
    fun _ _ => conveys_around hB _ _ _ _ _ _, fun _ _ => conveys_around hB _ _ _ _ _ _,
    conveys_listsIndexOf hB, conveys_getIndex hB, conveys_setIndex hB, fun _ _ => ?_,
    conveys_sort hB, conveys_split hB⟩
  · refine (reports_operands _ _ _).bind fun elements => reports_expr fun h => ?_
    have helements := bears_intercalate hB (h.resolve_left id) ", "
    grind [Bearing.append]
  · refine (tells_expr _ _ _).bind fun item => (tells_expr _ _ _).bind fun times =>
      reports_expr ?_
    grind [Bearing.append]
  · exact (tells_expr _ _ _).bind fun items =>
      reports_slice hB _ _ _ fun h => h.resolve_left id

/-! ### Logic -/

lemma bears_bodyOr (site : Site) {branch : String} (h : B branch) : B (site.bodyOr branch) := by
  rw [Site.bodyOr, if_neg (hB.ne_empty h)]
  exact h

lemma reports_clause (site : Site) (keyword : String) (n : Nat) :
    (Logic.clause site keyword n).Reports names B (fun clause => told ∨ B clause) told := by
  refine (tells_expr _ _ _).bind fun condition => (tells_body _).bind fun branch => ?_
  refine tells_pure fun h => or_assoc.mp h |>.imp_right fun h => ?_
  have hbranch : B branch → B (site.bodyOr branch) := bears_bodyOr hB site
  grind [Bearing.append]

lemma conveys_conditional (site : Site) (face : Face) :
    (Logic.conditional site face).Conveys names B := by
  refine (reports_clause hB site "if" 0).bind fun first => ?_
  refine (tells_mapM (fun n _ _ => reports_clause hB site "elif" n) _).bind fun further => ?_
  have hcode : (False ∨ B first) ∨ (∃ clause ∈ further, B clause) →
      B (first ++ String.join further) := fun h =>
    hB.append (h.imp (·.resolve_left id) (bears_join hB))
  dsimp only
  split
  · refine (tells_body _).bind fun branch => reports_statement ?_
    have hbranch : B branch → B (site.bodyOr branch) := bears_bodyOr hB site
    grind [Bearing.append]
  · exact reports_statement hcode

lemma conveys_compare (site : Site) (face : Face) :
    (Logic.compare site face).Conveys names B := by
  rw [Logic.compare]
  split
  · split
    · refine (tells_expr _ _ _).bind fun left => (tells_expr _ _ _).bind fun right =>
        reports_expr ?_
      grind [Bearing.append]
    · exact tells_refuse
  · split
    · exact tells_refuse
    · exact tells_fail

lemma conveys_junction (operator default : String) (rank : Rank) :
    (Logic.junction operator default rank).Conveys names B := by
  refine (tells_expr _ _ _).bind fun left => (tells_expr _ _ _).bind fun right => ?_
  have hleft : B left → left ≠ "" := hB.ne_empty
  have hright : B right → right ≠ "" := hB.ne_empty
  split
  · refine reports_expr ?_
    grind
  · refine reports_expr ?_
    grind [Bearing.append]

lemma conveys_operation (site : Site) (face : Face) :
    (Logic.operation site face).Conveys names B := by
  rw [Logic.operation]
  split
  · exact conveys_junction hB _ _ _
  split
  · exact conveys_junction hB _ _ _
  · exact tells_refuse

omit hB in
lemma conveys_boolean (site : Site) (face : Face) :
    (Logic.boolean site face).Conveys names B := by
  rw [Logic.boolean]
  split
  · exact reports_expr False.elim
  split
  · exact reports_expr False.elim
  · exact tells_refuse

lemma conveys_of_mem_logic :
    ∀ entry ∈ Logic.table, ∀ site face, (entry.2 site face).Conveys names B := by
  simp only [Logic.table, List.forall_mem_cons, List.not_mem_nil, false_implies, implies_true,
    and_true]
  refine ⟨conveys_conditional hB, conveys_compare hB, conveys_operation hB, fun _ _ => ?_,
    conveys_boolean, fun _ _ => reports_expr False.elim, fun _ _ => ?_⟩
  · refine (tells_expr _ _ _).bind fun operand => reports_expr ?_
    grind [Bearing.append]
  · refine (tells_expr _ _ _).bind fun condition => (tells_expr _ _ _).bind fun first =>
      (tells_expr _ _ _).bind fun second => reports_expr ?_
    grind [Bearing.append]

/-! ### Texts -/

lemma conveys_join (site : Site) (face : Face) : (Texts.join site face).Conveys names B := by
  rw [Texts.join]
  split
  · exact reports_expr False.elim
  · exact conveys_around hB _ _ _ _ _ _
  · refine (tells_expr _ _ _).bind fun first => (tells_expr _ _ _).bind fun second =>
      reports_expr ?_
    grind [Bearing.append]
  · refine (reports_operands _ _ _).bind fun parts => ?_
    refine (tells_temporary (show _ ∈ temporaryHints by decide)).bind fun part =>
      reports_expr fun h => ?_
    have hparts := bears_intercalate hB (h.resolve_left id) ", "
    grind [Bearing.append]

lemma conveys_append (site : Site) (face : Face) (hnames : face.written ⊆ names) :
    (Texts.append site face).Conveys names B := by
  refine reports_nameField (by decide) fun name hname => ?_
  refine (tells_variableNamed (show name ∈ names from hnames hname)).bind fun identifier => ?_
  refine (tells_expr _ _ _).bind fun value => reports_statement ?_
  grind [Bearing.append]

lemma conveys_textsIndexOf (site : Site) (face : Face) :
    (Texts.indexOf site face).Conveys names B := by
  rw [Texts.indexOf]
  split
  · exact tells_refuse
  · refine (tells_expr _ _ _).bind fun part => (tells_expr _ _ _).bind fun value => ?_
    extract_lets code
    have hcode : (False ∨ B part) ∨ B value → B code := by grind [Bearing.append]
    split
    · exact reports_expr fun h => hB.append (.inl (hcode h))
    · exact reports_expr hcode

lemma conveys_charAt (site : Site) (face : Face) : (Texts.charAt site face).Conveys names B := by
  refine (tells_expr _ _ _).bind fun value => ?_
  split
  · refine reports_expr ?_
    grind [Bearing.append]
  split
  · refine reports_expr ?_
    grind [Bearing.append]
  split
  · refine (reports_indexAt hB _ _ _ _).bind fun index => reports_expr ?_
    grind [Bearing.append]
  split
  · refine (reports_indexAt hB _ _ _ _).bind fun index => reports_expr ?_
    grind [Bearing.append]
  split
  · refine reports_importRandom.bind fun _ => ?_
    refine (tells_routine ⟨by decide, _, _, rfl, rfl⟩).bind fun routine => reports_expr ?_
    grind [Bearing.append]
  · exact tells_refuse

lemma conveys_methodCall (calls : List (String × String)) (field operation : String) (site : Site)
    (face : Face) : (Texts.methodCall calls field operation site face).Conveys names B := by
  rw [Texts.methodCall]
  split
  · split
    · refine (tells_expr _ _ _).bind fun value => reports_expr ?_
      grind [Bearing.append]
    · exact tells_refuse
  · split
    · exact tells_refuse
    · exact tells_fail

lemma conveys_output (site : Site) (face : Face) : (Texts.output site face).Conveys names B := by
  refine (tells_expr _ _ _).bind fun message => reports_statement ?_
  rw [Dialect.outputStatement, Template.fill]
  grind [Bearing.append]

lemma conveys_prompt (site : Site) (face : Face) : (Texts.prompt site face).Conveys names B := by
  refine (tells_routine ⟨by decide, _, _, rfl, rfl⟩).bind fun routine => ?_
  extract_lets finish
  have hfinish : ∀ message, (finish message).Reports names B (fun o => B o.code)
      (False ∨ B message) := by
    intro message
    dsimp only [finish]
    split
    · refine reports_expr ?_
      grind [Bearing.append]
    · refine reports_expr ?_
      grind [Bearing.append]
    · refine reports_expr ?_
      grind [Bearing.append]
    · exact tells_refuse
  split
  · exact (tells_pure .inl).bind hfinish
  · exact (tells_expr _ _ _).bind hfinish

lemma conveys_of_mem_texts : ∀ entry ∈ Texts.table, ∀ site face, face.written ⊆ names →
    (entry.2 site face).Conveys names B := by
  simp only [Texts.table, List.forall_mem_cons, List.not_mem_nil, false_implies, implies_true,
    and_true]
  refine ⟨fun _ _ _ => reports_expr False.elim, fun _ _ _ => conveys_join hB _ _,
    conveys_append hB, fun _ _ _ => conveys_around hB _ _ _ _ _ _,
    fun _ _ _ => conveys_around hB _ _ _ _ _ _, fun _ _ _ => conveys_textsIndexOf hB _ _,
    fun _ _ _ => conveys_charAt hB _ _, fun _ _ _ => ?_,
    fun _ _ _ => conveys_methodCall hB _ _ _ _ _, fun _ _ _ => conveys_methodCall hB _ _ _ _ _,
    fun _ _ _ => conveys_output hB _ _, fun _ _ _ => conveys_prompt hB _ _,
    fun _ _ _ => conveys_prompt hB _ _⟩
  exact (tells_expr _ _ _).bind fun value => reports_slice hB _ _ _ fun h => h.resolve_left id

/-! ### Variables and numbers -/

omit hB in
lemma conveys_number (site : Site) (face : Face) :
    (Variables.number site face).Conveys names B := by
  rw [Variables.number]
  split
  · exact tells_pure False.elim
  · exact tells_fail
  · exact tells_refuse

lemma conveys_arithmetic (site : Site) (face : Face) :
    (Variables.arithmetic site face).Conveys names B := by
  rw [Variables.arithmetic]
  split
  · split
    · refine (tells_expr _ _ _).bind fun left => (tells_expr _ _ _).bind fun right =>
        reports_expr ?_
      grind [Bearing.append]
    · exact tells_refuse
  · split
    · exact tells_refuse
    · exact tells_fail

lemma conveys_of_mem_variables : ∀ entry ∈ Variables.table, ∀ site face, face.written ⊆ names →
    (entry.2 site face).Conveys names B := by
  simp only [Variables.table, List.forall_mem_cons, List.not_mem_nil, false_implies,
    implies_true, and_true]
  refine ⟨fun _ _ hnames => ?_, fun _ _ hnames => ?_, fun _ _ _ => conveys_number _ _,
    fun _ _ _ => conveys_arithmetic hB _ _⟩
  · refine reports_nameField (by decide) fun name hname => ?_
    exact (tells_variableNamed (show name ∈ names from hnames hname)).bind fun identifier =>
      reports_expr False.elim
  · refine (tells_expr _ _ _).bind fun value => reports_nameField (by decide) fun name hname => ?_
    refine (tells_variableNamed (show name ∈ names from hnames hname)).bind fun identifier =>
      reports_statement ?_
    grind [Bearing.append]

/-! ### Procedures -/

omit hB in
lemma reports_variables {vs : List String} (h : ∀ v ∈ vs, v ∈ names) :
    (vs.mapM Plan.variableNamed).Reports names B (fun _ => told) told := by
  have hvariable : ∀ v ∈ vs, ∀ told, (Plan.variableNamed v).Reports names B
      (fun _ => told ∨ False) told := fun v hv told =>
    (tells_variableNamed (show v ∈ names from h v hv)).mono fun _ => .inl
  refine (tells_mapM hvariable told).mono fun ids hids => hids.elim id ?_
  exact fun hnone => hnone.choose_spec.2.elim

lemma bears_tail (site : Site) {branch result : String} (h : B branch ∨ B result) :
    B (Procedures.tail site branch result) := by
  have hbranch : B branch → B (site.bodyOr branch) := bears_bodyOr hB site
  have hresult : B result → result ≠ "" := hB.ne_empty
  rw [Procedures.tail]
  grind [Bearing.append]

/-- What a procedure is told is in the definition that is written. -/
lemma conveys_definition (site : Site) (face : Face) (hdeclared : site.declared ⊆ names)
    (hnames : face.written ⊆ names) : (Procedures.definition site face).Conveys names B := by
  refine reports_require fun parameters hparameters => ?_
  refine (reports_variables fun v hv => hdeclared (List.mem_filter.mp hv).1).bind fun shared => ?_
  refine reports_nameField (by decide) fun name hname => ?_
  refine (show (Plan.procedureNamed name).Reports names B _ _ from
    tells_procedureNamed (show name ∈ names from hnames hname)).bind fun identifier => ?_
  refine (tells_body _).bind fun branch => (tells_expr _ _ _).bind fun result => ?_
  refine (reports_variables fun v hv => hnames (mem_written_of_parameters hparameters v hv)).bind
    fun arguments => ?_
  have htail : B branch ∨ B result → B (Procedures.tail site branch result) := bears_tail hB site
  refine ⟨by grind [Bearing.append], fun full hfull => ⟨.inr ⟨identifier, rfl, ?_⟩, ?_⟩⟩
  · refine ⟨", ".intercalate arguments ++ ("):\n" ++ (Procedures.bindingLine site shared ++
      Procedures.tail site branch result)), ?_⟩
    simpa only [String.append_assoc] using hfull
  · exact fun h => absurd h.1 h.2

lemma reports_callCode (face : Face) (hnames : face.written ⊆ names) :
    (Procedures.callCode face).Reports names B (fun code => B code) False := by
  refine reports_nameField (by decide) fun name hname => ?_
  refine (show (Plan.procedureNamed name).Reports names B _ _ from
    tells_procedureNamed (show name ∈ names from hnames hname)).bind fun identifier => ?_
  have hrest : ∀ values : List Value, Plan.Reports names B B False do
      let arguments ← Lists.operands "ARG" "None" values.length
      return identifier ++ "(" ++ ", ".intercalate arguments ++ ")" := by
    intro values
    refine (reports_operands _ _ _).bind fun arguments => tells_pure fun h => ?_
    have harguments := bears_intercalate hB (h.resolve_left id) ", "
    grind [Bearing.append]
  cases Procedures.parameters face with
  | ok values => exact hrest values
  | error fault => exact tells_fail

lemma conveys_of_mem_procedures : ∀ entry ∈ Procedures.table, ∀ (site : Site) face,
    site.declared ⊆ names → face.written ⊆ names → (entry.2 site face).Conveys names B := by
  simp only [Procedures.table, List.forall_mem_cons, List.not_mem_nil, false_implies,
    implies_true, and_true]
  refine ⟨conveys_definition hB, conveys_definition hB, fun _ face _ hnames => ?_,
    fun _ face _ hnames => ?_⟩
  · exact (reports_callCode hB face hnames).bind fun code => reports_expr id
  · exact (reports_callCode hB face hnames).bind fun code =>
      reports_statement fun h => hB.append (.inl h)

/-! ### The standard set -/

/-- The standard handlers ask for identifiers of the program's variables and of the names in their
block, of temporaries and of helper routines, and write imports and procedures only; the code that
they are told is in their outcome, or in a definition. -/
theorem conveys_of_resolve {type : String} {h : Handler} (hresolve : standard.resolve type = .ok h)
    {site : Site} {face : Face} (hdeclared : site.declared ⊆ names)
    (hnames : face.written ⊆ names) : (h site face).Conveys names B := by
  have hentry := mem_of_lookup (lookup_of_resolve hresolve)
  simp only [standardTable, List.mem_append] at hentry
  rcases hentry with (((hentry | hentry) | hentry) | hentry) | hentry
  · exact conveys_of_mem_lists hB _ hentry site face
  · exact conveys_of_mem_logic hB _ hentry site face
  · exact conveys_of_mem_texts hB _ hentry site face hnames
  · exact conveys_of_mem_variables hB _ hentry site face hnames
  · exact conveys_of_mem_procedures hB _ hentry site face hdeclared hnames

end Bearing

end Handler

end Blockscribe
