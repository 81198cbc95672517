/-
Plans whose texts are akin.

* `Kin`: how the texts of two runs are related, by what they are for.
* `Kin.Lawful`: relations that last when code is put together.
* `Plan.Akin`: plans that put the same questions and go on akin after akin answers. It is kept when
  one plan follows another.
* `Akin.exists_definition`: what is known of the definitions that such a plan writes.
-/
import Blockscribe.Handler.Index
import Blockscribe.Proofs.Plan.Exchanges
import Blockscribe.Proofs.Plan.Faults
import Blockscribe.Text.Quoted
import Blockscribe.Text.WordChar

namespace Blockscribe

/-- How the texts of two runs are related: identifiers, parts of expressions, expressions, statements
that are whole lines, the statements inside a block, code with its surroundings, and the definitions
under a key. -/
structure Kin where
  name : String → Prop
  part : String → String → Prop
  expr : String → String → Prop
  lines : String → String → Prop
  body : String → String → Prop
  framed : String → String → Prop
  definition : String → String → String → Prop

/-- A text that is not empty, and that is neither a numeral nor a single word. -/
def IsCompound (text : String) : Prop :=
  text ≠ "" ∧ Number.isNumeral text = false ∧ Text.isSimpleWord text.toList = false

/-- A line with something other than spaces and tabs. -/
def IsFirm (line : List Char) : Prop := ∃ c ∈ line, c ≠ ' ' ∧ c ≠ '\t'

instance (line : List Char) : Decidable (IsFirm line) :=
  List.decidableBEx (fun c => c ≠ ' ' ∧ c ≠ '\t') line

lemma IsFirm.append_left {a : List Char} (h : IsFirm a) (b : List Char) : IsFirm (a ++ b) := by
  obtain ⟨c, hc, hfirm⟩ := h
  exact ⟨c, List.mem_append_left b hc, hfirm⟩

lemma IsFirm.append_right {b : List Char} (h : IsFirm b) (a : List Char) : IsFirm (a ++ b) := by
  obtain ⟨c, hc, hfirm⟩ := h
  exact ⟨c, List.mem_append_right a hc, hfirm⟩

/-- The lines of a helper routine: the head of a function, and lines that are not empty. -/
def IsRoutine (lines : List String) : Prop :=
  ∃ signature more, lines = ("def " ++ Definitions.ownName ++ signature) :: more ∧
    signature.toList.head? = some '(' ∧
    ∀ line ∈ signature :: more, '\n' ∉ line.toList ∧ IsFirm line.toList

/-- Relations that last when code is put together, where one run indents with `indent` and the other
with `indent'`. -/
structure Kin.Lawful (k : Kin) (indent indent' : String) : Prop where
  expr_name {id : String} : k.name id → k.expr id id
  expr_quote (text : String) : k.expr (quote text) (quote text)
  expr_const {c : String} : '\n' ∉ c.toList → IsFirm c.toList → k.expr c c
  part_const {c : String} : '\n' ∉ c.toList → k.part c c
  part_of_expr {a a' : String} : k.expr a a' → k.part a a'
  part_append {a a' b b' : String} : k.part a a' → k.part b b' → k.part (a ++ b) (a' ++ b')
  expr_append_left {a a' b b' : String} : k.expr a a' → k.part b b' → k.expr (a ++ b) (a' ++ b')
  expr_append_right {a a' b b' : String} : k.part a a' → k.expr b b' → k.expr (a ++ b) (a' ++ b')
  eq_or_compound {a a' : String} : k.part a a' → a = a' ∨ IsCompound a ∧ IsCompound a'
  lines_break {a a' : String} : k.expr a a' → k.lines (a ++ "\n") (a' ++ "\n")
  lines_empty : k.lines "" ""
  lines_append {a a' b b' : String} : k.lines a a' → k.lines b b' → k.lines (a ++ b) (a' ++ b')
  lines_head {a a' b b' : String} : k.expr a a' → k.body b b' →
    k.lines (a ++ ":\n" ++ b) (a' ++ ":\n" ++ b')
  body_none : k.body "" ""
  body_empty {a a' : String} : k.body a a' → (a = "" ↔ a' = "")
  body_line {a a' : String} : k.expr a a' → k.body (indent ++ a ++ "\n") (indent' ++ a' ++ "\n")
  body_append {a a' b b' : String} : k.body a a' → k.body b b' → k.body (a ++ b) (a' ++ b')

namespace Kin.Lawful

variable {k : Kin} {indent indent' : String} (hk : k.Lawful indent indent')

include hk

lemma part_name {id : String} (h : k.name id) : k.part id id := hk.part_of_expr (hk.expr_name h)

/-- Something that is written behind a part makes an expression of it. -/
lemma expr_add {a a' : String} (h : k.part a a') (c : String) (hflat : '\n' ∉ c.toList)
    (hfirm : IsFirm c.toList) : k.expr (a ++ c) (a' ++ c) :=
  hk.expr_append_right h (hk.expr_const hflat hfirm)

/-- A line that is closed by something. -/
lemma lines_close {a a' : String} (h : k.part a a') (c : String) (hflat : '\n' ∉ c.toList)
    (hfirm : IsFirm c.toList) : k.lines (a ++ (c ++ "\n")) (a' ++ (c ++ "\n")) := by
  rw [← String.append_assoc, ← String.append_assoc]
  exact hk.lines_break (hk.expr_add h c hflat hfirm)

lemma part_intercalate (sep : String) (hsep : '\n' ∉ sep.toList) {parts parts' : List String}
    (h : List.Forall₂ k.part parts parts') :
    k.part (sep.intercalate parts) (sep.intercalate parts') := by
  induction h with
  | nil => exact hk.part_const List.not_mem_nil
  | @cons a a' rest rest' ha hrest ih =>
      cases hrest with
      | nil => exact ha
      | cons _ _ =>
          rw [String.intercalate_cons_cons, String.intercalate_cons_cons]
          exact hk.part_append (hk.part_append ha (hk.part_const hsep)) ih

lemma lines_join {texts texts' : List String} (h : List.Forall₂ k.lines texts texts') :
    k.lines (String.join texts) (String.join texts') := by
  induction h with
  | nil => exact hk.lines_empty
  | cons ha _ ih =>
      rw [String.join_cons, String.join_cons]
      exact hk.lines_append ha ih

end Kin.Lawful

namespace Plan

variable {α β γ δ : Type} {k : Kin}

/-- Plans that put the same questions and go on akin after akin answers. What they write and put
between surroundings is akin, and a default is akin to itself. -/
inductive Akin (k : Kin) (R : α → β → Prop) : Plan α → Plan β → Prop
  | done {a : α} {a' : β} : R a a' → Akin k R (done a) (done a')
  | fail {fault : Fault} {p' : Plan β} : Akin k R (fail fault) p'
  | expression {socket : String} {required : Grade} {default : String} {next : String → Plan α}
      {next' : String → Plan β} : k.part default default →
      (∀ code code', k.part code code' → Akin k R (next code) (next' code')) →
      Akin k R (expression socket required default next) (expression socket required default next')
  | statements {socket : String} {next : String → Plan α} {next' : String → Plan β} :
      (∀ code code', k.body code code' → Akin k R (next code) (next' code')) →
      Akin k R (statements socket next) (statements socket next')
  | identifier {name : String} {kind : NameKind} {next : String → Plan α}
      {next' : String → Plan β} : (∀ id, k.name id → Akin k R (next id) (next' id)) →
      Akin k R (identifier name kind next) (identifier name kind next')
  | fresh {hint : String} {kind : NameKind} {next : String → Plan α} {next' : String → Plan β} :
      (∀ id, k.name id → Akin k R (next id) (next' id)) →
      Akin k R (fresh hint kind next) (fresh hint kind next')
  | helper {key : String} {lines : List String} {next : String → Plan α}
      {next' : String → Plan β} : IsRoutine lines →
      (∀ id, k.name id → Akin k R (next id) (next' id)) →
      Akin k R (helper key lines next) (helper key lines next')
  | define {key text text' : String} {next : Plan α} {next' : Plan β} :
      k.definition key text text' → Akin k R next next' →
      Akin k R (define key text next) (define key text' next')
  | surround {code code' : String} {next : String → Plan α} {next' : String → Plan β} :
      k.lines code code' →
      (∀ full full', k.framed full full' → Akin k R (next full) (next' full')) →
      Akin k R (surround code next) (surround code' next')

variable {R : α → β → Prop} {T : γ → δ → Prop} {p : Plan α} {p' : Plan β} {f : α → Plan γ}
  {f' : β → Plan δ}

lemma akin_pure {a : α} {a' : β} (h : R a a') : Akin k R (pure a) (pure a') := .done h

lemma akin_refuse {type operation : String} {fields : Entries} :
    Akin k R (refuse type operation fields) p' := .fail

lemma Akin.bind (h : Akin k R p p') (hf : ∀ a a', R a a' → Akin k T (f a) (f' a')) :
    Akin k T (p >>= f) (p' >>= f') := by
  induction h with
  | done hR => exact hf _ _ hR
  | fail => exact .fail
  | expression hdefault _ ih => exact .expression hdefault ih
  | statements _ ih => exact .statements ih
  | identifier _ ih => exact .identifier ih
  | fresh _ ih => exact .fresh ih
  | helper hlines _ ih => exact .helper hlines ih
  | define htext _ ih => exact .define htext ih
  | surround hcode _ ih => exact .surround hcode ih

lemma akin_mapM {ι : Type} {f : ι → Plan α} {f' : ι → Plan β} {l : List ι}
    (h : ∀ i ∈ l, Akin k R (f i) (f' i)) :
    Akin k (List.Forall₂ R) (l.mapM f) (l.mapM f') := by
  induction l with
  | nil => exact .done .nil
  | cons i rest ih =>
      rw [List.mapM_cons, List.mapM_cons]
      refine (h i List.mem_cons_self).bind fun a a' hR => ?_
      refine (ih fun j hj => h j (List.mem_cons_of_mem i hj)).bind fun as as' hRs => ?_
      exact .done (.cons hR hRs)

lemma akin_expr {socket default : String} {required : Rank} (h : k.part default default) :
    Akin k k.part (expr socket required default) (expr socket required default) :=
  .expression h fun _ _ => .done

lemma akin_body (socket : String) : Akin k k.body (body socket) (body socket) :=
  .statements fun _ _ => .done

lemma akin_variableNamed (name : String) :
    Akin k (fun id id' => id = id' ∧ k.name id) (variableNamed name) (variableNamed name) :=
  .identifier fun _ h => .done ⟨rfl, h⟩

lemma akin_procedureNamed (name : String) :
    Akin k (fun id id' => id = id' ∧ k.name id) (procedureNamed name) (procedureNamed name) :=
  .identifier fun _ h => .done ⟨rfl, h⟩

lemma akin_temporary (hint : String) :
    Akin k (fun id id' => id = id' ∧ k.name id) (temporary hint) (temporary hint) :=
  .fresh fun _ h => .done ⟨rfl, h⟩

lemma akin_routine {key : String} {lines : List String} (h : IsRoutine lines) :
    Akin k (fun id id' => id = id' ∧ k.name id) (routine key lines) (routine key lines) :=
  .helper h fun _ hid => .done ⟨rfl, hid⟩

lemma akin_writeDefinition {key text text' : String} (h : k.definition key text text') :
    Akin k (fun _ _ => True) (writeDefinition key text) (writeDefinition key text') :=
  .define h (.done trivial)

/-! ### What is written -/

section Exchanges

variable {indent : String} {services : Services} {s : Run} {e : Exchange}

lemma mem_exchangesOf {q : Question} {rest : String → Run → List Exchange}
    (h : e ∈ exchangesOf indent services q s rest) :
    e.question = q ∨ ∃ answer t, e ∈ rest answer t := by
  rw [exchangesOf] at h
  split at h
  · rename_i answer t _
    rcases List.mem_cons.mp h with rfl | hrest
    · exact .inl rfl
    · exact .inr ⟨answer, t, hrest⟩
  · cases h

/-- What a plan writes, if it is akin to something whatever the answers are. -/
lemma Akin.exists_definition (h : Akin k R p p') (hname : ∀ id, k.name id)
    (hpart : ∀ code, k.part code code) (hbody : ∀ code, k.body code code)
    (hframed : ∀ code, k.framed code code) {key text : String}
    (he : e ∈ p.exchanges indent services s) (hquestion : e.question = .define key text) :
    ∃ text', k.definition key text text' := by
  induction h generalizing s with
  | done => exact nomatch he
  | fail => exact nomatch he
  | expression _ _ ih =>
      rcases mem_exchangesOf he with hq | ⟨answer, t, hrest⟩
      · exact nomatch hquestion.symm.trans hq
      · exact ih _ _ (hpart answer) hrest
  | statements _ ih =>
      rcases mem_exchangesOf he with hq | ⟨answer, t, hrest⟩
      · exact nomatch hquestion.symm.trans hq
      · exact ih _ _ (hbody answer) hrest
  | identifier _ ih | fresh _ ih | helper _ _ ih =>
      rcases mem_exchangesOf he with hq | ⟨answer, t, hrest⟩
      · exact nomatch hquestion.symm.trans hq
      · exact ih _ (hname answer) hrest
  | define hdefinition _ ih =>
      rcases mem_exchangesOf he with hq | ⟨answer, t, hrest⟩
      · obtain ⟨rfl, rfl⟩ := Question.define.inj (hquestion.symm.trans hq)
        exact ⟨_, hdefinition⟩
      · exact ih hrest
  | surround _ _ ih =>
      rcases mem_exchangesOf he with hq | ⟨answer, t, hrest⟩
      · exact nomatch hquestion.symm.trans hq
      · exact ih _ _ (hframed answer) hrest

end Exchanges

end Plan

end Blockscribe
