/-
The imports that the standard handlers write.

* `Plan.exists_exchanges_bind`: the exchanges of a plan that goes on with another one.
* `Plan.Writes`: a plan that gives a result has written a definition on the way. `Plan.Asks`: it has
  only put questions of a kind. Both are kept when one plan follows another.
* `Handler.writes_of_random`: a list or text block about a random place imports the random numbers.
* `Handler.exists_define_of_part`: a part whose end is counted from the end and computed by the
  program imports the system module.
-/
import Blockscribe.Proofs.Handler.Registry
import Blockscribe.Proofs.Number.Numeral
import Blockscribe.Proofs.Plan.Exchanges

namespace Blockscribe

namespace Plan

variable {α β : Type} {indent key text : String} {services : Services} {p : Plan α}
  {f : α → Plan β} {s t : Run} {b : β}

/-- The exchanges of a plan that goes on with another one, and what lies between the two. -/
lemma exists_exchanges_bind (h : ((p >>= f).run indent services).run s = .ok b t) :
    ∃ a u, (p.run indent services).run s = .ok a u ∧
      ((f a).run indent services).run u = .ok b t ∧
      (p >>= f).exchanges indent services s =
        p.exchanges indent services s ++ (f a).exchanges indent services u := by
  obtain ⟨a, u, hfirst, hrest⟩ := exists_of_run_plan h
  exact ⟨a, u, hfirst, hrest, exchanges_bind hfirst f⟩

/-- Whenever the plan gives a result it has written a definition. -/
def Writes (key text : String) (p : Plan α) : Prop :=
  ∀ indent services s a t, (p.run indent services).run s = .ok a t →
    ∃ e ∈ p.exchanges indent services s, e.question = .define key text

lemma writes_writeDefinition (key text : String) : (writeDefinition key text).Writes key text :=
  fun _ _ _ _ _ _ => ⟨_, List.mem_cons_self, rfl⟩

lemma writes_refuse {type operation : String} {fields : Entries} :
    (refuse type operation fields : Plan α).Writes key text := fun _ _ _ _ _ h => nomatch h

/-- What is written before a plan goes on is written. -/
lemma Writes.bind (hp : p.Writes key text) (f : α → Plan β) : (p >>= f).Writes key text := by
  intro indent services s b t h
  obtain ⟨a, u, hfirst, -, hall⟩ := exists_exchanges_bind h
  obtain ⟨e, he, hquestion⟩ := hp _ _ _ _ _ hfirst
  exact ⟨e, hall ▸ List.mem_append_left _ he, hquestion⟩

/-- What is written after a plan has gone on is written. -/
lemma writes_bind (p : Plan α) (hf : ∀ a, (f a).Writes key text) : (p >>= f).Writes key text := by
  intro indent services s b t h
  obtain ⟨a, u, -, hrest, hall⟩ := exists_exchanges_bind h
  obtain ⟨e, he, hquestion⟩ := hf a _ _ _ _ _ hrest
  exact ⟨e, hall ▸ List.mem_append_right _ he, hquestion⟩

/-- The one exchange about an expression. -/
lemma exchanges_expr {socket default answer : String} {required : Rank}
    (h : ((expr socket required default).run indent services).run s = .ok answer t) :
    (expr socket required default).exchanges indent services s =
      [⟨.expression socket (.rank required) default, answer, s, t⟩] := by
  obtain ⟨answer', u, hanswer, hdone⟩ :=
    exists_of_run_ask (q := .expression socket (.rank required) default) h
  obtain ⟨rfl, rfl⟩ := EStateM.Result.ok.inj hdone
  exact exchanges_ask_of_ok (q := .expression socket (.rank required) default) hanswer

/-- Whenever the plan gives a result it has only put questions of a kind. -/
def Asks (P : Question → Prop) (p : Plan α) : Prop :=
  ∀ indent services s a t, (p.run indent services).run s = .ok a t →
    ∀ e ∈ p.exchanges indent services s, P e.question

variable {P : Question → Prop}

lemma asks_pure (a : α) : (pure a : Plan α).Asks P := fun _ _ _ _ _ _ _ he => nomatch he

lemma asks_fail (fault : Fault) : (fail fault : Plan α).Asks P := fun _ _ _ _ _ h => nomatch h

lemma asks_refuse {type operation : String} {fields : Entries} :
    (refuse type operation fields : Plan α).Asks P := fun _ _ _ _ _ h => nomatch h

lemma asks_expr {socket default : String} {required : Rank}
    (h : P (.expression socket (.rank required) default)) :
    (expr socket required default).Asks P := by
  intro indent services s a t hrun e he
  rw [exchanges_expr hrun] at he
  rw [List.mem_singleton.mp he]
  exact h

lemma Asks.bind (hp : p.Asks P) (hf : ∀ a, (f a).Asks P) : (p >>= f).Asks P := by
  intro indent services s b t h e he
  obtain ⟨a, u, hfirst, hrest, hall⟩ := exists_exchanges_bind h
  rw [hall] at he
  rcases List.mem_append.mp he with he | he
  · exact hp _ _ _ _ _ hfirst e he
  · exact hf a _ _ _ _ _ hrest e he

end Plan

namespace Handler

open Plan

variable {indent : String} {services : Services} {s t : Run} {face : Face} {site : Site}
  {outcome : Outcome} {e : Exchange}

/-! ### Random places -/

/-- The blocks about a place in a list or text. -/
def randomTypes : List String := ["lists_getIndex", "lists_setIndex", "text_charAt"]

lemma writes_importRandom : Lists.importRandom.Writes "import_random" "import random" :=
  writes_writeDefinition _ _

section Random

variable (hwhere : face.field "WHERE" = .text "RANDOM")

include hwhere

lemma origin_eq : (face.field "WHERE").orElse (.text "FROM_START") = .text "RANDOM" := by
  rw [hwhere]
  rfl

lemma writes_getIndex (site : Site) :
    (Lists.getIndex site face).Writes "import_random" "import random" := by
  refine writes_bind _ fun items => ?_
  rw [origin_eq hwhere, if_neg (by decide), if_pos (by decide)]
  exact writes_importRandom.bind _

lemma writes_setIndex (site : Site) :
    (Lists.setIndex site face).Writes "import_random" "import random" := by
  refine writes_bind _ fun items => writes_bind _ fun value => ?_
  dsimp only
  rw [origin_eq hwhere, if_neg (by decide)]
  split
  · exact writes_importRandom.bind _
  · exact writes_refuse

lemma writes_charAt (site : Site) :
    (Texts.charAt site face).Writes "import_random" "import random" := by
  refine writes_bind _ fun value => ?_
  rw [origin_eq hwhere, if_neg (by decide), if_neg (by decide), if_neg (by decide),
    if_neg (by decide), if_pos (by decide)]
  exact writes_importRandom.bind _

/-- A block about a random place imports the random numbers. -/
lemma writes_of_random {type : String} (htype : type ∈ randomTypes) {h : Handler}
    (hlookup : standardTable.lookup type = some h) (site : Site) :
    (h site face).Writes "import_random" "import random" := by
  simp only [randomTypes, List.mem_cons, List.not_mem_nil, or_false] at htype
  rcases htype with rfl | rfl | rfl
  · obtain rfl : Lists.getIndex = h := Option.some.inj hlookup
    exact writes_getIndex hwhere site
  · obtain rfl : Lists.setIndex = h := Option.some.inj hlookup
    exact writes_setIndex hwhere site
  · obtain rfl : Texts.charAt = h := Option.some.inj hlookup
    exact writes_charAt hwhere site

end Random

/-! ### Computed ends -/

/-- The blocks about a part of a list or text. -/
def partTypes : List String := ["lists_getSublist", "text_getSubstring"]

/-- What is computed by the program is no numeral. -/
lemma isNumeral_computedIndex (index : String) (shift : Int) :
    Number.isNumeral (computedIndex index shift true) = false := by
  rw [Bool.eq_false_iff]
  intro h
  have hmem : 'i' ∈ (computedIndex index shift true).toList := by
    rw [computedIndex, if_pos rfl]
    split
    · simp [String.toList_append]
    · split <;> simp [String.toList_append]
  exact absurd (Number.mem_of_isNumeral h hmem) (by decide)

/-- Questions about the expression in a socket. -/
def AboutSocket (socket : String) (q : Question) : Prop :=
  ∃ required default, q = .expression socket required default

lemma asks_indexAt (site : Site) (socket : String) (offset : Int) (negate : Bool) :
    (indexAt site socket offset negate).Asks (AboutSocket socket) := by
  refine (asks_expr ⟨_, _, rfl⟩).bind fun index => ?_
  split
  · split
    · exact asks_pure _
    · exact asks_fail _
  · exact asks_pure _

lemma asks_sliceStart (site : Site) (face : Face) (operation : String) :
    (sliceStart site face operation).Asks (AboutSocket "AT1") := by
  rw [sliceStart]
  split
  · exact (asks_indexAt _ _ _ _).bind fun start => asks_pure _
  split
  · exact asks_indexAt _ _ _ _
  split
  · exact asks_pure _
  · exact asks_refuse

/-- An index that is no numeral is computed by the program. -/
lemma isNumeral_of_run_indexAt {socket result : String} {offset : Int}
    (hrun : ((indexAt site socket offset true).run indent services).run s = .ok result t)
    (he : e ∈ (indexAt site socket offset true).exchanges indent services s)
    (hanswer : Number.isNumeral e.answer = false) : Number.isNumeral result = false := by
  obtain ⟨index, u, hindex, hrest, hall⟩ := exists_exchanges_bind hrun
  rw [show (indexAt site socket offset true).exchanges indent services s = _ from hall,
    exchanges_expr hindex] at he
  rcases List.mem_append.mp he with he | he
  · obtain rfl := List.mem_singleton.mp he
    rw [if_neg (by rw [hanswer]; decide)] at hrest
    obtain ⟨rfl, -⟩ := EStateM.Result.ok.inj hrest
    exact isNumeral_computedIndex _ _
  · split at he
    · split at he
      · exact nomatch he
      · exact nomatch he
    · exact nomatch he

/-- An end that is counted from the end and computed by the program needs the system module. -/
lemma exists_define_of_sliceEnd {operation stop : String}
    (hwhere : face.field "WHERE2" = .text "FROM_END")
    (hrun : ((sliceEnd site face operation).run indent services).run s = .ok stop t)
    (he : e ∈ (sliceEnd site face operation).exchanges indent services s)
    (hsocket : AboutSocket "AT2" e.question) (hanswer : Number.isNumeral e.answer = false) :
    ∃ e' ∈ (sliceEnd site face operation).exchanges indent services s,
      e'.question = .define "import_sys" "import sys" := by
  have hplan : sliceEnd site face operation = indexAt site "AT2" 0 true >>= fun stop =>
      if (!Number.isNumeral stop) = true then
        Plan.writeDefinition "import_sys" "import sys" >>= fun _ =>
          pure (stop ++ " or sys.maxsize")
      else pure (if stop = "0" then "" else stop) := by
    rw [sliceEnd, hwhere]
    rfl
  rw [hplan] at hrun he ⊢
  obtain ⟨index, u, hindex, hrest, hall⟩ := exists_exchanges_bind hrun
  rw [hall] at he ⊢
  rcases List.mem_append.mp he with he | he
  · have hresult := isNumeral_of_run_indexAt hindex he hanswer
    rw [if_pos (by rw [hresult]; rfl)]
    exact ⟨_, List.mem_append_right _ List.mem_cons_self, rfl⟩
  · split at he
    · obtain rfl := List.mem_singleton.mp he
      obtain ⟨required, default, hquestion⟩ := hsocket
      cases hquestion
    · cases he

/-- A part whose end is counted from the end and computed by the program imports the system
module. -/
lemma exists_define_of_part {type : String} (htype : type ∈ partTypes) {h : Handler}
    (hlookup : standardTable.lookup type = some h)
    (hwhere : face.field "WHERE2" = .text "FROM_END")
    (hrun : ((h site face).run indent services).run s = .ok outcome t)
    (he : e ∈ (h site face).exchanges indent services s)
    (hsocket : AboutSocket "AT2" e.question) (hanswer : Number.isNumeral e.answer = false) :
    ∃ e' ∈ (h site face).exchanges indent services s,
      e'.question = .define "import_sys" "import sys" := by
  have hplan : ∃ socket required default operation, socket ≠ "AT2" ∧
      h site face = Plan.expr socket required default >>= slice site face operation := by
    simp only [partTypes, List.mem_cons, List.not_mem_nil, or_false] at htype
    rcases htype with rfl | rfl
    · obtain rfl : Lists.getSublist = h := Option.some.inj hlookup
      exact ⟨_, _, _, _, by decide, rfl⟩
    · obtain rfl : Texts.getSubstring = h := Option.some.inj hlookup
      exact ⟨_, _, _, _, by decide, rfl⟩
  obtain ⟨socket, required, default, operation, hsequence, hplan⟩ := hplan
  rw [hplan] at hrun he ⊢
  obtain ⟨sequence, u, hfirst, hslice, hall⟩ := exists_exchanges_bind hrun
  rw [hall, exchanges_expr hfirst] at he
  rw [hall]
  rcases List.mem_append.mp he with he | he
  · obtain rfl := List.mem_singleton.mp he
    obtain ⟨_, _, hquestion⟩ := hsocket
    exact absurd (Question.expression.inj hquestion).1 hsequence
  · obtain ⟨start, u₁, hstart, hrest, hall₁⟩ := exists_exchanges_bind hslice
    obtain ⟨stop, u₂, hstop, -, hall₂⟩ := exists_exchanges_bind hrest
    rw [slice, hall₁, hall₂] at he
    rcases List.mem_append.mp he with he | he
    · obtain ⟨_, _, hquestion⟩ := asks_sliceStart site face operation _ _ _ _ _ hstart e he
      obtain ⟨_, _, hquestion'⟩ := hsocket
      exact absurd (Question.expression.inj (hquestion.symm.trans hquestion')).1 (by decide)
    · rcases List.mem_append.mp he with he | he
      · obtain ⟨e', he', hdefine⟩ :=
          exists_define_of_sliceEnd hwhere hstop he hsocket hanswer
        refine ⟨e', List.mem_append_right _ ?_, hdefine⟩
        rw [slice, hall₁, hall₂]
        exact List.mem_append_right _ (List.mem_append_left _ he')
      · exact nomatch he

end Handler

end Blockscribe
