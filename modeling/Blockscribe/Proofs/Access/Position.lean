/-
Positions in a sequence, and what handlers write for them.

* `Source`, `Workspace.Gives`: a position is given by a number block, by a variable or by an empty
  socket.
* `Place`: the first or the last element, or a position counted from the start or from the end.
  `Place.Addresses` says which element that is.
* `Renderer.run_indexAt`: the index in a socket is written as an integer, or as a computation on the
  variable's identifier. `Renderer.run_indexAt_eval` gives its value.
-/
import Blockscribe.Proofs.Access.Sequence
import Blockscribe.Proofs.Number.Foreign
import Blockscribe.Proofs.Render.Grouping

namespace Blockscribe

open Handler (computedIndex indexAt shiftFor firstIndex)

/-- How a position is given. -/
inductive Source
  /-- Nothing is plugged in; this is the first position. -/
  | empty
  | number (p : ℕ)
  | named (name : String)

/-- The first position. -/
def Site.origin (site : Site) : ℕ := if site.oneBased then 1 else 0

/-- What is plugged into a socket gives a position: nothing, a number block whose field stands for a
natural, or the value of a variable. -/
inductive Workspace.Gives (w : Workspace) (b : Block) (socket : String) : Source → Prop
  | empty : w.Operand b socket none → Gives w b socket .empty
  | number {c : Block} {x : Double} {p : ℕ} : w.Operand b socket (some c) →
      c.IsLone "math_number" → (c.face.fieldOr "NUM" (.int 0)).toDouble = .ok x → x.Counts p →
      p < 2 ^ 53 → Gives w b socket (.number p)
  | named {c : Block} {name : String} : w.Operand b socket (some c) →
      c.IsLone "variables_get" → c.face.field "VAR" = .text name → name ≠ "" →
      Gives w b socket (.named name)

namespace Source

/-- The position is `p`. -/
def Holds (scope : Access.Scope) (naming : String → String) (origin p : ℕ) : Source → Prop
  | empty => p = origin
  | number q => p = q
  | named name => scope.value (naming name) = some (p : ℤ)

/-- What is written for a position that is moved by an offset, perhaps with its sign changed. -/
def code (naming : String → String) (origin : ℕ) (shift : ℤ) (negate : Bool) : Source → String
  | empty => toString (if negate then -((origin : ℤ) + shift) else (origin : ℤ) + shift)
  | number p => toString (if negate then -((p : ℤ) + shift) else (p : ℤ) + shift)
  | named name => computedIndex (naming name) shift negate

end Source

/-- A place in a sequence. -/
inductive Place
  | first
  | last
  | fromStart (source : Source)
  | fromEnd (source : Source)

namespace Place

/-- How a block names the place. -/
def key : Place → String
  | first => "FIRST"
  | last => "LAST"
  | fromStart _ => "FROM_START"
  | fromEnd _ => "FROM_END"

/-- A socket gives the position that is counted. -/
def Given (w : Workspace) (b : Block) (socket : String) : Place → Prop
  | first | last => True
  | fromStart source | fromEnd source => w.Gives b socket source

/-- The place is that of the element number `k`, counted from zero, in a sequence of `len` elements.
Positions are counted from `origin` on, from the front or from the end. -/
def Addresses (scope : Access.Scope) (naming : String → String) (origin len k : ℕ) (place : Place) :
    Prop :=
  k < len ∧
    match place with
    | first => k = 0
    | last => k = len - 1
    | fromStart source => source.Holds scope naming origin (origin + k)
    | fromEnd source => source.Holds scope naming origin (origin + (len - 1 - k))

end Place

/-! ### What is written -/

/-- A plan goes on from the state that its first part leads to. -/
lemma Plan.run_bind_of_ok {α β : Type} {p : Plan α} {f : α → Plan β} {indent : String}
    {services : Services} {s s' : Run} {a : α} (h : (p.run indent services).run s = .ok a s') :
    ((p >>= f).run indent services).run s = ((f a).run indent services).run s' := by
  rw [show (p >>= f).run indent services = _ from Plan.run_bind indent services p f]
  exact Running.run_bind_of_ok h

lemma Handler.shiftFor_eq (site : Site) (offset : ℤ) :
    shiftFor site offset = offset - site.origin := by
  rw [shiftFor, Site.origin]
  split <;> simp

/-- A numeral is moved, and everything else is moved by the program. -/
lemma Handler.indexAt_eq (site : Site) (socket : String) (offset : ℤ) (negate : Bool) :
    indexAt site socket offset negate =
      (Plan.expr socket (if shiftFor site offset = 0 then .none else .additive) (firstIndex site) >>=
        fun index => if Number.isNumeral index then
          Procedures.require (foldedIndex index (shiftFor site offset) negate)
        else pure (computedIndex index (shiftFor site offset) negate)) := by
  refine congrArg (Plan.expr _ _ _ >>= ·) (funext fun index => ?_)
  split
  · cases foldedIndex index (shiftFor site offset) negate <;> rfl
  · rfl

namespace Renderer

variable {r : Renderer} {b : Block} {s : Run} {socket : String} {source : Source}

lemma firstIndex_eq (site : Site) : firstIndex site = site.origin.repr := by
  rw [firstIndex, Site.origin]
  split <;> rfl

/-- An index is written for the code in its socket. -/
lemma run_indexAt_of_code {code : String} {s' : Run} (offset : ℤ) (negate : Bool)
    (hcode : (r.expression r.render b socket
      (.rank (if shiftFor r.site offset = 0 then .none else .additive))
      (firstIndex r.site)).run s = .ok code s') :
    (Number.isNumeral code = false → ((indexAt r.site socket offset negate).run r.style.indent
      (r.services r.render b)).run s =
        .ok (computedIndex code (shiftFor r.site offset) negate) s') ∧
    ∀ n : ℕ, n < 2 ^ 53 → code = n.repr → ((indexAt r.site socket offset negate).run r.style.indent
      (r.services r.render b)).run s = .ok (toString (if negate then
        -((n : ℤ) + shiftFor r.site offset) else (n : ℤ) + shiftFor r.site offset)) s' := by
  have hexpr : ((Plan.expr socket (if shiftFor r.site offset = 0 then .none else .additive)
      (firstIndex r.site)).run r.style.indent (r.services r.render b)).run s = .ok code s' :=
    Running.run_bind_of_ok hcode
  rw [Handler.indexAt_eq, Plan.run_bind_of_ok hexpr]
  refine ⟨fun hnumeral => ?_, fun n hn hrepr => ?_⟩
  · rw [hnumeral]
    rfl
  · rw [hrepr, Number.isNumeral_repr, Handler.foldedIndex_repr hn]
    rfl

section Operands

variable {c : Block} (hw : r.workspace.validate = .ok ())
  (hr : r.handlers = Handler.standard) (hb : b ∈ r.workspace.blocks)
  (hoperand : r.workspace.Operand b socket (some c))

include hw hr hb hoperand

/-- The code of a number block is no looser than a sign. -/
lemma expression_of_number {x : Double} {p : ℕ} (hlone : c.IsLone "math_number")
    (hfield : (c.face.fieldOr "NUM" (.int 0)).toDouble = .ok x) (hcounts : x.Counts p)
    {required : Rank} (hrequired : Rank.unarySign.toNat ≤ required.toNat) (default : String) :
    (r.expression r.render b socket (.rank required) default).run s = .ok p.repr s := by
  have hne : x.plainText ≠ "" := by
    rw [hcounts.plainText_eq]
    exact fun hnil => absurd (congrArg String.toList hnil) (Nat.toList_repr ▸ Nat.toDigits_ne_nil)
  rw [expression_of_code hw hb hoperand hlone.enabled hlone.last hne
    (outcome_number hr hlone hfield hcounts.isFinite s), wrap_of_le, hcounts.plainText_eq]
  split
  · exact hrequired
  · exact Nat.zero_le _

/-- The code of a variable is its identifier. -/
lemma expression_of_named {name : String} (hlone : c.IsLone "variables_get")
    (hfield : c.face.field "VAR" = .text name) (hname : name ≠ "")
    (hs : s.NamesFrom r.style.dialect.reserved) (required : Rank) (default : String) :
    (r.expression r.render b socket (.rank required) default).run s =
      .ok (s.named name .variable).1 (s.named name .variable).2 := by
  obtain ⟨-, hid⟩ := Run.legal_named hs name .variable
  rw [expression_of_code hw hb hoperand hlone.enabled hlone.last (ne_empty_of_isIdentifier hid)
    (outcome_named hr hlone hfield hname s), wrap_of_le (Nat.zero_le _)]

end Operands

/-- The index in a socket is written as what gives the position asks for. -/
lemma run_indexAt (hw : r.workspace.validate = .ok ()) (hr : r.handlers = Handler.standard)
    (hb : b ∈ r.workspace.blocks) (h : r.workspace.Gives b socket source)
    (hs : s.NamesFrom r.style.dialect.reserved) (offset : ℤ) (negate : Bool) :
    ∃ text s', ((indexAt r.site socket offset negate).run r.style.indent
        (r.services r.render b)).run s = .ok text s' ∧
      s.Grows r.style.dialect.reserved s' ∧
      ∀ s'', s'.Grows r.style.dialect.reserved s'' →
        text = source.code s''.naming r.site.origin (shiftFor r.site offset) negate := by
  cases h with
  | empty hempty =>
      have horigin : r.site.origin < 2 ^ 53 := by
        rw [Site.origin]
        split <;> decide
      exact ⟨_, s, (run_indexAt_of_code offset negate (expression_of_missing hempty)).2 _
        horigin (firstIndex_eq _), hs.grows, fun _ _ => rfl⟩
  | @number c x p hoperand hlone hfield hcounts hlt =>
      have hrequired : Rank.unarySign.toNat ≤
          (if shiftFor r.site offset = 0 then Rank.none else .additive).toNat := by
        split <;> decide
      have hcode := expression_of_number (s := s) hw hr hb hoperand hlone hfield hcounts hrequired
        (firstIndex r.site)
      exact ⟨_, s, (run_indexAt_of_code offset negate hcode).2 p hlt rfl, hs.grows,
        fun _ _ => rfl⟩
  | @named c name hoperand hlone hfield hname =>
      obtain ⟨-, hid⟩ := Run.legal_named hs name .variable
      have hcode := expression_of_named hw hr hb hoperand hlone hfield hname hs
        (if shiftFor r.site offset = 0 then .none else .additive) (firstIndex r.site)
      have hforeign := Number.foreign_of_isIdentifier hid
      refine ⟨_, _, (run_indexAt_of_code offset negate hcode).1 hforeign.not_isNumeral,
        Run.grows_named hs name .variable, fun s'' hgrows => ?_⟩
      rw [Source.code, Run.naming_named hgrows]

end Renderer

/-! ### What it means -/

/-- No variable is called like the word between two alternatives. -/
lemma Run.isIdentifier_naming {dialect : Dialect} (hdialect : dialect ∈ Dialect.all) {s : Run}
    (hs : s.NamesFrom dialect.reserved) (name : String) :
    isIdentifier (s.naming name) = true ∧ s.naming name ≠ "or" := by
  obtain ⟨hfree, hid⟩ := legal_named hs name .variable
  refine ⟨hid, fun hor => hfree ?_⟩
  rw [show (s.named name .variable).1 = "or" from hor]
  simp only [Dialect.all, List.mem_cons, List.not_mem_nil, or_false] at hdialect
  rcases hdialect with rfl | rfl <;> decide +kernel

/-- What is written for a position has its value, moved by the offset and with the sign. -/
lemma Source.eval_code {source : Source} {scope : Access.Scope} {naming : String → String}
    (hnaming : ∀ name, isIdentifier (naming name) = true ∧ naming name ≠ "or") {origin p : ℕ}
    (h : source.Holds scope naming origin p) (shift : ℤ) (negate : Bool) :
    scope.eval (source.code naming origin shift negate) =
      some (if negate then -((p : ℤ) + shift) else (p : ℤ) + shift) := by
  cases source with
  | empty =>
      obtain rfl : p = origin := h
      exact Access.eval_toString scope _
  | number q =>
      obtain rfl : p = q := h
      exact Access.eval_toString scope _
  | named name =>
      have hvalue : scope.value (naming name) = some (p : ℤ) := h
      obtain ⟨hid, hor⟩ := hnaming name
      rw [code, Access.eval_computedIndex hid hor, hvalue]
      rfl

/-- The index in a socket has the value of the position, counted from zero, moved by the offset and
with the sign. -/
lemma Renderer.run_indexAt_eval {r : Renderer} {b : Block} {s : Run} {socket : String}
    {source : Source} (hw : r.workspace.validate = .ok ()) (hr : r.handlers = Handler.standard)
    (hdialect : r.style.dialect ∈ Dialect.all) (hb : b ∈ r.workspace.blocks)
    (h : r.workspace.Gives b socket source) (hs : s.NamesFrom r.style.dialect.reserved) (offset : ℤ)
    (negate : Bool) :
    ∃ text s', ((indexAt r.site socket offset negate).run r.style.indent
        (r.services r.render b)).run s = .ok text s' ∧
      s.Grows r.style.dialect.reserved s' ∧
      ∀ s'', s'.Grows r.style.dialect.reserved s'' →
        text = source.code s''.naming r.site.origin (shiftFor r.site offset) negate ∧
        ∀ scope k, source.Holds scope s''.naming r.site.origin (r.site.origin + k) →
          scope.eval text = some (if negate then -((k : ℤ) + offset) else (k : ℤ) + offset) := by
  obtain ⟨text, s', hrun, hgrows, htext⟩ := run_indexAt hw hr hb h hs offset negate
  refine ⟨text, s', hrun, hgrows, fun s'' hlater => ⟨htext s'' hlater, fun scope k hholds => ?_⟩⟩
  rw [htext s'' hlater,
    source.eval_code (Run.isIdentifier_naming hdialect hlater.namesFrom) hholds,
    Handler.shiftFor_eq]
  refine congrArg some ?_
  split <;> omega

end Blockscribe
