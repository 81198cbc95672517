/-
Elements of lists and texts.

* `Accessor`: reading an element, taking it out, replacing it, and inserting in front of it.
  `Accessor.form` is the access that is written, `Accessor.result` is what it should come to.
* `Accessor.handler_eq`: the handlers ask for the list or text, for a value if they need one, and
  for the index of the place, and write the access.
* `Renderer.render_element`: the access comes to what it should at the addressed element.
-/
import Blockscribe.Proofs.Access.Position

namespace Blockscribe

open Access
open Handler (indexAt)

/-- What is done to an element. -/
inductive Accessor
  | read
  | letter
  | take
  | remove
  | replace
  | insert
  deriving DecidableEq

/-! ### Indexes of places -/

namespace Place

/-- The plan for the index of a place. -/
def index (site : Site) : Place → Plan String
  | first => pure "0"
  | last => pure "-1"
  | fromStart _ => indexAt site "AT" 0 false
  | fromEnd _ => indexAt site "AT" 1 true

/-- The last element is popped without an index. -/
def popIndex (index : String) : Place → String
  | last => ""
  | _ => index

lemma popIndex_of_ne {place : Place} (h : place ≠ .last) (index : String) :
    place.popIndex index = index := by
  cases place with
  | last => exact absurd rfl h
  | first | fromStart | fromEnd => rfl

end Place

namespace Accessor

/-! ### What is written -/

/-- The type of the blocks. -/
def type : Accessor → String
  | read | take | remove => "lists_getIndex"
  | letter => "text_charAt"
  | replace | insert => "lists_setIndex"

/-- The handler of the blocks. -/
def handler : Accessor → Handler
  | read | take | remove => Handler.Lists.getIndex
  | letter => Handler.Texts.charAt
  | replace | insert => Handler.Lists.setIndex

/-- How a block names what is done. Only elements of lists are more than read. -/
def IsMode (face : Face) : Accessor → Prop
  | read => (face.field "MODE").orElse (.text "GET") = .text "GET"
  | letter => True
  | take => (face.field "MODE").orElse (.text "GET") = .text "GET_REMOVE"
  | remove => (face.field "MODE").orElse (.text "GET") = .text "REMOVE"
  | replace => (face.field "MODE").orElse (.text "GET") = .text "SET"
  | insert => (face.field "MODE").orElse (.text "GET") = .text "INSERT"

/-- The socket for the list or text. -/
def socket : Accessor → String
  | read | letter | take | remove => "VALUE"
  | replace | insert => "LIST"

/-- What an empty socket stands for. -/
def default : Accessor → String
  | letter => "''"
  | _ => "[]"

/-- The plan for the value that is put into a list. -/
def value : Accessor → Plan String
  | replace | insert => Plan.expr "TO" .none "None"
  | _ => pure ""

/-- The access that is written. -/
def form (accessor : Accessor) (place : Place) (index value : String) : Form :=
  match accessor with
  | read | letter => .item index
  | take | remove => .pop (place.popIndex index)
  | replace => .assign index value
  | insert =>
    match place with
    | .last => .append value
    | _ => .insert index value

/-- An access that gives an element is an expression, and every other one is a statement. -/
def outcome (text : String) : Accessor → Outcome
  | read | letter => .expr text .member
  | take => .expr text .functionCall
  | remove | replace | insert => .statement (text ++ "\n")

/-- The texts of the handlers, put together as those of accesses are. -/
lemma text_item (code index : String) :
    code ++ ("[" ++ index ++ "]") = code ++ "[" ++ index ++ "]" := by
  simp only [String.append_assoc]

lemma text_closed (code : String) : code ++ ")\n" = code ++ ")" ++ "\n" :=
  (String.append_assoc : code ++ ")" ++ "\n" = code ++ (")" ++ "\n")).symm

/-- The handler asks for the parts of the access one after the other. -/
lemma handler_eq {accessor : Accessor} {place : Place} {face : Face} (site : Site)
    (hmode : accessor.IsMode face)
    (hwhere : (face.field "WHERE").orElse (.text "FROM_START") = .text place.key) :
    accessor.handler site face = (Plan.expr accessor.socket .member accessor.default >>= fun code =>
      accessor.value >>= fun value => place.index site >>= fun index =>
        pure (accessor.outcome ((accessor.form place index value).text code))) := by
  cases accessor with
  | letter =>
      have hfirst : ∀ code : String, code ++ "[0]" = code ++ "[" ++ "0" ++ "]" :=
        fun code => text_item code "0"
      have hlast : ∀ code : String, code ++ "[-1]" = code ++ "[" ++ "-1" ++ "]" :=
        fun code => text_item code "-1"
      rw [handler, Handler.Texts.charAt, hwhere]
      refine congrArg (Plan.expr "VALUE" .member "''" >>= ·) (funext fun code => ?_)
      rw [hfirst, hlast]
      cases place <;> rfl
  | read | take | remove =>
      rw [IsMode] at hmode
      rw [handler, Handler.Lists.getIndex, hmode, hwhere]
      simp only [text_closed]
      cases place <;> rfl
  | replace | insert =>
      rw [IsMode] at hmode
      rw [handler, Handler.Lists.setIndex, hmode, hwhere]
      simp only [text_closed]
      cases place <;> rfl

/-- The handler of a standard block. -/
lemma lookup_handler (accessor : Accessor) :
    Handler.standardTable.lookup accessor.type = some accessor.handler := by
  cases accessor <;> rfl

/-! ### What it comes to -/

/-- What is done at the element number `k`: what it gives, and what is left. -/
def result {α : Type} (v : α) (xs : List α) (k : ℕ) : Accessor → List α × List α
  | read | letter => (xs[k]?.toList, xs)
  | take | remove => (xs[k]?.toList, xs.eraseIdx k)
  | replace => ([], xs.set k v)
  | insert => ([], xs.insertIdx k v)

/-- An index of the element will do, and no index for the last one that is popped. -/
lemma effect_form {accessor : Accessor} {place : Place} {scope : Scope} {index : String} {i : ℤ}
    {α : Type} {v : α} {xs : List α} {k : ℕ} (heval : scope.eval index = some i)
    (hindex : IsIndexOf xs.length k i) (hlast : place = .last → k = xs.length - 1)
    (hinsert : ¬ (accessor = .insert ∧ place = .last)) (value : String) :
    (accessor.form place index value).effect scope v xs = some (accessor.result v xs k) := by
  cases accessor with
  | read | letter | replace =>
      rw [form, Form.effect, heval, Option.bind_eq_bind, Option.bind_some, locate_eq hindex]
      rfl
  | take | remove =>
      obtain ⟨j, hpopped, hj⟩ : ∃ j, scope.popped (place.popIndex index) = some j ∧
          IsIndexOf xs.length k j := by
        rcases eq_or_ne place .last with rfl | hplace
        · have hk := hlast rfl
          have hlt := hindex.1
          exact ⟨-1, rfl, hlt, .inr (by omega)⟩
        · have hne : index ≠ "" := by
            rintro rfl
            have hempty : scope.eval "" = none := rfl
            exact nomatch hempty.symm.trans heval
          rw [place.popIndex_of_ne hplace, Scope.popped, if_neg hne]
          exact ⟨i, heval, hindex⟩
      rw [form, Form.effect, hpopped, Option.bind_eq_bind, Option.bind_some, locate_eq hj]
      rfl
  | insert =>
      have hform : Accessor.insert.form place index value = .insert index value := by
        cases place with
        | last => exact absurd ⟨rfl, rfl⟩ hinsert
        | first | fromStart | fromEnd => rfl
      rw [hform, Form.effect, heval, Option.bind_eq_bind, Option.bind_some, clamp_eq hindex]
      rfl

end Accessor

namespace Renderer

/-- The index that is written for a place is one of the addressed element. -/
lemma run_index {r : Renderer} {b : Block} {s : Run} {place : Place}
    (hw : r.workspace.validate = .ok ()) (hr : r.handlers = Handler.standard)
    (hdialect : r.style.dialect ∈ Dialect.all) (hb : b ∈ r.workspace.blocks)
    (hgiven : place.Given r.workspace b "AT") (hs : s.NamesFrom r.style.dialect.reserved) :
    ∃ index s', ((place.index r.site).run r.style.indent (r.services r.render b)).run s =
        .ok index s' ∧
      s.Grows r.style.dialect.reserved s' ∧
      ∀ s'', s'.Grows r.style.dialect.reserved s'' → ∀ scope len k,
        place.Addresses scope s''.naming r.site.origin len k →
        ∃ i, scope.eval index = some i ∧ IsIndexOf len k i := by
  cases place with
  | first =>
      refine ⟨"0", s, rfl, hs.grows, fun s'' _ scope len k haddresses => ?_⟩
      obtain ⟨hk, rfl⟩ := haddresses
      exact ⟨0, eval_toString scope 0, hk, .inl rfl⟩
  | last =>
      refine ⟨"-1", s, rfl, hs.grows, fun s'' _ scope len k haddresses => ?_⟩
      obtain ⟨hk, hlast⟩ := haddresses
      have htext : toString (-1 : ℤ) = "-1" := by decide
      exact ⟨-1, htext ▸ eval_toString scope (-1), hk, .inr (by omega)⟩
  | fromStart source =>
      obtain ⟨text, s', hrun, hgrows, htext⟩ := run_indexAt_eval hw hr hdialect hb hgiven hs 0 false
      refine ⟨text, s', hrun, hgrows, fun s'' hlater scope len k haddresses => ?_⟩
      obtain ⟨hk, hholds⟩ := haddresses
      have heval := (htext s'' hlater).2 scope k hholds
      rw [if_neg Bool.false_ne_true, add_zero] at heval
      exact ⟨k, heval, hk, .inl rfl⟩
  | fromEnd source =>
      obtain ⟨text, s', hrun, hgrows, htext⟩ := run_indexAt_eval hw hr hdialect hb hgiven hs 1 true
      refine ⟨text, s', hrun, hgrows, fun s'' hlater scope len k haddresses => ?_⟩
      obtain ⟨hk, hholds⟩ := haddresses
      have heval := (htext s'' hlater).2 scope _ hholds
      rw [if_pos rfl] at heval
      exact ⟨_, heval, hk, .inr (by omega)⟩

/-- **Element blocks act on the addressed element.** In an accepted workspace, with the standard
handlers, a known dialect and either way to count, let an enabled block read an element of a list or
text, take it out, remove it, replace it or insert in front of it, at the first or the last place or
at one that is counted from either end. A position that is counted is given by a number block, by a
variable or by an empty socket. If the list or text renders to some code, and so does the value that
is put in, the block renders to an access to that code. Let the access be evaluated with any values
of the names, in this state or a later one: if the place addresses an element, this is the one that
is read, taken out, removed or replaced, or that the value is put in front of; but what is inserted
at the last place comes behind all elements. -/
theorem render_element {w : Workspace} (hw : w.validate = .ok ()) {style : Style}
    (hdialect : style.dialect ∈ Dialect.all) {b : Block} (hb : b ∈ w.blocks)
    (henabled : b.disabled = false) {accessor : Accessor} (htype : b.type = accessor.type)
    (hmode : accessor.IsMode b.face) {place : Place}
    (hwhere : (b.face.field "WHERE").orElse (.text "FROM_START") = .text place.key)
    (hgiven : place.Given w b "AT") {s t u : Run} (hs : s.NamesFrom style.dialect.reserved)
    {code value : String}
    (hcode : ((standard w style).expression (standard w style).render b accessor.socket
      (.rank .member) accessor.default).run s = .ok code t)
    (hvalue : (accessor.value.run style.indent
      ((standard w style).services (standard w style).render b)).run t = .ok value u) :
    ∃ index u', u.Grows style.dialect.reserved u' ∧
      ((standard w style).render b).run s = ((standard w style).complete b
        (accessor.outcome ((accessor.form place index value).text code))).run u' ∧
      ∀ u'', u'.Grows style.dialect.reserved u'' → ∀ (scope : Scope) {α : Type} (v : α) (xs : List α),
        (accessor = .insert ∧ place = .last →
          (accessor.form place index value).effect scope v xs = some ([], xs ++ [v])) ∧
        (¬ (accessor = .insert ∧ place = .last) → ∀ k,
          place.Addresses scope u''.naming (standard w style).site.origin xs.length k →
          (accessor.form place index value).effect scope v xs = some (accessor.result v xs k)) := by
  have ht : t.NamesFrom style.dialect.reserved :=
    ((extends_expression (extends_render (standard w style)) b accessor.socket (.rank .member)
      accessor.default).grows_of_ok hs hcode).namesFrom
  have hu : u.NamesFrom style.dialect.reserved :=
    ((Plan.extends_run _ (extends_expression (extends_render (standard w style)) b)
      (extends_statements (extends_render (standard w style)) b)
      (extends_surround (extends_render (standard w style)) b) accessor.value).grows_of_ok ht
        hvalue).namesFrom
  obtain ⟨index, u', hindex, hgrows, heval⟩ := run_index (r := standard w style) hw rfl hdialect hb
    hgiven hu
  have hrun : ((standard w style).outcome b).run s =
      .ok (accessor.outcome ((accessor.form place index value).text code)) u' := by
    rw [outcome_eq rfl htype accessor.lookup_handler, Accessor.handler_eq _ hmode hwhere,
      Plan.run_expr_bind]
    refine (Running.run_bind_of_ok hcode).trans ?_
    exact (Plan.run_bind_of_ok hvalue).trans (Plan.run_bind_of_ok hindex)
  refine ⟨index, u', hgrows, ?_, fun u'' hlater scope α v xs => ⟨?_, fun hinsert k haddresses => ?_⟩⟩
  · rw [render_eq_outcome (r := standard w style) hw hb henabled, Running.run_bind_of_ok hrun]
  · rintro ⟨rfl, rfl⟩
    rfl
  · obtain ⟨i, hi, hk⟩ := heval u'' hlater scope xs.length k haddresses
    refine accessor.effect_form hi hk (fun hlast => ?_) hinsert value
    subst hlast
    exact haddresses.2

/-- Takes the element at the position `n`, counted from the end, out of the list `x`. -/
def elementSample : Workspace :=
  Workspace.edited ["x", "n"]
    [.add ⟨"variables_get", [("VAR", .text "x")], [], none, .null, false, []⟩,
      .add ⟨"variables_get", [("VAR", .text "n")], [], none, .null, false, []⟩,
      .add ⟨"lists_getIndex", [("MODE", .text "GET_REMOVE"), ("WHERE", .text "FROM_END")],
        [⟨"VALUE", .value, some 1⟩, ⟨"AT", .value, some 2⟩], none, .null, false, []⟩]

theorem render_element_elementSample : elementSample.validate = .ok () ∧
    ∃ b ∈ elementSample.blocks, ∃ index u',
      ((standard elementSample ⟨.python, true, "  ", .whole 60⟩).render b).run
        (.closed Dialect.python.reserved) =
        ((standard elementSample ⟨.python, true, "  ", .whole 60⟩).complete b
          (.expr ((Form.pop index).text "x") .functionCall)).run u' ∧
      ∀ scope : Scope, scope.value (u'.naming "n") = some 2 →
        (Form.pop index).effect scope 'z' ['a', 'b', 'c'] = some (['b'], ['a', 'c']) := by
  have hmem : elementSample.blocks[2] ∈ elementSample.blocks := List.getElem_mem _
  have hnamed : elementSample.Gives elementSample.blocks[2] "AT" (.named "n") :=
    .named (.of_plugged rfl rfl : elementSample.Operand _ "AT" (some elementSample.blocks[1]))
      ⟨rfl, rfl, rfl⟩ rfl (by decide)
  have hnames : (Run.closed Dialect.python.reserved).NamesFrom Dialect.python.reserved := ⟨[], rfl⟩
  have hcode : ((standard elementSample ⟨.python, true, "  ", .whole 60⟩).expression
      (standard elementSample ⟨.python, true, "  ", .whole 60⟩).render elementSample.blocks[2]
      Accessor.take.socket (.rank .member) Accessor.take.default).run
        (.closed Dialect.python.reserved) =
      .ok "x" ((Run.closed Dialect.python.reserved).named "x" .variable).2 := by
    have hname : ((Run.closed Dialect.python.reserved).named "x" .variable).1 = "x" := by
      decide +kernel
    have hlist : elementSample.Operand elementSample.blocks[2] "VALUE"
        (some elementSample.blocks[0]) := .of_plugged rfl rfl
    have hfield : elementSample.blocks[0].face.field "VAR" = .text "x" := rfl
    have hrun := expression_of_named (r := standard elementSample ⟨.python, true, "  ", .whole 60⟩) rfl
      rfl hmem hlist ⟨rfl, rfl, rfl⟩ hfield (by decide) hnames .member "[]"
    rw [hname] at hrun
    exact hrun
  have hmode : Accessor.take.IsMode elementSample.blocks[2].face := rfl
  have hwhere : (elementSample.blocks[2].face.field "WHERE").orElse (.text "FROM_START") =
      .text (Place.fromEnd (.named "n")).key := rfl
  obtain ⟨index, u', hgrows, hrender, heffect⟩ := render_element rfl
    (List.mem_cons_of_mem _ List.mem_cons_self) hmem rfl rfl hmode hwhere hnamed hnames hcode rfl
  refine ⟨rfl, _, hmem, index, u', hrender, fun scope hvalue => ?_⟩
  exact (heffect u' hgrows.namesFrom.grows scope 'z' ['a', 'b', 'c']).2 (fun h => nomatch h.1) 1
    ⟨by decide, hvalue⟩

end Renderer

end Blockscribe
