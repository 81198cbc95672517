/-
Parts of lists and texts.

* `Scope.Cuts`: the text of an end cuts a sequence in front of an element; no text cuts at an edge.
* `Renderer.run_sliceStart`, `run_sliceEnd`: the two ends that are written for a part. The second
  one stands behind the last element of the part, so an end that is computed to zero has to reach
  everything.
* `Renderer.render_part`: what a part block writes gives the elements from the one place to the
  other.
-/
import Blockscribe.Proofs.Access.Position
import Blockscribe.Proofs.Handler.Imports

namespace Blockscribe

open Access
open Handler (computedIndex indexAt shiftFor sliceStart sliceEnd)

/-! ### Cuts -/

namespace Access.Scope

variable {scope : Scope} {text : String} {len edge k : ℕ} {v : ℤ}

/-- The text of an end cuts a sequence in front of the element number `k`; without a text, the cut
is at the edge. -/
def Cuts (scope : Scope) (len edge : ℕ) (text : String) (k : ℕ) : Prop :=
  ∃ limit?, scope.limit text = some limit? ∧ (limit?.map (clamp len)).getD edge = k

lemma cuts_empty (scope : Scope) (len edge : ℕ) : scope.Cuts len edge "" edge := ⟨none, rfl, rfl⟩

/-- An end with a value cuts where the value lies. -/
lemma cuts_of_eval (heval : scope.eval text = some v) (hclamp : clamp len v = k) :
    scope.Cuts len edge text k := by
  have hne : text ≠ "" := by
    rintro rfl
    have hempty : scope.eval "" = none := rfl
    exact nomatch hempty.symm.trans heval
  refine ⟨some v, ?_, hclamp⟩
  rw [limit, if_neg hne, heval]
  rfl

/-- A zero may be left out if it cuts at the edge. -/
lemma cuts_of_zero (heval : scope.eval text = some v) (hzero : v = 0 → edge = k)
    (hclamp : text ≠ "0" → clamp len v = k) :
    scope.Cuts len edge (if text = "0" then "" else text) k := by
  split
  · rename_i htext
    subst htext
    obtain rfl : 0 = v := Option.some.inj ((eval_toString scope 0).symm.trans heval)
    exact hzero rfl ▸ scope.cuts_empty len edge
  · rename_i htext
    exact cuts_of_eval heval (hclamp htext)

/-- The part between two cuts. -/
lemma effect_part_of_cuts {α : Type} {v : α} {xs : List α} {start stop : String} {i j : ℕ}
    (hstart : scope.Cuts xs.length 0 start i) (hstop : scope.Cuts xs.length xs.length stop j) :
    (Form.part start stop).effect scope v xs = some ((xs.take j).drop i, xs) := by
  obtain ⟨first?, hfirst, rfl⟩ := hstart
  obtain ⟨last?, hlast, rfl⟩ := hstop
  rw [Form.effect, hfirst, hlast]
  rfl

end Access.Scope

/-! ### An end that is counted from the end -/

namespace Handler

/-- What is made of the index of an end that is counted from the end. -/
def openEnd (text : String) : Plan String :=
  if (!Number.isNumeral text) = true then do
    Plan.writeDefinition "import_sys" "import sys"
    return text ++ " or sys.maxsize"
  else return if text = "0" then "" else text

lemma sliceEnd_fromEnd {face : Face} (hwhere : face.field "WHERE2" = .text "FROM_END") (site : Site)
    (operation : String) :
    sliceEnd site face operation = indexAt site "AT2" 0 true >>= openEnd := by
  rw [sliceEnd, hwhere]
  rfl

end Handler

/-- The end of a part that is counted from the end lies behind an element: it is the negative number
of the elements that follow, and where none do it reaches as far as the sequence does. -/
lemma Source.run_openEnd {source : Source} {dialect : Dialect} (hdialect : dialect ∈ Dialect.all)
    {s : Run} (hs : s.NamesFrom dialect.reserved) {text : String} {origin : ℕ} {shift : ℤ}
    (indent : String) (services : Services)
    (htext : ∀ s', s.Grows dialect.reserved s' → text = source.code s'.naming origin shift true) :
    ∃ stop t, ((Handler.openEnd text).run indent services).run s = .ok stop t ∧
      s.Grows dialect.reserved t ∧
      ∀ (scope : Scope) len k, k < len → scope.Admits len →
        scope.eval text = some (-((len - 1 - k : ℕ) : ℤ)) → scope.Cuts len len stop (k + 1) := by
  -- the negative number is an index of the next element, if there is one
  have hclamp : ∀ {len k : ℕ}, k < len → len - 1 - k ≠ 0 →
      clamp len (-((len - 1 - k : ℕ) : ℤ)) = k + 1 := fun hk hzero =>
    clamp_eq ⟨by omega, .inr (by omega)⟩
  cases source with
  | named name =>
      have hcode : text = computedIndex (s.naming name) shift true := htext s hs.grows
      have hnumeral : Number.isNumeral text = false := hcode ▸ Handler.isNumeral_computedIndex _ _
      refine ⟨text ++ " or sys.maxsize", s.define "import_sys" "import sys", ?_,
        Run.grows_define hs _ _, fun scope len k hk hadmits heval => ?_⟩
      · rw [Handler.openEnd, hnumeral]
        rfl
      · obtain ⟨hid, hor⟩ := Run.isIdentifier_naming hdialect hs name
        obtain ⟨size, hsize, hle⟩ := hadmits
        have hend := eval_orEverything hid hor scope shift true
        rw [← hcode, heval, Option.bind_some] at hend
        by_cases hzero : len - 1 - k = 0
        · rw [if_pos (by omega), hsize] at hend
          exact Scope.cuts_of_eval hend (by rw [clamp_of_nonneg (by omega)]; omega)
        · rw [if_neg (by omega)] at hend
          exact Scope.cuts_of_eval hend (hclamp hk hzero)
  | empty | number =>
      obtain ⟨i, hi⟩ : ∃ i : ℤ, text = toString i := ⟨_, htext s hs.grows⟩
      have hnumeral : Number.isNumeral text = true := hi ▸ Number.isNumeral_toString i
      refine ⟨if text = "0" then "" else text, s, ?_, hs.grows, fun scope len k hk _ heval => ?_⟩
      · rw [Handler.openEnd, hnumeral]
        rfl
      · have hvalue : i = -((len - 1 - k : ℕ) : ℤ) :=
          Option.some.inj ((eval_toString scope i).symm.trans (hi ▸ heval))
        refine Scope.cuts_of_zero heval (fun hzero => by omega) fun hne => hclamp hk fun hlast => ?_
        obtain rfl : i = 0 := by omega
        exact hne hi

/-! ### What is written for the ends -/

namespace Renderer

section Ends

variable {r : Renderer} {b : Block} {s : Run} {place : Place}
  (hw : r.workspace.validate = .ok ()) (hr : r.handlers = Handler.standard)
  (hdialect : r.style.dialect ∈ Dialect.all) (hb : b ∈ r.workspace.blocks)

include hw hr hdialect hb

/-- The start that is written for a part lies in front of its first element. -/
lemma run_sliceStart (hplace : place ≠ .last) (hwhere : b.face.field "WHERE1" = .text place.key)
    (hgiven : place.Given r.workspace b "AT1") (hs : s.NamesFrom r.style.dialect.reserved)
    (operation : String) :
    ∃ start s', ((sliceStart r.site b.face operation).run r.style.indent
        (r.services r.render b)).run s = .ok start s' ∧
      s.Grows r.style.dialect.reserved s' ∧
      ∀ s'', s'.Grows r.style.dialect.reserved s'' → ∀ scope len k,
        place.Addresses scope s''.naming r.site.origin len k → scope.Cuts len 0 start k := by
  rw [sliceStart, hwhere]
  cases place with
  | last => exact absurd rfl hplace
  | first =>
      refine ⟨"", s, rfl, hs.grows, fun s'' _ scope len k haddresses => ?_⟩
      obtain ⟨-, rfl⟩ := haddresses
      exact scope.cuts_empty len 0
  | fromStart source =>
      obtain ⟨text, s', hrun, hgrows, htext⟩ := run_indexAt_eval hw hr hdialect hb hgiven hs 0 false
      refine ⟨if text = "0" then "" else text, s', Plan.run_bind_of_ok hrun, hgrows,
        fun s'' hlater scope len k haddresses => ?_⟩
      obtain ⟨hk, hholds⟩ := haddresses
      have heval := (htext s'' hlater).2 scope k hholds
      rw [if_neg Bool.false_ne_true, add_zero] at heval
      exact Scope.cuts_of_zero heval (fun hzero => by omega) fun _ => clamp_eq ⟨hk, .inl rfl⟩
  | fromEnd source =>
      obtain ⟨text, s', hrun, hgrows, htext⟩ := run_indexAt_eval hw hr hdialect hb hgiven hs 1 true
      refine ⟨text, s', hrun, hgrows, fun s'' hlater scope len k haddresses => ?_⟩
      obtain ⟨hk, hholds⟩ := haddresses
      have heval := (htext s'' hlater).2 scope _ hholds
      rw [if_pos rfl] at heval
      exact Scope.cuts_of_eval heval (clamp_eq ⟨hk, .inr (by omega)⟩)

/-- The end that is written for a part lies behind its last element. -/
lemma run_sliceEnd (hplace : place ≠ .first) (hwhere : b.face.field "WHERE2" = .text place.key)
    (hgiven : place.Given r.workspace b "AT2") (hs : s.NamesFrom r.style.dialect.reserved)
    (operation : String) :
    ∃ stop s', ((sliceEnd r.site b.face operation).run r.style.indent
        (r.services r.render b)).run s = .ok stop s' ∧
      s.Grows r.style.dialect.reserved s' ∧
      ∀ s'', s'.Grows r.style.dialect.reserved s'' → ∀ scope len k, scope.Admits len →
        place.Addresses scope s''.naming r.site.origin len k → scope.Cuts len len stop (k + 1) := by
  cases place with
  | first => exact absurd rfl hplace
  | last =>
      rw [sliceEnd, hwhere]
      refine ⟨"", s, rfl, hs.grows, fun s'' _ scope len k _ haddresses => ?_⟩
      obtain ⟨hk, rfl⟩ := haddresses
      rw [show len - 1 + 1 = len by omega]
      exact scope.cuts_empty len len
  | fromStart source =>
      obtain ⟨text, s', hrun, hgrows, htext⟩ := run_indexAt_eval hw hr hdialect hb hgiven hs 1 false
      rw [sliceEnd, hwhere]
      refine ⟨text, s', hrun, hgrows, fun s'' hlater scope len k _ haddresses => ?_⟩
      obtain ⟨hk, hholds⟩ := haddresses
      have heval := (htext s'' hlater).2 scope k hholds
      rw [if_neg Bool.false_ne_true] at heval
      exact Scope.cuts_of_eval heval (by rw [clamp_of_nonneg (by omega)]; omega)
  | fromEnd source =>
      obtain ⟨text, s', hrun, hgrows, htext⟩ := run_indexAt_eval hw hr hdialect hb hgiven hs 0 true
      obtain ⟨stop, t, hstop, hgrows', hcuts⟩ := source.run_openEnd hdialect hgrows.namesFrom
        r.style.indent (r.services r.render b) fun s'' hlater => (htext s'' hlater).1
      rw [Handler.sliceEnd_fromEnd hwhere]
      refine ⟨stop, t, (Plan.run_bind_of_ok hrun).trans hstop, hgrows.trans hgrows',
        fun s'' hlater scope len k hadmits haddresses => ?_⟩
      obtain ⟨hk, hholds⟩ := haddresses
      have heval := (htext s'' (hgrows'.trans hlater)).2 scope _ hholds
      rw [if_pos rfl, add_zero] at heval
      exact hcuts scope len k hk hadmits heval

end Ends

end Renderer

/-! ### Parts -/

/-- Parts of lists and of texts. -/
inductive Excerpt
  | sublist
  | substring

namespace Excerpt

/-- The type of the blocks. -/
def type : Excerpt → String
  | sublist => "lists_getSublist"
  | substring => "text_getSubstring"

/-- The socket for the list or text. -/
def socket : Excerpt → String
  | sublist => "LIST"
  | substring => "STRING"

/-- What an empty socket stands for. -/
def default : Excerpt → String
  | sublist => "[]"
  | substring => "''"

end Excerpt

namespace Renderer

/-- The handler of a part block asks for the list or text and for the ends. -/
lemma outcome_excerpt {r : Renderer} (hr : r.handlers = Handler.standard) {b : Block}
    {kind : Excerpt} (htype : b.type = kind.type) :
    ∃ operation, r.outcome b = (Plan.expr kind.socket .member kind.default >>=
      Handler.slice r.site b.face operation).run r.style.indent (r.services r.render b) := by
  cases kind with
  | sublist =>
      exact ⟨_, outcome_eq hr htype (rfl : _ = some Handler.Lists.getSublist)⟩
  | substring =>
      exact ⟨_, outcome_eq hr htype (rfl : _ = some Handler.Texts.getSubstring)⟩

/-- **Part blocks select the addressed part.** In an accepted workspace, with the standard handlers,
a known dialect and either way to count, let an enabled block give a part of a list or text, from a
place that is the first one or is counted from either end, to a place that is the last one or is
counted from either end. Each position that is counted is given by a number block, by a variable or
by an empty socket. If the list or text renders to some code, the block renders to that code with a
slice behind it. Let the slice be evaluated with any values of the names, in this state or a later
one, for a sequence that is no longer than the largest size: if the places address elements, it
gives the elements from the first of the two to the second, and nothing if the second is in front of
the first. -/
theorem render_part {w : Workspace} (hw : w.validate = .ok ()) {style : Style}
    (hdialect : style.dialect ∈ Dialect.all) {b : Block} (hb : b ∈ w.blocks)
    (henabled : b.disabled = false) {kind : Excerpt} (htype : b.type = kind.type)
    {lower upper : Place} (hlower : lower ≠ .last) (hupper : upper ≠ .first)
    (hwhere₁ : b.face.field "WHERE1" = .text lower.key)
    (hwhere₂ : b.face.field "WHERE2" = .text upper.key)
    (hgiven₁ : lower.Given w b "AT1") (hgiven₂ : upper.Given w b "AT2") {s t : Run}
    (hs : s.NamesFrom style.dialect.reserved) {code : String}
    (hcode : ((standard w style).expression (standard w style).render b kind.socket
      (.rank .member) kind.default).run s = .ok code t) :
    ∃ start stop t', t.Grows style.dialect.reserved t' ∧
      ((standard w style).render b).run s = ((standard w style).complete b
        (.expr ((Form.part start stop).text code) .member)).run t' ∧
      ∀ t'', t'.Grows style.dialect.reserved t'' → ∀ (scope : Scope) {α : Type} (v : α) (xs : List α)
        (i j : ℕ), scope.Admits xs.length →
        lower.Addresses scope t''.naming (standard w style).site.origin xs.length i →
        upper.Addresses scope t''.naming (standard w style).site.origin xs.length j →
        (Form.part start stop).effect scope v xs = some ((xs.take (j + 1)).drop i, xs) ∧
          (j < i → (xs.take (j + 1)).drop i = []) := by
  obtain ⟨operation, houtcome⟩ := outcome_excerpt (r := standard w style) rfl htype
  have ht : t.NamesFrom style.dialect.reserved :=
    ((extends_expression (extends_render (standard w style)) b kind.socket (.rank .member)
      kind.default).grows_of_ok hs hcode).namesFrom
  obtain ⟨start, u, hstart, hgrows, hfirst⟩ := run_sliceStart (r := standard w style) hw rfl hdialect
    hb hlower hwhere₁ hgiven₁ ht operation
  obtain ⟨stop, t', hstop, hgrows', hlast⟩ := run_sliceEnd (r := standard w style) hw rfl hdialect
    hb hupper hwhere₂ hgiven₂ hgrows.namesFrom operation
  have hrun : ((standard w style).outcome b).run s =
      .ok (.expr ((Form.part start stop).text code) .member) t' := by
    rw [houtcome, Plan.run_expr_bind]
    refine (Running.run_bind_of_ok hcode).trans ?_
    exact (Plan.run_bind_of_ok hstart).trans (Plan.run_bind_of_ok hstop)
  refine ⟨start, stop, t', hgrows.trans hgrows', ?_,
    fun t'' hlater scope α v xs i j hadmits hi hj => ⟨?_, fun hlt => ?_⟩⟩
  · rw [render_eq_outcome (r := standard w style) hw hb henabled, Running.run_bind_of_ok hrun]
  · exact Scope.effect_part_of_cuts (hfirst t'' (hgrows'.trans hlater) scope _ i hi)
      (hlast t'' hlater scope _ j hadmits hj)
  · refine List.drop_eq_nil_of_le ?_
    rw [List.length_take]
    omega

/-- The part of the list `x` from the second position to the position `n`, counted from the end. -/
def excerptSample : Workspace :=
  Workspace.edited ["x", "n"]
    [.add ⟨"variables_get", [("VAR", .text "x")], [], none, .null, false, []⟩,
      .add ⟨"math_number", [("NUM", .int 2)], [], none, .null, false, []⟩,
      .add ⟨"variables_get", [("VAR", .text "n")], [], none, .null, false, []⟩,
      .add ⟨"lists_getSublist", [("WHERE1", .text "FROM_START"), ("WHERE2", .text "FROM_END")],
        [⟨"LIST", .value, some 1⟩, ⟨"AT1", .value, some 2⟩, ⟨"AT2", .value, some 3⟩], none, .null,
        false, []⟩]

theorem render_part_excerptSample : excerptSample.validate = .ok () ∧
    ∃ b ∈ excerptSample.blocks, ∃ start stop t',
      ((standard excerptSample ⟨.python, true, "  ", .whole 60⟩).render b).run
        (.closed Dialect.python.reserved) =
        ((standard excerptSample ⟨.python, true, "  ", .whole 60⟩).complete b
          (.expr ((Form.part start stop).text "x") .member)).run t' ∧
      ∀ scope : Scope, scope.Admits 4 → scope.value (t'.naming "n") = some 1 →
        (Form.part start stop).effect scope 'z' ['a', 'b', 'c', 'd'] =
          some (['b', 'c', 'd'], ['a', 'b', 'c', 'd']) := by
  obtain ⟨x, hx, hcounts⟩ := Value.exists_toDouble_int (n := 2) (by decide)
  have hmem : excerptSample.blocks[3] ∈ excerptSample.blocks := List.getElem_mem _
  have hnumber : excerptSample.Gives excerptSample.blocks[3] "AT1" (.number 2) :=
    .number (.of_plugged rfl rfl : excerptSample.Operand _ "AT1" (some excerptSample.blocks[1]))
      ⟨rfl, rfl, rfl⟩ hx hcounts (by decide)
  have hnamed : excerptSample.Gives excerptSample.blocks[3] "AT2" (.named "n") :=
    .named (.of_plugged rfl rfl : excerptSample.Operand _ "AT2" (some excerptSample.blocks[2]))
      ⟨rfl, rfl, rfl⟩ rfl (by decide)
  have hlower : Place.fromStart (.number 2) ≠ .last := fun h => nomatch h
  have hupper : Place.fromEnd (.named "n") ≠ .first := fun h => nomatch h
  have hnames : (Run.closed Dialect.python.reserved).NamesFrom Dialect.python.reserved := ⟨[], rfl⟩
  have hcode : ((standard excerptSample ⟨.python, true, "  ", .whole 60⟩).expression
      (standard excerptSample ⟨.python, true, "  ", .whole 60⟩).render excerptSample.blocks[3]
      Excerpt.sublist.socket (.rank .member) Excerpt.sublist.default).run
        (.closed Dialect.python.reserved) =
      .ok "x" ((Run.closed Dialect.python.reserved).named "x" .variable).2 := by
    have hname : ((Run.closed Dialect.python.reserved).named "x" .variable).1 = "x" := by
      decide +kernel
    have hlist : excerptSample.Operand excerptSample.blocks[3] "LIST"
        (some excerptSample.blocks[0]) := .of_plugged rfl rfl
    have hfield : excerptSample.blocks[0].face.field "VAR" = .text "x" := rfl
    have hrun := expression_of_named (r := standard excerptSample ⟨.python, true, "  ", .whole 60⟩) rfl
      rfl hmem hlist ⟨rfl, rfl, rfl⟩ hfield (by decide) hnames .member "[]"
    rw [hname] at hrun
    exact hrun
  obtain ⟨start, stop, t', hgrows, hrender, heffect⟩ := render_part rfl
    (List.mem_cons_of_mem _ List.mem_cons_self) hmem rfl rfl hlower hupper rfl rfl hnumber hnamed
    hnames hcode
  refine ⟨rfl, _, hmem, start, stop, t', hrender, fun scope hadmits hvalue => ?_⟩
  exact (heffect t' hgrows.namesFrom.grows scope 'z' ['a', 'b', 'c', 'd'] 1 3 hadmits
    ⟨by decide, rfl⟩ ⟨by decide, hvalue⟩).1

end Renderer

end Blockscribe
