/-
Blocks that join texts.

* `Workspace.Fills`: the part that is plugged into a socket of a block.
* `partSockets`: the sockets of a block that joins texts, from which the number of parts is read.
* `Renderer.run_parts`: the code of the parts, rendered one after the other.
* `Renderer.outcome_join`: what the handler gives. The name for the items of a list of parts is
  asked for after the parts, so it is none of theirs.
* `Renderer.render_join`: the text of a block that joins parts stands for their texts one after the
  other, however many there are, but for the characters that a literal alters.
-/
import Blockscribe.Proofs.Access.Position
import Blockscribe.Proofs.Joined.Value
import Blockscribe.Proofs.Render.Bodies

namespace Blockscribe

open Blockscribe.Joined

/-! ### Identifiers of variables of their own -/

namespace Run

variable {reserved : List String} {s s' : Run}

/-- A variable of its own gets an identifier that is not reserved. -/
lemma legal_fresh (hs : s.NamesFrom reserved) (hint : String) (kind : NameKind) :
    (s.fresh hint kind).1 ∉ reserved ∧ isIdentifier (s.fresh hint kind).1 = true := by
  obtain ⟨requests, hnames⟩ := hs
  have hreserved := (NameTable.sound_history reserved requests).reserved_eq
  rw [← hnames] at hreserved
  exact ⟨hreserved ▸ NameTable.choose_notMem_reserved s.names hint,
    NameTable.isIdentifier_choose s.names hint⟩

/-- It is not the identifier of a name that is known. -/
lemma fresh_ne_of_lookup (hs : s.NamesFrom reserved) {key : String × NameKind} {id : String}
    (h : s.names.known.lookup key = some id) (hint : String) (kind : NameKind) :
    (s.fresh hint kind).1 ≠ id := by
  obtain ⟨requests, hnames⟩ := hs
  rintro rfl
  have hsound := NameTable.sound_history reserved requests
  rw [hnames] at h
  refine hsound.lookup_ne_choose key hint (h.trans (congrArg some ?_))
  exact congrArg (NameTable.choose · hint) hnames

/-- The name of a variable is known. -/
def Knows (s : Run) (name : String) : Prop :=
  s.names.known.lookup (NameTable.keyOf name .variable) = some (s.naming name)

lemma knows_named (s : Run) (name : String) : (s.named name .variable).2.Knows name := by
  have hknown := NameTable.lookup_named s.names name .variable
  rw [← names_named] at hknown
  rw [Knows, naming, NameTable.named_of_lookup hknown, hknown]

/-- A name that is known stays so, with its identifier. -/
lemma Knows.of_grows {name : String} (h : s.Knows name) (hgrows : s.Grows reserved s') :
    s'.naming name = s.naming name ∧ s'.Knows name := by
  have hknown := hgrows.known _ _ h
  have hnaming : s'.naming name = s.naming name := by
    rw [naming, NameTable.named_of_lookup hknown]
  exact ⟨hnaming, hknown.trans (congrArg some hnaming.symm)⟩

end Run

/-! ### Parts in a run -/

namespace Joined.Part

variable {reserved : List String} {s s' : Run} {part : Part}

/-- The identifier of a variable is known. -/
def Settled (s : Run) : Part → Prop
  | typed _ | number _ => True
  | named name => s.Knows name

/-- Later on, what is written for a part is still the same. -/
lemma Settled.of_grows (h : part.Settled s) (hgrows : s.Grows reserved s') :
    part.Settled s' ∧ part.code s'.naming = part.code s.naming := by
  cases part with
  | typed | number => exact ⟨trivial, rfl⟩
  | named name =>
      obtain ⟨hnaming, hknows⟩ := Run.Knows.of_grows h hgrows
      exact ⟨hknows, hnaming⟩

lemma map_code_of_grows {parts : List Part} (h : ∀ part ∈ parts, part.Settled s)
    (hgrows : s.Grows reserved s') :
    parts.map (Part.code s'.naming) = parts.map (Part.code s.naming) :=
  List.map_congr_left fun part hpart => ((h part hpart).of_grows hgrows).2

end Joined.Part

/-- What is plugged into a socket is a part of a text: a text block, a number block or a variable
block. Nothing and a disabled block are the empty text. -/
inductive Workspace.Fills (w : Workspace) (b : Block) (socket : String) : Part → Prop
  | empty : w.Operand b socket none → Fills w b socket (.typed "")
  | disabled {c : Block} : w.Operand b socket (some c) → c.disabled = true → c.next = none →
      Fills w b socket (.typed "")
  | typed {c : Block} : w.Operand b socket (some c) → c.IsLone "text" →
      Fills w b socket (.typed (c.face.fieldOr "TEXT" (.text "")).display)
  | number {c : Block} {x : Double} : w.Operand b socket (some c) → c.IsLone "math_number" →
      (c.face.fieldOr "NUM" (.int 0)).toDouble = .ok x → Fills w b socket (.number x)
  | named {c : Block} {name : String} : w.Operand b socket (some c) → c.IsLone "variables_get" →
      c.face.field "VAR" = .text name → name ≠ "" → Fills w b socket (.named name)

/-- The fields that are numbers are so with double precision. -/
def Workspace.Precise (w : Workspace) : Prop :=
  ∀ b ∈ w.blocks, ∀ entry ∈ b.fields, ∀ y, entry.2 = .real y → y.Canonical

/-- Identifiers that come from requests are legal for parts. -/
lemma Workspace.Fills.legal {w : Workspace} (hprecise : w.Precise) {b : Block} {socket : String}
    {part : Part} (h : w.Fills b socket part) {s : Run} (hs : s.NamesFrom Dialect.python.reserved) :
    part.Legal s.naming := by
  cases h with
  | empty | disabled | typed => trivial
  | number hoperand _ hx => exact Face.canonical_of_fieldOr (hprecise _ (hoperand.mem rfl)) hx
  | named =>
      obtain ⟨hfree, hid⟩ := Run.legal_named hs _ .variable
      exact ⟨hid, hfree⟩

/-! ### The sockets -/

/-- The names of the sockets for a number of parts. -/
def partSockets (n : ℕ) : List String := (List.range n).map fun i => "ADD" ++ toString i

/-- As many sockets carry the word for parts and a number as there are parts, in any order and
beside other sockets. -/
lemma numbered_partSockets {b : Block} {n : ℕ} {others : List String}
    (h : (b.sockets.map Socket.name).Perm (partSockets n ++ others))
    (hothers : ∀ name ∈ others, Face.isNumbered "ADD" name = false) :
    b.face.numbered "ADD" = n := by
  have hfilter := (h.filter (Face.isNumbered "ADD")).length_eq
  have hparts : (partSockets n).filter (Face.isNumbered "ADD") = partSockets n :=
    List.filter_eq_self.mpr (List.forall_mem_map.mpr fun i _ => Face.isNumbered_toString "ADD" i)
  have hnone : others.filter (Face.isNumbered "ADD") = [] :=
    List.filter_eq_nil_iff.mpr fun name hname => by simp [hothers name hname]
  rw [List.filter_append, hparts, hnone, List.append_nil, partSockets, List.length_map,
    List.length_range] at hfilter
  exact hfilter

/-! ### What the handlers give -/

namespace Renderer

variable {r : Renderer} {b : Block} {s : Run}

lemma outcome_text (hr : r.handlers = Handler.standard) {c : Block} (hc : c.IsLone "text")
    (s : Run) :
    (r.outcome c).run s =
      .ok (.value (quote (c.face.fieldOr "TEXT" (.text "")).display) (.rank .atomic)) s := by
  rw [outcome_eq hr hc.type_eq (rfl : _ = some Handler.Texts.literal)]
  rfl

/-- Every number has code, also if it is not finite. -/
lemma exists_outcome_number (hr : r.handlers = Handler.standard) {c : Block} {x : Double}
    (hc : c.IsLone "math_number") (hx : (c.face.fieldOr "NUM" (.int 0)).toDouble = .ok x) (s : Run)
    (naming : String → String) :
    ∃ g : Rank, (r.outcome c).run s =
      .ok (.value (Part.code naming (.number x)) (.rank g)) s := by
  have hrun : (r.outcome c).run s = .ok (Handler.Variables.numberOutcome x) s := by
    rw [outcome_eq hr hc.type_eq (rfl : _ = some Handler.Variables.number), Handler.Variables.number,
      hx]
    rfl
  rw [hrun]
  cases x with
  | nan => exact ⟨.functionCall, rfl⟩
  | infinite negative =>
      cases negative with
      | false => exact ⟨.functionCall, rfl⟩
      | true => exact ⟨.unarySign, rfl⟩
  | finite negative m e =>
      refine ⟨if (Double.finite negative m e).isNegative then .unarySign else .atomic, ?_⟩
      have hcode : Part.code naming (.number (.finite negative m e)) =
          (Double.finite negative m e).plainText := (Double.plainText_eq _ _ _).symm
      rw [hcode]
      rfl

/-- A disabled block that nothing follows is rendered to no statements. -/
lemma render_of_lone_disabled (hw : r.workspace.validate = .ok ()) {c : Block}
    (hc : c ∈ r.workspace.blocks) (hdisabled : c.disabled = true) (hlast : c.next = none) :
    (r.render c).run s = .ok (.statement "") s := by
  rw [render_eq_step hw hc, step, if_pos hdisabled, Workspace.nextOf, hlast]
  rfl

section Parts

variable (hw : r.workspace.validate = .ok ()) (hr : r.handlers = Handler.standard)
  (hb : b ∈ r.workspace.blocks)

include hw hr hb

/-- A part is rendered to its code. -/
lemma run_part {socket : String} {part : Part} (hpart : r.workspace.Fills b socket part)
    (hs : s.NamesFrom Dialect.python.reserved) :
    ∃ s', (r.expression r.render b socket (.rank .none) "''").run s =
        .ok (part.code s'.naming) s' ∧
      s.Grows Dialect.python.reserved s' ∧ part.Settled s' := by
  have hwrap : ∀ (code : String) (g : Rank), wrap code g .none = code :=
    fun code g => wrap_of_le (by cases g <;> decide) code
  cases hpart with
  | empty hoperand => exact ⟨s, expression_of_missing hoperand, hs.grows, trivial⟩
  | disabled hoperand hdisabled hlast =>
      have hrender := render_of_lone_disabled (s := s) hw (hoperand.mem rfl) hdisabled hlast
      refine ⟨s, ?_, hs.grows, trivial⟩
      rw [expression, target?_of_operand hoperand]
      show ((r.render _) >>= _).run s = _
      rw [Running.run_bind_of_ok hrender]
      rfl
  | typed hoperand hlone =>
      refine ⟨s, ?_, hs.grows, trivial⟩
      rw [expression_of_code hw hb hoperand hlone.enabled hlone.last (quote_ne_empty _)
        (outcome_text hr hlone s), hwrap]
      rfl
  | @number c x hoperand hlone hx =>
      obtain ⟨g, houtcome⟩ := exists_outcome_number hr hlone hx s s.naming
      refine ⟨s, ?_, hs.grows, trivial⟩
      rw [expression_of_code hw hb hoperand hlone.enabled hlone.last (code_number_ne_empty _ x)
        houtcome, hwrap]
  | @named c name hoperand hlone hfield hname =>
      have hnaming : (s.named name .variable).2.naming name = (s.named name .variable).1 :=
        Run.naming_named (Run.grows_named hs name .variable).namesFrom.grows
      obtain ⟨-, hid⟩ := Run.legal_named hs name .variable
      refine ⟨(s.named name .variable).2, ?_, Run.grows_named hs name .variable,
        Run.knows_named s name⟩
      rw [expression_of_code hw hb hoperand hlone.enabled hlone.last
        (ne_empty_of_isIdentifier hid) (outcome_named hr hlone hfield hname s), hwrap, Part.code,
        hnaming]

/-- Parts are rendered to their code, one after the other. The induction is on the parts. -/
lemma run_parts {parts : List Part} {k : ℕ}
    (hparts : ∀ (i : ℕ) part, parts[i]? = some part →
      r.workspace.Fills b ("ADD" ++ toString (k + i)) part)
    (hs : s.NamesFrom Dialect.python.reserved) :
    ∃ s', (((List.range' k parts.length).mapM fun i =>
        Plan.expr ("ADD" ++ toString i) .none "''").run r.style.indent
          (r.services r.render b)).run s = .ok (parts.map (Part.code s'.naming)) s' ∧
      s.Grows Dialect.python.reserved s' ∧ ∀ part ∈ parts, part.Settled s' := by
  induction parts generalizing k s with
  | nil => exact ⟨s, rfl, hs.grows, nofun⟩
  | cons part parts ih =>
      obtain ⟨u, hfirst, hgrows, hsettled⟩ := run_part hw hr hb (hparts 0 part rfl) hs
      have hrest : ∀ i part, parts[i]? = some part →
          r.workspace.Fills b ("ADD" ++ toString (k + 1 + i)) part := by
        intro i part hpart
        rw [Nat.add_right_comm]
        exact hparts (i + 1) part hpart
      obtain ⟨s', hrun, hgrows', hall⟩ := ih hrest hgrows.namesFrom
      obtain ⟨hsettled', hcode⟩ := hsettled.of_grows hgrows'
      refine ⟨s', ?_, hgrows.trans hgrows', List.forall_mem_cons.mpr ⟨hsettled', hall⟩⟩
      rw [List.length_cons, List.range'_succ, List.mapM_cons, Plan.run_expr_bind]
      refine (Running.run_bind_of_ok hfirst).trans ?_
      rw [Plan.run_bind_of_ok hrun, List.map_cons, hcode]
      rfl

/-- What the handler of a block that joins texts gives. -/
lemma outcome_join (htype : b.type = "text_join") {parts : List Part} {others : List String}
    (hsockets : (b.sockets.map Socket.name).Perm (partSockets parts.length ++ others))
    (hothers : ∀ name ∈ others, Face.isNumbered "ADD" name = false)
    (hparts : ∀ (i : ℕ) part, parts[i]? = some part →
      r.workspace.Fills b ("ADD" ++ toString i) part)
    (hs : s.NamesFrom Dialect.python.reserved) :
    ∃ temporary rank t, (r.outcome b).run s =
        .ok (.expr (joinedCode temporary (parts.map (Part.code t.naming))) rank) t ∧
      s.Grows Dialect.python.reserved t ∧ (∀ part ∈ parts, part.Settled t) ∧
      isIdentifier temporary = true ∧ temporary ∉ Dialect.python.reserved ∧
      (3 ≤ parts.length → ∀ name, .named name ∈ parts → temporary ≠ t.naming name) := by
  have hcount := numbered_partSockets hsockets hothers
  have houtcome : r.outcome b =
      (Handler.Texts.join r.site b.face).run r.style.indent (r.services r.render b) :=
    outcome_eq hr htype (rfl : _ = some Handler.Texts.join)
  have hx : isIdentifier "x" = true ∧ "x" ∉ Dialect.python.reserved := by
    constructor <;> decide +kernel
  rw [houtcome, Handler.Texts.join, hcount]
  -- the four shapes of what is written
  rcases parts with - | ⟨part, - | ⟨other, - | ⟨third, rest⟩⟩⟩
  · exact ⟨"x", .atomic, s, rfl, hs.grows, List.forall_mem_nil _, hx.1, hx.2,
      fun h => absurd h (by simp)⟩
  · obtain ⟨t, hrun, hgrows, hsettled⟩ := run_part hw hr hb (hparts 0 part rfl) hs
    refine ⟨"x", .functionCall, t, ?_, hgrows, List.forall_mem_singleton.mpr hsettled, hx.1, hx.2,
      fun h => absurd h (by simp)⟩
    exact Running.run_bind_of_ok hrun
  · obtain ⟨u, hfirst, hgrows, hsettled⟩ := run_part hw hr hb (hparts 0 part rfl) hs
    obtain ⟨t, hsecond, hgrows', hsettled'⟩ :=
      run_part hw hr hb (hparts 1 other rfl) hgrows.namesFrom
    obtain ⟨hpart, hcode⟩ := hsettled.of_grows hgrows'
    refine ⟨"x", .additive, t, ?_, hgrows.trans hgrows',
      List.forall_mem_cons.mpr ⟨hpart, List.forall_mem_singleton.mpr hsettled'⟩, hx.1, hx.2,
      fun h => absurd h (by simp)⟩
    refine (Running.run_bind_of_ok hfirst).trans ((Running.run_bind_of_ok hsecond).trans ?_)
    rw [List.map_cons, hcode]
    rfl
  · obtain ⟨u, hrun, hgrows, hsettled⟩ := run_parts (k := 0) hw hr hb
      (fun i part hpart => by rw [Nat.zero_add]; exact hparts i part hpart) hs
    have hfresh : ((Plan.temporary "x").run r.style.indent (r.services r.render b)).run u =
        .ok (u.fresh "x" .variable).1 (u.fresh "x" .variable).2 := rfl
    obtain ⟨hfree, hid⟩ := Run.legal_fresh hgrows.namesFrom "x" .variable
    have hgrows' := Run.grows_fresh hgrows.namesFrom "x" .variable
    refine ⟨(u.fresh "x" .variable).1, .functionCall, (u.fresh "x" .variable).2, ?_,
      hgrows.trans hgrows', fun part hpart => ((hsettled part hpart).of_grows hgrows').1, hid,
      hfree, fun _ name hname => ?_⟩
    · have hcodes := Part.map_code_of_grows hsettled hgrows'
      rw [← List.range_eq_range'] at hrun
      refine (Plan.run_bind_of_ok hrun).trans ((Plan.run_bind_of_ok hfresh).trans ?_)
      rw [hcodes]
      rfl
    · have hknows : u.Knows name := hsettled _ hname
      rw [(hknows.of_grows hgrows').1]
      exact Run.fresh_ne_of_lookup hgrows.namesFrom hknows "x" .variable

end Parts

/-- The variable `x`, the text `50%` and nothing, joined in a block with another socket. -/
def joinSample : Workspace :=
  Workspace.edited ["x"]
    [.add ⟨"variables_get", [("VAR", .text "x")], [], none, .null, false, []⟩,
      .add ⟨"text", [("TEXT", .text "50%")], [], none, .null, false, []⟩,
      .add ⟨"text_join", [], [⟨"ADD2", .value, none⟩, ⟨"ADD0", .value, some 1⟩,
        ⟨"SEP", .value, none⟩, ⟨"ADD1", .value, some 2⟩], none, .null, false, []⟩]

end Renderer

end Blockscribe
