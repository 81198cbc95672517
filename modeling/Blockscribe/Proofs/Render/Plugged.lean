/-
Disabled blocks in value sockets leave nothing but comments.

* `Workspace.PluggedInto`: a block is plugged into a value socket of another one.
* `collected_eq_nil`: no comments are collected from a block if it has none and neither have the
  blocks that are plugged into it, directly or further down.
* `Generator.generate_of_plugged`: so a disabled block without such comments is as good as an empty
  socket, and of any other disabled block only the comments make a difference.
-/
import Blockscribe.Proofs.Render.Disabled
import Blockscribe.Proofs.Render.Remarks
import Blockscribe.Proofs.Workspace.Unplug

namespace Blockscribe

open Relation (ReflTransGen TransGen)

namespace Workspace

/-- A block is plugged into a value socket of another one. -/
def PluggedInto (w : Workspace) (x y : BlockId) : Prop :=
  ∃ l ∈ w.links, l.parent = x ∧ l.child = y ∧ l.kind = some .value

variable {w : Workspace} {b c d : Block}

/-- What is found in a value socket is plugged into it. -/
lemma pluggedInto_of_targetOf (hw : w.WellFormed) (hb : b ∈ w.blocks)
    (hnames : (b.sockets.map Socket.name).Nodup) {s : Socket} (hs : s ∈ b.valueSockets)
    (h : w.targetOf b s.name = .ok (some c)) : w.PluggedInto b.id c.id := by
  obtain ⟨hmem, hkind⟩ := List.mem_filter.mp hs
  rw [hw.targetOf_eq hb (socket?_eq_some hnames hmem)] at h
  obtain ⟨id, htarget, hfind⟩ := Option.bind_eq_some_iff.mp (Except.ok.inj h)
  obtain rfl := (find?_eq_some hfind).2
  exact ⟨_, mem_links_of_socket hb hmem htarget, rfl, rfl, congrArg some (beq_iff_eq.mp hkind)⟩

/-- No comments are collected where there are none. The induction is on the values plugged in. -/
lemma collected_eq_nil (hw : w.WellFormed) (hvalid : w.validate = .ok ())
    (hnames : ∀ b ∈ w.blocks, (b.sockets.map Socket.name).Nodup) :
    ∀ b ∈ w.blocks, (∀ c ∈ w.blocks, ReflTransGen w.PluggedInto b.id c.id →
      c.comment.isTruthy = false) → w.collected b = .ok [] := by
  refine induction_below hw hvalid fun b hb ih hbare => ?_
  have hnested : Fault.Gives (fun nested => ∀ values ∈ nested, values = [])
      (b.valueSockets.mapM fun s => w.targetOf b s.name >>= w.collectedIn) := by
    refine Fault.gives_mapM fun s hs => (hw.gives_targetOf hb s.name).bind fun target htarget _ => ?_
    cases target with
    | none => exact Fault.gives_ok rfl
    | some c =>
        have henters := enters_of_targetOf htarget
        have hplugged := pluggedInto_of_targetOf hw hb (hnames b hb) hs htarget
        refine ⟨[], ih c henters.mem (.single ⟨b, hb, rfl, henters.1⟩) ?_, rfl⟩
        exact fun e he hpath => hbare e he (.head hplugged hpath)
  obtain ⟨nested, hok, hnil⟩ := hnested
  rw [collected_eq_step hvalid, hok, hbare b hb .refl, if_neg Bool.false_ne_true]
  exact congrArg Except.ok (List.flatten_eq_nil_iff.mpr hnil)

end Workspace

namespace Generator

variable {g : Generator} {w v : Workspace} {d e : Block}

/-- A disabled block from which no comments are collected is as good as an empty socket. -/
lemma generate_of_unplug (hw : w.WellFormed) (hvalid : w.validate = .ok ())
    (hnames : ∀ b ∈ w.blocks, (b.sockets.map Socket.name).Nodup) (hd : w.Idle d)
    (hlinked : ∃ l ∈ w.links, l.Plugs d) (hcomments : w.collected d = .ok []) {text : String}
    (htext : (g.generate w).1 = .ok text) : (g.generate (w.unplug d)).1 = .ok text := by
  have hmirrors : (g.renderer w).Mirrors (g.renderer (w.unplug d)) (w.Staying d) :=
    ⟨rfl, rfl, rfl, hw, hw.unplug, hvalid, Workspace.validate_unplug hvalid,
      Workspace.mirrors_unplug hw hvalid hd hlinked hcomments⟩
  refine generate_of_mirrors hmirrors hnames ?_ ?_ (Workspace.lined_unplug hw hd hlinked) htext
  · rintro b _ ⟨-, -, rfl⟩
    rfl
  · exact fun b' hidle => Renderer.render_of_idle hmirrors.formed' hmirrors.valid' hidle

/-- **Of a disabled block in a value socket only comments are left.** Let a block of an accepted
workspace, in which the sockets of each block have distinct names, be disabled and plugged into a
value socket, and let nothing follow it. If neither the block nor what is plugged into it, directly
or further down, has a comment, and a program is generated, with any style and any handlers, then the
same program is generated with the socket empty. In any case every other accepted workspace gives the
same program if it agrees with this one apart from the block and what is beneath it, as long as the
block is disabled and the same comments are collected from it; its type, its fields and the code in
its sockets make no difference. -/
theorem generate_of_plugged (g : Generator) {w : Workspace} (hw : w.WellFormed)
    (hvalid : w.validate = .ok ()) (hnames : ∀ b ∈ w.blocks, (b.sockets.map Socket.name).Nodup)
    {d : Block} (hd : d ∈ w.blocks) (hdisabled : d.disabled = true) (hlast : d.next = none)
    (hlinked : ∃ l ∈ w.links, l.child = d.id ∧ l.kind = some .value) :
    ((∀ c ∈ w.blocks, ReflTransGen w.PluggedInto d.id c.id → c.comment.isTruthy = false) →
      ∀ text, (g.generate w).1 = .ok text → (g.generate (w.unplug d)).1 = .ok text) ∧
    ∀ v e, v.WellFormed → v.validate = .ok () →
      (∀ b ∈ v.blocks, (b.sockets.map Socket.name).Nodup) → w.AgreesApart v d e →
      v.collected e = w.collected d →
      ∀ text, (g.generate w).1 = .ok text ↔ (g.generate v).1 = .ok text := by
  refine ⟨fun hbare text htext => ?_, fun v e hv hvalid' hnames' h hcomments text => ?_⟩
  · have hcomments := Workspace.collected_eq_nil hw hvalid hnames d hd hbare
    exact generate_of_unplug hw hvalid hnames ⟨hd, hdisabled, hlast⟩ hlinked hcomments htext
  · obtain ⟨l, hl, hchild, -⟩ := hlinked
    have hlink := h.exists_link hvalid hl hchild
    constructor
    · intro htext
      exact generate_of_agreement hw hvalid hnames ⟨l, hl, hchild⟩ hv hvalid' h
        (fun _ => ⟨hlast, hcomments⟩) htext
    · intro htext
      exact generate_of_agreement hv hvalid' hnames' ⟨l, hlink, hchild.trans h.id.symm⟩ hw hvalid
        h.symm (fun _ => ⟨h.next.trans hlast, hcomments.symm⟩) htext

/-- A message in which a disabled value stands, with another value inside. -/
def pluggedSample : Workspace :=
  Workspace.edited []
    [.add ⟨"text", [("TEXT", .text "x")], [], none, .null, false, []⟩,
      .add ⟨"text_trim", [("MODE", .text "BOTH")], [⟨"TEXT", .value, some 1⟩], none, .null, true, []⟩,
      .add ⟨"text_print", [], [⟨"TEXT", .value, some 2⟩], none, .text "kept", false, []⟩]

theorem generate_of_plugged_pluggedSample :
    ∃ d ∈ pluggedSample.blocks, d.disabled = true ∧ ∃ text,
      ((⟨⟨.python, true, "  ", .whole 60⟩, Handler.standard⟩ : Generator).generate
        pluggedSample).1 = .ok text ∧
      ((⟨⟨.python, true, "  ", .whole 60⟩, Handler.standard⟩ : Generator).generate
        (pluggedSample.unplug d)).1 = .ok text := by
  have hmem : pluggedSample.blocks[1] ∈ pluggedSample.blocks := List.getElem_mem _
  obtain ⟨text, htext⟩ : ∃ text, ((⟨⟨.python, true, "  ", .whole 60⟩, Handler.standard⟩ :
      Generator).generate pluggedSample).1 = .ok text :=
    ⟨"def main():\n  # kept\n  print('')\n\n\nif __name__ == \"__main__\":\n  main()\n", rfl⟩
  -- in the sample every block stands before the one that it is plugged into
  have hbelow : ∀ id, ReflTransGen pluggedSample.PluggedInto 2 id → id ≤ 2 := by
    have hlinks : ∀ l ∈ pluggedSample.links, l.child ≤ l.parent := by decide
    intro id hpath
    induction hpath with
    | refl => exact le_rfl
    | tail _ hstep ih =>
        obtain ⟨l, hl, rfl, rfl, -⟩ := hstep
        exact (hlinks l hl).trans ih
  have hbare : ∀ c ∈ pluggedSample.blocks, c.id ≤ 2 → c.comment.isTruthy = false := by decide
  refine ⟨_, hmem, rfl, text, htext, ?_⟩
  exact (generate_of_plugged _ (Workspace.wellFormed_edited _ _) rfl (by decide) hmem rfl rfl
    ⟨⟨3, 2, some .value⟩, by decide, rfl, rfl⟩).1
      (fun c hc hpath => hbare c hc (hbelow c.id hpath)) text htext

end Generator

end Blockscribe
