/-
Disabled blocks in chains of statements leave no trace.

* `Generator.generate_of_mirrors`: workspaces whose blocks mirror each other, with the same comments
  and top-level blocks in the same order, give the same program.
* `Generator.generate_of_disabled`: so a disabled block in a chain of statements may be left out, and
  nothing that it says or holds makes a difference.
-/
import Blockscribe.Proofs.Render.Mirror
import Blockscribe.Proofs.Workspace.Apart
import Blockscribe.Proofs.Workspace.Bypass

namespace Blockscribe.Generator

open Workspace (Lined)

variable {g : Generator} {w v : Workspace} {d e : Block}

/-- Workspaces whose blocks mirror each other give the same program. -/
lemma generate_of_mirrors {M : Block → Block → Prop} {idle : Block → Prop}
    (h : (g.renderer w).Mirrors (g.renderer v) M)
    (hnames : ∀ b ∈ w.blocks, (b.sockets.map Socket.name).Nodup)
    (hcomment : ∀ b b', M b b' → b'.comment = b.comment)
    (hidle : ∀ b', idle b' → (g.renderer v).render b' = pure (.statement ""))
    (hlined : Lined M idle w.topBlocks v.topBlocks) {text : String}
    (htext : (g.generate w).1 = .ok text) : (g.generate v).1 = .ok text := by
  have hrender : ∀ b b', M b b' → Running.Refines g.style.dialect.reserved
      (fun p p' => (Renderer.topText p = "" ↔ Renderer.topText p' = "") ∧
        Renderer.topText p = Renderer.topText p')
      ((g.renderer w).render b) ((g.renderer v).render b') := by
    intro b b' hb
    refine (h.refines_render (fun b b' hb => h.commentsFor_eq hnames hcomment hb) b b' hb).mono ?_
    rintro p _ rfl
    exact ⟨Iff.rfl, rfl⟩
  have hprogram : Running.Refines g.style.dialect.reserved Eq (g.program w) (g.program v) := by
    refine (Renderer.refines_renderTops hrender hidle hlined).bind ?_
    rintro body body' ⟨ts, ts', hsame, -, rfl, rfl⟩
    obtain rfl := List.forall₂_eq_eq_eq ▸ hsame
    have hdeclared : v.declared = w.declared := h.declared
    rw [hdeclared]
    exact refines_finish Iff.rfl fun _ _ => rfl
  obtain ⟨text', htext', rfl⟩ := generate_of_refines h.valid' h.declared hprogram htext
  exact htext'

/-- Workspaces that agree apart from a disabled block, to which something refers, give the same
program. -/
lemma generate_of_agreement (hw : w.WellFormed) (hvalid : w.validate = .ok ())
    (hnames : ∀ b ∈ w.blocks, (b.sockets.map Socket.name).Nodup)
    (hlinked : ∃ l ∈ w.links, l.child = d.id) (hv : v.WellFormed) (hvalid' : v.validate = .ok ())
    (h : w.AgreesApart v d e)
    (hvalue : (∃ l ∈ w.links, l.child = d.id ∧ l.kind = some .value) →
      d.next = none ∧ v.collected e = w.collected d) {text : String}
    (htext : (g.generate w).1 = .ok text) : (g.generate v).1 = .ok text := by
  have hmirrors : (g.renderer w).Mirrors (g.renderer v) fun b b' => b' = b ∧ b ∈ w.apart d :=
    ⟨rfl, rfl, h.declared, hw, hv, hvalid, hvalid', h.mirrors hw hv hvalid hvalid' hvalue⟩
  refine generate_of_mirrors hmirrors hnames ?_ (fun _ hidle => hidle.elim)
    (h.lined hw hv hvalid hvalid' hlinked fun _ => False) htext
  rintro b _ ⟨rfl, -⟩
  rfl

/-- If the block follows another one or stands in a statement socket, nothing else is asked. -/
lemma generate_of_agreesApart (hw : w.WellFormed) (hvalid : w.validate = .ok ())
    (hnames : ∀ b ∈ w.blocks, (b.sockets.map Socket.name).Nodup)
    (hlinked : ∃ l ∈ w.links, l.child = d.id ∧ l.kind ≠ some .value) (hv : v.WellFormed)
    (hvalid' : v.validate = .ok ()) (h : w.AgreesApart v d e) {text : String}
    (htext : (g.generate w).1 = .ok text) : (g.generate v).1 = .ok text := by
  obtain ⟨l, hl, hchild, hother⟩ := hlinked
  refine generate_of_agreement hw hvalid hnames ⟨l, hl, hchild⟩ hv hvalid' h ?_ htext
  rintro ⟨l', hl', hchild', hkind⟩
  obtain rfl := List.inj_on_of_nodup_map (Workspace.nodup_of_validate hvalid) hl hl'
    (hchild.trans hchild'.symm)
  exact absurd hkind hother

/-- **Disabled statement blocks are transparent.** Let a block of an accepted workspace, in which the
sockets of each block have distinct names, be disabled and follow another block or stand in a
statement socket. If a program is generated, with any style and any handlers, then the same program
is generated if the link to the block leads past it and nothing follows it any more. Nor does it
matter what the block says or holds: every other accepted workspace that agrees with this one apart
from the block and what is beneath it gives the same program, as long as the block is disabled and
followed by the same block. -/
theorem generate_of_disabled (g : Generator) {w : Workspace} (hw : w.WellFormed)
    (hvalid : w.validate = .ok ()) (hnames : ∀ b ∈ w.blocks, (b.sockets.map Socket.name).Nodup)
    {d : Block} (hd : d ∈ w.blocks) (hdisabled : d.disabled = true)
    (hlinked : ∃ l ∈ w.links, l.child = d.id ∧ l.kind ≠ some .value) :
    (∀ text, (g.generate w).1 = .ok text → (g.generate (w.bypass d)).1 = .ok text) ∧
    ∀ v e, v.WellFormed → v.validate = .ok () →
      (∀ b ∈ v.blocks, (b.sockets.map Socket.name).Nodup) → w.AgreesApart v d e →
      ∀ text, (g.generate w).1 = .ok text ↔ (g.generate v).1 = .ok text := by
  refine ⟨fun text htext => ?_, fun v e hv hvalid' hnames' h text => ⟨fun htext => ?_, fun htext => ?_⟩⟩
  · have hmirrors : (g.renderer w).Mirrors (g.renderer (w.bypass d)) (w.Kept d) :=
      ⟨rfl, rfl, rfl, hw, hw.bypass hd, hvalid, Workspace.validate_bypass hvalid hd,
        Workspace.mirrors_bypass hw hvalid hd hdisabled hlinked⟩
    refine generate_of_mirrors hmirrors hnames ?_ ?_ (Workspace.lined_bypass hw hvalid hd hlinked)
      htext
    · rintro b _ ⟨-, -, rfl⟩
      rfl
    · rintro _ rfl
      have hmem : Block.bypass d d ∈ (w.bypass d).blocks := List.mem_map_of_mem hd
      have hnext : (Block.bypass d d).next = none := if_pos rfl
      have hrender := Renderer.render_of_disabled hmirrors.formed' hmirrors.valid' hmem hdisabled
      rw [hrender, hnext]
      rfl
  · exact generate_of_agreesApart hw hvalid hnames hlinked hv hvalid' h htext
  · obtain ⟨l, hl, hchild, hother⟩ := hlinked
    have hlink := h.exists_link hvalid hl hchild
    exact generate_of_agreesApart hv hvalid' hnames' ⟨l, hlink, hchild.trans h.id.symm, hother⟩ hw
      hvalid h.symm htext

/-- Two messages, with a disabled one between them. -/
def disabledSample : Workspace :=
  Workspace.edited []
    [.add ⟨"text", [("TEXT", .text "b")], [], none, .null, false, []⟩,
      .add ⟨"text_print", [], [⟨"TEXT", .value, some 1⟩], none, .null, false, []⟩,
      .add ⟨"text", [("TEXT", .text "x")], [], none, .text "dropped", false, []⟩,
      .add ⟨"text_print", [], [⟨"TEXT", .value, some 3⟩], some 2, .text "skipped", true, []⟩,
      .add ⟨"text", [("TEXT", .text "a")], [], none, .null, false, []⟩,
      .add ⟨"text_print", [], [⟨"TEXT", .value, some 5⟩], some 4, .null, false, []⟩]

theorem generate_of_disabled_disabledSample :
    ∃ d ∈ disabledSample.blocks, d.disabled = true ∧ ∃ text,
      ((⟨⟨.python, true, "  ", .whole 60⟩, Handler.standard⟩ : Generator).generate
        disabledSample).1 = .ok text ∧
      ((⟨⟨.python, true, "  ", .whole 60⟩, Handler.standard⟩ : Generator).generate
        (disabledSample.bypass d)).1 = .ok text := by
  have hmem : disabledSample.blocks[3] ∈ disabledSample.blocks := List.getElem_mem _
  obtain ⟨text, htext⟩ : ∃ text, ((⟨⟨.python, true, "  ", .whole 60⟩, Handler.standard⟩ :
      Generator).generate disabledSample).1 = .ok text :=
    ⟨"def main():\n  print('a')\n  print('b')\n\n\nif __name__ == \"__main__\":\n  main()\n", rfl⟩
  refine ⟨_, hmem, rfl, text, htext, ?_⟩
  exact (generate_of_disabled _ (Workspace.wellFormed_edited _ _) rfl (by decide) hmem rfl
    ⟨⟨6, 4, none⟩, by decide, rfl, by decide⟩).1 text htext

end Blockscribe.Generator
