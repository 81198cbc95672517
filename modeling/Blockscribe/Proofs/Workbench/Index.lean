/-
What the queries of a workbench answer after every sequence of calls.

* `index_current`: the index is never out of date, so the top-level blocks are those that nothing
  refers to, and in an accepted workspace the inline blocks are those that a value socket refers to.
  Every block of an accepted workspace is below exactly one of the top-level blocks.
-/
import Blockscribe.Proofs.Workbench.Holding
import Blockscribe.Proofs.Workspace.Roots

namespace Blockscribe.Workbench

open Relation (ReflTransGen)

/-- **The index is never out of date, and the top-level blocks own everything.** After every sequence
of edits and queries, failing ones included: an index that has been kept is the one of the workspace
as it is. The query for the top-level blocks gives the blocks that nothing refers to, in the order in
which they were added. If validation accepts, the query whether a block is inline says whether the
one reference to it comes from a value socket, and every block is below exactly one of the top-level
blocks. -/
theorem index_current (declared : List String) (calls : List Call) :
    (∀ index, (reached declared calls).index = some index →
      index = (reached declared calls).plain.parentIndex) ∧
    ∃ tops t, topBlocks.run (reached declared calls) = .ok tops t ∧
      tops = (reached declared calls).plain.blocks.filter
        (fun b => (reached declared calls).plain.references b.id = 0) ∧
      (validate.run (reached declared calls) = .ok () (reached declared calls) →
        (∀ b ∈ (reached declared calls).plain.blocks, ∃ inline t,
          (isInline b.id).run (reached declared calls) = .ok inline t ∧
          (inline = true ↔ (reached declared calls).plain.references b.id = 1 ∧
            ∃ parent ∈ (reached declared calls).plain.blocks, ∃ s ∈ parent.sockets,
              s.kind = .value ∧ s.target = some b.id)) ∧
        ∀ b ∈ (reached declared calls).plain.blocks, ∃! top, top ∈ tops ∧
          ReflTransGen (reached declared calls).plain.Refers top.id b.id) := by
  obtain ⟨index, hreached, hindex⟩ := exists_reached declared calls
  have hw := Workspace.wellFormed_edited declared (calls.filterMap Call.edit?)
  generalize Workspace.edited declared (calls.filterMap Call.edit?) = w at hreached hindex hw
  rw [hreached, plain_holding]
  refine ⟨?_, w.topBlocks, _, run_topBlocks hindex, w.topBlocks_eq_filter_references, ?_⟩
  · intro kept hkept
    rcases hindex with rfl | rfl
    · exact nomatch hkept
    · exact (Option.some.inj hkept).symm
  · intro hrun
    have hvalid : w.validate = .ok () := by
      rw [run_validate] at hrun
      cases h : w.validate with
      | ok _ => rfl
      | error fault =>
          rw [h] at hrun
          exact nomatch hrun
    refine ⟨fun b _ => ?_, fun b hb => Workspace.existsUnique_root hw hvalid hb⟩
    exact ⟨_, _, run_isInline hindex b.id, Workspace.isInline_iff_of_validate hvalid⟩

/-- Two blocks are on top until one follows the other, also if the index had been made before. -/
example : ∃ s, (do
    let first ← add ⟨"text_print", [], [], none, .null, false, []⟩
    let second ← add ⟨"text_print", [], [], none, .null, false, []⟩
    let before ← topBlocks
    let _ ← chain [first, second]
    let after ← topBlocks
    return (before.map Block.id, after.map Block.id) : Working (List BlockId × List BlockId)).run
      (empty []) = .ok ([1, 2], [1]) s :=
  ⟨_, rfl⟩

end Blockscribe.Workbench
