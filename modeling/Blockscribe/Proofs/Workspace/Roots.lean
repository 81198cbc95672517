/-
The trees of an accepted workspace.

* `topBlocks_eq_filter_references`: the top-level blocks are those with no reference to them, in the
  order in which they were added.
* `isInline_iff_of_validate`: a block of an accepted workspace is inline exactly if the one reference
  to it comes from a value socket.
* `refers_unique`: in an accepted workspace at most one block refers to a block.
* `exists_root`: above every block of an accepted workspace there is a top-level block, since every
  way up comes to an end.
* `existsUnique_root`: and there is only one, since there is only one way up.
-/
import Mathlib.Logic.ExistsUnique
import Blockscribe.Proofs.Workspace.Mirror

namespace Blockscribe.Workspace

open Relation (ReflTransGen)

variable {w : Workspace}

/-! ### References to a block -/

lemma references_eq_zero_iff {id : BlockId} :
    w.references id = 0 ↔ ∀ l ∈ w.links, l.child ≠ id := by
  rw [← count_children, List.count_eq_zero, List.mem_map]
  constructor
  · intro h l hl hchild
    exact h ⟨l, hl, hchild⟩
  · rintro h ⟨l, hl, hchild⟩
    exact h l hl hchild

lemma topBlocks_eq_filter_references (w : Workspace) :
    w.topBlocks = w.blocks.filter fun b => w.references b.id = 0 := by
  rw [topBlocks]
  refine List.filter_congr fun b _ => ?_
  rw [Bool.eq_iff_iff, decide_eq_true_eq, references_eq_zero_iff]
  simp

/-- A value socket that leads to a block is a link to it. -/
lemma exists_value_link_iff {id : BlockId} :
    (∃ l ∈ w.links, l.child = id ∧ l.kind = some .value) ↔
      ∃ parent ∈ w.blocks, ∃ s ∈ parent.sockets, s.kind = .value ∧ s.target = some id := by
  constructor
  · rintro ⟨l, hl, rfl, hkind⟩
    obtain ⟨parent, hparent, hlink⟩ := List.mem_flatMap.mp hl
    rcases List.mem_append.mp hlink with hsocket | hnext
    · obtain ⟨s, hs, hlink⟩ := List.mem_filterMap.mp hsocket
      obtain ⟨t, ht, rfl⟩ := Option.map_eq_some_iff.mp hlink
      exact ⟨parent, hparent, s, hs, Option.some.inj hkind, ht⟩
    · obtain ⟨n, -, rfl⟩ := Option.map_eq_some_iff.mp (Option.mem_toList.mp hnext)
      exact nomatch hkind
  · rintro ⟨parent, hparent, s, hs, hkind, htarget⟩
    exact ⟨_, mem_links_of_socket hparent hs htarget, rfl, by rw [hkind]⟩

/-- **Whether a block is inline.** In an accepted workspace it is exactly if the one reference to it
comes from a value socket. -/
lemma isInline_iff_of_validate (hvalid : w.validate = .ok ()) {id : BlockId} :
    w.isInline id = true ↔ w.references id = 1 ∧
      ∃ parent ∈ w.blocks, ∃ s ∈ parent.sockets, s.kind = .value ∧ s.target = some id := by
  have hnodup := nodup_of_validate hvalid
  rw [isInline_iff hnodup, exists_value_link_iff]
  refine ⟨fun h => ⟨?_, h⟩, And.right⟩
  obtain ⟨l, hl, hchild, -⟩ := exists_value_link_iff.mpr h
  have hmem : id ∈ w.links.map Link.child := List.mem_map.mpr ⟨l, hl, hchild⟩
  rw [← count_children]
  exact List.count_eq_one_of_mem hnodup hmem

/-! ### Roots -/

/-- In an accepted workspace at most one block refers to a block. -/
lemma refers_unique (hvalid : w.validate = .ok ()) {parent parent' child : BlockId}
    (h : w.Refers parent child) (h' : w.Refers parent' child) : parent = parent' := by
  have hnodup := nodup_of_validate hvalid
  have hsome := (parent?_eq_some_iff hnodup).mpr h
  rw [(parent?_eq_some_iff hnodup).mpr h'] at hsome
  exact (Option.some.inj hsome).symm

/-- Nothing refers to a top-level block. -/
lemma not_refers_topBlocks {top : Block} (htop : top ∈ w.topBlocks) (parent : BlockId) :
    ¬ w.Refers parent top.id := by
  intro h
  obtain ⟨l, hl, -, hchild⟩ := mem_links_iff.mpr h
  exact (mem_topBlocks_iff.mp htop).2 l hl hchild

/-- Above every block of an accepted workspace there is a top-level block. -/
lemma exists_root (hvalid : w.validate = .ok ()) {id : BlockId} (hid : id ∈ w.ids) :
    ∃ top ∈ w.topBlocks, ReflTransGen w.Refers top.id id := by
  induction id using (wellFounded_refers_of_validate hvalid).induction with
  | _ id ih =>
      by_cases habove : ∃ parent, w.Refers parent id
      · obtain ⟨parent, hparent⟩ := habove
        obtain ⟨top, htop, hpath⟩ := ih parent hparent (mem_ids_of_refers hparent)
        exact ⟨top, htop, hpath.tail hparent⟩
      · obtain ⟨b, hb, rfl⟩ := mem_ids.mp hid
        refine ⟨b, mem_topBlocks_iff.mpr ⟨hb, fun l hl hchild => habove ?_⟩, .refl⟩
        exact ⟨l.parent, mem_links_iff.mp ⟨l, hl, rfl, hchild⟩⟩

/-- A top-level block is below no block but itself. -/
lemma eq_of_path_to_topBlocks {top : Block} (htop : top ∈ w.topBlocks) {id : BlockId}
    (h : ReflTransGen w.Refers id top.id) : id = top.id := by
  rcases ReflTransGen.cases_tail h with heq | ⟨parent, -, hrefers⟩
  · exact heq.symm
  · exact absurd hrefers (not_refers_topBlocks htop parent)

/-- **Every block belongs to exactly one tree**: in an accepted workspace it is below exactly one of
the top-level blocks. -/
theorem existsUnique_root (hw : w.WellFormed) (hvalid : w.validate = .ok ()) {b : Block}
    (hb : b ∈ w.blocks) : ∃! top, top ∈ w.topBlocks ∧ ReflTransGen w.Refers top.id b.id := by
  obtain ⟨top, htop, hpath⟩ := exists_root hvalid (mem_ids.mpr ⟨b, hb, rfl⟩)
  refine ⟨top, ⟨htop, hpath⟩, ?_⟩
  rintro other ⟨hother, hpath'⟩
  -- one of the two ways up goes on from where the other one ends
  have hup : Relator.RightUnique (Function.swap w.Refers) := fun _ _ _ h h' =>
    refers_unique hvalid h h'
  have hends : top.id = other.id := by
    rcases ReflTransGen.total_of_right_unique hup (Relation.reflTransGen_swap.mpr hpath)
      (Relation.reflTransGen_swap.mpr hpath') with h | h
    · exact (eq_of_path_to_topBlocks htop (Relation.reflTransGen_swap.mp h)).symm
    · exact eq_of_path_to_topBlocks hother (Relation.reflTransGen_swap.mp h)
  exact hw.eq_of_id_eq (mem_topBlocks_iff.mp htop).1 (mem_topBlocks_iff.mp hother).1 hends.symm

end Blockscribe.Workspace
