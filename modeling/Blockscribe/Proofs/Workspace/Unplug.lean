/-
Taking a block out of a value socket.

* `Workspace.unplug`: the value sockets that lead to a block are emptied.
* `links_unplug`: the links to the block from value sockets go, and all others stay.
* `validate_unplug`, `WellFormed.unplug`: an accepted workspace is still accepted.
* `mirrors_unplug`, `lined_unplug`: if the block is disabled, nothing follows it and no comments are
  collected from it, every other block keeps its place, and only the block itself becomes a top-level
  block.
-/
import Blockscribe.Proofs.Workspace.Mirror

namespace Blockscribe

/-- A value socket is emptied if it leads to a block. -/
def Socket.unplug (d : Block) (s : Socket) : Socket :=
  if s.kind = .value ∧ s.target = some d.id then { s with target := none } else s

/-- The value sockets that lead to a block are emptied. -/
def Block.unplug (d b : Block) : Block := { b with sockets := b.sockets.map (Socket.unplug d) }

/-- Links that plug a block into a value socket. -/
def Link.Plugs (d : Block) (l : Link) : Prop := l.child = d.id ∧ l.kind = some .value

instance (d : Block) (l : Link) : Decidable (l.Plugs d) := inferInstanceAs (Decidable (_ ∧ _))

namespace Workspace

/-- A block is taken out of every value socket. -/
def unplug (w : Workspace) (d : Block) : Workspace :=
  { w with blocks := w.blocks.map (Block.unplug d) }

variable {w : Workspace} {d : Block}

/-! ### Links -/

lemma links_unplug_socket (d b : Block) (s : Socket) :
    ((Socket.unplug d s).target.map fun t => (⟨b.id, t, some (Socket.unplug d s).kind⟩ : Link)) =
      (s.target.map fun t => (⟨b.id, t, some s.kind⟩ : Link)).filter fun l => ¬ l.Plugs d := by
  obtain ⟨name, kind, target⟩ := s
  cases target with
  | none => cases kind <;> rfl
  | some t =>
      by_cases ht : t = d.id <;> cases kind <;>
        simp [Socket.unplug, Link.Plugs, Option.filter, ht]

lemma links_unplug_block (d b : Block) :
    (Block.unplug d b).links = b.links.filter fun l => ¬ l.Plugs d := by
  rw [Block.links, Block.links, List.filter_append, List.filter_filterMap]
  congr 1
  · rw [Block.unplug, List.filterMap_map]
    exact List.filterMap_congr fun s _ => links_unplug_socket d b s
  · rw [List.filter_eq_self.mpr]
    · rfl
    · intro l hl
      obtain ⟨n, -, rfl⟩ := Option.map_eq_some_iff.mp (Option.mem_toList.mp hl)
      simp [Link.Plugs]

lemma links_unplug (w : Workspace) (d : Block) :
    (w.unplug d).links = w.links.filter fun l => ¬ l.Plugs d := by
  rw [links, links, unplug, List.flatMap_map, List.filter_flatMap]
  exact List.flatMap_congr fun b _ => links_unplug_block d b

lemma mem_links_unplug {l : Link} : l ∈ (w.unplug d).links ↔ l ∈ w.links ∧ ¬ l.Plugs d := by
  rw [links_unplug, List.mem_filter, decide_eq_true_eq]

lemma refers_of_refers_unplug {x y : BlockId} (h : (w.unplug d).Refers x y) : w.Refers x y := by
  obtain ⟨l, hl, hparent, hchild⟩ := mem_links_iff.mpr h
  exact mem_links_iff.mp ⟨l, (mem_links_unplug.mp hl).1, hparent, hchild⟩

section Valid

variable (hvalid : w.validate = .ok ())

include hvalid

lemma nodup_unplug : ((w.unplug d).links.map Link.child).Nodup := by
  rw [links_unplug]
  exact (nodup_of_validate hvalid).sublist (List.filter_sublist.map _)

/-- An accepted workspace is still accepted. -/
lemma validate_unplug : (w.unplug d).validate = .ok () :=
  validate_of_transGen hvalid (nodup_unplug hvalid) fun _ _ h => .single (refers_of_refers_unplug h)

end Valid

/-! ### Blocks -/

/-- A well-formed workspace is still well formed. -/
lemma WellFormed.unplug (hw : w.WellFormed) : (w.unplug d).WellFormed :=
  hw.mapBlocks (fun _ => rfl) fun _ _ h => hw.child_mem_ids (refers_of_refers_unplug h)

/-- A block other than the one that is taken out, and what becomes of it. -/
def Staying (w : Workspace) (d b b' : Block) : Prop :=
  b ∈ w.blocks ∧ b.id ≠ d.id ∧ b' = Block.unplug d b

/-- A link that does not lead to the block leads where it led. -/
lemma rel_staying {t : Option BlockId} (ht : t ≠ some d.id) :
    Option.Rel (w.Staying d) (w.led t) ((w.unplug d).led t) :=
  rel_mapBlocks (f := Block.unplug d) (fun _ => rfl) ht

lemma Idle.unplug {b : Block} (hb : w.Idle b) : (w.unplug d).Idle (Block.unplug d b) :=
  ⟨List.mem_map_of_mem hb.mem, hb.disabled, hb.last⟩

section Disabled

variable (hw : w.WellFormed) (hvalid : w.validate = .ok ()) (hd : w.Idle d)
  (hlinked : ∃ l ∈ w.links, l.Plugs d)

include hvalid hlinked

/-- A link to the block plugs it into a value socket. -/
lemma plugs_of_child_eq {l : Link} (hl : l ∈ w.links) (hchild : l.child = d.id) : l.Plugs d := by
  obtain ⟨l', hl', hplugs⟩ := hlinked
  obtain rfl := List.inj_on_of_nodup_map (nodup_of_validate hvalid) hl hl'
    (hchild.trans hplugs.1.symm)
  exact hplugs

include hw hd

/-- Every other block keeps its place if no comments are collected from the block. -/
lemma mirrors_unplug (hcomments : w.collected d = .ok []) :
    w.Mirrors (w.unplug d) (w.Staying d) where
  mem := by
    rintro b _ ⟨hb, -, rfl⟩
    exact ⟨hb, List.mem_map_of_mem hb⟩
  face := by
    rintro b _ ⟨-, -, rfl⟩
    refine face_mapSockets (fun s => ?_) b
    rw [Socket.unplug]
    split <;> rfl
  disabled := by
    rintro b _ ⟨-, -, rfl⟩
    rfl
  inline := by
    rintro b _ ⟨-, hne, rfl⟩
    rw [Bool.eq_iff_iff, isInline_iff (nodup_unplug hvalid), isInline_iff (nodup_of_validate hvalid)]
    constructor
    · rintro ⟨l, hl, hchild, hkind⟩
      exact ⟨l, (mem_links_unplug.mp hl).1, hchild, hkind⟩
    · rintro ⟨l, hl, hchild, hkind⟩
      exact ⟨l, mem_links_unplug.mpr ⟨hl, fun h => hne (hchild.symm.trans h.1)⟩, hchild, hkind⟩
  sockets := by
    rintro b _ ⟨hb, -, rfl⟩
    refine ⟨Socket.unplug d, rfl, fun s hs => ?_⟩
    by_cases hplugged : s.kind = .value ∧ s.target = some d.id
    · have hempty : Socket.unplug d s = { s with target := none } := if_pos hplugged
      rw [hempty]
      refine ⟨rfl, rfl, fun _ => ?_, fun h => nomatch hplugged.1.symm.trans h⟩
      rw [hplugged.2, led_some, hw.find?_eq_some hd.mem]
      exact .idle hd nofun hcomments.symm
    · have hsame : Socket.unplug d s = s := if_neg hplugged
      have hne : s.target ≠ some d.id := by
        intro htarget
        have hplugs := plugs_of_child_eq hvalid hlinked (mem_links_of_socket hb hs htarget) rfl
        exact hplugged ⟨Option.some.inj hplugs.2, htarget⟩
      rw [hsame]
      exact ⟨rfl, rfl, fun _ => plugged_of_rel (rel_staying hne),
        fun _ => leads_of_rel (rel_staying hne)⟩
  next := by
    rintro b _ ⟨hb, -, rfl⟩
    refine leads_of_rel (rel_staying fun hnext => ?_)
    exact nomatch (plugs_of_child_eq hvalid hlinked (mem_links_of_next hb hnext) rfl).2

omit hvalid in
/-- The block itself becomes a top-level block, and the others are the same. -/
lemma lined_unplug : Lined (w.Staying d) (w.unplug d).Idle w.topBlocks (w.unplug d).topBlocks := by
  refine lined_filter fun b hb => ?_
  by_cases hbd : b.id = d.id
  · obtain rfl := hw.eq_of_id_eq hd.mem hb hbd
    obtain ⟨l, hl, hplugs⟩ := hlinked
    have hany : w.links.any (fun l => l.child == b.id) = true :=
      List.any_eq_true.mpr ⟨l, hl, beq_iff_eq.mpr hplugs.1⟩
    exact Or.inr ⟨hd.unplug, by rw [hany]; rfl⟩
  · refine Or.inl ⟨⟨hb, hbd, rfl⟩, congrArg (!·) ?_⟩
    rw [Bool.eq_iff_iff, List.any_eq_true, List.any_eq_true]
    constructor
    · rintro ⟨l, hl, hto⟩
      exact ⟨l, (mem_links_unplug.mp hl).1, hto⟩
    · rintro ⟨l, hl, hto⟩
      refine ⟨l, mem_links_unplug.mpr ⟨hl, fun hplugs => hbd ?_⟩, hto⟩
      exact (beq_iff_eq.mp hto).symm.trans hplugs.1

end Disabled

end Workspace

end Blockscribe
