/-
Links that lead past a block.

* `Workspace.bypass`: the next links and statement sockets that lead to a block lead to the block
  that follows it instead, and nothing follows it any more.
* `Link.bypass`, `links_bypass`: what becomes of each link.
* `validate_bypass`: an accepted workspace is still accepted.
* `mirrors_bypass`, `lined_bypass`: if the block is disabled, every other block keeps its place, and
  nothing but the block itself may become a new top-level block.
-/
import Blockscribe.Proofs.Workspace.Mirror

namespace Blockscribe

open Relation (TransGen)

/-- A link that leads past a block. -/
def Block.past (d : Block) (target : Option BlockId) : Option BlockId :=
  if target = some d.id then d.next else target

/-- A socket whose statements are found past a block. -/
def Socket.bypass (d : Block) (s : Socket) : Socket :=
  if s.kind = .statement then { s with target := d.past s.target } else s

/-- A block whose links lead past another one; nothing follows that one itself. -/
def Block.bypass (d b : Block) : Block :=
  { b with
    sockets := b.sockets.map (Socket.bypass d)
    next := if b.id = d.id then none else d.past b.next }

/-- What becomes of a link if links lead past a block. -/
def Link.bypass (d : Block) (l : Link) : Option Link :=
  if l.parent = d.id ∧ l.kind = none then none
  else if l.child = d.id ∧ l.kind ≠ some .value then d.next.map fun id => { l with child := id }
  else some l

namespace Workspace

/-- All links lead past a block, and nothing follows it. -/
def bypass (w : Workspace) (d : Block) : Workspace :=
  { w with blocks := w.blocks.map (Block.bypass d) }

variable {w : Workspace} {d : Block}

/-! ### Links -/

lemma past_of_ne {t : Option BlockId} (h : t ≠ some d.id) : d.past t = t := if_neg h

lemma past_self : d.past (some d.id) = d.next := if_pos rfl

lemma links_bypass_socket (d b : Block) (s : Socket) :
    ((Socket.bypass d s).target.map fun t => (⟨b.id, t, some (Socket.bypass d s).kind⟩ : Link)) =
      (s.target.map fun t => (⟨b.id, t, some s.kind⟩ : Link)).bind (Link.bypass d) := by
  obtain ⟨name, kind, target⟩ := s
  cases kind with
  | value => cases target <;> simp [Socket.bypass, Link.bypass]
  | statement =>
      cases target with
      | none => simp [Socket.bypass, Block.past]
      | some t =>
          by_cases ht : t = d.id
          · simp [Socket.bypass, Block.past, Link.bypass, ht]
          · simp [Socket.bypass, Block.past, Link.bypass, ht]

lemma links_bypass_block (d b : Block) :
    (Block.bypass d b).links = b.links.filterMap (Link.bypass d) := by
  rw [Block.links, Block.links, List.filterMap_append, List.filterMap_filterMap]
  congr 1
  · rw [Block.bypass, List.filterMap_map]
    exact List.filterMap_congr fun s _ => links_bypass_socket d b s
  · by_cases hb : b.id = d.id
    · cases b.next <;> simp [Block.bypass, Link.bypass, hb]
    · cases hnext : b.next with
      | none => simp [Block.bypass, Block.past, hb, hnext]
      | some t =>
          by_cases ht : t = d.id
          · cases hd : d.next <;> simp [Block.bypass, Block.past, Link.bypass, hb, hnext, ht, hd]
          · simp [Block.bypass, Block.past, Link.bypass, hb, hnext, ht]

lemma links_bypass (w : Workspace) (d : Block) :
    (w.bypass d).links = w.links.filterMap (Link.bypass d) := by
  rw [links, links, bypass, List.flatMap_map, List.filterMap_flatMap]
  exact List.flatMap_congr fun b _ => links_bypass_block d b

/-- A link stays as it is, or it led to the block and leads to the one behind it. -/
lemma of_bypass_eq_some {l l' : Link} (h : Link.bypass d l = some l') :
    (l' = l ∧ ¬ (l.parent = d.id ∧ l.kind = none)) ∨
      (l.child = d.id ∧ l.kind ≠ some .value ∧ d.next = some l'.child ∧
        l'.parent = l.parent ∧ l'.kind = l.kind) := by
  rw [Link.bypass] at h
  split at h
  · exact nomatch h
  · rename_i hown
    split at h
    · rename_i hto
      obtain ⟨id, hid, rfl⟩ := Option.map_eq_some_iff.mp h
      exact Or.inr ⟨hto.1, hto.2, hid, rfl, rfl⟩
    · exact Or.inl ⟨(Option.some.inj h).symm, hown⟩

section Valid

variable (hvalid : w.validate = .ok ()) (hd : d ∈ w.blocks)

include hvalid hd

/-- What follows the block is referred to by nothing else. -/
lemma eq_of_child_eq_next {l : Link} (hl : l ∈ w.links) (h : d.next = some l.child) :
    l.parent = d.id ∧ l.kind = none := by
  have hlink := mem_links_of_next hd h
  have heq := List.inj_on_of_nodup_map (nodup_of_validate hvalid) hl hlink rfl
  rw [heq]
  exact ⟨rfl, rfl⟩

/-- No two links that lead past the block lead to one child. -/
lemma nodup_bypass : ((w.bypass d).links.map Link.child).Nodup := by
  have hpairs : w.links.Pairwise fun l m => l.child ≠ m.child :=
    List.pairwise_map.mp (nodup_of_validate hvalid)
  rw [links_bypass, List.Nodup, List.pairwise_map, List.pairwise_filterMap]
  refine hpairs.imp_of_mem fun {l m} hl hm hne l' hl' m' hm' heq => ?_
  rcases of_bypass_eq_some hl' with ⟨rfl, hown⟩ | ⟨hto, -, hnext, -, -⟩
  · rcases of_bypass_eq_some hm' with ⟨rfl, -⟩ | ⟨-, -, hnext', -, -⟩
    · exact hne heq
    · exact hown (eq_of_child_eq_next hvalid hd hl (heq ▸ hnext'))
  · rcases of_bypass_eq_some hm' with ⟨rfl, hown'⟩ | ⟨hto', -, -, -, -⟩
    · exact hown' (eq_of_child_eq_next hvalid hd hm (heq ▸ hnext))
    · exact hne (hto.trans hto'.symm)

omit hvalid in
/-- What is below a block was below it before. -/
lemma transGen_of_refers_bypass {x y : BlockId} (h : (w.bypass d).Refers x y) :
    TransGen w.Refers x y := by
  obtain ⟨l', hl', rfl, rfl⟩ := mem_links_iff.mpr h
  rw [links_bypass] at hl'
  obtain ⟨l, hl, hbypass⟩ := List.mem_filterMap.mp hl'
  rcases of_bypass_eq_some hbypass with ⟨rfl, -⟩ | ⟨hto, -, hnext, hparent, -⟩
  · exact .single (mem_links_iff.mp ⟨l', hl, rfl, rfl⟩)
  · have hfirst : w.Refers l'.parent d.id := mem_links_iff.mp ⟨l, hl, hparent.symm, hto⟩
    exact (TransGen.single hfirst).tail ⟨d, hd, rfl, Or.inr hnext⟩

/-- An accepted workspace is still accepted. -/
lemma validate_bypass : (w.bypass d).validate = .ok () :=
  validate_of_transGen hvalid (nodup_bypass hvalid hd) fun _ _ h => transGen_of_refers_bypass hd h

/-- Nothing follows after itself. -/
lemma next_ne_self : d.next ≠ some d.id := by
  intro h
  exact not_transGen_self (wellFounded_refers_of_validate hvalid) d.id
    (.single ⟨d, hd, rfl, Or.inr h⟩)

end Valid

/-! ### Blocks -/

/-- A well-formed workspace is still well formed. -/
lemma WellFormed.bypass (hw : w.WellFormed) (hd : d ∈ w.blocks) : (w.bypass d).WellFormed := by
  refine hw.mapBlocks (fun _ => rfl) fun x y hto => ?_
  obtain ⟨l', hl', -, rfl⟩ := mem_links_iff.mpr hto
  change l' ∈ (w.bypass d).links at hl'
  rw [links_bypass] at hl'
  obtain ⟨l, hl, hbypass⟩ := List.mem_filterMap.mp hl'
  rcases of_bypass_eq_some hbypass with ⟨rfl, -⟩ | ⟨-, -, hnext, -, -⟩
  · exact hw.child_mem_ids (mem_links_iff.mp ⟨l', hl, rfl, rfl⟩)
  · exact hw.closed d hd _ (Or.inr hnext)

/-- A block and what becomes of it, if it is not the one that is left out. -/
def Kept (w : Workspace) (d b b' : Block) : Prop :=
  b ∈ w.blocks ∧ b.id ≠ d.id ∧ b' = Block.bypass d b

/-- A link that does not lead to the block leads where it led. -/
lemma rel_kept {t : Option BlockId} (ht : t ≠ some d.id) :
    Option.Rel (w.Kept d) (w.led t) ((w.bypass d).led t) :=
  rel_mapBlocks (f := Block.bypass d) (fun _ => rfl) ht

section Disabled

variable (hw : w.WellFormed) (hvalid : w.validate = .ok ()) (hd : d ∈ w.blocks)
  (hdisabled : d.disabled = true)
  (hlinked : ∃ l ∈ w.links, l.child = d.id ∧ l.kind ≠ some .value)

include hw hvalid hd hdisabled

/-- Past the block a link leads where it led. -/
lemma leads_bypass (t : Option BlockId) :
    w.Leads (w.bypass d) (w.Kept d) (w.led t) ((w.bypass d).led (d.past t)) := by
  by_cases ht : t = some d.id
  · rw [ht, past_self, led_some, hw.find?_eq_some hd]
    exact .past hd hdisabled (leads_of_rel (rel_kept (next_ne_self hvalid hd)))
  · rw [past_of_ne ht]
    exact leads_of_rel (rel_kept ht)

include hlinked

/-- Every other block keeps its place. -/
lemma mirrors_bypass : w.Mirrors (w.bypass d) (w.Kept d) where
  mem := by
    rintro b _ ⟨hb, -, rfl⟩
    exact ⟨hb, List.mem_map_of_mem hb⟩
  face := by
    rintro b _ ⟨-, -, rfl⟩
    refine face_mapSockets (fun s => ?_) b
    rw [Socket.bypass]
    split <;> rfl
  disabled := by
    rintro b _ ⟨-, -, rfl⟩
    rfl
  inline := by
    rintro b _ ⟨-, -, rfl⟩
    rw [Bool.eq_iff_iff, isInline_iff (nodup_bypass hvalid hd),
      isInline_iff (nodup_of_validate hvalid), links_bypass]
    constructor
    · rintro ⟨l', hl', hchild, hkind⟩
      obtain ⟨l, hl, hbypass⟩ := List.mem_filterMap.mp hl'
      rcases of_bypass_eq_some hbypass with ⟨rfl, -⟩ | ⟨-, hother, -, -, hsame⟩
      · exact ⟨l', hl, hchild, hkind⟩
      · exact absurd (hsame.symm.trans hkind) hother
    · rintro ⟨l, hl, hchild, hkind⟩
      refine ⟨l, List.mem_filterMap.mpr ⟨l, hl, ?_⟩, hchild, hkind⟩
      simp [Link.bypass, hkind]
  sockets := by
    rintro b _ ⟨hb, -, rfl⟩
    refine ⟨Socket.bypass d, rfl, fun s hs => ?_⟩
    cases hkind : s.kind with
    | value =>
        have hsame : Socket.bypass d s = s := if_neg (by rw [hkind]; decide)
        have hne : s.target ≠ some d.id := by
          intro htarget
          obtain ⟨l, hl, hchild, hother⟩ := hlinked
          have heq := List.inj_on_of_nodup_map (nodup_of_validate hvalid) hl
            (mem_links_of_socket hb hs htarget) hchild
          rw [heq, hkind] at hother
          exact hother rfl
        rw [hsame]
        exact ⟨rfl, rfl, fun _ => plugged_of_rel (rel_kept hne), fun h => nomatch hkind.symm.trans h⟩
    | statement =>
        have hpast : Socket.bypass d s = { s with target := d.past s.target } := if_pos hkind
        rw [hpast]
        exact ⟨rfl, rfl, fun h => (nomatch hkind.symm.trans h),
          fun _ => leads_bypass hw hvalid hd hdisabled s.target⟩
  next := by
    rintro b _ ⟨-, hne, rfl⟩
    have hnext : (Block.bypass d b).next = d.past b.next := if_neg hne
    rw [hnext]
    exact leads_bypass hw hvalid hd hdisabled b.next

omit hdisabled in
/-- The top-level blocks are the same, and perhaps the block itself. -/
lemma lined_bypass : Lined (w.Kept d) (· = Block.bypass d d) w.topBlocks (w.bypass d).topBlocks := by
  refine lined_filter fun b hb => ?_
  obtain ⟨l, hl, hchild, hother⟩ := hlinked
  by_cases hbd : b.id = d.id
  · obtain rfl := hw.eq_of_id_eq hd hb hbd
    refine Or.inr ⟨rfl, ?_⟩
    have hany : w.links.any (fun l => l.child == b.id) = true :=
      List.any_eq_true.mpr ⟨l, hl, beq_iff_eq.mpr hchild⟩
    rw [hany]
    rfl
  · refine Or.inl ⟨⟨hb, hbd, rfl⟩, congrArg (!·) ?_⟩
    rw [Bool.eq_iff_iff, List.any_eq_true, List.any_eq_true, links_bypass]
    constructor
    · rintro ⟨m', hm', hto⟩
      obtain ⟨m, hm, hbypass⟩ := List.mem_filterMap.mp hm'
      rcases of_bypass_eq_some hbypass with ⟨rfl, -⟩ | ⟨-, -, hnext, -, -⟩
      · exact ⟨m', hm, hto⟩
      · exact ⟨_, mem_links_of_next hd hnext, hto⟩
    · rintro ⟨m, hm, hto⟩
      have hmb : m.child = b.id := beq_iff_eq.mp hto
      by_cases hown : m.parent = d.id ∧ m.kind = none
      · -- what follows the block is led to from where the block was
        have hnext := hw.next_of_mem_links hd hm hown.1 hown.2
        have habove : ¬ (l.parent = d.id ∧ l.kind = none) := by
          rintro ⟨hparent, -⟩
          refine not_transGen_self (wellFounded_refers_of_validate hvalid) d.id (.single ?_)
          exact mem_links_iff.mp ⟨l, hl, hparent, hchild⟩
        refine ⟨{ l with child := m.child }, List.mem_filterMap.mpr ⟨l, hl, ?_⟩, hto⟩
        rw [Link.bypass, if_neg habove, if_pos ⟨hchild, hother⟩, hnext]
        rfl
      · refine ⟨m, List.mem_filterMap.mpr ⟨m, hm, ?_⟩, hto⟩
        rw [Link.bypass, if_neg hown, if_neg fun h => hbd (hmb.symm.trans h.1)]

end Disabled

end Workspace

end Blockscribe
