/-
Workspaces that agree apart from a disabled block and what is beneath it.

* `Workspace.Beneath`, `Outside`, `apart`: what is plugged into a block, the blocks that are neither
  the block nor beneath it, and the list of these.
* `outside_iff`: whether a block is outside is decided by the one link to it.
* `AgreesApart`: two workspaces with the same blocks outside; the block itself is disabled in both
  and followed by the same block.
* `AgreesApart.mirrors`, `AgreesApart.topBlocks_eq`: the blocks outside have the same place in both,
  and the top-level blocks are the same.
-/
import Blockscribe.Proofs.Workspace.Mirror

namespace Blockscribe.Workspace

open Relation (TransGen ReflTransGen)

/-- A handle is plugged into a block, or below something that is. -/
def Beneath (w : Workspace) (d : Block) (id : BlockId) : Prop :=
  ∃ s ∈ d.sockets, ∃ t, s.target = some t ∧ ReflTransGen w.Refers t id

/-- A block is another one, and is not beneath it. -/
def Outside (w : Workspace) (d b : Block) : Prop := b.id ≠ d.id ∧ ¬ w.Beneath d b.id

open Classical in
/-- The blocks outside a block, in the order in which they were added. -/
noncomputable def apart (w : Workspace) (d : Block) : List Block :=
  w.blocks.filter fun b => decide (w.Outside d b)

variable {w v : Workspace} {b d e : Block}

lemma mem_apart : b ∈ w.apart d ↔ b ∈ w.blocks ∧ w.Outside d b := by
  classical
  rw [apart, List.mem_filter, decide_eq_true_eq]

lemma Beneath.tail {x y : BlockId} (h : w.Beneath d x) (hxy : w.Refers x y) : w.Beneath d y := by
  obtain ⟨s, hs, t, ht, hpath⟩ := h
  exact ⟨s, hs, t, ht, hpath.tail hxy⟩

/-- What is beneath a block is below it. -/
lemma Beneath.transGen (hd : d ∈ w.blocks) {x : BlockId} (h : w.Beneath d x) :
    TransGen w.Refers d.id x := by
  obtain ⟨s, hs, t, ht, hpath⟩ := h
  exact .head' ⟨d, hd, rfl, Or.inl ⟨s, hs, ht⟩⟩ hpath

/-- What is beneath a block has a link to it, from a socket of the block or from a block that is
beneath it too. -/
lemma Beneath.exists_link (hd : d ∈ w.blocks) {x : BlockId} (h : w.Beneath d x) :
    ∃ l ∈ w.links, l.child = x ∧
      ((l.parent = d.id ∧ l.kind ≠ none) ∨ w.Beneath d l.parent) := by
  obtain ⟨s, hs, t, ht, hpath⟩ := h
  rcases ReflTransGen.cases_tail hpath with rfl | ⟨y, hy, hyx⟩
  · exact ⟨_, mem_links_of_socket hd hs ht, rfl, Or.inl ⟨rfl, Option.some_ne_none _⟩⟩
  · obtain ⟨l, hl, rfl, rfl⟩ := mem_links_iff.mpr hyx
    exact ⟨l, hl, rfl, Or.inr ⟨s, hs, t, ht, hy⟩⟩

section Valid

variable (hw : w.WellFormed) (hvalid : w.validate = .ok ()) (hd : d ∈ w.blocks)

include hvalid hd

/-- Nothing is beneath itself. -/
lemma not_beneath_self : ¬ w.Beneath d d.id := fun h =>
  not_transGen_self (wellFounded_refers_of_validate hvalid) d.id (h.transGen hd)

include hw

/-- Whether a block that is referred to is outside is decided by the one link to it: it is the link
to what follows the block, or it comes from outside. -/
lemma outside_iff {l : Link} (hl : l ∈ w.links) (hne : l.child ≠ d.id) (hb : b.id = l.child) :
    w.Outside d b ↔ (l.parent = d.id ∧ l.kind = none) ∨
      (l.parent ≠ d.id ∧ ¬ w.Beneath d l.parent) := by
  have hrefers : w.Refers l.parent l.child := mem_links_iff.mp ⟨l, hl, rfl, rfl⟩
  rw [Outside, hb]
  constructor
  · rintro ⟨-, hout⟩
    by_cases hparent : l.parent = d.id
    · refine Or.inl ⟨hparent, Option.eq_none_iff_forall_ne_some.mpr fun kind hkind => hout ?_⟩
      obtain ⟨p, hp, hlink⟩ := List.mem_flatMap.mp hl
      rcases List.mem_append.mp hlink with hsocket | hnext
      · obtain ⟨s, hs, hs'⟩ := List.mem_filterMap.mp hsocket
        obtain ⟨t, ht, rfl⟩ := Option.map_eq_some_iff.mp hs'
        obtain rfl := hw.eq_of_id_eq hd hp hparent
        exact ⟨s, hs, t, ht, .refl⟩
      · obtain ⟨n, -, rfl⟩ := Option.map_eq_some_iff.mp (Option.mem_toList.mp hnext)
        exact nomatch hkind
    · exact Or.inr ⟨hparent, fun h => hout (h.tail hrefers)⟩
  · intro h
    refine ⟨hne, fun hbeneath => ?_⟩
    obtain ⟨l', hl', hchild, hsource⟩ := hbeneath.exists_link hd
    obtain rfl := List.inj_on_of_nodup_map (nodup_of_validate hvalid) hl' hl hchild
    rcases h with ⟨hparent, hkind⟩ | ⟨hparent, hout⟩
    · rcases hsource with ⟨-, hsome⟩ | hsource
      · exact hsome hkind
      · exact not_beneath_self hvalid hd (hparent ▸ hsource)
    · rcases hsource with ⟨hparent', -⟩ | hsource
      · exact hparent hparent'
      · exact hout hsource

end Valid

/-- Two workspaces with the same blocks outside a block of each, which is disabled and followed by
the same. -/
structure AgreesApart (w v : Workspace) (d e : Block) : Prop where
  declared : v.declared = w.declared
  mem : d ∈ w.blocks
  mem' : e ∈ v.blocks
  id : e.id = d.id
  next : e.next = d.next
  disabled : d.disabled = true
  disabled' : e.disabled = true
  apart : v.apart e = w.apart d

namespace AgreesApart

lemma symm (h : w.AgreesApart v d e) : v.AgreesApart w e d :=
  ⟨h.declared.symm, h.mem', h.mem, h.id.symm, h.next.symm, h.disabled', h.disabled, h.apart.symm⟩

section Links

variable (h : w.AgreesApart v d e) (hw : w.WellFormed) (hvalid : w.validate = .ok ())

include h hw hvalid

/-- A link to a block outside is in both workspaces. -/
lemma mem_links {l : Link} (hl : l ∈ w.links) (hb : b ∈ w.apart d) (hchild : b.id = l.child) :
    l ∈ v.links := by
  obtain ⟨-, hout⟩ := mem_apart.mp hb
  rcases (outside_iff hw hvalid h.mem hl (hchild ▸ hout.1) hchild).mp hout with
    ⟨hparent, hkind⟩ | ⟨hparent, hbeneath⟩
  · have hnext := h.next.trans (hw.next_of_mem_links h.mem hl hparent hkind)
    have hlink := Workspace.mem_links_of_next h.mem' hnext
    have heq : l = ⟨e.id, l.child, none⟩ := by
      obtain ⟨parent, child, kind⟩ := l
      obtain rfl : parent = d.id := hparent
      obtain rfl : kind = none := hkind
      rw [h.id]
    exact heq ▸ hlink
  · obtain ⟨p, hp, hlink⟩ := List.mem_flatMap.mp hl
    have hid : p.id = l.parent := parent_of_mem_links hlink
    have hpout : p ∈ w.apart d := mem_apart.mpr ⟨hp, hid ▸ hparent, hid ▸ hbeneath⟩
    rw [← h.apart] at hpout
    exact List.mem_flatMap.mpr ⟨p, (mem_apart.mp hpout).1, hlink⟩

/-- A link from outside, or to what follows the block, leads outside unless it leads to the block. -/
lemma rel_led (hv : v.WellFormed) {l : Link} (hl : l ∈ w.links) (hne : l.child ≠ d.id)
    (hfrom : (l.parent = d.id ∧ l.kind = none) ∨
      (l.parent ≠ d.id ∧ ¬ w.Beneath d l.parent)) :
    Option.Rel (fun b b' => b' = b ∧ b ∈ w.apart d) (w.led (some l.child))
      (v.led (some l.child)) := by
  have hmem := hw.child_mem_ids (mem_links_iff.mp ⟨l, hl, rfl, rfl⟩)
  obtain ⟨c, hc, hid⟩ := mem_ids.mp hmem
  have hout : c ∈ w.apart d := mem_apart.mpr ⟨hc, (outside_iff hw hvalid h.mem hl hne hid).mpr hfrom⟩
  have hc' : c ∈ v.blocks := by
    rw [← h.apart] at hout
    exact (mem_apart.mp hout).1
  rw [led_some, led_some, ← hid, hw.find?_eq_some hc, hv.find?_eq_some hc']
  exact .some ⟨rfl, hout⟩

end Links

/-- A link to the block from outside is in the other workspace too. -/
lemma exists_link (h : w.AgreesApart v d e) (hvalid : w.validate = .ok ()) {l : Link}
    (hl : l ∈ w.links) (hchild : l.child = d.id) : l ∈ v.links := by
  have hrefers : w.Refers l.parent d.id := mem_links_iff.mp ⟨l, hl, rfl, hchild⟩
  have hcycle := not_transGen_self (wellFounded_refers_of_validate hvalid) d.id
  obtain ⟨p, hp, hlink⟩ := List.mem_flatMap.mp hl
  have hid : p.id = l.parent := parent_of_mem_links hlink
  have hpout : p ∈ w.apart d := by
    refine mem_apart.mpr ⟨hp, fun heq => hcycle (.single ?_), fun hbeneath => hcycle ?_⟩
    · exact (hid.symm.trans heq) ▸ hrefers
    · exact (hbeneath.transGen h.mem).tail (hid ▸ hrefers)
  rw [← h.apart] at hpout
  exact List.mem_flatMap.mpr ⟨p, (mem_apart.mp hpout).1, hlink⟩

section Places

variable (h : w.AgreesApart v d e) (hw : w.WellFormed) (hv : v.WellFormed)
  (hvalid : w.validate = .ok ()) (hvalid' : v.validate = .ok ())
  (hvalue : (∃ l ∈ w.links, l.child = d.id ∧ l.kind = some .value) →
    d.next = none ∧ v.collected e = w.collected d)

include h hw hv hvalid

/-- A link from outside leads to related blocks, past the block. -/
lemma leads {l : Link} (hl : l ∈ w.links)
    (hfrom : l.parent ≠ d.id ∧ ¬ w.Beneath d l.parent) :
    w.Leads v (fun b b' => b' = b ∧ b ∈ w.apart d) (w.led (some l.child))
      (v.led (some l.child)) := by
  by_cases hne : l.child = d.id
  · have hfind : v.led (some d.id) = some e := h.id ▸ hv.find?_eq_some h.mem'
    rw [hne, led_some, hw.find?_eq_some h.mem, hfind]
    refine .pastBoth h.mem h.disabled h.mem' h.disabled' ?_
    rw [h.next]
    cases hnext : d.next with
    | none => exact .nowhere
    | some id =>
        refine leads_of_rel (h.rel_led hw hvalid hv (mem_links_of_next h.mem hnext) ?_
          (Or.inl ⟨rfl, rfl⟩))
        rintro rfl
        exact not_transGen_self (wellFounded_refers_of_validate hvalid) d.id
          (.single ⟨d, h.mem, rfl, Or.inr hnext⟩)
  · exact leads_of_rel (h.rel_led hw hvalid hv hl hne (Or.inr hfrom))

include hvalid'

lemma exists_link_iff (hb : b ∈ w.apart d) {P : Link → Prop} :
    (∃ l ∈ w.links, l.child = b.id ∧ P l) ↔ ∃ l ∈ v.links, l.child = b.id ∧ P l := by
  constructor
  · rintro ⟨l, hl, hchild, hP⟩
    exact ⟨l, h.mem_links hw hvalid hl hb hchild.symm, hchild, hP⟩
  · rintro ⟨l, hl, hchild, hP⟩
    rw [← h.apart] at hb
    exact ⟨l, h.symm.mem_links hv hvalid' hl hb hchild.symm, hchild, hP⟩

include hvalue

/-- The blocks outside have the same place in both workspaces. If the two blocks are plugged into a
value socket, nothing may follow them and their comments must be the same. -/
lemma mirrors : w.Mirrors v (fun b b' => b' = b ∧ b ∈ w.apart d) where
  mem := by
    rintro b _ ⟨rfl, hb⟩
    exact ⟨(mem_apart.mp hb).1, (mem_apart.mp (h.apart ▸ hb)).1⟩
  face := by
    rintro b _ ⟨rfl, -⟩
    rfl
  disabled := by
    rintro b _ ⟨rfl, -⟩
    rfl
  inline := by
    rintro b _ ⟨rfl, hb⟩
    rw [Bool.eq_iff_iff, isInline_iff (nodup_of_validate hvalid'),
      isInline_iff (nodup_of_validate hvalid)]
    exact (h.exists_link_iff hw hv hvalid hvalid' hb).symm
  sockets := by
    rintro _ b ⟨rfl, hb⟩
    obtain ⟨hmem, hout⟩ := mem_apart.mp hb
    refine ⟨fun s => s, (List.map_id' _).symm, fun s hs => ⟨rfl, rfl, fun hkind => ?_, fun _ => ?_⟩⟩
    · cases htarget : s.target with
      | none => exact .nothing
      | some id =>
          have hl := mem_links_of_socket hmem hs htarget
          by_cases hid : id = d.id
          · subst hid
            obtain ⟨hlast, hcomments⟩ := hvalue ⟨_, hl, rfl, congrArg some hkind⟩
            have hfind : v.led (some d.id) = some e := h.id ▸ hv.find?_eq_some h.mem'
            rw [led_some, hw.find?_eq_some h.mem, hfind]
            refine .idle ⟨h.mem, h.disabled, hlast⟩ (fun e' he' => ?_) hcomments
            exact Option.some.inj he' ▸ ⟨h.mem', h.disabled', h.next.trans hlast⟩
          · exact plugged_of_rel (h.rel_led hw hvalid hv hl hid (Or.inr hout))
    · cases htarget : s.target with
      | none => exact .nowhere
      | some id => exact h.leads hw hv hvalid (mem_links_of_socket hmem hs htarget) hout
  next := by
    rintro _ b ⟨rfl, hb⟩
    obtain ⟨hmem, hout⟩ := mem_apart.mp hb
    cases hnext : b.next with
    | none => exact .nowhere
    | some id => exact h.leads hw hv hvalid (mem_links_of_next hmem hnext) hout

end Places

/-- No block that something refers to is a top-level block, so those are found outside. -/
lemma topBlocks_eq_filter (hd : d ∈ w.blocks) (hlinked : ∃ l ∈ w.links, l.child = d.id) :
    w.topBlocks = (w.apart d).filter fun b => !(w.links.any fun l => l.child == b.id) := by
  classical
  rw [topBlocks, Workspace.apart, List.filter_filter]
  refine List.filter_congr fun b hb => ?_
  cases hany : w.links.any fun l => l.child == b.id with
  | true => rfl
  | false =>
      have hnone : ∀ l ∈ w.links, l.child ≠ b.id := fun l hl heq =>
        Bool.false_ne_true (hany.symm.trans (List.any_eq_true.mpr ⟨l, hl, beq_iff_eq.mpr heq⟩))
      have hout : w.Outside d b := by
        refine ⟨fun heq => ?_, fun hbeneath => ?_⟩
        · obtain ⟨l, hl, hchild⟩ := hlinked
          exact hnone l hl (hchild.trans heq.symm)
        · obtain ⟨l, hl, hchild, -⟩ := hbeneath.exists_link hd
          exact hnone l hl hchild
      rw [decide_eq_true hout]
      rfl

/-- The top-level blocks are the same. -/
lemma lined (h : w.AgreesApart v d e) (hw : w.WellFormed) (hv : v.WellFormed)
    (hvalid : w.validate = .ok ()) (hvalid' : v.validate = .ok ())
    (hlinked : ∃ l ∈ w.links, l.child = d.id) (idle : Block → Prop) :
    Lined (fun b b' => b' = b ∧ b ∈ w.apart d) idle w.topBlocks v.topBlocks := by
  have hlinked' : ∃ l ∈ v.links, l.child = e.id := by
    obtain ⟨l, hl, hchild⟩ := hlinked
    exact ⟨l, h.exists_link hvalid hl hchild, hchild.trans h.id.symm⟩
  rw [topBlocks_eq_filter h.mem hlinked, topBlocks_eq_filter h.mem' hlinked', h.apart]
  have hall : Lined (fun b b' => b' = b ∧ b ∈ w.apart d) idle
      ((w.apart d).filter fun b => !(w.links.any fun l => l.child == b.id))
      (((w.apart d).map fun b => b).filter fun b => !(v.links.any fun l => l.child == b.id)) := by
    refine lined_filter fun b hb => Or.inl ⟨⟨rfl, hb⟩, congrArg (!·) ?_⟩
    rw [Bool.eq_iff_iff, List.any_eq_true, List.any_eq_true]
    have hiff := h.exists_link_iff hw hv hvalid hvalid' hb (P := fun _ => True)
    simpa using hiff.symm
  rw [List.map_id'] at hall
  exact hall

end AgreesApart

end Blockscribe.Workspace
