/-
Workspaces that differ in the comments of their blocks only.

* `Block.silent`, `Workspace.silent`: what is left without comments. Links, handles and validation
  are the same.
* `Workspace.Twins`: blocks of two workspaces that differ in their comments only.
* `mirrors_twins`, `lined_twins`: if the workspaces differ in comments only, then twins have the same
  place, and the top-level blocks are twins one by one.
-/
import Mathlib.Data.List.Forall2
import Blockscribe.Proofs.Workspace.Mirror

namespace Blockscribe

/-- A block without its comment. -/
def Block.silent (b : Block) : Block := { b with comment := .null }

namespace Workspace

/-- A workspace without comments. -/
def silent (w : Workspace) : Workspace := { w with blocks := w.blocks.map Block.silent }

/-- Blocks of two workspaces that differ in their comments only. -/
def Twins (w v : Workspace) (b b' : Block) : Prop :=
  b ∈ w.blocks ∧ b' ∈ v.blocks ∧ b.silent = b'.silent

variable {w v : Workspace} {b b' : Block}

/-! ### Without comments -/

lemma links_silent (w : Workspace) : w.silent.links = w.links := by
  rw [links, links, silent, List.flatMap_map]
  rfl

lemma ids_silent (w : Workspace) : w.silent.ids = w.ids := ids_mapBlocks fun _ => rfl

lemma size_silent (w : Workspace) : w.silent.size = w.size := size_mapBlocks

lemma led_silent (w : Workspace) (t : Option BlockId) :
    w.silent.led t = (w.led t).map Block.silent :=
  led_mapBlocks (f := Block.silent) (fun _ => rfl) t

lemma isInline_silent (w : Workspace) (id : BlockId) : w.silent.isInline id = w.isInline id := by
  rw [isInline, isInline, linkTo?, linkTo?, links_silent]

/-- Validation does not look at comments. -/
lemma validate_silent (w : Workspace) : w.silent.validate = w.validate := by
  have hparent : w.silent.parent? = w.parent? := by
    funext id
    rw [parent?, parent?, links_silent]
  rw [validate, validate, links_silent, hparent, size_silent, silent, List.findSome?_map]
  rfl

lemma wellFormed_silent (hw : w.WellFormed) : w.silent.WellFormed where
  ids_eq := by rw [ids_silent, size_silent, hw.ids_eq]
  closed := by
    intro b hb id hto
    obtain ⟨c, hc, rfl⟩ := List.mem_map.mp hb
    rw [ids_silent]
    exact hw.closed c hc id hto

lemma wellFormed_of_silent (h : w.silent.WellFormed) : w.WellFormed where
  ids_eq := by rw [← ids_silent, h.ids_eq, size_silent]
  closed := by
    intro b hb id hto
    rw [← ids_silent]
    exact h.closed b.silent (List.mem_map_of_mem hb) id hto

/-! ### Twins -/

namespace Twins

lemma symm (h : w.Twins v b b') : v.Twins w b' b := ⟨h.2.1, h.1, h.2.2.symm⟩

lemma id_eq (h : w.Twins v b b') : b'.id = b.id :=
  show b'.silent.id = b.silent.id from congrArg (fun c : Block => c.id) h.2.2.symm

lemma sockets_eq (h : w.Twins v b b') : b'.sockets = b.sockets :=
  show b'.silent.sockets = b.silent.sockets from congrArg (fun c : Block => c.sockets) h.2.2.symm

lemma next_eq (h : w.Twins v b b') : b'.next = b.next :=
  show b'.silent.next = b.silent.next from congrArg (fun c : Block => c.next) h.2.2.symm

end Twins

/-- Blocks that are related one by one, and chosen in both lists or in none. -/
lemma lined_filter_of_forall₂ {M R : Block → Block → Prop} {idle : Block → Prop}
    {p q : Block → Bool} {l l' : List Block} (h : List.Forall₂ R l l')
    (hM : ∀ b ∈ l, ∀ b' ∈ l', R b b' → M b b' ∧ q b' = p b) :
    Lined M idle (l.filter p) (l'.filter q) := by
  induction h with
  | nil => exact .nil
  | @cons b b' l l' hb _ ih =>
      obtain ⟨hboth, hsame⟩ := hM b List.mem_cons_self b' List.mem_cons_self hb
      have hrest := ih fun c hc c' hc' => hM c (List.mem_cons_of_mem b hc) c'
        (List.mem_cons_of_mem b' hc')
      rw [List.filter_cons, List.filter_cons, hsame]
      split
      · exact .both hboth hrest
      · exact hrest

section Twins

variable (h : w.silent = v.silent)

include h

lemma declared_eq_of_silent : v.declared = w.declared := (congrArg declared h).symm

lemma links_eq_of_silent : v.links = w.links := by
  rw [← links_silent, ← h, links_silent]

/-- Every block has a twin. -/
lemma exists_twin (hb : b ∈ w.blocks) : ∃ b', w.Twins v b b' := by
  have hmem : b.silent ∈ v.silent.blocks := h ▸ List.mem_map_of_mem hb
  obtain ⟨b', hb', hsilent⟩ := List.mem_map.mp hmem
  exact ⟨b', hb, hb', hsilent.symm⟩

/-- A link leads to twins, or to nothing in both workspaces. -/
lemma rel_led_twins (t : Option BlockId) : Option.Rel (w.Twins v) (w.led t) (v.led t) := by
  have hled : (w.led t).map Block.silent = (v.led t).map Block.silent := by
    rw [← led_silent, h, led_silent]
  have hmem : ∀ (u : Workspace) (c : Block), u.led t = some c → c ∈ u.blocks := by
    intro u c hc
    obtain ⟨id, -, hfind⟩ := Option.bind_eq_some_iff.mp hc
    exact (find?_eq_some hfind).1
  cases hc : w.led t with
  | none =>
      rw [hc] at hled
      rw [Option.map_eq_none_iff.mp hled.symm]
      exact .none
  | some c =>
      rw [hc] at hled
      obtain ⟨c', hc', hsilent⟩ := Option.map_eq_some_iff.mp hled.symm
      rw [hc']
      exact .some ⟨hmem w c hc, hmem v c' hc', hsilent.symm⟩

/-- Twins have the same place. -/
lemma mirrors_twins : w.Mirrors v (w.Twins v) where
  mem hb := ⟨hb.1, hb.2.1⟩
  face hb := (congrArg Block.face hb.2.2).symm
  disabled hb := (congrArg (fun c : Block => c.disabled) hb.2.2).symm
  inline {b b'} hb := by
    rw [hb.id_eq, ← isInline_silent, ← h, isInline_silent]
  sockets {b b'} hb := by
    refine ⟨id, by rw [List.map_id, hb.sockets_eq], fun s _ => ⟨rfl, rfl, fun _ => ?_, fun _ => ?_⟩⟩
    · exact plugged_of_rel (rel_led_twins h s.target)
    · exact leads_of_rel (rel_led_twins h s.target)
  next {b b'} hb := by
    rw [hb.next_eq]
    exact leads_of_rel (rel_led_twins h b.next)

/-- The top-level blocks are twins one by one. -/
lemma lined_twins (idle : Block → Prop) : Lined (w.Twins v) idle w.topBlocks v.topBlocks := by
  have hall : List.Forall₂ Eq (w.blocks.map Block.silent) (v.blocks.map Block.silent) := by
    rw [List.forall₂_eq_eq_eq]
    exact congrArg blocks h
  rw [List.forall₂_map_left_iff, List.forall₂_map_right_iff] at hall
  refine lined_filter_of_forall₂ hall fun b hb b' hb' hsilent => ?_
  have htwins : w.Twins v b b' := ⟨hb, hb', hsilent⟩
  exact ⟨htwins, by rw [links_eq_of_silent h, htwins.id_eq]⟩

end Twins

end Workspace

end Blockscribe
