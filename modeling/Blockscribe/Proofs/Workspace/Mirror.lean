/-
Blocks of two workspaces that have the same place.

* `Workspace.led`: the block to which a link leads.
* `Workspace.Leads`: two links lead to related blocks, past disabled blocks on the way.
* `Workspace.Plugged`: what is plugged into two value sockets is related, or is disabled and leaves
  nothing but comments; `Workspace.collectedIn` are these comments.
* `Workspace.Mirrors`: related blocks say the same, and their links lead to related blocks again.
* `Mirrors.socket?`, `Mirrors.valueSockets`: the sockets of related blocks.
* `Lined`: two lists of blocks that are related one by one, but for idle ones in the second.
* `induction_below`: what a block inherits from all blocks below it holds of every block.
* `mapBlocks`: every block is changed on its own; if none gets another handle, look-ups find what
  becomes of the block that they found (`led_mapBlocks`).
-/
import Mathlib.Data.List.Find
import Mathlib.Data.Option.Basic
import Blockscribe.Comment
import Blockscribe.Proofs.Workspace.Descent

namespace Blockscribe.Workspace

open Relation (TransGen ReflTransGen)

/-- The block to which a link leads. -/
def led (w : Workspace) (target : Option BlockId) : Option Block := target.bind w.find?

/-- Two links that lead to related blocks. The way may lead past a disabled block of the first
workspace, or past one of each. -/
inductive Leads (w v : Workspace) (M : Block → Block → Prop) : Option Block → Option Block → Prop
  | nowhere : Leads w v M none none
  | here {b b' : Block} : M b b' → Leads w v M (some b) (some b')
  | past {d : Block} {t : Option Block} : d ∈ w.blocks → d.disabled = true →
      Leads w v M (w.led d.next) t → Leads w v M (some d) t
  | pastBoth {d d' : Block} : d ∈ w.blocks → d.disabled = true → d' ∈ v.blocks →
      d'.disabled = true → Leads w v M (w.led d.next) (v.led d'.next) →
      Leads w v M (some d) (some d')

/-- The comments of a block and of the values plugged into it. -/
def collected (w : Workspace) (b : Block) : Except Fault (List Value) := w.gather (w.size + 1) b

/-- The comments of what is plugged into a value socket. -/
def collectedIn (w : Workspace) : Option Block → Except Fault (List Value)
  | none => .ok []
  | some b => w.collected b

/-- A disabled block that nothing follows. -/
structure Idle (w : Workspace) (d : Block) : Prop where
  mem : d ∈ w.blocks
  disabled : d.disabled = true
  last : d.next = none

/-- What is plugged into two value sockets: nothing, or related blocks. In the first workspace it may
also be a disabled block, if there is another one or nothing in the second, with the same comments. -/
inductive Plugged (w v : Workspace) (M : Block → Block → Prop) : Option Block → Option Block → Prop
  | nothing : Plugged w v M none none
  | here {b b' : Block} : M b b' → Plugged w v M (some b) (some b')
  | idle {d : Block} {t : Option Block} : w.Idle d → (∀ e, t = some e → v.Idle e) →
      v.collectedIn t = w.collected d → Plugged w v M (some d) t

/-- Sockets of one name and one kind that lead to related blocks; those for statements may lead past
disabled blocks. -/
structure MirrorsSocket (w v : Workspace) (M : Block → Block → Prop) (s s' : Socket) : Prop where
  name : s'.name = s.name
  kind : s'.kind = s.kind
  value : s.kind = .value → w.Plugged v M (w.led s.target) (v.led s'.target)
  statement : s.kind = .statement → w.Leads v M (w.led s.target) (v.led s'.target)

/-- Related blocks say the same, socket by socket, and their links lead to related blocks. -/
structure Mirrors (w v : Workspace) (M : Block → Block → Prop) : Prop where
  mem {b b' : Block} : M b b' → b ∈ w.blocks ∧ b' ∈ v.blocks
  face {b b' : Block} : M b b' → b'.face = b.face
  disabled {b b' : Block} : M b b' → b'.disabled = b.disabled
  inline {b b' : Block} : M b b' → v.isInline b'.id = w.isInline b.id
  sockets {b b' : Block} : M b b' → ∃ g : Socket → Socket, b'.sockets = b.sockets.map g ∧
    ∀ s ∈ b.sockets, w.MirrorsSocket v M s (g s)
  next {b b' : Block} : M b b' → w.Leads v M (w.led b.next) (v.led b'.next)

/-- Blocks that are related one by one, with others in the second list that are idle. -/
inductive Lined (M : Block → Block → Prop) (idle : Block → Prop) : List Block → List Block → Prop
  | nil : Lined M idle [] []
  | both {b b' : Block} {l l' : List Block} : M b b' → Lined M idle l l' →
      Lined M idle (b :: l) (b' :: l')
  | idle {b' : Block} {l l' : List Block} : idle b' → Lined M idle l l' → Lined M idle l (b' :: l')

/-! ### Look-ups in one workspace -/

section Lookups

variable {w : Workspace} {b : Block}

lemma led_none : w.led none = none := rfl

lemma led_some (id : BlockId) : w.led (some id) = w.find? id := rfl

/-- Every reference leads to a block. -/
lemma WellFormed.led_eq_some (hw : w.WellFormed) (hb : b ∈ w.blocks) {id : BlockId}
    (h : b.RefersTo id) : ∃ c, w.led (some id) = some c ∧ c ∈ w.blocks ∧ c.id = id := by
  have hhas := has_iff.mpr (hw.closed b hb id h)
  rw [has, Option.isSome_iff_exists] at hhas
  obtain ⟨c, hc⟩ := hhas
  exact ⟨c, hc, find?_eq_some hc⟩

lemma WellFormed.get_eq (hw : w.WellFormed) (hb : b ∈ w.blocks) {id : BlockId}
    (h : b.RefersTo id) : (w.get id).map some = .ok (w.led (some id)) := by
  obtain ⟨c, hc, -⟩ := hw.led_eq_some hb h
  rw [led_some] at hc ⊢
  rw [get, hc]
  rfl

lemma WellFormed.nextOf_eq (hw : w.WellFormed) (hb : b ∈ w.blocks) :
    w.nextOf b = .ok (w.led b.next) := by
  rw [nextOf]
  cases hnext : b.next with
  | none => rfl
  | some id => exact hw.get_eq hb (Or.inr hnext)

lemma WellFormed.targetOf_eq (hw : w.WellFormed) (hb : b ∈ w.blocks) {name : String} {s : Socket}
    (hs : b.socket? name = some s) : w.targetOf b name = .ok (w.led s.target) := by
  rw [targetOf, hs, Option.bind_some]
  cases htarget : s.target with
  | none => rfl
  | some id => exact hw.get_eq hb (refersTo_of_socket? hs htarget)

/-- Under distinct keys every entry is found under its own. -/
lemma find?_eq_some_of_nodup {α κ : Type} [BEq κ] [LawfulBEq κ] {key : α → κ} {l : List α}
    (h : (l.map key).Nodup) {a : α} (ha : a ∈ l) : l.find? (fun x => key x == key a) = some a := by
  induction l with
  | nil => exact absurd ha List.not_mem_nil
  | cons first rest ih =>
      rw [List.map_cons, List.nodup_cons] at h
      rcases List.mem_cons.mp ha with rfl | hrest
      · exact List.find?_cons_of_pos (beq_self_eq_true _)
      · refine (List.find?_cons_of_neg fun heq => ?_).trans (ih h.2 hrest)
        exact h.1 (beq_iff_eq.mp heq ▸ List.mem_map_of_mem hrest)

/-- Under distinct names every socket is found under its own. -/
lemma socket?_eq_some (h : (b.sockets.map Socket.name).Nodup) {s : Socket} (hs : s ∈ b.sockets) :
    b.socket? s.name = some s := find?_eq_some_of_nodup h hs

lemma WellFormed.nodup_ids (hw : w.WellFormed) : w.ids.Nodup := by
  rw [hw.ids_eq]
  refine List.Nodup.map (fun m n h => ?_) List.nodup_range
  have hsucc : (m : Int) + 1 = n + 1 := h
  omega

/-- Every block is found under its handle. -/
lemma WellFormed.find?_eq_some (hw : w.WellFormed) (hb : b ∈ w.blocks) : w.find? b.id = some b :=
  find?_eq_some_of_nodup hw.nodup_ids hb

/-- A block is the only one with its handle. -/
lemma WellFormed.eq_of_id_eq (hw : w.WellFormed) {c : Block} (hb : b ∈ w.blocks)
    (hc : c ∈ w.blocks) (h : c.id = b.id) : c = b :=
  Option.some.inj ((hw.find?_eq_some hc).symm.trans (h ▸ hw.find?_eq_some hb))

lemma parent_of_mem_links {l : Link} (hl : l ∈ b.links) : b.id = l.parent := by
  rcases List.mem_append.mp hl with hsocket | hnext
  · obtain ⟨s, -, hs⟩ := List.mem_filterMap.mp hsocket
    obtain ⟨t, -, rfl⟩ := Option.map_eq_some_iff.mp hs
    rfl
  · obtain ⟨n, -, rfl⟩ := Option.map_eq_some_iff.mp (Option.mem_toList.mp hnext)
    rfl

/-- A link without a socket is the one to what follows. -/
lemma WellFormed.next_of_mem_links (hw : w.WellFormed) (hb : b ∈ w.blocks) {l : Link}
    (hl : l ∈ w.links) (hparent : l.parent = b.id) (hkind : l.kind = none) :
    b.next = some l.child := by
  obtain ⟨c, hc, hlink⟩ := List.mem_flatMap.mp hl
  rcases List.mem_append.mp hlink with hsocket | hnext
  · obtain ⟨s, -, hs⟩ := List.mem_filterMap.mp hsocket
    obtain ⟨t, -, rfl⟩ := Option.map_eq_some_iff.mp hs
    exact nomatch hkind
  · obtain ⟨n, hn, rfl⟩ := Option.map_eq_some_iff.mp (Option.mem_toList.mp hnext)
    obtain rfl := hw.eq_of_id_eq hb hc hparent
    exact hn

/-- What a block inherits from all blocks below it holds of every block. -/
lemma induction_below (hw : w.WellFormed) (hvalid : w.validate = .ok ()) {P : Block → Prop}
    (step : ∀ b ∈ w.blocks, (∀ c ∈ w.blocks, TransGen w.Refers b.id c.id → P c) → P b) :
    ∀ b ∈ w.blocks, P b := by
  have hbelow : ∀ b ∈ w.blocks, ∀ c ∈ w.blocks, ReflTransGen w.Refers b.id c.id → P c := by
    intro b hb
    refine fuel_induction (n := w.size) (P := fun _ b => b ∈ w.blocks → ∀ c ∈ w.blocks,
      ReflTransGen w.Refers b.id c.id → P c) hvalid ?_ hb le_rfl hb
    intro _ b ih hb
    have hlower : ∀ c ∈ w.blocks, TransGen w.Refers b.id c.id → P c := by
      intro c hc hpath
      obtain ⟨id, ⟨b', hb', hid', hto⟩, hrest⟩ := TransGen.head'_iff.mp hpath
      obtain rfl := hw.eq_of_id_eq hb hb' hid'
      obtain ⟨m, hm, hmem, rfl⟩ := hw.led_eq_some hb hto
      exact ih m ⟨hto, hm⟩ hmem c hc hrest
    intro c hc hpath
    rcases Relation.reflTransGen_iff_eq_or_transGen.mp hpath with heq | hpath
    · exact hw.eq_of_id_eq hb hc heq ▸ step b hb hlower
    · exact hlower c hc hpath
  exact fun b hb => hbelow b hb b hb .refl

end Lookups

/-! ### Blocks that change one by one -/

/-- Every block is changed on its own. -/
def mapBlocks (w : Workspace) (f : Block → Block) : Workspace :=
  { w with blocks := w.blocks.map f }

/-- Sockets that keep their names leave what a block says as it is. -/
lemma face_mapSockets {g : Socket → Socket} (hname : ∀ s, (g s).name = s.name) (b : Block) :
    ({ b with sockets := b.sockets.map g } : Block).face = b.face := by
  rw [Block.face, Block.face, List.map_map]
  exact congrArg (Face.mk _ _ _) (List.map_congr_left fun s _ => hname s)

section Changes

variable {w v : Workspace} {d : Block} {f : Block → Block}

/-- A workspace is accepted if what is below a block in it is below it in an accepted one. -/
lemma validate_of_transGen (hvalid : w.validate = .ok ())
    (hnodup : (v.links.map Link.child).Nodup)
    (h : ∀ x y, v.Refers x y → TransGen w.Refers x y) : v.validate = .ok () := by
  refine validate_eq_ok_iff.mpr ⟨hnodup, fun b _ => ?_⟩
  refine climb_eq_none_of_acyclic (fun id hcycle => ?_) b.id
  exact not_transGen_self (wellFounded_refers_of_validate hvalid) id (TransGen.closed h _ _ hcycle)

lemma size_mapBlocks : (w.mapBlocks f).size = w.size := List.length_map _

variable (hf : ∀ b, (f b).id = b.id)

include hf

lemma ids_mapBlocks : (w.mapBlocks f).ids = w.ids := by
  rw [ids, ids, mapBlocks, List.map_map]
  exact List.map_congr_left fun b _ => hf b

lemma led_mapBlocks (t : Option BlockId) : (w.mapBlocks f).led t = (w.led t).map f := by
  cases t with
  | none => rfl
  | some id =>
      rw [led_some, led_some, find?, find?, mapBlocks, List.find?_map]
      refine congrArg (fun p => (w.blocks.find? p).map f) (funext fun b => ?_)
      rw [Function.comp_apply, hf]

/-- A link that does not lead to a block leads to what becomes of the block to which it led. -/
lemma rel_mapBlocks {t : Option BlockId} (ht : t ≠ some d.id) :
    Option.Rel (fun b b' => b ∈ w.blocks ∧ b.id ≠ d.id ∧ b' = f b) (w.led t)
      ((w.mapBlocks f).led t) := by
  rw [led_mapBlocks hf]
  cases hled : w.led t with
  | none => exact .none
  | some c =>
      obtain ⟨id, rfl, hfind⟩ := Option.bind_eq_some_iff.mp hled
      obtain ⟨hmem, hid⟩ := find?_eq_some hfind
      exact .some ⟨hmem, fun heq => ht (congrArg some (hid.symm.trans heq)), rfl⟩

/-- A workspace stays well formed if its links lead to blocks. -/
lemma WellFormed.mapBlocks (hw : w.WellFormed)
    (h : ∀ x y, (w.mapBlocks f).Refers x y → y ∈ w.ids) : (w.mapBlocks f).WellFormed where
  ids_eq := by rw [ids_mapBlocks hf, hw.ids_eq, size_mapBlocks]
  closed := by
    intro b hb id hto
    rw [ids_mapBlocks hf]
    exact h b.id id ⟨b, hb, rfl, hto⟩

end Changes

/-! ### Look-ups in two workspaces -/

section Mirrors

variable {w v : Workspace} {M : Block → Block → Prop} {b b' : Block}

lemma Leads.eq_none {t : Option Block} (h : w.Leads v M none t) : t = none := by
  cases h
  rfl

lemma leads_of_rel {t t' : Option Block} (h : Option.Rel M t t') : w.Leads v M t t' := by
  cases h with
  | none => exact .nowhere
  | some hM => exact .here hM

lemma Plugged.eq_none {t : Option Block} (h : w.Plugged v M none t) : t = none := by
  cases h
  rfl

lemma plugged_of_rel {t t' : Option Block} (h : Option.Rel M t t') : w.Plugged v M t t' := by
  cases h with
  | none => exact .nothing
  | some hM => exact .here hM

/-- A socket in the place of an empty one leads nowhere. -/
lemma MirrorsSocket.led_eq_none {s s' : Socket} (h : w.MirrorsSocket v M s s')
    (hempty : s.target = none) : v.led s'.target = none := by
  cases hkind : s.kind with
  | value =>
      have hplugged := h.value hkind
      rw [hempty, led_none] at hplugged
      exact hplugged.eq_none
  | statement =>
      have hleads := h.statement hkind
      rw [hempty, led_none] at hleads
      exact hleads.eq_none

lemma Mirrors.type (h : w.Mirrors v M) (hb : M b b') : b'.type = b.type :=
  congrArg Face.type (h.face hb)

/-- Sockets of one name have the same place. -/
lemma Mirrors.socket? (h : w.Mirrors v M) (hb : M b b') (name : String) :
    Option.Rel (w.MirrorsSocket v M) (b.socket? name) (b'.socket? name) := by
  obtain ⟨g, hg, hsockets⟩ := h.sockets hb
  have hfind : b'.socket? name = (b.socket? name).map g := by
    rw [Block.socket?, Block.socket?, hg, List.find?_map]
    refine congrArg (Option.map g) (List.find?_congr fun s hs => ?_)
    rw [Function.comp_apply, (hsockets s hs).name]
  rw [hfind]
  cases hs : b.socket? name with
  | none => exact .none
  | some s => exact .some (hsockets s (List.mem_of_find?_eq_some hs))

/-- The value sockets have the same places. -/
lemma Mirrors.valueSockets (h : w.Mirrors v M) (hb : M b b') :
    ∃ g : Socket → Socket, b'.valueSockets = b.valueSockets.map g ∧
      ∀ s ∈ b.valueSockets, s ∈ b.sockets ∧ g s ∈ b'.sockets ∧ (g s).name = s.name ∧
        w.Plugged v M (w.led s.target) (v.led (g s).target) := by
  obtain ⟨g, hg, hsockets⟩ := h.sockets hb
  refine ⟨g, ?_, fun s hs => ?_⟩
  · rw [Block.valueSockets, Block.valueSockets, hg, List.filter_map]
    refine congrArg (List.map g) (List.filter_congr fun s hs => ?_)
    rw [Function.comp_apply, (hsockets s hs).kind]
  · obtain ⟨hmem, hkind⟩ := List.mem_filter.mp hs
    refine ⟨hmem, hg ▸ List.mem_map_of_mem hmem, (hsockets s hmem).name, ?_⟩
    exact (hsockets s hmem).value (beq_iff_eq.mp hkind)

end Mirrors

/-- Two choices among the blocks of one list, where each block is related to what becomes of it and
chosen in both or in none, or else is idle and left out of the first. -/
lemma lined_filter {M : Block → Block → Prop} {idle : Block → Prop} {f : Block → Block}
    {p q : Block → Bool} {l : List Block}
    (h : ∀ b ∈ l, (M b (f b) ∧ q (f b) = p b) ∨ (idle (f b) ∧ p b = false)) :
    Lined M idle (l.filter p) ((l.map f).filter q) := by
  induction l with
  | nil => exact .nil
  | cons b rest ih =>
      have hrest := ih fun c hc => h c (List.mem_cons_of_mem b hc)
      rw [List.map_cons]
      rcases h b List.mem_cons_self with ⟨hM, hsame⟩ | ⟨hidle, hout⟩
      · cases hp : p b with
        | true =>
            rw [List.filter_cons_of_pos hp, List.filter_cons_of_pos (hsame.trans hp)]
            exact .both hM hrest
        | false =>
            rw [List.filter_cons_of_neg (by rw [hp]; decide),
              List.filter_cons_of_neg (by rw [hsame, hp]; decide)]
            exact hrest
      · rw [List.filter_cons_of_neg (by rw [hout]; decide)]
        cases hq : q (f b) with
        | true =>
            rw [List.filter_cons_of_pos hq]
            exact .idle hidle hrest
        | false =>
            rw [List.filter_cons_of_neg (by rw [hq]; decide)]
            exact hrest

end Blockscribe.Workspace
