/-
Workspaces along every sequence of edits.

* `Edit`: one call of `add`, `chain` or `declare`. `Workspace.edit` carries it out, and an edit that
  is refused changes nothing; `Workspace.edited` carries out a whole sequence.
* `Workspace.Refers`: a block has a socket or a next link that leads to another block.
* `Workspace.WellFormed`: the handles are one, two, three and so on, and every reference leads to a
  block; `wellFormed_edited` says that this holds after every sequence of edits.
-/
import Mathlib.Data.List.Basic
import Blockscribe.Workspace

namespace Blockscribe

/-- A change of a workspace. -/
inductive Edit
  | add (draft : Draft)
  | chain (ids : List BlockId)
  | declare (name : String)

/-- A block refers to another by a socket or by the link to what follows it. -/
def Block.RefersTo (b : Block) (id : BlockId) : Prop :=
  (∃ s ∈ b.sockets, s.target = some id) ∨ b.next = some id

namespace Workspace

/-- Carries out an edit; one that is refused changes nothing. -/
def edit (w : Workspace) : Edit → Workspace
  | .add draft =>
      match w.add draft with
      | .ok (_, w') => w'
      | .error _ => w
  | .chain ids =>
      match w.chain ids with
      | .ok (_, w') => w'
      | .error _ => w
  | .declare name => w.declare name

/-- What becomes of an empty workspace after a sequence of edits. -/
def edited (declared : List String) (edits : List Edit) : Workspace :=
  edits.foldl edit (empty declared)

/-- One handle refers to another if its block does. -/
def Refers (w : Workspace) (parent child : BlockId) : Prop :=
  ∃ b ∈ w.blocks, b.id = parent ∧ b.RefersTo child

/-- The handles of the blocks. -/
def ids (w : Workspace) : List BlockId := w.blocks.map Block.id

/-- The handles count from one, and references lead to blocks. -/
structure WellFormed (w : Workspace) : Prop where
  ids_eq : w.ids = (List.range w.size).map fun k : ℕ => (k : Int) + 1
  closed : ∀ b ∈ w.blocks, ∀ id, b.RefersTo id → id ∈ w.ids

/-! ### Handles and look-ups -/

lemma mem_ids {w : Workspace} {id : BlockId} : id ∈ w.ids ↔ ∃ b ∈ w.blocks, b.id = id :=
  List.mem_map

/-- What is found under a handle is a block with that handle. -/
lemma find?_eq_some {w : Workspace} {id : BlockId} {b : Block} (h : w.find? id = some b) :
    b ∈ w.blocks ∧ b.id = id :=
  ⟨List.mem_of_find?_eq_some h, by simpa using List.find?_some h⟩

lemma has_iff {w : Workspace} {id : BlockId} : w.has id = true ↔ id ∈ w.ids := by
  rw [has, find?, List.find?_isSome, mem_ids]
  simp

/-- The handles are accepted exactly if each has a block. -/
lemma require_eq_ok_iff {w : Workspace} {ids : List BlockId} :
    w.require ids = .ok () ↔ ∀ id ∈ ids, id ∈ w.ids := by
  induction ids with
  | nil => simp [require]
  | cons id rest ih =>
      by_cases h : id ∈ w.ids
      · simp only [require, if_pos (has_iff.mpr h), ih, List.forall_mem_cons, h, true_and]
      · have hf : ¬ w.has id = true := fun hh => h (has_iff.mp hh)
        simp [require, hf, h]

/-! ### What an edit changes -/

/-- Adding succeeds if the children exist, and puts the block at the end. -/
lemma add_eq_ok {w w' : Workspace} {d : Draft} {id : BlockId} (h : w.add d = .ok (id, w')) :
    (∀ t ∈ d.sockets.filterMap Socket.target, t ∈ w.ids) ∧ (∀ n ∈ d.next.toList, n ∈ w.ids) ∧
      id = w.nextId ∧ w' = { w with blocks := w.blocks ++ [{ d with id := w.nextId }] } := by
  rw [add] at h
  cases hs : w.require (d.sockets.filterMap Socket.target) with
  | error fault => simp [hs, bind, Except.bind] at h
  | ok u =>
      cases hn : w.require d.next.toList with
      | error fault => simp [hs, hn, bind, Except.bind] at h
      | ok u' =>
          simp only [hs, hn, bind, Except.bind, pure, Except.pure, Except.ok.injEq,
            Prod.mk.injEq] at h
          exact ⟨require_eq_ok_iff.mp hs, require_eq_ok_iff.mp hn, h.1.symm, h.2.symm⟩

/-- Chaining succeeds if the blocks exist, and links each to the one behind it. -/
lemma chain_eq_ok {w w' : Workspace} {ids : List BlockId} {first : Option BlockId}
    (h : w.chain ids = .ok (first, w')) :
    (∀ id ∈ ids, id ∈ w.ids) ∧ first = ids.head? ∧
      w' = (ids.zip ids.tail).foldl (fun w (id, next) => w.follow id next) w := by
  rw [chain] at h
  cases hr : w.require ids with
  | error fault => simp [hr, bind, Except.bind] at h
  | ok u =>
      simp only [hr, bind, Except.bind, pure, Except.pure, Except.ok.injEq, Prod.mk.injEq] at h
      exact ⟨require_eq_ok_iff.mp hr, h.1.symm, h.2.symm⟩

/-- Following changes no handle. -/
lemma ids_follow (w : Workspace) (id next : BlockId) : (w.follow id next).ids = w.ids := by
  rw [ids, follow, ids, List.map_map]
  refine List.map_congr_left fun b _ => ?_
  by_cases h : b.id = id <;> simp [h]

lemma size_follow (w : Workspace) (id next : BlockId) : (w.follow id next).size = w.size := by
  simp [size, follow]

/-- Following keeps a workspace well formed if the block that follows exists. -/
lemma WellFormed.follow {w : Workspace} (hw : w.WellFormed) {id next : BlockId}
    (hnext : next ∈ w.ids) : (w.follow id next).WellFormed where
  ids_eq := by rw [ids_follow, size_follow, hw.ids_eq]
  closed := by
    intro b hb target htarget
    rw [ids_follow]
    obtain ⟨old, hold, rfl⟩ := List.mem_map.mp hb
    by_cases h : old.id = id
    · rw [if_pos h] at htarget
      rcases htarget with hsocket | hfollow
      · exact hw.closed old hold target (Or.inl hsocket)
      · exact Option.some.inj hfollow ▸ hnext
    · rw [if_neg h] at htarget
      exact hw.closed old hold target htarget

/-- Chaining keeps a workspace well formed if the blocks exist. -/
lemma WellFormed.followAll {w : Workspace} (hw : w.WellFormed) (pairs : List (BlockId × BlockId))
    (hpairs : ∀ p ∈ pairs, p.2 ∈ w.ids) :
    (pairs.foldl (fun w (id, next) => w.follow id next) w).WellFormed := by
  induction pairs generalizing w with
  | nil => exact hw
  | cons p rest ih =>
      refine ih (hw.follow (hpairs p List.mem_cons_self)) fun q hq => ?_
      rw [ids_follow]
      exact hpairs q (List.mem_cons_of_mem p hq)

/-- Adding a block whose children exist keeps a workspace well formed. -/
lemma WellFormed.append {w : Workspace} (hw : w.WellFormed) {d : Draft}
    (hsockets : ∀ t ∈ d.sockets.filterMap Socket.target, t ∈ w.ids)
    (hnext : ∀ n ∈ d.next.toList, n ∈ w.ids) :
    ({ w with blocks := w.blocks ++ [{ d with id := w.nextId }] } : Workspace).WellFormed where
  ids_eq := by
    have hids := hw.ids_eq
    simp only [ids, size] at hids
    simp only [ids, size, List.map_append, hids, List.length_append, List.length_singleton,
      List.range_succ, List.map_singleton, nextId]
  closed := by
    have hgrow : ∀ id ∈ w.ids, id ∈ (w.blocks ++ [({ d with id := w.nextId } : Block)]).map
        Block.id := by
      intro id hid
      rw [List.map_append]
      exact List.mem_append_left _ hid
    intro b hb target htarget
    refine hgrow target ?_
    rcases List.mem_append.mp hb with hold | hnew
    · exact hw.closed b hold target htarget
    · obtain rfl := List.mem_singleton.mp hnew
      rcases htarget with ⟨s, hs, hst⟩ | hfollow
      · exact hsockets target (List.mem_filterMap.mpr ⟨s, hs, hst⟩)
      · exact hnext target (Option.mem_toList.mpr hfollow)

/-! ### Every sequence of edits -/

/-- The empty workspace is well formed. -/
lemma wellFormed_empty (declared : List String) : (empty declared).WellFormed where
  ids_eq := rfl
  closed := fun _ hb => absurd hb List.not_mem_nil

/-- Every edit keeps a workspace well formed. -/
lemma WellFormed.edit {w : Workspace} (hw : w.WellFormed) (e : Edit) : (w.edit e).WellFormed := by
  cases e with
  | add draft =>
      cases h : w.add draft with
      | error fault => simpa only [Workspace.edit, h] using hw
      | ok result =>
          obtain ⟨hsockets, hnext, -, hw'⟩ := add_eq_ok h
          simp only [Workspace.edit, h, hw']
          exact hw.append hsockets hnext
  | chain ids =>
      cases h : w.chain ids with
      | error fault => simpa only [Workspace.edit, h] using hw
      | ok result =>
          obtain ⟨hids, -, hw'⟩ := chain_eq_ok h
          simp only [Workspace.edit, h, hw']
          exact hw.followAll _ fun p hp =>
            hids p.2 (List.mem_of_mem_tail (List.of_mem_zip hp).2)
  | declare name =>
      have hblocks : (w.declare name).blocks = w.blocks := by
        rw [Workspace.declare]
        split <;> rfl
      refine ⟨?_, ?_⟩
      · simpa only [Workspace.edit, ids, size, hblocks] using hw.ids_eq
      · simpa only [Workspace.edit, ids, hblocks] using hw.closed

/-- A workspace is well formed after every sequence of edits. -/
lemma wellFormed_edited (declared : List String) (edits : List Edit) :
    (edited declared edits).WellFormed := by
  rw [edited]
  generalize hstart : empty declared = start
  have hw : start.WellFormed := hstart ▸ wellFormed_empty declared
  clear hstart
  induction edits generalizing start with
  | nil => exact hw
  | cons e rest ih => exact ih _ (hw.edit e)

end Workspace

end Blockscribe
