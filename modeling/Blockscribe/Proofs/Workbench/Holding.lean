/-
What a workbench does to the workspace that is built on it.

* `Workbench.holding`: the workbench on which a workspace has been built.
* `run_add`, `run_chain`, `run_declare`: an edit ends as it does for the workspace. One that is
  refused leaves the whole workbench as it was.
* `run_fetch`, `run_targetOf`, `run_nextOf`, `run_validate`: these queries are answered from the
  workspace and change nothing.
* `run_topBlocks`, `run_isInline`: with an index that is not out of date, these are answered as from
  the workspace too, and what they keep is not out of date either.
* `Workbench.reached`: a workbench after a sequence of calls; `exists_reached` says that it holds what
  the edits among them make, and no index that is out of date.
-/
import Blockscribe.Proofs.Assoc
import Blockscribe.Proofs.Workspace.Mirror
import Blockscribe.Workbench

namespace Blockscribe.Workbench

/-- The workbench on which a workspace has been built. -/
def holding (w : Workspace) (index : Option ParentIndex) : Workbench :=
  ⟨w.declared, w.blocks.map fun b => (b.id, b), w.nextId, index⟩

/-- An index is missing, or it is the one of the workspace as it is. -/
def Current (w : Workspace) (index : Option ParentIndex) : Prop :=
  index = none ∨ index = some w.parentIndex

/-- How an edit of the workspace ends on its workbench. -/
def outcome {α : Type} (w : Workspace) (index : Option ParentIndex) :
    Except Fault (α × Workspace) → EStateM.Result Fault Workbench α
  | .ok (a, w') => .ok a (holding w' none)
  | .error fault => .error fault (holding w index)

variable {w : Workspace} {index : Option ParentIndex}

/-! ### What is held -/

lemma plain_holding (w : Workspace) (index : Option ParentIndex) :
    (holding w index).plain = w := by
  simp [plain, holding, Function.comp_def]

lemma keys_holding (w : Workspace) (index : Option ParentIndex) :
    (holding w index).blocks.map Prod.fst = w.ids := by
  simp [holding, Workspace.ids, Function.comp_def]

lemma lookup_holding (w : Workspace) (index : Option ParentIndex) (id : BlockId) :
    (holding w index).blocks.lookup id = w.find? id := by
  rw [holding, Assoc.lookup_map Block.id (fun b => b), Option.map_id']
  rfl

/-! ### Queries that need no index -/

lemma run_fetch (w : Workspace) (index : Option ParentIndex) (id : BlockId) :
    (fetch id).run (holding w index) = (Working.ofExcept (w.get id)).run (holding w index) := by
  rw [fetch, EStateM.run_bind, EStateM.run_get]
  simp only [lookup_holding, Workspace.get]
  cases w.find? id <;> rfl

/-- Handles are required as in the workspace. -/
lemma run_require (w : Workspace) (index : Option ParentIndex) (ids : List BlockId) :
    (require ids).run (holding w index) =
      (Working.ofExcept (w.require ids)).run (holding w index) := by
  induction ids with
  | nil => rfl
  | cons id rest ih =>
      rw [require, EStateM.run_bind, run_fetch, Workspace.get, Workspace.require, Workspace.has]
      cases w.find? id with
      | none => rfl
      | some b => exact ih

/-- A block that is found is given back. -/
lemma run_fetch_some (w : Workspace) (index : Option ParentIndex) (id : BlockId) :
    (fetch id >>= fun b => pure (some b) : Working (Option Block)).run (holding w index) =
      (Working.ofExcept ((w.get id).map some)).run (holding w index) := by
  rw [EStateM.run_bind, run_fetch]
  cases w.get id <;> rfl

lemma run_targetOf (w : Workspace) (index : Option ParentIndex) (b : Block) (name : String) :
    (targetOf b name).run (holding w index) =
      (Working.ofExcept (w.targetOf b name)).run (holding w index) := by
  rw [targetOf, Workspace.targetOf]
  cases (b.socket? name).bind Socket.target with
  | none => rfl
  | some id => exact run_fetch_some w index id

lemma run_nextOf (w : Workspace) (index : Option ParentIndex) (b : Block) :
    (nextOf b).run (holding w index) =
      (Working.ofExcept (w.nextOf b)).run (holding w index) := by
  rw [nextOf, Workspace.nextOf]
  cases b.next with
  | none => rfl
  | some id => exact run_fetch_some w index id

lemma run_validate (w : Workspace) (index : Option ParentIndex) :
    validate.run (holding w index) = (Working.ofExcept w.validate).run (holding w index) := by
  rw [validate, EStateM.run_bind, EStateM.run_get]
  simp only [plain_holding]

/-! ### Edits -/

/-- A block that is put at the end gets the handle behind all others. -/
lemma run_append (hw : w.WellFormed) (index : Option ParentIndex) (d : Draft) :
    (append d).run (holding w index) = .ok w.nextId
      (holding { w with blocks := w.blocks ++ [{ d with id := w.nextId }] } index) := by
  have hnew : w.nextId ∉ (holding w index).blocks.map Prod.fst := by
    rw [keys_holding, hw.ids_eq, List.mem_map]
    rintro ⟨k, hk, heq⟩
    have hlt := List.mem_range.mp hk
    have hsize : (k : Int) + 1 = w.size + 1 := heq
    omega
  have hput := Assoc.put_of_not_mem hnew ({ d with id := w.nextId } : Block)
  show EStateM.Result.ok w.nextId (Workbench.mk w.declared
    (Assoc.put (holding w index).blocks w.nextId { d with id := w.nextId }) (w.nextId + 1) index) = _
  rw [hput]
  simp [holding, Workspace.nextId]

lemma run_add (hw : w.WellFormed) (index : Option ParentIndex) (d : Draft) :
    (add d).run (holding w index) = outcome w index (w.add d) := by
  rw [add, EStateM.run_bind, run_require, Workspace.add]
  cases w.require (d.sockets.filterMap Socket.target) with
  | error fault => rfl
  | ok _ =>
      show ((require d.next.toList >>= _ : Working BlockId)).run (holding w index) = _
      rw [EStateM.run_bind, run_require]
      cases w.require d.next.toList with
      | error fault => rfl
      | ok _ =>
          show ((append d >>= _ : Working BlockId)).run (holding w index) = _
          rw [EStateM.run_bind, run_append hw]
          rfl

/-- A block that exists is made to be followed by another. -/
lemma run_follow (hw : w.WellFormed) (index : Option ParentIndex) {id : BlockId} (h : id ∈ w.ids)
    (next : BlockId) :
    (follow id next).run (holding w index) = .ok () (holding (w.follow id next) index) := by
  obtain ⟨b, hb, rfl⟩ := Workspace.mem_ids.mp h
  have hfind := hw.find?_eq_some hb
  have hkeys : ((holding w index).blocks.map Prod.fst).Nodup := by
    rw [keys_holding]
    exact hw.nodup_ids
  have hmem : b.id ∈ (holding w index).blocks.map Prod.fst := by
    rw [keys_holding]
    exact h
  have hput := Assoc.put_eq_map hkeys hmem { b with next := some next }
  rw [follow, EStateM.run_bind, EStateM.run_get]
  simp only [lookup_holding, hfind]
  show EStateM.Result.ok () (Workbench.mk w.declared
    (Assoc.put (holding w index).blocks b.id { b with next := some next }) w.nextId index) = _
  have hblocks : ((holding w index).blocks.map fun e =>
      if e.1 = b.id then (b.id, { b with next := some next }) else e) =
      (holding (w.follow b.id next) index).blocks := by
    rw [holding, holding, Workspace.follow, List.map_map, List.map_map]
    refine List.map_congr_left fun c hc => ?_
    by_cases hcb : c.id = b.id
    · obtain rfl := hw.eq_of_id_eq hb hc hcb
      simp
    · simp [hcb]
  have hnext : (w.follow b.id next).nextId = w.nextId :=
    congrArg (fun n : ℕ => (n : Int) + 1) (Workspace.size_follow w b.id next)
  rw [hput, hblocks, ← hnext]
  rfl

lemma run_followAll (hw : w.WellFormed) (index : Option ParentIndex)
    (pairs : List (BlockId × BlockId)) (hpairs : ∀ p ∈ pairs, p.1 ∈ w.ids ∧ p.2 ∈ w.ids) :
    (followAll pairs).run (holding w index) =
      .ok () (holding (pairs.foldl (fun w (id, next) => w.follow id next) w) index) := by
  induction pairs generalizing w with
  | nil => rfl
  | cons p rest ih =>
      obtain ⟨id, next⟩ := p
      obtain ⟨hid, hnext⟩ := hpairs _ List.mem_cons_self
      rw [followAll, EStateM.run_bind, run_follow hw index hid]
      refine ih (hw.follow hnext) fun q hq => ?_
      rw [Workspace.ids_follow]
      exact hpairs q (List.mem_cons_of_mem _ hq)

lemma run_chain (hw : w.WellFormed) (index : Option ParentIndex) (ids : List BlockId) :
    (chain ids).run (holding w index) = outcome w index (w.chain ids) := by
  rw [chain, EStateM.run_bind, run_require, Workspace.chain]
  cases hrequire : w.require ids with
  | error fault => rfl
  | ok _ =>
      have hids := Workspace.require_eq_ok_iff.mp hrequire
      have hpairs : ∀ p ∈ ids.zip ids.tail, p.1 ∈ w.ids ∧ p.2 ∈ w.ids := fun p hp =>
        ⟨hids _ (List.of_mem_zip hp).1, hids _ (List.mem_of_mem_tail (List.of_mem_zip hp).2)⟩
      show (followAll (ids.zip ids.tail) >>= _ : Working (Option BlockId)).run (holding w index) = _
      rw [EStateM.run_bind, run_followAll hw index _ hpairs]
      rfl

lemma run_declare (w : Workspace) (index : Option ParentIndex) (name : String) :
    (declare name).run (holding w index) = .ok () (holding (w.declare name) index) := by
  show EStateM.Result.ok () (if (holding w index).declared.contains name then holding w index
    else { holding w index with declared := (holding w index).declared ++ [name] }) = _
  rw [Workspace.declare]
  show EStateM.Result.ok () (if w.declared.contains name then _ else _) = _
  split <;> rfl

/-! ### Queries that need the index -/

/-- The index that is used is the one of the workspace as it is, and it is kept. -/
lemma run_parents (h : Current w index) :
    parents.run (holding w index) = .ok w.parentIndex (holding w (some w.parentIndex)) := by
  rcases h with rfl | rfl
  · rw [parents, EStateM.run_bind, EStateM.run_get]
    show EStateM.Result.ok (holding w none).plain.parentIndex
      { holding w none with index := some (holding w none).plain.parentIndex } = _
    rw [plain_holding]
    rfl
  · rfl

/-- The blocks in the index are those that are referred to. -/
lemma mem_keys_parentIndex {id : BlockId} :
    id ∈ w.parentIndex.map Prod.fst ↔ ∃ l ∈ w.links, l.child = id := by
  rw [Workspace.parentIndex, Assoc.mem_keys_ofPairs, List.map_map]
  exact List.mem_map

/-- What the index says of a block is the last reference to it. -/
lemma lookup_parentIndex (w : Workspace) (id : BlockId) :
    w.parentIndex.lookup id = (w.linkTo? id).map fun l => (l.parent, l.kind) := by
  rw [Workspace.parentIndex, Assoc.lookup_ofPairs, ← List.map_reverse,
    Assoc.lookup_map Link.child (fun l => (l.parent, l.kind))]
  rfl

lemma run_topBlocks (h : Current w index) :
    topBlocks.run (holding w index) = .ok w.topBlocks (holding w (some w.parentIndex)) := by
  rw [topBlocks, EStateM.run_bind, run_parents h]
  show EStateM.Result.ok ((holding w (some w.parentIndex)).plain.blocks.filter fun b =>
    !(w.parentIndex.map Prod.fst).contains b.id) (holding w (some w.parentIndex)) = _
  rw [plain_holding, Workspace.topBlocks]
  congr 1
  refine List.filter_congr fun b _ => ?_
  rw [Bool.not_eq_eq_eq_not, Bool.not_not, Bool.eq_iff_iff, List.contains_iff_mem,
    mem_keys_parentIndex, List.any_eq_true]
  simp

lemma run_isInline (h : Current w index) (id : BlockId) :
    (isInline id).run (holding w index) =
      .ok (w.isInline id) (holding w (some w.parentIndex)) := by
  rw [isInline, EStateM.run_bind, run_parents h]
  show EStateM.Result.ok ((w.parentIndex.lookup id).any fun above => above.2 == some .value)
    (holding w (some w.parentIndex)) = _
  rw [lookup_parentIndex, Workspace.isInline]
  cases w.linkTo? id <;> rfl

/-! ### Sequences of calls -/

/-- A call of a workbench. -/
inductive Call
  | edit (e : Edit)
  | fetch (id : BlockId)
  | targetOf (b : Block) (name : String)
  | nextOf (b : Block)
  | validate
  | topBlocks
  | isInline (id : BlockId)

/-- The edit that a call is, if it is one. -/
def Call.edit? : Call → Option Edit
  | edit e => some e
  | _ => none

/-- What is on the workbench where an operation has ended, with a fault or without. -/
def left {α : Type} : EStateM.Result Fault Workbench α → Workbench
  | .ok _ s => s
  | .error _ s => s

/-- What is on the workbench after a call. -/
def after (s : Workbench) : Call → Workbench
  | .edit (.add d) => left ((add d).run s)
  | .edit (.chain ids) => left ((chain ids).run s)
  | .edit (.declare name) => left ((declare name).run s)
  | .fetch id => left ((fetch id).run s)
  | .targetOf b name => left ((targetOf b name).run s)
  | .nextOf b => left ((nextOf b).run s)
  | .validate => left (validate.run s)
  | .topBlocks => left (topBlocks.run s)
  | .isInline id => left ((isInline id).run s)

/-- What is on an empty workbench after a sequence of calls. -/
def reached (declared : List String) (calls : List Call) : Workbench :=
  calls.foldl after (empty declared)

/-- A query that is answered from the workspace leaves the workbench as it was. -/
lemma left_ofExcept {α : Type} (e : Except Fault α) (s : Workbench) :
    left ((Working.ofExcept e).run s) = s := by
  cases e <;> rfl

/-- Declaring changes no reference. -/
lemma parentIndex_declare (w : Workspace) (name : String) :
    (w.declare name).parentIndex = w.parentIndex := by
  rw [Workspace.declare]
  split <;> rfl

/-- **One call.** It edits the workspace if it is an edit, and leaves no index that is out of date. -/
lemma exists_after (hw : w.WellFormed) (hindex : Current w index) (c : Call) :
    ∃ index', (holding w index).after c = holding (c.edit?.elim w w.edit) index' ∧
      Current (c.edit?.elim w w.edit) index' := by
  cases c with
  | edit e =>
      cases e with
      | add d =>
          show ∃ index', left ((Workbench.add d).run (holding w index)) =
            holding (w.edit (.add d)) index' ∧ Current (w.edit (.add d)) index'
          rw [run_add hw, Workspace.edit]
          cases w.add d with
          | ok result => exact ⟨none, rfl, .inl rfl⟩
          | error fault => exact ⟨index, rfl, hindex⟩
      | chain ids =>
          show ∃ index', left ((Workbench.chain ids).run (holding w index)) =
            holding (w.edit (.chain ids)) index' ∧ Current (w.edit (.chain ids)) index'
          rw [run_chain hw, Workspace.edit]
          cases w.chain ids with
          | ok result => exact ⟨none, rfl, .inl rfl⟩
          | error fault => exact ⟨index, rfl, hindex⟩
      | declare name =>
          refine ⟨index, ?_, ?_⟩
          · rw [after, run_declare]
            rfl
          · show Current (w.declare name) index
            rwa [Current, parentIndex_declare]
  | fetch id => exact ⟨index, by rw [after, run_fetch, left_ofExcept]; rfl, hindex⟩
  | targetOf b name => exact ⟨index, by rw [after, run_targetOf, left_ofExcept]; rfl, hindex⟩
  | nextOf b => exact ⟨index, by rw [after, run_nextOf, left_ofExcept]; rfl, hindex⟩
  | validate => exact ⟨index, by rw [after, run_validate, left_ofExcept]; rfl, hindex⟩
  | topBlocks => exact ⟨some w.parentIndex, by rw [after, run_topBlocks hindex]; rfl, .inr rfl⟩
  | isInline id => exact ⟨some w.parentIndex, by rw [after, run_isInline hindex]; rfl, .inr rfl⟩

/-- **Every sequence of calls.** The workbench holds what the edits among the calls make, and no
index that is out of date. -/
theorem exists_reached (declared : List String) (calls : List Call) :
    ∃ index, reached declared calls =
        holding (Workspace.edited declared (calls.filterMap Call.edit?)) index ∧
      Current (Workspace.edited declared (calls.filterMap Call.edit?)) index := by
  induction calls using List.reverseRecOn with
  | nil => exact ⟨none, rfl, .inl rfl⟩
  | append_singleton calls c ih =>
      obtain ⟨index, hreached, hindex⟩ := ih
      have hw := Workspace.wellFormed_edited declared (calls.filterMap Call.edit?)
      have hlast : Workspace.edited declared ((calls ++ [c]).filterMap Call.edit?) =
          c.edit?.elim (Workspace.edited declared (calls.filterMap Call.edit?))
            (Workspace.edited declared (calls.filterMap Call.edit?)).edit := by
        rw [List.filterMap_append, Workspace.edited, List.foldl_append]
        cases c <;> rfl
      rw [hlast, reached, List.foldl_append, ← reached, hreached]
      exact exists_after hw hindex c

end Blockscribe.Workbench
