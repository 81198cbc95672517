/-
What the edits of a workbench do after every sequence of calls.

* `Relinked`: what chaining makes of a block. `relink_chain` says that this is what becomes of it
  when the pairs of the chain are linked one after the other.
* `Added`, `Chained`: what the edits make of a workbench: there is one more block, or every block is
  relinked, and nothing else changes.
* `Closed`: the handles count from one, and every link leads to a block that can be fetched.
* `edits_closed`: a workbench is closed after every sequence of calls, edits do what they should and
  are refused for unknown handles only, and an edit that is refused changes nothing.
-/
import Mathlib.Data.List.Forall2
import Blockscribe.Proofs.Workbench.Holding

namespace Blockscribe

/-! ### Blocks in a chain -/

/-- What chaining makes of a block: nothing but the link to what follows it changes, and only if it
stands in the chain before the end. Then it is followed by what stands behind it in the chain, at the
last such place. -/
structure Relinked (ids : List BlockId) (b b' : Block) : Prop where
  rest : b' = { b with next := b'.next }
  kept : b.id ∉ ids.dropLast → b'.next = b.next
  last : ∀ before n after, ids = before ++ b.id :: n :: after → b.id ∉ (n :: after).dropLast →
    b'.next = some n

namespace Block

/-- What becomes of a block when the second block of a pair is made to follow the first. -/
def linked (p : BlockId × BlockId) (b : Block) : Block :=
  if b.id = p.1 then { b with next := some p.2 } else b

/-- What becomes of a block when that is done with one pair after the other. -/
def relink (pairs : List (BlockId × BlockId)) (b : Block) : Block :=
  pairs.foldl (fun b p => b.linked p) b

variable {pairs : List (BlockId × BlockId)} {b : Block}

lemma linked_rest (p : BlockId × BlockId) (b : Block) :
    b.linked p = { b with next := (b.linked p).next } := by
  rw [linked]
  split <;> rfl

lemma relink_cons (p : BlockId × BlockId) (rest : List (BlockId × BlockId)) (b : Block) :
    b.relink (p :: rest) = (b.linked p).relink rest := rfl

lemma relink_rest (pairs : List (BlockId × BlockId)) (b : Block) :
    b.relink pairs = { b with next := (b.relink pairs).next } := by
  induction pairs generalizing b with
  | nil => rfl
  | cons p rest ih =>
      have h := ih (b := b.linked p)
      rw [relink_cons]
      generalize (b.linked p).relink rest = b' at h ⊢
      rw [h, linked_rest p b]

lemma relink_of_not_mem (h : b.id ∉ pairs.map Prod.fst) : b.relink pairs = b := by
  induction pairs with
  | nil => rfl
  | cons p rest ih =>
      rw [List.map_cons, List.mem_cons, not_or] at h
      rw [relink_cons, linked, if_neg h.1]
      exact ih h.2

/-- The last pair that begins with a block says what follows it. -/
lemma next_relink (before after : List (BlockId × BlockId)) (n : BlockId)
    (h : b.id ∉ after.map Prod.fst) :
    (b.relink (before ++ (b.id, n) :: after)).next = some n := by
  have hid : (b.relink before).id = b.id := by rw [relink_rest]
  have hsplit : b.relink (before ++ (b.id, n) :: after) =
      ((b.relink before).linked (b.id, n)).relink after := by
    rw [relink, List.foldl_append]
    rfl
  rw [hsplit, linked, if_pos hid, relink_of_not_mem]
  exact hid ▸ h

end Block

/-- The pairs of a chain begin with the handles in front of its end. -/
lemma map_fst_pairs (ids : List BlockId) : (ids.zip ids.tail).map Prod.fst = ids.dropLast := by
  induction ids with
  | nil => rfl
  | cons id rest ih =>
      cases rest with
      | nil => rfl
      | cons n more =>
          rw [List.tail_cons, List.zip_cons_cons, List.map_cons, List.dropLast_cons_cons, ← ih]
          rfl

/-- Two neighbours in a chain are one of its pairs. -/
lemma exists_pairs_eq (before after : List BlockId) (id n : BlockId) :
    ∃ pairs, (before ++ id :: n :: after).zip (before ++ id :: n :: after).tail =
      pairs ++ (id, n) :: (n :: after).zip (n :: after).tail := by
  induction before with
  | nil => exact ⟨[], rfl⟩
  | cons first before ih =>
      obtain ⟨pairs, hpairs⟩ := ih
      obtain ⟨second, rest, hrest⟩ := List.exists_cons_of_ne_nil
        (List.append_ne_nil_of_right_ne_nil before (List.cons_ne_nil id (n :: after)))
      rw [hrest, List.tail_cons] at hpairs
      refine ⟨(first, second) :: pairs, ?_⟩
      rw [List.cons_append, hrest, List.tail_cons, List.zip_cons_cons, hpairs, List.cons_append]

/-- **What chaining makes of a block.** -/
lemma relink_chain (ids : List BlockId) (b : Block) :
    Relinked ids b (b.relink (ids.zip ids.tail)) where
  rest := Block.relink_rest _ b
  kept h := by rw [Block.relink_of_not_mem (by rwa [map_fst_pairs])]
  last before n after heq h := by
    obtain ⟨pairs, hpairs⟩ := exists_pairs_eq before after b.id n
    rw [heq, hpairs]
    exact Block.next_relink _ _ n (by rwa [map_fst_pairs])

namespace Workspace

/-- Linking pairs of blocks relinks every block. -/
lemma foldl_follow_eq (w : Workspace) (pairs : List (BlockId × BlockId)) :
    pairs.foldl (fun w (id, next) => w.follow id next) w =
      { w with blocks := w.blocks.map (Block.relink pairs) } := by
  induction pairs generalizing w with
  | nil => exact congrArg (Workspace.mk w.declared) (List.map_id w.blocks).symm
  | cons p rest ih =>
      rw [List.foldl_cons, ih]
      exact congrArg (Workspace.mk w.declared) List.map_map

/-- The handle that is reported is one of those that are required, and has no block. -/
lemma eq_of_require_eq_error {w : Workspace} {ids : List BlockId} {fault : Fault}
    (h : w.require ids = .error fault) : ∃ id ∈ ids, id ∉ w.ids ∧ fault = .graph .unknownBlock id := by
  induction ids with
  | nil => exact nomatch h
  | cons id rest ih =>
      rw [require] at h
      split at h
      · obtain ⟨id', hmem, hno⟩ := ih h
        exact ⟨id', List.mem_cons_of_mem _ hmem, hno⟩
      · rename_i hno
        exact ⟨id, List.mem_cons_self, fun hid => hno (has_iff.mpr hid), (Except.error.inj h).symm⟩

/-- Adding fails only for a handle that the new block refers to and that has no block. -/
lemma eq_of_add_eq_error {w : Workspace} {d : Draft} {fault : Fault} (h : w.add d = .error fault) :
    ∃ id, ((∃ s ∈ d.sockets, s.target = some id) ∨ d.next = some id) ∧ id ∉ w.ids ∧
      fault = .graph .unknownBlock id := by
  rw [add] at h
  cases hsockets : w.require (d.sockets.filterMap Socket.target) with
  | error fault' =>
      rw [hsockets] at h
      obtain ⟨id, hmem, hno, rfl⟩ := eq_of_require_eq_error hsockets
      exact ⟨id, .inl (List.mem_filterMap.mp hmem), hno, (Except.error.inj h).symm⟩
  | ok _ =>
      cases hnext : w.require d.next.toList with
      | error fault' =>
          rw [hsockets, hnext] at h
          obtain ⟨id, hmem, hno, rfl⟩ := eq_of_require_eq_error hnext
          exact ⟨id, .inr (Option.mem_toList.mp hmem), hno, (Except.error.inj h).symm⟩
      | ok _ =>
          rw [hsockets, hnext] at h
          cases h

/-- Chaining fails only for one of the handles, which has no block. -/
lemma eq_of_chain_eq_error {w : Workspace} {ids : List BlockId} {fault : Fault}
    (h : w.chain ids = .error fault) : ∃ id ∈ ids, id ∉ w.ids ∧ fault = .graph .unknownBlock id := by
  rw [chain] at h
  cases hrequire : w.require ids with
  | error fault' =>
      rw [hrequire] at h
      obtain ⟨id, hmem, hno, rfl⟩ := eq_of_require_eq_error hrequire
      exact ⟨id, hmem, hno, (Except.error.inj h).symm⟩
  | ok _ =>
      rw [hrequire] at h
      cases h

end Workspace

namespace Workbench

/-- What adding makes of a workbench: the new block stands at the end under the next handle, and nothing
else changes. -/
structure Added (d : Draft) (s t : Workbench) : Prop where
  declared : t.declared = s.declared
  nextId : t.nextId = s.nextId + 1
  blocks : t.blocks = s.blocks ++ [(s.nextId, { d with id := s.nextId })]

/-- What chaining makes of a workbench: every block is relinked and nothing else changes. -/
structure Chained (ids : List BlockId) (s t : Workbench) : Prop where
  declared : t.declared = s.declared
  nextId : t.nextId = s.nextId
  blocks : List.Forall₂ (fun e e' => e'.1 = e.1 ∧ Relinked ids e.2 e'.2) s.blocks t.blocks

/-- The handles count from one in the order of the blocks, and every link leads to a block that is
there to be fetched. -/
structure Closed (s : Workbench) : Prop where
  handles : s.blocks.map Prod.fst = (List.range s.blocks.length).map fun k : ℕ => (k : Int) + 1
  ids : ∀ e ∈ s.blocks, e.2.id = e.1
  nextId : s.nextId = s.blocks.length + 1
  links : ∀ e ∈ s.blocks, ∀ id, e.2.RefersTo id →
    ∃ c, (id, c) ∈ s.blocks ∧ (fetch id).run s = .ok c s

variable {w : Workspace} {index : Option ParentIndex}

lemma closed_holding (hw : w.WellFormed) (index : Option ParentIndex) :
    (holding w index).Closed where
  handles := by
    rw [keys_holding, hw.ids_eq]
    simp [holding, Workspace.size]
  ids := by simp [holding]
  nextId := by simp [holding, Workspace.nextId]
  links := by
    intro e he id hto
    obtain ⟨b, hb, rfl⟩ := List.mem_map.mp he
    obtain ⟨c, hc, hmem, rfl⟩ := hw.led_eq_some hb hto
    refine ⟨c, List.mem_map_of_mem hmem, ?_⟩
    rw [run_fetch, Workspace.get, ← Workspace.led_some, hc]
    rfl

lemma added_of_add {d : Draft} {id : BlockId} {w' : Workspace} (h : w.add d = .ok (id, w')) :
    id = (holding w index).nextId ∧ Added d (holding w index) (holding w' none) := by
  obtain ⟨-, -, rfl, rfl⟩ := Workspace.add_eq_ok h
  refine ⟨rfl, rfl, ?_, ?_⟩
  · simp [holding, Workspace.nextId]
  · simp [holding, Workspace.nextId]

lemma chained_of_chain {ids : List BlockId} {first : Option BlockId} {w' : Workspace}
    (h : w.chain ids = .ok (first, w')) : Chained ids (holding w index) (holding w' none) := by
  obtain ⟨-, -, rfl⟩ := Workspace.chain_eq_ok h
  rw [Workspace.foldl_follow_eq]
  refine ⟨rfl, ?_, ?_⟩
  · simp [holding, Workspace.nextId]
  · rw [holding, holding, List.map_map, List.forall₂_map_left_iff, List.forall₂_map_right_iff]
    refine List.forall₂_same.mpr fun b _ => ⟨?_, relink_chain ids b⟩
    rw [Function.comp_apply, Block.relink_rest]

/-- An edit that ends with a fault leaves everything as it was, and the fault is the workspace's. -/
lemma eq_of_outcome_eq_error {α : Type} {result : Except Fault (α × Workspace)} {fault : Fault}
    {t : Workbench} (h : outcome w index result = .error fault t) :
    result = .error fault ∧ t = holding w index := by
  cases result with
  | ok result => exact nomatch h
  | error fault' =>
      obtain ⟨rfl, rfl⟩ := EStateM.Result.error.inj h
      exact ⟨rfl, rfl⟩

/-- An edit that succeeds gives what it gives for the workspace. -/
lemma exists_of_outcome_eq_ok {α : Type} {result : Except Fault (α × Workspace)} {a : α}
    {t : Workbench} (h : outcome w index result = .ok a t) :
    ∃ w', result = .ok (a, w') ∧ t = holding w' none := by
  cases result with
  | ok result =>
      obtain ⟨rfl, rfl⟩ := EStateM.Result.ok.inj h
      exact ⟨result.2, rfl, rfl⟩
  | error fault => exact nomatch h

/-- **Workbenches stay closed, and a refused edit changes nothing.** After every sequence of edits and
queries, failing ones included: the handles are one, two, three and so on in the order of the blocks,
and whatever a block refers to can be fetched. Adding puts the new block at the end, under the next
handle. Chaining makes each block that stands in the chain before the end be followed by what stands
behind it at the last such place. Nothing else changes. Either fails only if it is given a handle that
has no block; then that is reported, and the whole workbench is as before. -/
theorem edits_closed (declared : List String) (calls : List Call) :
    (reached declared calls).Closed ∧
      (∀ d id t, (add d).run (reached declared calls) = .ok id t →
        id = (reached declared calls).nextId ∧ Added d (reached declared calls) t) ∧
      (∀ d fault t, (add d).run (reached declared calls) = .error fault t →
        t = reached declared calls ∧
          ∃ id, ((∃ s ∈ d.sockets, s.target = some id) ∨ d.next = some id) ∧
            id ∉ (reached declared calls).blocks.map Prod.fst ∧ fault = .graph .unknownBlock id) ∧
      (∀ ids first t, (chain ids).run (reached declared calls) = .ok first t →
        first = ids.head? ∧ Chained ids (reached declared calls) t) ∧
      ∀ ids fault t, (chain ids).run (reached declared calls) = .error fault t →
        t = reached declared calls ∧
          ∃ id ∈ ids, id ∉ (reached declared calls).blocks.map Prod.fst ∧
            fault = .graph .unknownBlock id := by
  obtain ⟨index, hreached, -⟩ := exists_reached declared calls
  have hw := Workspace.wellFormed_edited declared (calls.filterMap Call.edit?)
  generalize Workspace.edited declared (calls.filterMap Call.edit?) = w at hreached hw
  rw [hreached, keys_holding]
  refine ⟨closed_holding hw index, ?_, ?_, ?_, ?_⟩
  · intro d id t hadd
    rw [run_add hw] at hadd
    obtain ⟨w', hok, rfl⟩ := exists_of_outcome_eq_ok hadd
    exact added_of_add hok
  · intro d fault t hadd
    rw [run_add hw] at hadd
    obtain ⟨herror, rfl⟩ := eq_of_outcome_eq_error hadd
    exact ⟨rfl, Workspace.eq_of_add_eq_error herror⟩
  · intro ids first t hchain
    rw [run_chain hw] at hchain
    obtain ⟨w', hok, rfl⟩ := exists_of_outcome_eq_ok hchain
    exact ⟨(Workspace.chain_eq_ok hok).2.1, chained_of_chain hok⟩
  · intro ids fault t hchain
    rw [run_chain hw] at hchain
    obtain ⟨herror, rfl⟩ := eq_of_outcome_eq_error hchain
    exact ⟨rfl, Workspace.eq_of_chain_eq_error herror⟩

end Workbench

end Blockscribe
