/-
Descending from block to block in an accepted workspace.

* `Workspace.Enters`: the calls that rendering makes go from a block to one that it refers to.
* `Workspace.Descent`: the blocks of a chain of nested calls, the outermost first.
* `Descent.nodup`, `Descent.length_le`: in an accepted workspace no block is entered twice on the
  way down, so there are at most as many nested calls as blocks.
* `fuel_induction`: what a block inherits from the blocks that it enters, with one more step to go,
  holds of every block with as many steps as there are blocks.
-/
import Mathlib.Data.List.Chain
import Blockscribe.Proofs.Workspace.Forest

namespace Blockscribe.Workspace

open Relation (TransGen)

/-- From a block the blocks are entered that it refers to, where they are found. -/
def Enters (w : Workspace) (b c : Block) : Prop := b.RefersTo c.id ∧ w.find? c.id = some c

/-- A chain of nested calls: each of its blocks is entered from the one before. -/
structure Descent (w : Workspace) (path : List Block) : Prop where
  mem : ∀ b ∈ path, b ∈ w.blocks
  chain : path.IsChain w.Enters

variable {w : Workspace}

/-! ### What is entered -/

lemma Enters.mem {b c : Block} (h : w.Enters b c) : c ∈ w.blocks := (find?_eq_some h.2).1

lemma get_eq_ok {id : BlockId} {c : Block} (h : w.get id = .ok c) : w.find? id = some c := by
  rw [get] at h
  cases hfind : w.find? id with
  | none =>
      rw [hfind] at h
      exact absurd h nofun
  | some found =>
      rw [hfind] at h
      exact congrArg some (Except.ok.inj h)

/-- A block that is looked up is found under its own handle. -/
lemma found_of_get {c : Block} {id : BlockId} (h : (w.get id).map some = .ok (some c)) :
    id = c.id ∧ w.find? c.id = some c := by
  cases hget : w.get id with
  | error fault =>
      rw [hget] at h
      exact absurd h nofun
  | ok found =>
      rw [hget] at h
      obtain rfl := Option.some.inj (Except.ok.inj h)
      have hfind := get_eq_ok hget
      obtain rfl := (find?_eq_some hfind).2
      exact ⟨rfl, hfind⟩

/-- A block that is looked up under a handle that is referred to is entered. -/
lemma enters_of_get {b c : Block} {id : BlockId} (hto : b.RefersTo id)
    (h : (w.get id).map some = .ok (some c)) : w.Enters b c := by
  obtain ⟨rfl, hfind⟩ := found_of_get h
  exact ⟨hto, hfind⟩

/-- The block that follows is entered. -/
lemma enters_of_nextOf {b c : Block} (h : w.nextOf b = .ok (some c)) : w.Enters b c := by
  rw [nextOf] at h
  cases hnext : b.next with
  | none =>
      rw [hnext] at h
      exact absurd h nofun
  | some id =>
      rw [hnext] at h
      exact enters_of_get (Or.inr hnext) h

/-- The target of a socket is referred to. -/
lemma refersTo_of_socket? {b : Block} {name : String} {s : Socket} {id : BlockId}
    (hs : b.socket? name = some s) (hid : s.target = some id) : b.RefersTo id :=
  Or.inl ⟨s, List.mem_of_find?_eq_some hs, hid⟩

/-- The block in a socket is entered. -/
lemma enters_of_targetOf {b c : Block} {name : String} (h : w.targetOf b name = .ok (some c)) :
    w.Enters b c := by
  rw [targetOf] at h
  cases hid : (b.socket? name).bind Socket.target with
  | none =>
      rw [hid] at h
      exact absurd h nofun
  | some id =>
      rw [hid] at h
      obtain ⟨s, hs, htarget⟩ := Option.bind_eq_some_iff.mp hid
      exact enters_of_get (refersTo_of_socket? hs htarget) h

/-! ### Chains of nested calls -/

/-- A chain of nested calls starts with one block. -/
lemma descent_singleton {b : Block} (hb : b ∈ w.blocks) : w.Descent [b] :=
  ⟨List.forall_mem_singleton.mpr hb, List.isChain_singleton b⟩

/-- It goes on with a block that the last one enters. -/
lemma Descent.snoc {path : List Block} {b c : Block} (h : w.Descent (path ++ [b]))
    (hc : w.Enters b c) : w.Descent (path ++ [b] ++ [c]) where
  mem := List.forall_mem_append.mpr ⟨h.mem, List.forall_mem_singleton.mpr hc.mem⟩
  chain := by
    refine List.isChain_append.mpr ⟨h.chain, List.isChain_singleton c, fun x hx y hy => ?_⟩
    rw [List.getLast?_append, List.getLast?_singleton] at hx
    obtain rfl : b = x := by simpa using hx
    obtain rfl : c = y := by simpa using hy
    exact hc

/-- Along a chain every block is above all that come after it. -/
lemma Descent.pairwise {path : List Block} (h : w.Descent path) :
    (path.map Block.id).Pairwise (TransGen w.Refers) := by
  refine List.IsChain.pairwise ((List.isChain_map _).mpr ?_)
  refine h.chain.imp_of_mem_imp fun b c hb _ henters => ?_
  exact TransGen.single ⟨b, h.mem b hb, rfl, henters.1⟩

/-- In an accepted workspace no block is entered twice along a chain of nested calls. -/
lemma Descent.nodup {path : List Block} (h : w.Descent path) (hw : w.validate = .ok ()) :
    (path.map Block.id).Nodup := by
  refine h.pairwise.imp fun {b c} habove heq => ?_
  rw [heq] at habove
  exact not_transGen_self (wellFounded_refers_of_validate hw) c habove

/-- In an accepted workspace there are at most as many nested calls as blocks. -/
lemma Descent.length_le {path : List Block} (h : w.Descent path) (hw : w.validate = .ok ()) :
    path.length ≤ w.size := by
  have hsub : path.map Block.id ⊆ w.ids := List.map_subset _ h.mem
  have hle := ((h.nodup hw).subperm hsub).length_le
  rwa [List.length_map, ids, List.length_map] at hle

/-- A property that a block inherits from the blocks that it enters, with one more step to go,
holds of every block with as many steps as there are blocks. -/
lemma fuel_induction (hw : w.validate = .ok ()) {P : ℕ → Block → Prop}
    (step : ∀ n b, (∀ c, w.Enters b c → P n c) → P (n + 1) b) {b : Block} (hb : b ∈ w.blocks)
    {n : ℕ} (hn : w.size ≤ n) : P n b := by
  -- the steps that are left outnumber the blocks that have not been entered yet
  have hdeep : ∀ n b path, w.Descent (path ++ [b]) → w.size < n + (path ++ [b]).length → P n b := by
    intro n
    induction n with
    | zero =>
        intro b path hpath hlt
        have hle := hpath.length_le hw
        omega
    | succ n ih =>
        intro b path hpath hlt
        refine step n b fun c hc => ih c (path ++ [b]) (hpath.snoc hc) ?_
        rw [List.length_append, List.length_singleton]
        omega
  refine hdeep n b [] (descent_singleton hb) ?_
  rw [List.nil_append, List.length_singleton]
  omega

end Blockscribe.Workspace
