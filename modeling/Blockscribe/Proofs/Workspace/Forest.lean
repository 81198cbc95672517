/-
Validation accepts exactly the forests.

* `Workspace.references`: how many sockets and next links lead to a handle.
* `mem_cycle_of_climb`: a handle that is met twice on the way up lies on a cycle.
* `acc_of_climb_eq_none`: a climb that meets nothing twice comes to an end, since it stays among
  the handles and there is a step for each of them.
* `wellFounded_refers_of_validate`: in a workspace that is accepted nothing is below itself.
* `WellFormed.validate_of_shared`, `validate_of_cycle`: which block a refused workspace is refused
  for.
* `validate_iff_forest`: validation accepts the workspaces in which no block is referred to twice
  and none is below itself, and says which of the two fails, at a block where it fails.
-/
import Mathlib.Algebra.GroupWithZero.Nat
import Mathlib.Data.List.Nodup
import Mathlib.Data.List.Perm.Subperm
import Mathlib.Order.WellFounded
import Blockscribe.Proofs.Workspace.Edits

namespace Blockscribe

/-- How many sockets and next links of a block lead to a handle. -/
def Block.references (b : Block) (id : BlockId) : ℕ :=
  b.sockets.countP (fun s => s.target == some id) + if b.next = some id then 1 else 0

namespace Workspace

open Relation (TransGen)

/-- How many sockets and next links lead to a handle. -/
def references (w : Workspace) (id : BlockId) : ℕ := (w.blocks.map fun b => b.references id).sum

/-! ### References and links -/

lemma mem_links_iff {w : Workspace} {parent child : BlockId} :
    (∃ l ∈ w.links, l.parent = parent ∧ l.child = child) ↔ w.Refers parent child := by
  simp only [links, Block.links, List.mem_flatMap, List.mem_append, List.mem_filterMap,
    Option.mem_toList, Option.map_eq_some_iff, Refers, Block.RefersTo]
  constructor
  · rintro ⟨l, ⟨b, hb, ⟨s, hs, t, ht, rfl⟩ | ⟨n, hn, rfl⟩⟩, rfl, rfl⟩
    · exact ⟨b, hb, rfl, Or.inl ⟨s, hs, ht⟩⟩
    · exact ⟨b, hb, rfl, Or.inr hn⟩
  · rintro ⟨b, hb, rfl, ⟨s, hs, ht⟩ | hn⟩
    · exact ⟨_, ⟨b, hb, Or.inl ⟨s, hs, child, ht, rfl⟩⟩, rfl, rfl⟩
    · exact ⟨_, ⟨b, hb, Or.inr ⟨child, hn, rfl⟩⟩, rfl, rfl⟩

lemma mem_links_of_socket {w : Workspace} {b : Block} (hb : b ∈ w.blocks) {s : Socket}
    (hs : s ∈ b.sockets) {id : BlockId} (h : s.target = some id) :
    (⟨b.id, id, some s.kind⟩ : Link) ∈ w.links := by
  refine List.mem_flatMap.mpr ⟨b, hb, List.mem_append_left _ (List.mem_filterMap.mpr ⟨s, hs, ?_⟩)⟩
  rw [h]
  rfl

lemma mem_links_of_next {w : Workspace} {b : Block} (hb : b ∈ w.blocks) {id : BlockId}
    (h : b.next = some id) : (⟨b.id, id, none⟩ : Link) ∈ w.links := by
  refine List.mem_flatMap.mpr ⟨b, hb, List.mem_append_right _ ?_⟩
  rw [h]
  exact List.mem_singleton_self _

/-- The children in a block's links are counted by its references. -/
lemma count_links (b : Block) (id : BlockId) :
    (b.links.map Link.child).count id = b.references id := by
  have hsockets : ∀ sockets : List Socket,
      ((sockets.filterMap fun s => s.target.map fun t => (⟨b.id, t, some s.kind⟩ : Link)).map
        Link.child).count id = sockets.countP fun s => s.target == some id := by
    intro sockets
    induction sockets with
    | nil => rfl
    | cons s rest ih =>
        cases ht : s.target with
        | none => simp [ht, ih]
        | some t =>
            rw [List.filterMap_cons_some (by rw [ht]; rfl), List.map_cons, List.count_cons, ih,
              List.countP_cons, ht]
            simp
  rw [Block.links, List.map_append, List.count_append, hsockets, Block.references]
  cases b.next with
  | none => simp
  | some n => simp [List.count_singleton]

lemma count_children (w : Workspace) (id : BlockId) :
    (w.links.map Link.child).count id = w.references id := by
  rw [links, List.map_flatMap, List.count_flatMap, references]
  exact congrArg List.sum (List.map_congr_left fun b _ => count_links b id)

/-- A handle that is referred to has a parent. -/
lemma exists_refers_of_references {w : Workspace} {id : BlockId} (h : 0 < w.references id) :
    ∃ parent, w.Refers parent id := by
  rw [← count_children, List.count_pos_iff] at h
  obtain ⟨l, hl, hchild⟩ := List.mem_map.mp h
  exact ⟨l.parent, mem_links_iff.mp ⟨l, hl, rfl, hchild⟩⟩

lemma mem_ids_of_refers {w : Workspace} {parent child : BlockId} (h : w.Refers parent child) :
    parent ∈ w.ids := by
  obtain ⟨b, hb, hid, -⟩ := h
  exact mem_ids.mpr ⟨b, hb, hid⟩

/-- In a well-formed workspace what is referred to is a block. -/
lemma WellFormed.child_mem_ids {w : Workspace} (hw : w.WellFormed) {parent child : BlockId}
    (h : w.Refers parent child) : child ∈ w.ids := by
  obtain ⟨b, hb, -, hto⟩ := h
  exact hw.closed b hb child hto

/-! ### The first repetition -/

/-- There is no repetition exactly if the entries differ from each other and from those seen. -/
lemma firstRepeat_eq_none_iff {seen l : List BlockId} :
    firstRepeat seen l = none ↔ l.Nodup ∧ ∀ id ∈ l, id ∉ seen := by
  induction l generalizing seen with
  | nil => simp [firstRepeat]
  | cons id rest ih =>
      by_cases h : id ∈ seen
      · have hc : seen.contains id = true := by simpa using h
        simp only [firstRepeat, hc, if_true]
        simp [h]
      · have hc : seen.contains id = false := by simpa using h
        simp only [firstRepeat, hc, Bool.false_eq_true, if_false, ih, List.nodup_cons,
          List.forall_mem_cons, h, not_false_eq_true, true_and]
        constructor
        · rintro ⟨hnodup, hnew⟩
          exact ⟨⟨fun hid => hnew id hid List.mem_cons_self, hnodup⟩,
            fun x hx hseen => hnew x hx (List.mem_cons_of_mem _ hseen)⟩
        · rintro ⟨⟨hid, hnodup⟩, hnew⟩
          refine ⟨hnodup, fun x hx hseen => ?_⟩
          rcases List.mem_cons.mp hseen with rfl | hseen
          · exact hid hx
          · exact hnew x hx hseen

/-- A repetition is an entry that has been seen or occurs twice. -/
lemma of_firstRepeat_eq_some {seen l : List BlockId} {id : BlockId}
    (h : firstRepeat seen l = some id) : id ∈ l ∧ (id ∈ seen ∨ 2 ≤ l.count id) := by
  induction l generalizing seen with
  | nil => simp [firstRepeat] at h
  | cons x rest ih =>
      rw [firstRepeat] at h
      by_cases hx : seen.contains x = true
      · rw [if_pos hx] at h
        obtain rfl := Option.some.inj h
        exact ⟨List.mem_cons_self, Or.inl (by simpa using hx)⟩
      · rw [if_neg hx] at h
        obtain ⟨hmem, hor⟩ := ih h
        refine ⟨List.mem_cons_of_mem _ hmem, ?_⟩
        rcases hor with hseen | htwice
        · rcases List.mem_cons.mp hseen with rfl | hseen
          · refine Or.inr ?_
            have hpos := List.count_pos_iff.mpr hmem
            rw [List.count_cons_self]
            omega
          · exact Or.inl hseen
        · exact Or.inr (Nat.le_trans htwice List.count_le_count_cons)

/-! ### The climb -/

section Climb

variable {parent : BlockId → Option BlockId}

/-- A handle that is met twice on the way up lies on a cycle. -/
lemma mem_cycle_of_climb {fuel : ℕ} {seen : List BlockId} {id x : BlockId}
    (h : climb parent fuel seen id = some x)
    (hseen : ∀ s ∈ seen, TransGen (fun a b => parent b = some a) id s) :
    TransGen (fun a b => parent b = some a) x x := by
  induction fuel generalizing seen id with
  | zero => simp [climb] at h
  | succ fuel ih =>
      rw [climb] at h
      by_cases hid : seen.contains id = true
      · rw [if_pos hid] at h
        obtain rfl := Option.some.inj h
        exact hseen id (by simpa using hid)
      · rw [if_neg hid] at h
        cases hp : parent id with
        | none => simp [hp] at h
        | some above =>
            simp only [hp] at h
            refine ih h fun s hs => ?_
            rcases List.mem_cons.mp hs with rfl | hs
            · exact TransGen.single hp
            · exact TransGen.head hp (hseen s hs)

/-- A climb among finitely many handles that meets none twice comes to an end. -/
lemma acc_of_climb_eq_none {ids : List BlockId} (hids : ∀ a b, parent b = some a → a ∈ ids)
    {fuel : ℕ} {seen : List BlockId} {id : BlockId} (h : climb parent fuel seen id = none)
    (hid : id ∈ ids) (hnodup : seen.Nodup) (hsub : seen ⊆ ids)
    (hfuel : ids.length < fuel + seen.length) :
    Acc (fun a b => parent b = some a) id := by
  induction fuel generalizing seen id with
  | zero =>
      have hle := (hnodup.subperm hsub).length_le
      omega
  | succ fuel ih =>
      rw [climb] at h
      by_cases hseen : seen.contains id = true
      · rw [if_pos hseen] at h
        exact absurd h (by simp)
      · rw [if_neg hseen] at h
        refine Acc.intro id fun above hp => ?_
        simp only [hp] at h
        refine ih h (hids _ _ hp) (List.nodup_cons.mpr ⟨by simpa using hseen, hnodup⟩)
          (List.cons_subset.mpr ⟨hid, hsub⟩) ?_
        rw [List.length_cons]
        omega

end Climb

/-- The block above a handle refers to it. -/
lemma refers_of_parent? {w : Workspace} {parent child : BlockId}
    (h : w.parent? child = some parent) : w.Refers parent child := by
  obtain ⟨l, hl, rfl⟩ := Option.map_eq_some_iff.mp h
  exact mem_links_iff.mp
    ⟨l, List.mem_of_find?_eq_some hl, rfl, by simpa using List.find?_some hl⟩

/-- What lies on a cycle of blocks above each other lies on a cycle of references. -/
lemma cycle_of_climb {w : Workspace} {fuel : ℕ} {id x : BlockId}
    (h : climb w.parent? fuel [] id = some x) : TransGen w.Refers x x :=
  TransGen.mono (fun _ _ hp => refers_of_parent? hp) _ _
    (mem_cycle_of_climb h fun _ hs => absurd hs List.not_mem_nil)

/-- If nothing is referred to twice, whoever refers to a handle is the block above it. -/
lemma parent?_eq_some_iff {w : Workspace} (hw : (w.links.map Link.child).Nodup)
    {parent child : BlockId} : w.parent? child = some parent ↔ w.Refers parent child := by
  refine ⟨refers_of_parent?, fun h => ?_⟩
  obtain ⟨l, hl, rfl, rfl⟩ := mem_links_iff.mpr h
  cases hf : w.links.find? fun l' => l'.child == l.child with
  | none => exact absurd (List.find?_eq_none.mp hf l hl) (by simp)
  | some l' =>
      have hchild : l'.child = l.child := by simpa using List.find?_some hf
      have heq := List.inj_on_of_nodup_map hw (List.mem_of_find?_eq_some hf) hl hchild
      rw [parent?, hf, heq]
      rfl

/-- If nothing is referred to twice, a reference is the last one to its child. -/
lemma linkTo?_of_mem {w : Workspace} (hw : (w.links.map Link.child).Nodup) {l : Link}
    (hl : l ∈ w.links) : w.linkTo? l.child = some l := by
  cases hf : w.linkTo? l.child with
  | none =>
      have hnone := List.find?_eq_none.mp hf l (List.mem_reverse.mpr hl)
      exact absurd hnone (by simp)
  | some l' =>
      have hchild : l'.child = l.child := by simpa using List.find?_some hf
      have hmem : l' ∈ w.links := List.mem_reverse.mp (List.mem_of_find?_eq_some hf)
      rw [List.inj_on_of_nodup_map hw hmem hl hchild]

/-- If nothing is referred to twice, a block is inline exactly if a value socket leads to it. -/
lemma isInline_iff {w : Workspace} (hw : (w.links.map Link.child).Nodup) {id : BlockId} :
    w.isInline id = true ↔ ∃ l ∈ w.links, l.child = id ∧ l.kind = some .value := by
  rw [isInline]
  constructor
  · intro h
    cases hl : w.linkTo? id with
    | none =>
        rw [hl] at h
        exact nomatch h
    | some l =>
        rw [hl] at h
        have hchild : l.child = id := by simpa using List.find?_some hl
        exact ⟨l, List.mem_reverse.mp (List.mem_of_find?_eq_some hl), hchild, beq_iff_eq.mp h⟩
  · rintro ⟨l, hl, rfl, hkind⟩
    rw [linkTo?_of_mem hw hl]
    exact beq_iff_eq.mpr hkind

/-! ### Validation -/

/-- What validation checks. -/
lemma validate_eq_ok_iff {w : Workspace} :
    w.validate = .ok () ↔ (w.links.map Link.child).Nodup ∧
      ∀ b ∈ w.blocks, climb w.parent? (w.size + 1) [] b.id = none := by
  rw [validate]
  cases hr : firstRepeat [] (w.links.map Link.child) with
  | some id =>
      have hnot : ¬ (w.links.map Link.child).Nodup := by
        intro hnodup
        have hnone := firstRepeat_eq_none_iff.mpr ⟨hnodup, fun x _ => (List.not_mem_nil : x ∉ [])⟩
        simp [hr] at hnone
      simp [hnot]
  | none =>
      have hnodup := (firstRepeat_eq_none_iff.mp hr).1
      cases hc : w.blocks.findSome? fun b => climb w.parent? (w.size + 1) [] b.id with
      | some id =>
          obtain ⟨b, hb, hclimb⟩ := List.exists_of_findSome?_eq_some hc
          simp only [reduceCtorEq, false_iff, not_and]
          intro _ hall
          simp [hall b hb] at hclimb
      | none =>
          simp only [hnodup, true_and, true_iff]
          exact List.findSome?_eq_none_iff.mp hc

/-- In a workspace that is accepted nothing is referred to twice. -/
lemma nodup_of_validate {w : Workspace} (h : w.validate = .ok ()) :
    (w.links.map Link.child).Nodup :=
  (validate_eq_ok_iff.mp h).1

/-- In a workspace that is accepted every way up comes to an end, so nothing is below itself. -/
lemma wellFounded_refers_of_validate {w : Workspace} (h : w.validate = .ok ()) :
    WellFounded w.Refers := by
  obtain ⟨hnodup, hclimb⟩ := validate_eq_ok_iff.mp h
  have hsame : (fun a b => w.parent? b = some a) = w.Refers :=
    funext fun a => funext fun b => propext (parent?_eq_some_iff hnodup)
  have hblock : ∀ id ∈ w.ids, Acc w.Refers id := by
    intro id hid
    obtain ⟨b, hb, rfl⟩ := mem_ids.mp hid
    rw [← hsame]
    refine acc_of_climb_eq_none (fun _ _ hp => mem_ids_of_refers (refers_of_parent? hp))
      (hclimb b hb) hid List.nodup_nil (List.nil_subset _) ?_
    rw [ids, List.length_map, List.length_nil, size]
    omega
  exact ⟨fun id => Acc.intro id fun above habove => hblock above (mem_ids_of_refers habove)⟩

/-- Nothing is below itself if every way up comes to an end. -/
lemma not_transGen_self {w : Workspace} (h : WellFounded w.Refers) (id : BlockId) :
    ¬ TransGen w.Refers id id :=
  fun hcycle => h.transGen.irrefl.irrefl id hcycle

/-- Without cycles no climb meets a handle twice. -/
lemma climb_eq_none_of_acyclic {w : Workspace} (h : ∀ id, ¬ TransGen w.Refers id id)
    (id : BlockId) : climb w.parent? (w.size + 1) [] id = none := by
  by_contra hne
  obtain ⟨x, hx⟩ := Option.ne_none_iff_exists'.mp hne
  exact h x (cycle_of_climb hx)

/-- The children differ from each other if no block is referred to twice. -/
lemma WellFormed.nodup_children_iff {w : Workspace} (hw : w.WellFormed) :
    (w.links.map Link.child).Nodup ↔ ∀ b ∈ w.blocks, w.references b.id ≤ 1 := by
  simp only [List.nodup_iff_count_le_one, count_children]
  constructor
  · exact fun h b _ => h b.id
  · intro h id
    by_contra hlt
    have hpos : 0 < w.references id := by omega
    obtain ⟨parent, hrefers⟩ := exists_refers_of_references hpos
    obtain ⟨b, hb, rfl⟩ := mem_ids.mp (hw.child_mem_ids hrefers)
    exact hlt (h b hb)

/-- A block that is referred to twice is reported. -/
lemma WellFormed.validate_of_shared {w : Workspace} (hw : w.WellFormed)
    (hshared : ∃ b ∈ w.blocks, 2 ≤ w.references b.id) :
    ∃ b ∈ w.blocks, 2 ≤ w.references b.id ∧ w.validate = .error (.graph .sharedBlock b.id) := by
  obtain ⟨b, hb, htwice⟩ := hshared
  cases hr : firstRepeat [] (w.links.map Link.child) with
  | none =>
      have honce := hw.nodup_children_iff.mp (firstRepeat_eq_none_iff.mp hr).1 b hb
      omega
  | some id =>
      obtain ⟨-, hnil | hcount⟩ := of_firstRepeat_eq_some hr
      · exact absurd hnil List.not_mem_nil
      · rw [count_children] at hcount
        have hpos : 0 < w.references id := by omega
        obtain ⟨parent, hrefers⟩ := exists_refers_of_references hpos
        obtain ⟨c, hc, rfl⟩ := mem_ids.mp (hw.child_mem_ids hrefers)
        exact ⟨c, hc, hcount, by rw [validate, hr]⟩

/-- If no block is referred to twice, a workspace that is refused has a cycle, and a block on it is
reported. -/
lemma WellFormed.validate_of_cycle {w : Workspace} (hw : w.WellFormed)
    (honce : ∀ b ∈ w.blocks, w.references b.id ≤ 1) (hrefused : w.validate ≠ .ok ()) :
    ∃ b ∈ w.blocks, TransGen w.Refers b.id b.id ∧ w.validate = .error (.graph .cycle b.id) := by
  have hr : firstRepeat [] (w.links.map Link.child) = none :=
    firstRepeat_eq_none_iff.mpr
      ⟨hw.nodup_children_iff.mpr honce, fun x _ => (List.not_mem_nil : x ∉ [])⟩
  cases hc : w.blocks.findSome? fun b => climb w.parent? (w.size + 1) [] b.id with
  | none => exact absurd (by rw [validate, hr]; simp only [hc]) hrefused
  | some id =>
      obtain ⟨b, hb, hclimb⟩ := List.exists_of_findSome?_eq_some hc
      have hcycle := cycle_of_climb hclimb
      obtain ⟨child, hrefers, -⟩ := TransGen.head'_iff.mp hcycle
      obtain ⟨c, hc', rfl⟩ := mem_ids.mp (mem_ids_of_refers hrefers)
      exact ⟨c, hc', hcycle, by rw [validate, hr]; simp only [hc]⟩

/-- **Validation accepts exactly the forests.** After every sequence of edits a workspace is
accepted if and only if every block is referred to at most once and no block is below itself. One
with a block that is referred to twice is refused for such a block, and any other one that is
refused for a block on a cycle. -/
theorem validate_iff_forest (declared : List String) (edits : List Edit) :
    ((edited declared edits).validate = .ok () ↔
      (∀ b ∈ (edited declared edits).blocks, (edited declared edits).references b.id ≤ 1) ∧
      ∀ id, ¬ TransGen (edited declared edits).Refers id id) ∧
    ((∃ b ∈ (edited declared edits).blocks, 2 ≤ (edited declared edits).references b.id) →
      ∃ b ∈ (edited declared edits).blocks, 2 ≤ (edited declared edits).references b.id ∧
        (edited declared edits).validate = .error (.graph .sharedBlock b.id)) ∧
    ((∀ b ∈ (edited declared edits).blocks, (edited declared edits).references b.id ≤ 1) →
      (edited declared edits).validate ≠ .ok () →
      ∃ b ∈ (edited declared edits).blocks, TransGen (edited declared edits).Refers b.id b.id ∧
        (edited declared edits).validate = .error (.graph .cycle b.id)) := by
  generalize hedited : edited declared edits = w
  have hw : w.WellFormed := hedited ▸ wellFormed_edited declared edits
  refine ⟨⟨fun h => ?_, fun ⟨honce, hacyclic⟩ => ?_⟩, hw.validate_of_shared,
    hw.validate_of_cycle⟩
  · exact ⟨hw.nodup_children_iff.mp (nodup_of_validate h),
      not_transGen_self (wellFounded_refers_of_validate h)⟩
  · exact validate_eq_ok_iff.mpr ⟨hw.nodup_children_iff.mpr honce,
      fun b _ => climb_eq_none_of_acyclic hacyclic b.id⟩

end Workspace

end Blockscribe
