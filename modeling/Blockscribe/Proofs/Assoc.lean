/-
Association lists after one write and after many.

* `mem_put`, `nodup_keys_put`: the entries and the keys after a write.
* `put_of_not_mem`, `put_eq_map`: what a write does to the list, for a new key and for one that is
  there. By `put_put`, a second write under a key replaces the first.
* `lookup_ofPairs`, `mem_keys_ofPairs`: after many writes, the last one under a key is found.
* `ofPairs_of_nodup`: where every key is written once, the writes are the list.
* `lookup_map`: what is found in entries that are made from a list.
* `lookup_of_mem`, `filter_eq_of_lookup`: where every key stands once, the entry under a key is the
  only one.
-/
import Mathlib.Data.List.Induction
import Mathlib.Data.List.Nodup
import Blockscribe.Assoc

namespace Blockscribe.Assoc

variable {κ α : Type} [DecidableEq κ] {entries : List (κ × α)} {key : κ} {value : α} {e : κ × α}

/-! ### One write -/

/-- An entry after a write was there before, or has been written. -/
lemma mem_put (h : e ∈ put entries key value) : e = (key, value) ∨ e ∈ entries := by
  induction entries with
  | nil => exact .inl (List.mem_singleton.mp h)
  | cons first rest ih =>
      obtain ⟨k, old⟩ := first
      rw [put] at h
      split at h
      · rename_i hk
        rcases List.mem_cons.mp h with rfl | hrest
        · exact .inl (by rw [hk])
        · exact .inr (List.mem_cons_of_mem _ hrest)
      · rcases List.mem_cons.mp h with rfl | hrest
        · exact .inr List.mem_cons_self
        · exact (ih hrest).imp_right (List.mem_cons_of_mem _)

lemma nodup_keys_put (h : (entries.map Prod.fst).Nodup) (key : κ) (value : α) :
    ((put entries key value).map Prod.fst).Nodup := by
  rw [keys_put]
  split
  · exact h
  · rename_i hnew
    exact h.append (List.nodup_singleton key) (List.disjoint_singleton.mpr hnew)

/-- A new key comes last. -/
lemma put_of_not_mem (h : key ∉ entries.map Prod.fst) (value : α) :
    put entries key value = entries ++ [(key, value)] := by
  induction entries with
  | nil => rfl
  | cons first rest ih =>
      rw [List.map_cons, List.mem_cons, not_or] at h
      rw [put, if_neg (Ne.symm h.1), ih h.2, List.cons_append]

/-- Under a key that is there, only its entry changes. -/
lemma put_eq_map (hkeys : (entries.map Prod.fst).Nodup) (h : key ∈ entries.map Prod.fst)
    (value : α) :
    put entries key value = entries.map fun e => if e.1 = key then (key, value) else e := by
  induction entries with
  | nil => exact absurd h List.not_mem_nil
  | cons first rest ih =>
      obtain ⟨k, old⟩ := first
      rw [List.map_cons, List.nodup_cons] at hkeys
      by_cases hk : k = key
      · subst hk
        have hrest : ∀ e ∈ rest, (if e.1 = k then (k, value) else e) = e := by
          intro e he
          refine if_neg fun heq => hkeys.1 ?_
          exact List.mem_map.mpr ⟨e, he, heq⟩
        rw [put, if_pos rfl, List.map_cons, if_pos rfl, List.map_congr_left hrest, List.map_id']
      · have hmem : key ∈ rest.map Prod.fst := by
          rcases List.mem_cons.mp h with heq | hmem
          · exact absurd heq.symm hk
          · exact hmem
        rw [put, if_neg hk, List.map_cons, if_neg hk, ih hkeys.2 hmem]

/-- Of two writes under a key, the second one counts. -/
lemma put_put (entries : List (κ × α)) (key : κ) (old value : α) :
    put (put entries key old) key value = put entries key value := by
  induction entries with
  | nil => exact if_pos rfl
  | cons first rest ih =>
      obtain ⟨k, v⟩ := first
      by_cases hk : k = key
      · rw [put, if_pos hk, put, if_pos hk, put, if_pos hk]
      · rw [put, if_neg hk, put, if_neg hk, put, if_neg hk, ih]

/-! ### Many writes -/

lemma ofPairs_append_singleton (pairs : List (κ × α)) (p : κ × α) :
    ofPairs (pairs ++ [p]) = put (ofPairs pairs) p.1 p.2 := by
  rw [ofPairs, List.foldl_append]
  rfl

/-- The last write under a key is found. -/
lemma lookup_ofPairs (pairs : List (κ × α)) (key : κ) :
    (ofPairs pairs).lookup key = pairs.reverse.lookup key := by
  induction pairs using List.reverseRecOn with
  | nil => rfl
  | append_singleton pairs p ih =>
      obtain ⟨k, v⟩ := p
      rw [ofPairs_append_singleton, lookup_put, ih, List.reverse_append, List.reverse_singleton,
        List.singleton_append, List.lookup_cons]
      by_cases h : key = k
      · simp [h]
      · have hb : (key == k) = false := by simpa using h
        simp [h, hb]

/-- The keys are those that have been written. -/
lemma mem_keys_ofPairs {pairs : List (κ × α)} :
    key ∈ (ofPairs pairs).map Prod.fst ↔ key ∈ pairs.map Prod.fst := by
  induction pairs using List.reverseRecOn with
  | nil => rfl
  | append_singleton pairs p ih =>
      rw [ofPairs_append_singleton, keys_put, List.map_append, List.mem_append, ← ih]
      split
      · rename_i hmem
        constructor
        · exact .inl
        · rintro (h | h)
          · exact h
          · exact List.mem_singleton.mp h ▸ hmem
      · exact List.mem_append

/-- Entries whose keys differ are what is written. -/
lemma ofPairs_of_nodup {pairs : List (κ × α)} (h : (pairs.map Prod.fst).Nodup) :
    ofPairs pairs = pairs := by
  induction pairs using List.reverseRecOn with
  | nil => rfl
  | append_singleton pairs p ih =>
      rw [List.map_append, List.nodup_append] at h
      have hnew : p.1 ∉ pairs.map Prod.fst := fun hmem =>
        h.2.2 _ hmem _ List.mem_cons_self rfl
      rw [ofPairs_append_singleton, ih h.1, put_of_not_mem hnew]

/-! ### Look-ups -/

/-- Among entries that are made from a list, the first one made under a key is found. -/
lemma lookup_map {ι : Type} (f : ι → κ) (g : ι → α) (l : List ι) (key : κ) :
    (l.map fun i => (f i, g i)).lookup key = (l.find? fun i => f i == key).map g := by
  induction l with
  | nil => rfl
  | cons i rest ih =>
      rw [List.map_cons, List.lookup_cons, List.find?_cons, ih]
      by_cases h : f i = key
      · simp [h]
      · have hb : (key == f i) = false := beq_eq_false_iff_ne.mpr (Ne.symm h)
        have hb' : (f i == key) = false := beq_eq_false_iff_ne.mpr h
        simp only [hb, hb']

/-- Where every key stands once, an entry is what is found under its key. -/
lemma lookup_of_mem (hkeys : (entries.map Prod.fst).Nodup) (h : (key, value) ∈ entries) :
    entries.lookup key = some value := by
  obtain ⟨before, after, rfl⟩ := List.append_of_mem h
  refine List.lookup_eq_some_iff.mpr ⟨before, after, rfl, fun e he => ?_⟩
  rw [List.map_append, List.nodup_append] at hkeys
  have hne := hkeys.2.2 _ (List.mem_map_of_mem he) _ (List.mem_map_of_mem List.mem_cons_self)
  exact bne_iff_ne.mpr (Ne.symm hne)

/-- Where every key stands once, the entry under a key is the only one. -/
lemma filter_eq_of_lookup (hkeys : (entries.map Prod.fst).Nodup)
    (h : entries.lookup key = some value) :
    entries.filter (fun e => e.1 = key) = [(key, value)] := by
  induction entries with
  | nil => exact nomatch h
  | cons first rest ih =>
      obtain ⟨k, old⟩ := first
      rw [List.map_cons, List.nodup_cons] at hkeys
      by_cases hk : key = k
      · subst hk
        rw [List.lookup_cons_self] at h
        obtain rfl := Option.some.inj h
        have hrest : rest.filter (fun e => e.1 = key) = [] := by
          refine List.filter_eq_nil_iff.mpr fun e he => ?_
          have hne : e.1 ≠ key := by
            rintro rfl
            exact hkeys.1 (List.mem_map.mpr ⟨e, he, rfl⟩)
          simpa using hne
        rw [List.filter_cons_of_pos (by simp), hrest]
      · have hne : (key == k) = false := beq_eq_false_iff_ne.mpr hk
        rw [List.lookup_cons, hne] at h
        rw [List.filter_cons_of_neg (by simpa using Ne.symm hk)]
        exact ih hkeys.2 h

end Blockscribe.Assoc
