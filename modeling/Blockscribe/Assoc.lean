/-
Association lists in the order of first writing.

* `Assoc.put`: writes under a key where the key stands, or at the end.
* `Assoc.ofPairs`: writes pairs one after the other.
* `lookup_put`: the last write under a key wins, and other keys are not touched.
* `keys_put`: the keys stay in the order of their first write.
-/
namespace Blockscribe.Assoc

variable {κ : Type} {α : Type} [DecidableEq κ]

/-- Writes under a key where the key stands, or at the end. -/
def put (entries : List (κ × α)) (key : κ) (value : α) : List (κ × α) :=
  match entries with
  | [] => [(key, value)]
  | (k, old) :: rest => if k = key then (k, value) :: rest else (k, old) :: put rest key value

/-- Writes pairs one after the other. -/
def ofPairs (pairs : List (κ × α)) : List (κ × α) :=
  pairs.foldl (fun entries (k, v) => put entries k v) []

/-- The last write under a key wins, and other keys are not touched. -/
theorem lookup_put (entries : List (κ × α)) (key name : κ) (value : α) :
    (put entries key value).lookup name =
      if name = key then some value else entries.lookup name := by
  induction entries with
  | nil =>
    by_cases h : name = key
    · simp [put, h]
    · have hb : (name == key) = false := by simpa using h
      simp [put, List.lookup_cons, h, hb]
  | cons e rest ih =>
    obtain ⟨k, old⟩ := e
    by_cases hk : k = key
    · subst hk
      by_cases h : name = k
      · simp [put, h]
      · have hb : (name == k) = false := by simpa using h
        simp [put, List.lookup_cons, h, hb]
    · by_cases h : name = k
      · subst h
        simp [put, hk]
      · have hb : (name == k) = false := by simpa using h
        simp [put, hk, List.lookup_cons, hb, ih]

/-- The keys stay in the order of their first write. -/
theorem keys_put (entries : List (κ × α)) (key : κ) (value : α) :
    (put entries key value).map Prod.fst =
      if key ∈ entries.map Prod.fst then entries.map Prod.fst
      else entries.map Prod.fst ++ [key] := by
  induction entries with
  | nil => simp [put]
  | cons e rest ih =>
    obtain ⟨k, old⟩ := e
    by_cases hk : k = key
    · simp [put, hk]
    · have hne : ¬ key = k := fun h => hk h.symm
      simp only [put, hk, if_false, List.map_cons, ih, List.mem_cons, hne, false_or]
      split <;> simp

end Blockscribe.Assoc
