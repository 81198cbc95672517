/-
The hints that issued identifiers come from.

* `Wish.hint`: the name or the hint that a wish is about. `newHints` are those for which an
  identifier was issued, and not just looked up.
* `mem_issued_iff`: an identifier that is not reserved and does not end with a digit is issued
  exactly if one of these hints is spelled like it. A number is the only other thing that an
  identifier can have that its hint has not, and the first hint that is spelled like it gets it.
* `mem_of_mem_newHints`: these hints come from the wishes that were granted.
-/
import Mathlib.Data.List.Induction
import Blockscribe.Proofs.Name.History

namespace Blockscribe

namespace NameTable

/-- The name or the hint that a wish is about. -/
def Wish.hint : Wish → String
  | .named name _ => name
  | .fresh hint _ => hint

/-- The hints for which an identifier was issued, the latest first. -/
def newHints : List Answer → List String
  | [] => []
  | (wish, _) :: earlier =>
      if wish.isRepeat earlier then newHints earlier else wish.hint :: newHints earlier

/-- Whether a text ends with a digit. -/
def EndsWithDigit (text : String) : Prop := ∃ c ∈ text.toList.getLast?, c.isDigit = true

variable {reserved : List String} {h : History} {wish : Wish} {id : String}

/-- A candidate that does not end with a digit is the base itself. -/
lemma candidate_eq_base {base : String} {k : ℕ} (h : ¬ EndsWithDigit (candidate base k)) :
    candidate base k = base := by
  cases k with
  | zero => rfl
  | succ k =>
      refine absurd ?_ h
      have hdigits : (toString (k + 2)).toList = Nat.toDigits 10 (k + 2) := by
        rw [Nat.toString_eq_ofList_toDigits, String.toList_ofList]
      have hne : Nat.toDigits 10 (k + 2) ≠ [] := Nat.toDigits_ne_nil
      refine ⟨(Nat.toDigits 10 (k + 2)).getLast hne, ?_, ?_⟩
      · rw [candidate, String.toList_append, hdigits, List.getLast?_append_of_ne_nil _ hne,
          List.getLast?_eq_some_getLast hne]
        rfl
      · exact Nat.isDigit_of_mem_toDigits (by omega) (by omega) (List.getLast_mem hne)

/-- A hint gets its own spelling unless that is taken. -/
lemma choose_eq_of_free {t : NameTable} {hint : String} (h : t.isTaken (safeName hint) = false) :
    t.choose hint = safeName hint := by
  rw [choose]
  cases hbound : t.bound with
  | zero => rfl
  | succ n =>
      have hfree : firstFree t.isTaken (safeName hint) (n + 1) 0 = 0 := by
        rw [firstFree, candidate, h, if_neg Bool.false_ne_true]
      simp only [hfree, candidate]

/-- What a wish gets that is no repetition is chosen for its hint. -/
lemma answer_eq_choose (hs : h.Sound reserved) (hnew : wish.isRepeat h.answers = false) :
    (h.table.answer wish).1 = h.table.choose wish.hint := by
  cases wish with
  | fresh hint kind => rfl
  | named name kind =>
      have hnone : h.table.known.lookup (keyOf name kind) = none := by
        rw [hs.isRepeat_eq rfl] at hnew
        simpa using hnew
      simp only [answer, named, hnone]
      rfl

/-- After one more wish the issued identifiers are related to the hints if they were before. -/
lemma mem_newlyIssued_step (hs : h.Sound reserved) (hid : id ∉ reserved)
    (hend : ¬ EndsWithDigit id)
    (ih : id ∈ newlyIssued h.answers ↔ ∃ hint ∈ newHints h.answers, safeName hint = id)
    (wish : Wish) :
    id ∈ newlyIssued (h.step (.want wish)).answers ↔
      ∃ hint ∈ newHints (h.step (.want wish)).answers, safeName hint = id := by
  rw [History.step, newlyIssued, newHints]
  cases hrepeat : wish.isRepeat h.answers with
  | true => simpa only [if_true] using ih
  | false =>
      simp only [Bool.false_eq_true, if_false, List.mem_cons]
      rw [answer_eq_choose hs hrepeat]
      constructor
      · rintro (rfl | hmem)
        · exact ⟨wish.hint, .inl rfl, (candidate_eq_base hend).symm⟩
        · obtain ⟨hint, hhint, hspelled⟩ := ih.mp hmem
          exact ⟨hint, .inr hhint, hspelled⟩
      · rintro ⟨hint, rfl | hhint, hspelled⟩
        · -- the spelling is taken only if it has been issued, since it is not reserved
          cases htaken : h.table.isTaken (safeName wish.hint) with
          | false => exact .inl (by rw [choose_eq_of_free htaken, hspelled])
          | true =>
              rcases List.mem_append.mp (isTaken_iff.mp htaken) with hissued | hreserved
              · rw [hs.issued_eq, hspelled] at hissued
                exact .inr hissued
              · rw [hs.reserved_eq, hspelled] at hreserved
                exact absurd hreserved hid
        · exact .inr (ih.mpr ⟨hint, hhint, hspelled⟩)

/-- An identifier that is not reserved and does not end with a digit is issued exactly if an
identifier was issued for a hint that is spelled like it. -/
theorem mem_issued_iff (requests : List Request) (hid : id ∉ reserved) (hend : ¬ EndsWithDigit id) :
    id ∈ (history reserved requests).table.issued ↔
      ∃ hint ∈ newHints (history reserved requests).answers, safeName hint = id := by
  rw [(sound_history reserved requests).issued_eq]
  induction requests using List.reverseRecOn with
  | nil => simp [history, newlyIssued, newHints]
  | append_singleton requests request ih =>
      rw [history, List.foldl_append]
      cases request with
      | reset => simp [History.step, newlyIssued, newHints]
      | want wish =>
          exact mem_newlyIssued_step (sound_history reserved requests) hid hend ih wish

/-- The hints come from the wishes that were granted. -/
lemma mem_of_mem_newHints {wishes : List Wish} {hint : String}
    (h : hint ∈ newHints (history reserved (wishes.map .want)).answers) :
    ∃ wish ∈ wishes, wish.hint = hint := by
  induction wishes using List.reverseRecOn with
  | nil => simp [history, newHints] at h
  | append_singleton wishes wish ih =>
      rw [history, List.map_append, List.foldl_append] at h
      have hearlier : hint ∈ newHints (history reserved (wishes.map .want)).answers →
          ∃ wish' ∈ wishes ++ [wish], wish'.hint = hint := fun hmem => by
        obtain ⟨wish', hwish', hhint⟩ := ih hmem
        exact ⟨wish', List.mem_append_left _ hwish', hhint⟩
      simp only [List.map_cons, List.map_nil, List.foldl_cons, List.foldl_nil, History.step,
        newHints] at h
      split at h
      · exact hearlier h
      · rcases List.mem_cons.mp h with rfl | hmem
        · exact ⟨wish, List.mem_append_right _ List.mem_cons_self, rfl⟩
        · exact hearlier hmem

end NameTable

end Blockscribe
