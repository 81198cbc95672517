/-
Name tables along every sequence of requests.

* `History`: a table with all that it has handed out since it last forgot everything, the latest
  first. `History.step` carries out one request, `history` a whole sequence of them.
* `newlyIssued`: what was handed out anew: every identifier of its own, and the identifier of a
  name where that name was asked for the first time.
* `History.Sound`: the invariant that ties the table to what it has handed out. The issued
  identifiers are the newly issued ones, and the known names are the ones asked for;
  `sound_history` says that it holds after every sequence of requests.
* `history_distinct`: identifiers never collide.
-/
import Mathlib.Data.List.Pairwise
import Blockscribe.Proofs.Name.Choice

namespace Blockscribe

namespace NameTable

/-- What a name table is asked for: the identifier of a name, or an identifier of its own. -/
inductive Wish
  | named (name : String) (kind : NameKind)
  | fresh (hint : String) (kind : NameKind)

/-- The key of the name that is asked for, if a name is. -/
def Wish.key? : Wish → Option (String × NameKind)
  | named name kind => some (keyOf name kind)
  | fresh _ _ => none

/-- A call of a name table. -/
inductive Request
  | want (wish : Wish)
  | reset

/-- The identifier that a wish gets. -/
def answer (t : NameTable) : Wish → String × NameTable
  | .named name kind => t.named name kind
  | .fresh hint _ => t.fresh hint

/-- A wish with the identifier that it got. -/
abbrev Answer := Wish × String

/-- A table and its answers since it last forgot everything, the latest first. -/
structure History where
  table : NameTable
  answers : List Answer

/-- Carries out one request. -/
def History.step (h : History) : Request → History
  | .want wish => ⟨(h.table.answer wish).2, (wish, (h.table.answer wish).1) :: h.answers⟩
  | .reset => ⟨h.table.reset, []⟩

/-- What becomes of an empty table after a sequence of requests. -/
def history (reserved : List String) (requests : List Request) : History :=
  requests.foldl History.step ⟨empty reserved, []⟩

/-- Whether a wish asks for a name that was asked for before. -/
def Wish.isRepeat (wish : Wish) (earlier : List Answer) : Bool :=
  wish.key?.any fun key => earlier.any fun a => a.1.key? == some key

/-- The identifiers that were issued, and not just looked up, the latest first. -/
def newlyIssued : List Answer → List String
  | [] => []
  | (wish, identifier) :: earlier =>
      if wish.isRepeat earlier then newlyIssued earlier else identifier :: newlyIssued earlier

/-! ### The invariant -/

/-- What ties a table to its answers. -/
structure History.Sound (reserved : List String) (h : History) : Prop where
  reserved_eq : h.table.reserved = reserved
  issued_eq : h.table.issued = newlyIssued h.answers
  nodup : h.table.issued.Nodup
  legal : ∀ id ∈ h.table.issued, id ∉ reserved ∧ isIdentifier id = true
  known_iff : ∀ key id, h.table.known.lookup key = some id ↔
    ∃ wish : Wish, wish.key? = some key ∧ (wish, id) ∈ h.answers
  issued : ∀ a ∈ h.answers, a.2 ∈ h.table.issued
  injective : ∀ key key' id, h.table.known.lookup key = some id →
    h.table.known.lookup key' = some id → key = key'
  apart : h.answers.Pairwise fun a b => a.1.key? = none ∨ b.1.key? = none → a.2 ≠ b.2

/-- A table that has handed out nothing is sound. -/
lemma sound_empty (reserved : List String) : History.Sound reserved ⟨empty reserved, []⟩ where
  reserved_eq := rfl
  issued_eq := rfl
  nodup := List.nodup_nil
  legal := by simp [empty]
  known_iff := by simp [empty]
  issued := by simp
  injective := by simp [empty]
  apart := List.Pairwise.nil

namespace History.Sound

variable {reserved : List String} {h : History}

/-- The known names are those that were asked for before. -/
lemma isRepeat_eq (hs : h.Sound reserved) {wish : Wish} {key : String × NameKind}
    (hkey : wish.key? = some key) :
    wish.isRepeat h.answers = (h.table.known.lookup key).isSome := by
  rw [Wish.isRepeat, hkey, Option.any_some, Bool.eq_iff_iff, List.any_eq_true,
    Option.isSome_iff_exists]
  constructor
  · rintro ⟨a, ha, hak⟩
    exact ⟨a.2, (hs.known_iff _ _).mpr ⟨a.1, by simpa using hak, ha⟩⟩
  · rintro ⟨id, hid⟩
    obtain ⟨wish', hwish', hmem⟩ := (hs.known_iff _ _).mp hid
    exact ⟨_, hmem, by simpa using hwish'⟩

/-- The identifier of a known name is none that was asked for as one of its own. -/
lemma ne_of_lookup (hs : h.Sound reserved) {key : String × NameKind} {id : String}
    (hid : h.table.known.lookup key = some id) {b : Answer} (hb : b ∈ h.answers)
    (hnone : b.1.key? = none) : id ≠ b.2 := by
  obtain ⟨wish, hwish, hmem⟩ := (hs.known_iff _ _).mp hid
  have hne : (wish, id) ≠ b := by
    rintro rfl
    rw [hwish] at hnone
    exact absurd hnone (by simp)
  have hsymm : Std.Symm fun a b : Answer => a.1.key? = none ∨ b.1.key? = none → a.2 ≠ b.2 :=
    ⟨fun _ _ hab hor => (hab hor.symm).symm⟩
  exact hs.apart.forall hmem hb hne (Or.inr hnone)

/-- No known name has the identifier that is chosen next. -/
lemma lookup_ne_choose (hs : h.Sound reserved) (key : String × NameKind) (hint : String) :
    h.table.known.lookup key ≠ some (h.table.choose hint) := by
  intro hk
  obtain ⟨wish, -, hmem⟩ := (hs.known_iff _ _).mp hk
  exact choose_notMem_issued h.table hint (hs.issued _ hmem)

/-- Looking up a known name keeps the table sound. -/
lemma lookup (hs : h.Sound reserved) {wish : Wish} {key : String × NameKind} {id : String}
    (hkey : wish.key? = some key) (hid : h.table.known.lookup key = some id) :
    History.Sound reserved ⟨h.table, (wish, id) :: h.answers⟩ where
  reserved_eq := hs.reserved_eq
  issued_eq := by
    have hrepeat : wish.isRepeat h.answers = true := by rw [hs.isRepeat_eq hkey, hid]; rfl
    rw [newlyIssued, if_pos hrepeat]
    exact hs.issued_eq
  nodup := hs.nodup
  legal := hs.legal
  known_iff := by
    intro key' id'
    rw [hs.known_iff]
    constructor
    · rintro ⟨wish', hkey', hmem⟩
      exact ⟨wish', hkey', List.mem_cons_of_mem _ hmem⟩
    · rintro ⟨wish', hkey', hmem⟩
      rcases List.mem_cons.mp hmem with heq | hmem
      · obtain ⟨rfl, rfl⟩ := Prod.mk.inj heq
        obtain rfl : key = key' := Option.some.inj (hkey.symm.trans hkey')
        exact (hs.known_iff _ _).mp hid
      · exact ⟨wish', hkey', hmem⟩
  issued := by
    obtain ⟨wish', -, hmem⟩ := (hs.known_iff _ _).mp hid
    intro a ha
    rcases List.mem_cons.mp ha with rfl | ha
    · exact hs.issued (wish', id) hmem
    · exact hs.issued a ha
  injective := hs.injective
  apart := by
    refine List.Pairwise.cons (fun b hb => ?_) hs.apart
    rintro (hnone | hnone)
    · exact nomatch hkey.symm.trans hnone
    · exact hs.ne_of_lookup hid hb hnone

/-- Issuing the chosen identifier keeps the table sound, given how the known names change. -/
lemma issue (hs : h.Sound reserved) {wish : Wish} {hint : String}
    {known : List ((String × NameKind) × String)} (hnew : wish.isRepeat h.answers = false)
    (hknown : ∀ key id, known.lookup key = some id ↔
      h.table.known.lookup key = some id ∨ wish.key? = some key ∧ id = h.table.choose hint) :
    History.Sound reserved
      ⟨⟨h.table.reserved, h.table.choose hint :: h.table.issued, known⟩,
        (wish, h.table.choose hint) :: h.answers⟩ where
  reserved_eq := hs.reserved_eq
  issued_eq := by rw [newlyIssued, hnew, if_neg Bool.false_ne_true, ← hs.issued_eq]
  nodup := List.nodup_cons.mpr ⟨choose_notMem_issued h.table hint, hs.nodup⟩
  legal := by
    intro id hid
    rcases List.mem_cons.mp hid with rfl | hid
    · exact ⟨hs.reserved_eq ▸ choose_notMem_reserved h.table hint, isIdentifier_choose _ _⟩
    · exact hs.legal id hid
  known_iff := by
    intro key id
    rw [hknown, hs.known_iff]
    constructor
    · rintro (⟨wish', hkey', hmem⟩ | ⟨hkey, rfl⟩)
      · exact ⟨wish', hkey', List.mem_cons_of_mem _ hmem⟩
      · exact ⟨wish, hkey, List.mem_cons_self⟩
    · rintro ⟨wish', hkey', hmem⟩
      rcases List.mem_cons.mp hmem with heq | hmem
      · obtain ⟨rfl, rfl⟩ := Prod.mk.inj heq
        exact Or.inr ⟨hkey', rfl⟩
      · exact Or.inl ⟨wish', hkey', hmem⟩
  issued := by
    intro a ha
    rcases List.mem_cons.mp ha with rfl | ha
    · exact List.mem_cons_self
    · exact List.mem_cons_of_mem _ (hs.issued a ha)
  injective := by
    intro key key' id hk hk'
    rcases (hknown _ _).mp hk with hold | ⟨hnew, rfl⟩
    · rcases (hknown _ _).mp hk' with hold' | ⟨-, rfl⟩
      · exact hs.injective key key' id hold hold'
      · exact absurd hold (hs.lookup_ne_choose key hint)
    · rcases (hknown _ _).mp hk' with hold' | ⟨hnew', -⟩
      · exact absurd hold' (hs.lookup_ne_choose key' hint)
      · exact Option.some.inj (hnew.symm.trans hnew')
  apart := by
    refine List.Pairwise.cons (fun b hb _ heq => ?_) hs.apart
    have hissued := hs.issued b hb
    rw [← heq] at hissued
    exact choose_notMem_issued h.table hint hissued

/-- Every request keeps the table sound. -/
lemma step (hs : h.Sound reserved) (request : Request) : (h.step request).Sound reserved := by
  cases request with
  | reset =>
      have hr : h.table.reset = empty reserved := by rw [reset, hs.reserved_eq]
      rw [History.step, hr]
      exact sound_empty reserved
  | want wish =>
      cases wish with
      | fresh hint kind =>
          exact hs.issue rfl (by simp [Wish.key?])
      | named name kind =>
          have hkey : (Wish.named name kind).key? = some (keyOf name kind) := rfl
          cases hl : h.table.known.lookup (keyOf name kind) with
          | some id =>
              have ha : h.table.answer (.named name kind) = (id, h.table) := by
                simp only [answer, named, hl]
              rw [History.step, ha]
              exact hs.lookup hkey hl
          | none =>
              have hnew : (Wish.named name kind).isRepeat h.answers = false := by
                rw [hs.isRepeat_eq hkey, hl]
                rfl
              have ha : h.table.answer (.named name kind) = (h.table.choose name,
                  ⟨h.table.reserved, h.table.choose name :: h.table.issued,
                    (keyOf name kind, h.table.choose name) :: h.table.known⟩) := by
                simp only [answer, named, hl, NameTable.fresh]
              rw [History.step, ha]
              refine hs.issue hnew fun key id => ?_
              by_cases hk : key = keyOf name kind
              · subst hk
                simp [hl, Wish.key?, eq_comm]
              · have hb : (key == keyOf name kind) = false := by simpa using hk
                simp [List.lookup_cons, hb, Wish.key?, Ne.symm hk]

end History.Sound

/-- The table is sound after every sequence of requests. -/
lemma sound_history (reserved : List String) (requests : List Request) :
    (history reserved requests).Sound reserved := by
  rw [history]
  generalize hstart : (⟨empty reserved, []⟩ : History) = start
  have hs : start.Sound reserved := hstart ▸ sound_empty reserved
  clear hstart
  induction requests generalizing start with
  | nil => exact hs
  | cons request rest ih => exact ih _ (hs.step request)

/-! ### The identifier of a name -/

/-- A known name gets the identifier that it has, and changes nothing. -/
lemma named_of_lookup {t : NameTable} {name id : String} {kind : NameKind}
    (h : t.known.lookup (keyOf name kind) = some id) : t.named name kind = (id, t) := by
  rw [named, h]

/-- A name is known once it has been asked for. -/
lemma lookup_named (t : NameTable) (name : String) (kind : NameKind) :
    (t.named name kind).2.known.lookup (keyOf name kind) = some (t.named name kind).1 := by
  cases h : t.known.lookup (keyOf name kind) with
  | some id => rw [named_of_lookup h, h]
  | none => simp [named, h]

/-- Known names stay known. -/
lemma lookup_answer_of_lookup {t : NameTable} {key : String × NameKind} {id : String}
    (h : t.known.lookup key = some id) (wish : Wish) :
    (t.answer wish).2.known.lookup key = some id := by
  cases wish with
  | fresh hint kind => exact h
  | named name kind =>
      rw [answer]
      cases hname : t.known.lookup (keyOf name kind) with
      | some id' => rw [named_of_lookup hname, h]
      | none =>
          have hne : (key == keyOf name kind) = false := by
            rw [beq_eq_false_iff_ne]
            rintro rfl
            rw [hname] at h
            exact nomatch h
          simp only [named, hname, List.lookup_cons, hne]
          exact h

/-- The table of a sequence of requests, after one more wish. -/
lemma table_want (reserved : List String) (requests : List Request) (wish : Wish) :
    (history reserved (requests ++ [.want wish])).table =
      ((history reserved requests).table.answer wish).2 := by
  rw [history, List.foldl_append]
  rfl

/-- After every sequence of requests, what a name gets is an identifier that is not reserved. -/
lemma legal_named (reserved : List String) (requests : List Request) (name : String)
    (kind : NameKind) : ((history reserved requests).table.named name kind).1 ∉ reserved ∧
      isIdentifier ((history reserved requests).table.named name kind).1 = true := by
  have hs := sound_history reserved (requests ++ [.want (.named name kind)])
  have hknown : (history reserved
      (requests ++ [.want (.named name kind)])).table.known.lookup (keyOf name kind) =
      some ((history reserved requests).table.named name kind).1 := by
    rw [table_want]
    exact lookup_named _ name kind
  obtain ⟨wish, -, hanswer⟩ := (hs.known_iff _ _).mp hknown
  exact hs.legal _ (hs.issued _ hanswer)

/-! ### Distinctness -/

/-- **Identifiers never collide.** After every sequence of requests, and for what was handed out
since the last reset: the newly issued identifiers differ from each other, none is reserved and
each is an identifier; two names get the same identifier exactly if their keys are equal; and an
identifier that was asked for as one of its own is no other answer. -/
theorem history_distinct (reserved : List String) (requests : List Request) :
    (newlyIssued (history reserved requests).answers).Nodup ∧
    (∀ id ∈ newlyIssued (history reserved requests).answers,
      id ∉ reserved ∧ isIdentifier id = true) ∧
    (∀ name kind id name' kind' id',
      (Wish.named name kind, id) ∈ (history reserved requests).answers →
      (Wish.named name' kind', id') ∈ (history reserved requests).answers →
      (id = id' ↔ keyOf name kind = keyOf name' kind')) ∧
    (history reserved requests).answers.Pairwise fun a b =>
      a.1.key? = none ∨ b.1.key? = none → a.2 ≠ b.2 := by
  have hs := sound_history reserved requests
  refine ⟨hs.issued_eq ▸ hs.nodup, hs.issued_eq ▸ hs.legal, ?_, hs.apart⟩
  intro name kind id name' kind' id' h h'
  have hid := (hs.known_iff (keyOf name kind) id).mpr ⟨_, rfl, h⟩
  have hid' := (hs.known_iff (keyOf name' kind') id').mpr ⟨_, rfl, h'⟩
  constructor
  · rintro rfl
    exact hs.injective _ _ _ hid hid'
  · intro hkey
    rw [hkey] at hid
    exact Option.some.inj (hid.symm.trans hid')

end NameTable

end Blockscribe
