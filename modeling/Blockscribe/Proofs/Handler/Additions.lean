/-
What the calls that add handlers make of a handler set.

* `HandlerSet.Gains`: a set has all that another one has and, behind it, further registrations, of
  types that the other one does not have.
* `gains_registerAll`: registering one handler after the other adds those that stand in front of the
  first one whose type is taken.
* `HandlerSet.reached`, `nodup_types_reached`: after every sequence of calls every type has one
  handler.
* `update_stops`: so a mapping that is refused has been registered in part. What stands in front of
  the type that is taken stays, and the set is as it was only if nothing stands there.
-/
import Blockscribe.Proofs.Handler.Registry

namespace Blockscribe.HandlerSet

variable {η : Type} {s s' s'' : HandlerSet η} {r : Registration η}
  {added more : List (Registration η)}

/-! ### What is added -/

/-- `s'` has what `s` has and, behind it, `added`: registrations of types that `s` does not have, no
two of the same type. -/
structure Gains (s : HandlerSet η) (added : List (Registration η)) (s' : HandlerSet η) : Prop where
  registrations : s'.registrations = s.registrations ++ added
  new : ∀ r ∈ added, r.type ∉ s.types
  distinct : (added.map Registration.type).Nodup

lemma gains_nil (s : HandlerSet η) : s.Gains [] s :=
  ⟨(List.append_nil _).symm, nofun, List.nodup_nil⟩

lemma Gains.types (h : s.Gains added s') : s'.types = s.types ++ added.map Registration.type := by
  rw [HandlerSet.types, h.registrations, List.map_append]
  rfl

/-- No type gets a second handler. -/
lemma Gains.nodup_types (h : s.Gains added s') (hs : s.types.Nodup) : s'.types.Nodup := by
  rw [h.types]
  refine hs.append h.distinct fun type hold hnew => ?_
  obtain ⟨r, hr, rfl⟩ := List.mem_map.mp hnew
  exact h.new r hr hold

/-- What is added at first and what is added afterwards. -/
lemma Gains.trans (h : s.Gains added s') (h' : s'.Gains more s'') :
    s.Gains (added ++ more) s'' where
  registrations := by rw [h'.registrations, h.registrations, List.append_assoc]
  new r hr := by
    rcases List.mem_append.mp hr with hr | hr
    · exact h.new r hr
    · exact fun hold => h'.new r hr (h.types ▸ List.mem_append_left _ hold)
  distinct := by
    rw [List.map_append]
    refine h.distinct.append h'.distinct fun type hadded hmore => ?_
    obtain ⟨r, hr, rfl⟩ := List.mem_map.mp hmore
    exact h'.new r hr (h.types ▸ List.mem_append_right _ hadded)

/-- What is found was there before, or has been added. -/
lemma Gains.info?_eq (h : s.Gains added s') (type : String) :
    s'.info? type = (s.info? type).or (added.find? fun r => r.type == type) := by
  rw [info?, h.registrations, List.find?_append]
  rfl

lemma Gains.eq_iff (h : s.Gains added s') : s' = s ↔ added = [] := by
  obtain ⟨old⟩ := s
  obtain ⟨present⟩ := s'
  obtain rfl : present = old ++ added := h.registrations
  rw [HandlerSet.mk.injEq, List.append_right_eq_self]

/-! ### One registration after the other -/

lemma has_iff {type : String} : s.has type = true ↔ type ∈ s.types := by
  rw [has, info?, List.find?_isSome]
  simp [types]

lemma register_of_free (h : r.type ∉ s.types) : s.register r = .ok ⟨s.registrations ++ [r]⟩ := by
  rw [register, if_neg fun htaken => h (has_iff.mp htaken)]

lemma register_of_taken (h : r.type ∈ s.types) :
    s.register r = .error (.flaw (.handlerTaken r.type)) := by
  rw [register, if_pos (has_iff.mpr h)]

lemma gains_register (h : s.register r = .ok s') : s.Gains [r] s' := by
  by_cases htaken : r.type ∈ s.types
  · exact nomatch (register_of_taken htaken).symm.trans h
  · obtain rfl := Except.ok.inj ((register_of_free htaken).symm.trans h)
    exact ⟨rfl, List.forall_mem_singleton.mpr htaken, List.nodup_singleton _⟩

/-- Registering goes on up to the first type that is taken, which is then the one that is
reported. -/
lemma gains_registerAll (s : HandlerSet η) (rs : List (Registration η)) :
    ∃ front rest, rs = front ++ rest ∧ s.Gains front (s.registerAll rs).1 ∧
      (s.registerAll rs).2 = rest.head?.map (fun r => .flaw (.handlerTaken r.type)) ∧
      ∀ r ∈ rest.head?, r.type ∈ (s.registerAll rs).1.types := by
  induction rs generalizing s with
  | nil => exact ⟨[], [], rfl, gains_nil s, rfl, nofun⟩
  | cons r more ih =>
      by_cases htaken : r.type ∈ s.types
      · have hstop : s.registerAll (r :: more) = (s, some (.flaw (.handlerTaken r.type))) := by
          rw [registerAll, register_of_taken htaken]
        rw [hstop]
        refine ⟨[], r :: more, rfl, gains_nil s, rfl, fun other hother => ?_⟩
        obtain rfl := Option.some.inj hother
        exact htaken
      · have hregister := register_of_free htaken
        obtain ⟨front, rest, rfl, hgains, hfault, hlast⟩ := ih ⟨s.registrations ++ [r]⟩
        have hstep : s.registerAll (r :: (front ++ rest)) =
            HandlerSet.registerAll ⟨s.registrations ++ [r]⟩ (front ++ rest) := by
          rw [registerAll, hregister]
        rw [hstep]
        exact ⟨r :: front, rest, rfl, (gains_register hregister).trans hgains, hfault, hlast⟩

/-! ### Calls -/

/-- A mapping is registered one type after the other. -/
lemma update_eq (s : HandlerSet η) (handlers : List (String × η)) (procedures : List String) :
    s.update handlers procedures =
      s.registerAll (handlers.map fun e => ⟨e.1, e.2, procedures.contains e.1⟩) := rfl

/-- The calls that add handlers: of one type, with or without a decorator, or of a mapping. -/
inductive Call (η : Type)
  | register (r : Registration η)
  | update (handlers : List (String × η)) (procedures : List String)

/-- The handlers after a call, whether it is refused or not. -/
def after (s : HandlerSet η) : Call η → HandlerSet η
  | .register r =>
    match s.register r with
    | .ok s' => s'
    | .error _ => s
  | .update handlers procedures => (s.update handlers procedures).1

/-- The handlers after a sequence of calls. -/
def reached (calls : List (Call η)) : HandlerSet η := calls.foldl after empty

/-- **One call.** -/
lemma gains_after (s : HandlerSet η) (c : Call η) : ∃ added, s.Gains added (s.after c) := by
  cases c with
  | register r =>
      cases h : s.register r with
      | ok s' => exact ⟨[r], by rw [after, h]; exact gains_register h⟩
      | error _ => exact ⟨[], by rw [after, h]; exact gains_nil s⟩
  | update handlers procedures =>
      obtain ⟨front, -, -, hgains, -⟩ := gains_registerAll s
        (handlers.map fun e => ⟨e.1, e.2, procedures.contains e.1⟩)
      exact ⟨front, by rw [after, update_eq]; exact hgains⟩

/-- **All calls.** Every type has one handler. -/
lemma nodup_types_reached (calls : List (Call η)) : (reached calls).types.Nodup := by
  suffices h : ∀ s : HandlerSet η, s.types.Nodup → (calls.foldl after s).types.Nodup from
    h empty List.nodup_nil
  induction calls with
  | nil => exact fun _ hs => hs
  | cons c rest ih =>
      intro s hs
      obtain ⟨added, hgains⟩ := gains_after s c
      exact ih _ (hgains.nodup_types hs)

/-! ### Mappings -/

/-- **A mapping of handlers is registered up to the first type that is taken.** This is so after
every sequence of calls, which leave every type with one handler. What stands in front of that type
is registered, be the mapping refused or not, and what was registered earlier is found as before. If
no type is taken, the whole mapping is registered and nothing is reported; otherwise the type is
reported, and the handlers are what they were exactly if it stands first in the mapping. -/
theorem update_stops (calls : List (Call η)) {handlers : List (String × η)}
    (hkeys : (handlers.map Prod.fst).Nodup) (procedures : List String) :
    (reached calls).types.Nodup ∧
    ∃ front rest, handlers = front ++ rest ∧ (∀ e ∈ front, e.1 ∉ (reached calls).types) ∧
      ((reached calls).update handlers procedures).1.types =
        (reached calls).types ++ front.map Prod.fst ∧
      (∀ type, ((reached calls).update handlers procedures).1.info? type =
        ((reached calls).info? type).or
          ((front.lookup type).map fun h => ⟨type, h, procedures.contains type⟩)) ∧
      (rest = [] ∧ ((reached calls).update handlers procedures).2 = none ∨
        ∃ type h back, rest = (type, h) :: back ∧ type ∈ (reached calls).types ∧
          ((reached calls).update handlers procedures).2 = some (.flaw (.handlerTaken type)) ∧
          (((reached calls).update handlers procedures).1 = reached calls ↔ front = [])) := by
  refine ⟨nodup_types_reached calls, ?_⟩
  generalize reached calls = s
  obtain ⟨asked, left, hsplit, hgains, hfault, hlast⟩ := gains_registerAll s
    (handlers.map fun e => ⟨e.1, e.2, procedures.contains e.1⟩)
  obtain ⟨front, rest, rfl, rfl, rfl⟩ := List.map_eq_append_iff.mp hsplit
  rw [← update_eq] at hgains hfault hlast
  have htypes : (front.map fun e =>
      (⟨e.1, e.2, procedures.contains e.1⟩ : Registration η)).map Registration.type =
      front.map Prod.fst := by
    rw [List.map_map]
    rfl
  have hnew : ∀ e ∈ front, e.1 ∉ s.types := fun e he => hgains.new _ (List.mem_map_of_mem he)
  refine ⟨front, rest, rfl, hnew, ?_, fun type => ?_, ?_⟩
  · rw [hgains.types, htypes]
  · rw [hgains.info?_eq]
    exact congrArg _ (find?_map_eq front procedures.contains type)
  · cases rest with
    | nil => exact .inl ⟨rfl, hfault⟩
    | cons e back =>
        obtain ⟨type, h⟩ := e
        refine .inr ⟨type, h, back, rfl, ?_, hfault, hgains.eq_iff.trans List.map_eq_nil_iff⟩
        -- the types of a mapping differ, so the one that is reported was taken before
        have htaken := hlast _ rfl
        rw [hgains.types, htypes, List.mem_append] at htaken
        refine htaken.resolve_right fun hmem => ?_
        rw [List.map_append, List.nodup_append'] at hkeys
        exact hkeys.2.2 hmem List.mem_cons_self

/-- A handler for one type. -/
def callsSample : List (Call String) := [.register ⟨"text", "older", false⟩]

/-- Handlers for three types, the second of which is that type. -/
def mappingSample : List (String × String) :=
  [("label", "newer"), ("text", "newer"), ("title", "newer")]

/-- The mapping is refused, and its first type has a handler now. -/
theorem update_stops_mappingSample :
    (mappingSample.map Prod.fst).Nodup ∧
    ((reached callsSample).update mappingSample ["label"]).2 = some (.flaw (.handlerTaken "text")) ∧
    ∃ front back, mappingSample = front ++ ("text", "newer") :: back ∧ front ≠ [] ∧
      ((reached callsSample).update mappingSample ["label"]).1.types =
        (reached callsSample).types ++ front.map Prod.fst ∧
      ((reached callsSample).update mappingSample ["label"]).1 ≠ reached callsSample := by
  have hkeys : (mappingSample.map Prod.fst).Nodup := by decide
  have hrefused : ((reached callsSample).update mappingSample ["label"]).2 =
      some (.flaw (.handlerTaken "text")) := rfl
  refine ⟨hkeys, hrefused, ?_⟩
  obtain ⟨-, front, rest, hsplit, -, htypes, -, houtcome⟩ :=
    update_stops callsSample hkeys ["label"]
  rcases houtcome with ⟨-, hnone⟩ | ⟨type, h, back, rfl, -, hfault, hsame⟩
  · exact nomatch hrefused.symm.trans hnone
  · have hchanged : ((reached callsSample).update mappingSample ["label"]).1.types ≠
        (reached callsSample).types := by decide
    have hne : front ≠ [] := by
      rintro rfl
      exact hchanged (by rw [htypes, List.map_nil, List.append_nil])
    obtain rfl : type = "text" := by
      have heq := hfault.symm.trans hrefused
      simpa using heq
    obtain rfl : h = "newer" := by
      have hmem : ("text", h) ∈ mappingSample := hsplit ▸ List.mem_append_right _ List.mem_cons_self
      simpa [mappingSample] using hmem
    exact ⟨front, back, hsplit, hne, htypes, fun heq => hne (hsame.mp heq)⟩

end Blockscribe.HandlerSet
