/-
Definitions along every sequence of calls.

* `Journal`: identifiers and definitions, with what has been done to the definitions since they were
  last emptied, the latest first. `Journal.step` carries out one call, `journal` a whole sequence.
* `Written`: the text under a key, told by what has been done: the latest definition or the first
  request for a helper routine, whichever came later.
* `Journal.Faithful`: the invariant that ties the definitions to what has been done to them;
  `Faithful.step` says that every call keeps it.
* `journal_stable`: keys keep their places, the last write counts, and helper routines keep the
  identifiers that they got at the first request.
-/
import Mathlib.Data.List.Induction
import Blockscribe.Definitions
import Blockscribe.Proofs.Name.Choice

namespace Blockscribe.Definitions

/-- A call that changes the definitions. -/
inductive Call
  | provide (key : String) (lines : List String)
  | define (key text : String)
  | reset

/-- What has been done to the definitions: the identifier of a helper routine has been given out, or
a text has been written. -/
inductive Deed
  | provided (key : String) (lines : List String) (identifier : String)
  | defined (key text : String)

/-- The key of what has been done. -/
def Deed.key : Deed → String
  | provided key _ _ => key
  | defined key _ => key

/-- Identifiers and definitions, and what has been done to the definitions since they were last
emptied, the latest first. -/
structure Journal where
  names : NameTable
  definitions : Definitions
  deeds : List Deed

/-- Carries out one call. -/
def Journal.step (indent : String) (j : Journal) : Call → Journal
  | .provide key lines =>
      let (identifier, names, definitions, _) := j.definitions.provide j.names indent key lines
      ⟨names, definitions, .provided key lines identifier :: j.deeds⟩
  | .define key text => ⟨j.names, j.definitions.put key text, .defined key text :: j.deeds⟩
  | .reset => ⟨j.names, .empty, []⟩

/-- What becomes of a name table and no definitions after a sequence of calls. -/
def journal (names : NameTable) (indent : String) (calls : List Call) : Journal :=
  calls.foldl (Journal.step indent) ⟨names, .empty, []⟩

/-- The helper routine of a key has been requested. -/
def Provides (key : String) (deeds : List Deed) : Prop :=
  ∃ lines identifier, Deed.provided key lines identifier ∈ deeds

/-- A text has been written under a key. -/
def Defines (key : String) (deeds : List Deed) : Prop := ∃ text, Deed.defined key text ∈ deeds

/-- The text under a key, the deeds listed with the latest first: that of the latest definition, unless
the first request for a helper routine came later, and that of the first request, unless a definition
came later. -/
inductive Written (indent : String) (deeds : List Deed) (key : String) : String → Prop
  | defined {later earlier : List Deed} {text : String} :
      deeds = later ++ .defined key text :: earlier → ¬ Defines key later →
      (Provides key later → Provides key earlier) → Written indent deeds key text
  | provided {later earlier : List Deed} {lines : List String} {identifier : String} :
      deeds = later ++ .provided key lines identifier :: earlier → ¬ Defines key later →
      ¬ Provides key earlier → Written indent deeds key (helperText indent identifier lines)

section Deeds

variable {key name text text' identifier indent : String} {lines : List String} {d : Deed}
  {deeds later earlier : List Deed}

/-! ### One more deed -/

@[simp] lemma provides_cons_provided : Provides key (.provided name lines identifier :: deeds) ↔
    key = name ∨ Provides key deeds := by
  constructor
  · rintro ⟨lines', id', h⟩
    rcases List.mem_cons.mp h with heq | h
    · exact .inl (Deed.provided.inj heq).1
    · exact .inr ⟨lines', id', h⟩
  · rintro (rfl | ⟨lines', id', h⟩)
    · exact ⟨lines, identifier, List.mem_cons_self⟩
    · exact ⟨lines', id', List.mem_cons_of_mem _ h⟩

@[simp] lemma provides_cons_defined :
    Provides key (.defined name text :: deeds) ↔ Provides key deeds := by
  simp [Provides]

@[simp] lemma defines_cons_defined : Defines key (.defined name text :: deeds) ↔
    key = name ∨ Defines key deeds := by
  constructor
  · rintro ⟨text', h⟩
    rcases List.mem_cons.mp h with heq | h
    · exact .inl (Deed.defined.inj heq).1
    · exact .inr ⟨text', h⟩
  · rintro (rfl | ⟨text', h⟩)
    · exact ⟨text, List.mem_cons_self⟩
    · exact ⟨text', List.mem_cons_of_mem _ h⟩

@[simp] lemma defines_cons_provided :
    Defines key (.provided name lines identifier :: deeds) ↔ Defines key deeds := by
  simp [Defines]

lemma not_provides_nil : ¬ Provides key [] := by simp [Provides]

lemma not_defines_nil : ¬ Defines key [] := by simp [Defines]

lemma provides_append : Provides key (later ++ earlier) ↔
    Provides key later ∨ Provides key earlier := by
  simp [Provides, exists_or]

/-! ### The text under a key after one more deed -/

/-- What was done before stays in its place. -/
lemma eq_of_cons_eq_append {x : Deed} (h : d :: deeds = later ++ x :: earlier) :
    (later = [] ∧ d = x ∧ deeds = earlier) ∨
      ∃ later', later = d :: later' ∧ deeds = later' ++ x :: earlier := by
  cases later with
  | nil => exact .inl ⟨rfl, List.cons.inj h⟩
  | cons first rest =>
      obtain ⟨rfl, hrest⟩ := List.cons.inj h
      exact .inr ⟨rest, rfl, hrest⟩

/-- Nothing is written without a deed. -/
lemma not_written_nil : ¬ Written indent [] key text := by
  rintro (⟨h, -, -⟩ | ⟨h, -, -⟩) <;> simp at h

/-- What is done under another key leaves the text as it is. -/
lemma written_cons_of_ne (h : key ≠ d.key) :
    Written indent (d :: deeds) key text ↔ Written indent deeds key text := by
  have hprovides : ∀ rest, Provides key (d :: rest) ↔ Provides key rest := by
    intro rest
    cases d with
    | provided name lines identifier => exact provides_cons_provided.trans (or_iff_right h)
    | defined name text => exact provides_cons_defined
  have hdefines : ∀ rest, Defines key (d :: rest) ↔ Defines key rest := by
    intro rest
    cases d with
    | provided name lines identifier => exact defines_cons_provided
    | defined name text => exact defines_cons_defined.trans (or_iff_right h)
  constructor
  · rintro (⟨heq, hlater, hearlier⟩ | ⟨heq, hlater, hearlier⟩)
    · rcases eq_of_cons_eq_append heq with ⟨-, rfl, -⟩ | ⟨rest, rfl, rfl⟩
      · exact absurd rfl h
      · exact .defined rfl (mt (hdefines rest).mpr hlater) (hearlier ∘ (hprovides rest).mpr)
    · rcases eq_of_cons_eq_append heq with ⟨-, rfl, -⟩ | ⟨rest, rfl, rfl⟩
      · exact absurd rfl h
      · exact .provided rfl (mt (hdefines rest).mpr hlater) hearlier
  · rintro (⟨rfl, hlater, hearlier⟩ | ⟨rfl, hlater, hearlier⟩)
    · exact .defined rfl (mt (hdefines _).mp hlater) (hearlier ∘ (hprovides _).mp)
    · exact .provided rfl (mt (hdefines _).mp hlater) hearlier

/-- A definition replaces the text. -/
lemma written_cons_defined :
    Written indent (.defined key text :: deeds) key text' ↔ text' = text := by
  constructor
  · rintro (⟨heq, hlater, -⟩ | ⟨heq, hlater, -⟩)
    · rcases eq_of_cons_eq_append heq with ⟨-, hd, -⟩ | ⟨rest, rfl, -⟩
      · exact (Deed.defined.inj hd).2.symm
      · exact absurd (defines_cons_defined.mpr (.inl rfl)) hlater
    · rcases eq_of_cons_eq_append heq with ⟨-, hd, -⟩ | ⟨rest, rfl, -⟩
      · exact nomatch hd
      · exact absurd (defines_cons_defined.mpr (.inl rfl)) hlater
  · rintro rfl
    exact .defined (List.nil_append _).symm not_defines_nil fun h => absurd h not_provides_nil

/-- The first request for a helper routine replaces the text. -/
lemma written_cons_of_not_provides (h : ¬ Provides key deeds) :
    Written indent (.provided key lines identifier :: deeds) key text ↔
      text = helperText indent identifier lines := by
  constructor
  · rintro (⟨heq, -, hearlier⟩ | ⟨heq, -, -⟩)
    · rcases eq_of_cons_eq_append heq with ⟨-, hd, -⟩ | ⟨rest, rfl, rfl⟩
      · exact nomatch hd
      · have hprovides := hearlier (provides_cons_provided.mpr (.inl rfl))
        exact absurd (provides_append.mpr (.inr (provides_cons_defined.mpr hprovides))) h
    · rcases eq_of_cons_eq_append heq with ⟨-, hd, -⟩ | ⟨rest, rfl, rfl⟩
      · obtain ⟨-, rfl, rfl⟩ := Deed.provided.inj hd
        rfl
      · exact absurd (provides_append.mpr (.inr (provides_cons_provided.mpr (.inl rfl)))) h
  · rintro rfl
    exact .provided (List.nil_append _).symm not_defines_nil h

/-- A later request leaves the text as it is. -/
lemma written_cons_of_provides (h : Provides key deeds) :
    Written indent (.provided key lines identifier :: deeds) key text ↔
      Written indent deeds key text := by
  constructor
  · rintro (⟨heq, hlater, hearlier⟩ | ⟨heq, hlater, hearlier⟩)
    · rcases eq_of_cons_eq_append heq with ⟨-, hd, -⟩ | ⟨rest, rfl, rfl⟩
      · exact nomatch hd
      · refine .defined rfl (mt defines_cons_provided.mpr hlater) fun _ => ?_
        exact hearlier (provides_cons_provided.mpr (.inl rfl))
    · rcases eq_of_cons_eq_append heq with ⟨-, -, rfl⟩ | ⟨rest, rfl, rfl⟩
      · exact absurd h hearlier
      · exact .provided rfl (mt defines_cons_provided.mpr hlater) hearlier
  · rintro (⟨rfl, hlater, hearlier⟩ | ⟨rfl, hlater, hearlier⟩)
    · refine .defined rfl (mt defines_cons_provided.mp hlater) fun _ => ?_
      rcases provides_append.mp h with hlater | hprovides
      · exact hearlier hlater
      · exact provides_cons_defined.mp hprovides
    · exact .provided rfl (mt defines_cons_provided.mp hlater) hearlier

end Deeds

/-! ### The invariant -/

/-- What ties the definitions to what has been done to them: every written key stands once, in the
order of the first writes; the text under a key is the one that is written there; the identifiers of
helper routines are those that were given out, different ones for different keys; and each of them was
issued, but not before the start, and is not reserved. -/
structure Journal.Faithful (start : NameTable) (indent : String) (j : Journal) : Prop where
  keys : j.definitions.entries.map Prod.fst = (j.deeds.reverse.map Deed.key).eraseDups
  texts : ∀ key text, j.definitions.get? key = some text ↔ Written indent j.deeds key text
  helpers : ∀ key identifier, j.definitions.helper? key = some identifier ↔
    ∃ lines, .provided key lines identifier ∈ j.deeds
  distinct : ∀ key key' lines lines' identifier, .provided key lines identifier ∈ j.deeds →
    .provided key' lines' identifier ∈ j.deeds → key = key'
  reserved : j.names.reserved = start.reserved
  kept : start.issued <:+ j.names.issued
  issued : ∀ key lines identifier, .provided key lines identifier ∈ j.deeds →
    identifier ∈ j.names.issued ∧ identifier ∉ start.issued ∧ identifier ∉ start.reserved

/-- A list without repetitions, after one more element. -/
lemma eraseDups_concat (keys : List String) (key : String) :
    (keys ++ [key]).eraseDups =
      if key ∈ keys.eraseDups then keys.eraseDups else keys.eraseDups ++ [key] := by
  rw [List.eraseDups_append]
  by_cases h : key ∈ keys
  · simp [List.removeAll, h]
  · simp [List.removeAll, h, List.eraseDups_cons]

namespace Journal.Faithful

variable {start : NameTable} {indent key identifier : String} {j : Journal}

/-- Before anything has been done, and after the definitions have been emptied. -/
lemma nil {names : NameTable} (hreserved : names.reserved = start.reserved)
    (hkept : start.issued <:+ names.issued) : Faithful start indent ⟨names, .empty, []⟩ where
  keys := rfl
  texts _ _ := iff_of_false nofun not_written_nil
  helpers _ _ := iff_of_false nofun fun ⟨_, h⟩ => List.not_mem_nil h
  distinct _ _ _ _ _ h := absurd h List.not_mem_nil
  reserved := hreserved
  kept := hkept
  issued _ _ _ h := absurd h List.not_mem_nil

/-- The keys of the helper routines are those that were requested. -/
lemma helper?_eq_none (h : j.Faithful start indent) (hkey : ¬ Provides key j.deeds) :
    j.definitions.helper? key = none := by
  refine Option.eq_none_iff_forall_ne_some.mpr fun identifier hsome => ?_
  obtain ⟨lines, hmem⟩ := (h.helpers key identifier).mp hsome
  exact hkey ⟨lines, identifier, hmem⟩

/-- A written key keeps its place, or comes last if it is new. -/
lemma keys_put (h : j.Faithful start indent) (d : Deed) (text : String) :
    (Assoc.put j.definitions.entries d.key text).map Prod.fst =
      ((d :: j.deeds).reverse.map Deed.key).eraseDups := by
  rw [Assoc.keys_put, h.keys, List.reverse_cons, List.map_append, List.map_singleton,
    eraseDups_concat]

/-- A definition is written. -/
lemma define (h : j.Faithful start indent) (key text : String) :
    Faithful start indent
      ⟨j.names, j.definitions.put key text, .defined key text :: j.deeds⟩ where
  keys := h.keys_put (.defined key text) text
  texts name text' := by
    rw [get?_put]
    split
    · rename_i hname
      subst hname
      rw [written_cons_defined, Option.some_inj, eq_comm]
    · rename_i hname
      rw [written_cons_of_ne hname, h.texts]
  helpers name identifier := by simpa using h.helpers name identifier
  distinct := by simpa using h.distinct
  reserved := h.reserved
  kept := h.kept
  issued := by simpa using h.issued

/-- A known helper routine is requested. -/
lemma again (h : j.Faithful start indent) {lines' : List String}
    (hmem : .provided key lines' identifier ∈ j.deeds) (lines : List String) :
    Faithful start indent ⟨j.names, j.definitions, .provided key lines identifier :: j.deeds⟩ where
  keys := by
    have hkey : key ∈ (j.deeds.reverse.map Deed.key).eraseDups := by
      rw [List.mem_eraseDups]
      exact List.mem_map.mpr ⟨_, List.mem_reverse.mpr hmem, rfl⟩
    rw [List.reverse_cons, List.map_append, List.map_singleton, eraseDups_concat]
    exact h.keys.trans (if_pos hkey).symm
  texts name text := by
    by_cases hname : name = key
    · subst hname
      rw [written_cons_of_provides ⟨lines', identifier, hmem⟩, h.texts]
    · rw [written_cons_of_ne hname, h.texts]
  helpers name identifier' := by
    rw [h.helpers]
    constructor
    · rintro ⟨ls, hls⟩
      exact ⟨ls, List.mem_cons_of_mem _ hls⟩
    · rintro ⟨ls, hls⟩
      rcases List.mem_cons.mp hls with heq | hls
      · obtain ⟨rfl, rfl, rfl⟩ := Deed.provided.inj heq
        exact ⟨lines', hmem⟩
      · exact ⟨ls, hls⟩
  distinct k k' ls ls' id hk hk' := by
    have hold : ∀ k ls, .provided k ls id ∈ Deed.provided key lines identifier :: j.deeds →
        ∃ ls', .provided k ls' id ∈ j.deeds := by
      intro k ls hk
      rcases List.mem_cons.mp hk with heq | hk
      · obtain ⟨rfl, rfl, rfl⟩ := Deed.provided.inj heq
        exact ⟨lines', hmem⟩
      · exact ⟨ls, hk⟩
    obtain ⟨_, hk⟩ := hold k ls hk
    obtain ⟨_, hk'⟩ := hold k' ls' hk'
    exact h.distinct _ _ _ _ _ hk hk'
  reserved := h.reserved
  kept := h.kept
  issued k ls id hk := by
    rcases List.mem_cons.mp hk with heq | hk
    · obtain ⟨rfl, rfl, rfl⟩ := Deed.provided.inj heq
      exact h.issued _ _ _ hmem
    · exact h.issued _ _ _ hk

/-- A helper routine is requested for the first time. -/
lemma first (h : j.Faithful start indent) (hkey : ¬ Provides key j.deeds) (lines : List String) :
    Faithful start indent ⟨(j.names.fresh key).2,
      put ⟨j.definitions.entries, (key, j.names.choose key) :: j.definitions.helpers⟩ key
        (helperText indent (j.names.choose key) lines),
      .provided key lines (j.names.choose key) :: j.deeds⟩ where
  keys := h.keys_put (.provided key lines (j.names.choose key)) _
  texts name text := by
    rw [get?_put]
    split
    · rename_i hname
      subst hname
      rw [written_cons_of_not_provides hkey, Option.some_inj, eq_comm]
    · rename_i hname
      rw [written_cons_of_ne hname, ← h.texts]
      rfl
  helpers name identifier := by
    rw [helper?_put, helper?_cons]
    split
    · rename_i hname
      subst hname
      constructor
      · intro hid
        exact ⟨lines, Option.some.inj hid ▸ List.mem_cons_self⟩
      · rintro ⟨ls, hls⟩
        rcases List.mem_cons.mp hls with heq | hls
        · exact congrArg some (Deed.provided.inj heq).2.2.symm
        · exact absurd ⟨ls, identifier, hls⟩ hkey
    · rename_i hname
      rw [h.helpers]
      simp [hname]
  distinct k k' ls ls' id hk hk' := by
    have hnew : ∀ k ls, .provided k ls (j.names.choose key) ∈ j.deeds → False :=
      fun k ls hmem => NameTable.choose_notMem_issued j.names key (h.issued _ _ _ hmem).1
    rcases List.mem_cons.mp hk with heq | hk <;> rcases List.mem_cons.mp hk' with heq' | hk'
    · exact (Deed.provided.inj heq).1.trans (Deed.provided.inj heq').1.symm
    · exact (hnew _ _ ((Deed.provided.inj heq).2.2 ▸ hk')).elim
    · exact (hnew _ _ ((Deed.provided.inj heq').2.2 ▸ hk)).elim
    · exact h.distinct _ _ _ _ _ hk hk'
  reserved := h.reserved
  kept := h.kept.trans (List.suffix_cons _ _)
  issued k ls id hk := by
    rcases List.mem_cons.mp hk with heq | hk
    · obtain ⟨rfl, rfl, rfl⟩ := Deed.provided.inj heq
      refine ⟨List.mem_cons_self, fun hid => ?_, fun hid => ?_⟩
      · exact NameTable.choose_notMem_issued j.names k (h.kept.subset hid)
      · exact NameTable.choose_notMem_reserved j.names k (h.reserved ▸ hid)
    · exact (h.issued _ _ _ hk).imp_left (List.mem_cons_of_mem _)

/-- **One call.** -/
lemma step (h : j.Faithful start indent) (c : Call) : (j.step indent c).Faithful start indent := by
  cases c with
  | provide key lines =>
      by_cases hkey : Provides key j.deeds
      · obtain ⟨lines', identifier, hmem⟩ := hkey
        have hknown := (h.helpers key identifier).mpr ⟨lines', hmem⟩
        rw [Journal.step, provide_eq_of_known hknown]
        exact h.again hmem lines
      · rw [Journal.step, provide_eq_of_new (h.helper?_eq_none hkey)]
        exact h.first hkey lines
  | define key text => exact h.define key text
  | reset => exact nil h.reserved h.kept

end Journal.Faithful

/-! ### Every sequence of calls -/

/-- Issued identifiers stay issued. -/
lemma issued_suffix_foldl (indent : String) (j : Journal) (calls : List Call) :
    j.names.issued <:+ (calls.foldl (Journal.step indent) j).names.issued := by
  induction calls generalizing j with
  | nil => exact List.suffix_rfl
  | cons c rest ih =>
      refine List.IsSuffix.trans ?_ (ih (j.step indent c))
      cases c with
      | provide key lines =>
          cases h : j.definitions.helper? key with
          | some identifier =>
              have hnames : (j.step indent (.provide key lines)).names = j.names := by
                rw [Journal.step, provide_eq_of_known h]
              exact hnames ▸ List.suffix_rfl
          | none =>
              have hnames : (j.step indent (.provide key lines)).names = (j.names.fresh key).2 := by
                rw [Journal.step, provide_eq_of_new h]
              exact hnames ▸ List.suffix_cons _ _
      | define key text => exact List.suffix_rfl
      | reset => exact List.suffix_rfl

lemma faithful_journal (names : NameTable) (indent : String) (calls : List Call) :
    (journal names indent calls).Faithful names indent := by
  induction calls using List.reverseRecOn with
  | nil => exact .nil rfl List.suffix_rfl
  | append_singleton calls c ih =>
      rw [journal, List.foldl_append]
      exact ih.step c

/-- **Definitions keep their places, and helper routines their identifiers.** For every name table and
after every sequence of calls: the definitions are what has been done to them since they were last
emptied. A further request for a helper routine gets the identifier that was given out under its key,
and changes nothing. A first request issues one identifier, which is not reserved and was not issued
before, and nothing else changes in the name table. What is issued stays issued, also when the
definitions are emptied. -/
theorem journal_stable (names : NameTable) (indent : String) (calls more : List Call) :
    (journal names indent calls).Faithful names indent ∧
      (∀ key lines lines' identifier,
        .provided key lines' identifier ∈ (journal names indent calls).deeds →
        (journal names indent calls).definitions.provide (journal names indent calls).names indent
            key lines =
          (identifier, (journal names indent calls).names,
            (journal names indent calls).definitions, false)) ∧
      (∀ key lines, ¬ Provides key (journal names indent calls).deeds → ∃ identifier definitions,
        (journal names indent calls).definitions.provide (journal names indent calls).names indent
            key lines =
          (identifier, { (journal names indent calls).names with
            issued := identifier :: (journal names indent calls).names.issued },
            definitions, true) ∧
          identifier ∉ (journal names indent calls).names.issued ∧
          identifier ∉ names.reserved) ∧
      (journal names indent calls).names.issued <:+
        (journal names indent (calls ++ more)).names.issued := by
  have hf := faithful_journal names indent calls
  refine ⟨hf, ?_, ?_, ?_⟩
  · intro key lines lines' identifier hmem
    exact provide_eq_of_known ((hf.helpers key identifier).mpr ⟨lines', hmem⟩) _ _ _
  · intro key lines hkey
    refine ⟨_, _, provide_eq_of_new (hf.helper?_eq_none hkey) _ _ _, ?_, ?_⟩
    · exact NameTable.choose_notMem_issued _ key
    · rw [← hf.reserved]
      exact NameTable.choose_notMem_reserved _ key
  · rw [journal, journal, List.foldl_append]
    exact issued_suffix_foldl indent _ more

end Blockscribe.Definitions
