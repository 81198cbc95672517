/-
How a program begins.

* `Text.Opening`: texts with something visible right behind the line feeds at their start, or with
  nothing but line feeds. They can be put together (`Opening.append`) and laid out
  (`Opening.collapseChars`).
* `dropLeadingLines_breaks`: what is dropped at the start of such a text are all line feeds, if there
  are two of them.
* `Run.Opens`: every definition is such a text. Every change keeps this (`Step.opens`), and so it
  holds at the end of a run (`Makes.opens`).
* `opening_preamble`: the definitions, put together, are such a text as well.
-/
import Blockscribe.Proofs.Program.Names

namespace Blockscribe

namespace Text

/-- Behind the line feeds at the start of a text stands something visible, if anything. -/
def Opening (cs : List Char) : Prop := ∀ c ∈ (cs.dropWhile (· = '\n')).head?, isBlank c = false

variable {a b cs : List Char}

lemma opening_of_head (h : ∀ c ∈ cs.head?, isBlank c = false) : Opening cs := by
  cases cs with
  | nil => exact nofun
  | cons c rest =>
      have hc := h c rfl
      have hne : c ≠ '\n' := by
        rintro rfl
        exact absurd hc (by decide)
      rw [Opening, List.dropWhile_cons_of_neg (by simpa using hne)]
      exact h

lemma opening_breaks (n : ℕ) : Opening (List.replicate n '\n') := by
  rw [Opening, List.dropWhile_replicate_eq_filter_not, List.filter_eq_nil_iff.mpr]
  · exact nofun
  · intro c hc
    rw [(List.mem_replicate.mp hc).2]
    decide

lemma Opening.append (ha : Opening a) (hb : Opening b) : Opening (a ++ b) := by
  rw [Opening, List.dropWhile_append]
  split
  · exact hb
  · rename_i hne
    intro c hc
    refine ha c ?_
    rwa [List.head?_append_of_ne_nil _ (by simpa using hne)] at hc

/-- What is in front of something visible or of nothing does not make a text open. -/
lemma Opening.of_append (h : Opening (a ++ b)) : Opening a := by
  rw [Opening, List.dropWhile_append] at h
  split at h
  · rename_i hempty
    rw [Opening, List.isEmpty_iff.mp hempty]
    exact nofun
  · rename_i hne
    intro c hc
    refine h c ?_
    rwa [List.head?_append_of_ne_nil _ (by simpa using hne)]

lemma opening_intercalate (sep : String) (hsep : Opening sep.toList) {texts : List String}
    (h : ∀ text ∈ texts, Opening text.toList) : Opening (sep.intercalate texts).toList := by
  induction texts with
  | nil => exact nofun
  | cons text rest ih =>
      rw [List.forall_mem_cons] at h
      cases rest with
      | nil =>
          rw [String.intercalate_singleton]
          exact h.1
      | cons next rest =>
          rw [String.intercalate_cons_cons, String.toList_append, String.toList_append]
          exact (h.1.append hsep).append (ih h.2)

/-- An opening text is made of line feeds, or it has something visible behind some. -/
lemma Opening.breaks_or (h : Opening cs) :
    (∃ n, cs = List.replicate n '\n') ∨
      ∃ n c rest, cs = List.replicate n '\n' ++ c :: rest ∧ isBlank c = false := by
  have hsplit := (List.takeWhile_append_dropWhile (p := (· = '\n')) (l := cs)).symm
  have hbreaks : cs.takeWhile (· = '\n') =
      List.replicate (cs.takeWhile (· = '\n')).length '\n' :=
    List.eq_replicate_iff.mpr ⟨rfl, fun c hc => by simpa using List.mem_takeWhile_imp hc⟩
  rw [hbreaks] at hsplit
  cases hrest : cs.dropWhile (· = '\n') with
  | nil =>
      rw [hrest, List.append_nil] at hsplit
      exact .inl ⟨_, hsplit⟩
  | cons c rest =>
      rw [hrest] at hsplit
      exact .inr ⟨_, c, rest, hsplit, h c (by rw [hrest]; rfl)⟩

end Text

/-- The entry point of a dialect opens with one line, which begins with something visible. -/
lemma Dialect.exists_entryOpen_eq {d : Dialect} (h : d ∈ all) :
    ∃ c line, d.entryOpen.toList = c :: line ++ ['\n'] ∧ Text.isBlank c = false ∧ '\n' ∉ line := by
  simp only [all, List.mem_cons, List.not_mem_nil, or_false] at h
  rcases h with rfl | rfl
  · exact ⟨'m', "ain() \x7b".toList, rfl, by decide, by decide⟩
  · exact ⟨'d', "ef main():".toList, rfl, by decide, by decide⟩

/-- Every dialect declares variables in the same way. -/
lemma Dialect.declare_eq {d : Dialect} (h : d ∈ all) (id : String) :
    d.declare id = id ++ " = None" := by
  simp only [all, List.mem_cons, List.not_mem_nil, or_false] at h
  rcases h with rfl | rfl <;> exact congrArg (· ++ " = None") String.empty_append

namespace Program

open Text

variable {cs : List Char} {c : Char} {rest : List Char}

/-! ### The layout -/

/-- The line feeds at the start of a text are dropped if there are two of them. -/
lemma dropLeadingLines_breaks (n : ℕ) (hc : isBlank c = false) :
    dropLeadingLines (List.replicate n '\n' ++ c :: rest) =
      if n ≥ 2 then c :: rest else List.replicate n '\n' ++ c :: rest := by
  have hlead : (List.replicate n '\n' ++ c :: rest).takeWhile isBlank =
      List.replicate n '\n' := by
    rw [List.takeWhile_append_of_pos, List.takeWhile_cons_of_neg (by rw [hc]; decide),
      List.append_nil]
    intro d hd
    rw [(List.mem_replicate.mp hd).2]
    decide
  have hlast : (List.replicate n '\n').reverse.takeWhile (· ≠ '\n') = [] := by
    cases n with
    | zero => rfl
    | succ n => 
        rw [List.reverse_replicate]
        exact List.takeWhile_cons_of_neg (by decide)
  simp only [dropLeadingLines, hlead, hlast, List.length_replicate, List.length_nil, Nat.sub_zero]
  split
  · exact List.drop_left' (List.length_replicate)
  · rfl

lemma squeeze_opening (run : ℕ) (h : Opening cs) : Opening (squeeze run cs) := by
  induction cs generalizing run with
  | nil => exact nofun
  | cons c rest ih =>
      by_cases hc : c = '\n'
      · subst hc
        have hrest : Opening rest := by
          rwa [Opening, List.dropWhile_cons_of_pos (by decide)] at h
        rw [squeeze, if_pos rfl]
        split
        · exact ih run hrest
        · exact (opening_breaks 1).append (ih (run + 1) hrest)
      · rw [squeeze, if_neg hc]
        rw [Opening, List.dropWhile_cons_of_neg (by simpa using hc)] at h
        exact opening_of_head h

lemma opening_collapseChars (h : Opening cs) : Opening (collapseChars cs) := by
  obtain ⟨breaks, hbreaks, -⟩ := exists_eq_dropLastBreaks_append (squeeze 0 cs)
  have hsqueezed := squeeze_opening 0 h
  rw [hbreaks] at hsqueezed
  exact hsqueezed.of_append.append (opening_breaks 3)

/-! ### Definitions -/

lemma opening_procedure {identifier text : String} (h : IsProcedure identifier text) :
    Opening text.toList := by
  obtain ⟨code, comments, rest, hcomments, rfl⟩ := h
  refine opening_of_head fun c hc => ?_
  simp only [String.toList_append, List.append_assoc, List.head?_append] at hc
  cases hhead : comments.toList.head? with
  | none =>
      rw [hhead] at hc
      obtain rfl := Option.some.inj hc
      decide
  | some d =>
      rw [hhead] at hc
      obtain rfl := Option.some.inj hc
      rcases hcomments d hhead with rfl | rfl <;> decide

lemma opening_helperText {indent identifier signature : String} {more : List String}
    (hid : isIdentifier identifier = true) (hsignature : signature.toList.head? = some '(') :
    Opening (Definitions.helperText indent identifier
      (("def " ++ Definitions.ownName ++ signature) :: more)).toList := by
  obtain ⟨rest, hrest⟩ := Definitions.exists_helperText_eq indent more hid hsignature
  rw [hrest]
  refine opening_of_head fun c hc => ?_
  simp only [String.toList_append, List.append_assoc] at hc
  obtain rfl := Option.some.inj hc
  decide

/-- The declarations of variables begin with their identifiers. -/
lemma opening_declarations {d : Dialect} (hd : d ∈ Dialect.all) {ids : List String}
    (hids : ∀ id ∈ ids, isIdentifier id = true) :
    Opening ("\n".intercalate (ids.map d.declare)).toList := by
  refine opening_intercalate "\n" (opening_breaks 1) fun text htext => ?_
  obtain ⟨id, hid, rfl⟩ := List.mem_map.mp htext
  obtain ⟨first, rest, hlist, -⟩ := exists_of_isIdentifier (hids id hid)
  have hne : id.toList ≠ [] := hlist ▸ List.cons_ne_nil first rest
  refine opening_of_head fun c hc => ?_
  rw [Dialect.declare_eq hd, String.toList_append, List.head?_append_of_ne_nil _ hne] at hc
  exact isBlank_of_isWordChar
    (isWordChar_of_isIdentifier (hids id hid) (List.mem_of_mem_head? hc))

end Program

/-! ### Whole runs -/

namespace Run

variable {s t : Run} {names : List String} {indent : String}

/-- Every definition begins with something visible, behind line feeds at most. -/
def Opens (s : Run) : Prop := ∀ e ∈ s.definitions.entries, Text.Opening e.2.toList

lemma Step.opens (h : Step (Question.Allowed names) indent s t) (hs : s.Opens) : t.Opens := by
  rcases h.kinds with ⟨hsame, -⟩ | ⟨key, lines, hallowed, -, -, hput⟩ | ⟨key, text, hallowed, -, hput⟩
  · rw [Opens, hsame]
    exact hs
  · intro e he
    rw [hput] at he
    obtain ⟨-, signature, more, rfl, hsignature⟩ := hallowed
    rcases Assoc.mem_put he with rfl | hold
    · exact Program.opening_helperText (NameTable.isIdentifier_choose _ _) hsignature
    · exact hs e hold
  · intro e he
    rw [hput] at he
    rcases Assoc.mem_put he with rfl | hold
    · rcases hallowed with hmodule | ⟨identifier, -, hprocedure⟩
      · have hmodules : ∀ e ∈ Handler.moduleLines, e.2.toList.head? = some 'i' := by decide
        refine Text.opening_of_head fun c hc => ?_
        rw [hmodules _ hmodule] at hc
        obtain rfl := Option.some.inj hc
        decide
      · exact Program.opening_procedure hprocedure
    · exact hs e hold

end Run

namespace Generator

variable {style : Style} {w : Workspace} {text body : String} {t : Run}

/-- At the end of a run every definition begins with something visible, behind line feeds at most. -/
lemma Makes.opens (h : (standard style).Makes w body t text)
    (hdialect : style.dialect ∈ Dialect.all) : t.Opens := by
  refine (h.leads hdialect).keeps (fun _ _ hstep => hstep.opens) fun e he => ?_
  rw [definitions_start] at he
  obtain rfl := List.mem_singleton.mp he
  exact Program.opening_declarations hdialect fun id hid =>
    (legal_variableIdentifiers (standard style) w id hid).1

end Generator

namespace Program

/-- The definitions, put together, begin with something visible, behind line feeds at most. -/
lemma opening_preamble {s : Run} (h : s.Opens) : Text.Opening (preamble s.definitions).toList := by
  have htexts : ∀ p : String → Bool, ∀ text ∈ (s.definitions.entries.map Prod.snd).filter p,
      Text.Opening text.toList := by
    intro p text htext
    obtain ⟨e, he, rfl⟩ := List.mem_map.mp (List.mem_filter.mp htext).1
    exact h e he
  rw [preamble, collapse, String.toList_ofList, String.toList_append, String.toList_append]
  refine opening_collapseChars (((?_ : Text.Opening _).append (Text.opening_breaks 2)).append ?_)
  · exact Text.opening_intercalate "\n" (Text.opening_breaks 1) (htexts _)
  · exact Text.opening_intercalate "\n\n" (Text.opening_breaks 2) (htexts _)

end Program

end Blockscribe
