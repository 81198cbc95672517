/-
Where a docstring ends.

* `Doc.scan`: reads a docstring from behind its opening delimiter, as far as the closing one.
* `scan_append_of_some`: a docstring that has ended is not changed by what follows.
* `scan_append_cons`: one that has not ended goes on behind a blank as if it began there.
* `Doc.followed`: what stands behind the opening delimiter in a program. `scan_followed_of_none` and
  `scan_followed_of_some` say where the docstring ends there.
* `scan_eq_none_iff`: so whether it ends within a text is decided word by word, and filling the text
  does not change it (`scan_wrapText_eq_none_iff`).
-/
import Blockscribe.Proofs.Text.Words

namespace Blockscribe.Text.Doc

/-- What opens and closes a docstring. -/
def delimiter : List Char := ['"', '"', '"']

/-- Reads a docstring from behind its opening delimiter: what is inside, and what follows the closing
delimiter. A backslash takes the next character with it. -/
def scan : List Char → Option (List Char × List Char)
  | '\\' :: c :: rest => (scan rest).map fun (inside, after) => ('\\' :: c :: inside, after)
  | '"' :: '"' :: '"' :: rest => some ([], rest)
  | c :: rest => (scan rest).map fun (inside, after) => (c :: inside, after)
  | [] => none

/-- What stands behind the opening delimiter of a docstring: what is to be inside, the closing
delimiter on a line of its own, and code. -/
def followed (body code : List Char) : List Char := body ++ '\n' :: (delimiter ++ '\n' :: code)

variable {a b cs inside beyond : List Char} {c : Char}

/-- A character that neither escapes another nor begins the delimiter stands for itself. -/
lemma scan_cons (hslash : c = '\\' → b = []) (hquote : c = '"' → ¬ ['"', '"'] <+: b) :
    scan (c :: b) = (scan b).map fun p => (c :: p.1, p.2) := by
  rw [scan.eq_def]
  split
  · rename_i heq
    obtain ⟨rfl, rfl⟩ := List.cons.inj heq
    exact nomatch hslash rfl
  · rename_i rest heq
    obtain ⟨rfl, rfl⟩ := List.cons.inj heq
    exact absurd ⟨rest, rfl⟩ (hquote rfl)
  · rename_i heq
    obtain ⟨rfl, rfl⟩ := List.cons.inj heq
    rfl
  · rename_i heq
    exact nomatch heq

/-- What is inside, the delimiter and what follows it make up the text. -/
lemma eq_of_scan_eq_some (h : scan a = some (inside, beyond)) :
    a = inside ++ (delimiter ++ beyond) := by
  fun_induction scan a generalizing inside with
  | case1 c rest ih =>
      obtain ⟨⟨i, b⟩, hrest, heq⟩ := Option.map_eq_some_iff.mp h
      obtain ⟨rfl, rfl⟩ := Prod.mk.inj heq
      rw [ih hrest]
      rfl
  | case2 rest =>
      obtain ⟨rfl, rfl⟩ := Prod.mk.inj (Option.some.inj h)
      rfl
  | case3 c rest hslash hquote ih =>
      obtain ⟨⟨i, b⟩, hrest, heq⟩ := Option.map_eq_some_iff.mp h
      obtain ⟨rfl, rfl⟩ := Prod.mk.inj heq
      rw [ih hrest]
      rfl
  | case4 => exact nomatch h

/-- A docstring that has ended is not changed by what follows. -/
lemma scan_append_of_some (h : scan a = some (inside, beyond)) (b : List Char) :
    scan (a ++ b) = some (inside, beyond ++ b) := by
  fun_induction scan a generalizing inside with
  | case1 c rest ih =>
      obtain ⟨⟨i, b'⟩, hrest, heq⟩ := Option.map_eq_some_iff.mp h
      obtain ⟨rfl, rfl⟩ := Prod.mk.inj heq
      rw [List.cons_append, List.cons_append, scan, ih hrest]
      rfl
  | case2 rest =>
      obtain ⟨rfl, rfl⟩ := Prod.mk.inj (Option.some.inj h)
      rfl
  | case3 c rest hslash hquote ih =>
      obtain ⟨⟨i, b'⟩, hrest, heq⟩ := Option.map_eq_some_iff.mp h
      obtain ⟨rfl, rfl⟩ := Prod.mk.inj heq
      rw [List.cons_append, scan_cons, ih hrest]
      · rfl
      · rintro rfl
        cases rest with
        | nil => exact nomatch hrest
        | cons d more => exact (hslash d more rfl rfl).elim
      · rintro rfl hquotes
        match rest with
        | [] => exact nomatch hrest
        | [d] =>
            rw [List.singleton_append, List.cons_prefix_cons] at hquotes
            obtain rfl := hquotes.1
            exact nomatch hrest
        | d :: e :: more =>
            rw [List.cons_append, List.cons_append, List.cons_prefix_cons,
              List.cons_prefix_cons] at hquotes
            obtain ⟨rfl, rfl, -⟩ := hquotes
            exact hquote more rfl rfl
  | case4 => exact nomatch h

/-- A docstring that has not ended goes on behind a character that neither escapes nor quotes, even if
a backslash escapes that character. -/
lemma scan_append_cons (hslash : c ≠ '\\') (hquote : c ≠ '"') (h : scan a = none) (b : List Char) :
    scan (a ++ c :: b) = (scan b).map fun p => (a ++ c :: p.1, p.2) := by
  fun_induction scan a with
  | case1 d rest ih =>
      rw [List.cons_append, List.cons_append, scan, ih (Option.map_eq_none_iff.mp h), Option.map_map]
      rfl
  | case2 rest => exact nomatch h
  | case3 d rest hnext hquotes ih =>
      by_cases hopen : d = '\\' ∧ rest = []
      · obtain ⟨rfl, rfl⟩ := hopen
        rfl
      rw [List.cons_append, scan_cons, ih (Option.map_eq_none_iff.mp h), Option.map_map]
      · rfl
      · rintro rfl
        cases rest with
        | nil => exact absurd ⟨rfl, rfl⟩ hopen
        | cons e more => exact (hnext e more rfl rfl).elim
      · rintro rfl hprefix
        match rest with
        | [] =>
            rw [List.nil_append, List.cons_prefix_cons] at hprefix
            exact hquote hprefix.1.symm
        | [e] =>
            rw [List.singleton_append, List.cons_prefix_cons, List.cons_prefix_cons] at hprefix
            exact hquote hprefix.2.1.symm
        | e :: f :: more =>
            rw [List.cons_append, List.cons_append, List.cons_prefix_cons,
              List.cons_prefix_cons] at hprefix
            obtain ⟨rfl, rfl, -⟩ := hprefix
            exact hquotes more rfl rfl
  | case4 => exact scan_cons (fun hc => absurd hc hslash) fun hc => absurd hc hquote

/-- What is to be inside is inside, if no delimiter ends the docstring before. -/
lemma scan_followed_of_none (h : scan a = none) (code : List Char) :
    scan (followed a code) = some (a ++ ['\n'], '\n' :: code) := by
  rw [followed, scan_append_cons (by decide) (by decide) h]
  rfl

/-- A delimiter that ends the docstring before makes code of what is behind it. -/
lemma scan_followed_of_some (h : scan a = some (inside, beyond)) (code : List Char) :
    scan (followed a code) = some (inside, followed beyond code) :=
  scan_append_of_some h _

/-- A docstring ends within a text if it does so in front of a blank, or behind it. -/
lemma scan_blank_eq_none_iff (hc : isBlank c = true) (a b : List Char) :
    scan (a ++ c :: b) = none ↔ scan a = none ∧ scan b = none := by
  have hslash : c ≠ '\\' := by
    rintro rfl
    exact absurd hc (by decide)
  have hquote : c ≠ '"' := by
    rintro rfl
    exact absurd hc (by decide)
  cases ha : scan a with
  | none => rw [scan_append_cons hslash hquote ha, Option.map_eq_none_iff, eq_self, true_and]
  | some p =>
      rw [scan_append_of_some ha]
      simp

/-- **Whether a docstring ends within a text is decided word by word.** -/
lemma scan_eq_none_iff (cs : List Char) : scan cs = none ↔ ∀ word ∈ words cs, scan word = none := by
  induction cs using words_induction with
  | last word hvisible =>
      by_cases hne : word = []
      · subst hne
        simp [scan]
      · rw [words_of_visible hne hvisible, List.forall_mem_singleton]
  | next word c rest hvisible hc ih =>
      rw [scan_blank_eq_none_iff hc, words_append_cons hc, List.forall_mem_append, ih]
      by_cases hne : word = []
      · subst hne
        simp [scan]
      · rw [words_of_visible hne hvisible, List.forall_mem_singleton]

/-- Filling a text does not change whether a docstring ends within it. -/
lemma scan_wrapText_eq_none_iff (fits : ℕ → Bool) (cs : List Char) :
    scan (wrapText fits cs) = none ↔ scan cs = none := by
  rw [scan_eq_none_iff, words_wrapText, ← scan_eq_none_iff]

end Blockscribe.Text.Doc
